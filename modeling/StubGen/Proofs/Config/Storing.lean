import StubGen.Config.Context
import StubGen.Proofs.Config.File
import StubGen.Proofs.Disk.Walk

/-!
# Settings that are stored come back

A file that has been written is there and holds what was written into it. A settings file comes back
from its text, and settings come back from their file, since every setting that a file may leave
out is unset by default: so settings that have been stored are the ones that are loaded, but for
what the environment overrides (`load_of_save`).
-/

namespace StubGen

namespace Disk

variable {disk after : Disk} {path content : String}

/-- A file is written at the place that the path names. -/
theorem writeFile_eq_ok (h : disk.writeFile path content = .ok after) :
    ∃ place, disk.place? path = .ok (some place) ∧ Path.saysDirectory path = false ∧
      disk.tree.get? place ≠ some .directory ∧
      after = disk.withTree (disk.tree.put place (.file content)) := by
  unfold writeFile at h
  obtain ⟨found, he, h⟩ := Result.bind_eq_ok_iff.mp h
  cases found with
  | none => exact absurd h Result.throw_ne_ok
  | some place =>
      refine ⟨place, he, ?_⟩
      cases hs : Path.saysDirectory path with
      | true =>
          rw [hs] at h
          exact absurd h Result.throw_ne_ok
      | false =>
          simp only [hs, Bool.false_eq_true, if_false] at h
          split at h
          · exact absurd h Result.throw_ne_ok
          · rename_i hfree
            exact ⟨rfl, hfree, (Result.pure_eq_ok_iff.mp h).symm⟩

/-- A file that has been written is there. -/
theorem find_of_writeFile (h : disk.writeFile path content = .ok after) :
    after.find path = .ok (some (.file content)) := by
  obtain ⟨place, hplace, hs, hfree, rfl⟩ := writeFile_eq_ok h
  -- a file is put where no directory is, so that the path still leads there
  have hthere : (disk.withTree (disk.tree.put place (.file content))).place? path =
      .ok (some place) := place?_mono (Tree.keepsDirectories_put hfree) hplace
  rw [find_of_place? hthere, withTree, Tree.get?_put_self (ne_nil_of_place? hplace)]
  simp [hs]

theorem isThere_of_writeFile (h : disk.writeFile path content = .ok after) :
    after.isThere path = true := by
  rw [isThere, find_of_writeFile h]

theorem read_of_writeFile (h : disk.writeFile path content = .ok after) :
    after.read path = .ok content := by
  rw [read, find_of_writeFile h]
  rfl

end Disk

namespace Config

/-- Settings come back from their file. -/
theorem applyFile_toFile (config : Config) : initial.applyFile config.toFile = config := by
  simp [applyFile, toFile, initial]

/-- What valid settings are. -/
theorem validate_eq_ok_iff {config : Config} :
    config.validate = .ok () ↔ (∀ url ∈ config.baseUrl, config.accepts url = true) ∧
      isPackageName config.packageName = true := by
  unfold validate
  split
  · rename_i url hrefused
    obtain ⟨hurl, hrefused⟩ := Option.filter_eq_some_iff.mp hrefused
    refine ⟨fun h => (nomatch h), fun ⟨haccepts, _⟩ => ?_⟩
    rw [haccepts url hurl] at hrefused
    exact absurd hrefused (by decide)
  · rename_i hnone
    have haccepts : ∀ url ∈ config.baseUrl, config.accepts url = true := fun url hurl => by
      simpa using Option.filter_eq_none_iff.mp hnone url hurl
    by_cases hpackage : isPackageName config.packageName = true
    · exact ⟨fun _ => ⟨haccepts, hpackage⟩, fun _ => if_pos hpackage⟩
    · rw [if_neg hpackage]
      exact ⟨fun h => (nomatch h), fun h => absurd h.2 hpackage⟩

end Config

namespace ConfigContext

variable {context : ConfigContext} {disk after : Disk}

/-- What is stored is the text of the settings, at the path of the settings. -/
theorem save_eq_ok (h : context.save disk = (.ok (), after)) :
    ∃ path between, context.path = some path ∧
      Disk.writeFile between path context.config.toFile.render = .ok after := by
  unfold save at h
  cases hpath : context.path with
  | none =>
      simp only [hpath] at h
      exact nomatch (Prod.mk.inj h).1
  | some path =>
      simp only [hpath] at h
      obtain ⟨_, between, -, h⟩ := Result.run_bind_eq_ok h
      rw [Result.run_get_bind] at h
      refine ⟨path, between, rfl, ?_⟩
      cases hwritten : between.writeFile path context.config.toFile.render with
      | error cause =>
          rw [hwritten] at h
          exact nomatch (Prod.mk.inj h).1
      | ok written =>
          rw [hwritten] at h
          exact congrArg Except.ok (Prod.mk.inj h).2

/-- **Settings that have been stored are the ones that are loaded,** but for what the environment
overrides. -/
theorem load_of_save (h : context.save disk = (.ok (), after))
    (environment : String → Option String) :
    load context.path environment after =
      .ok { context with config := context.config.applyEnvironment environment } := by
  obtain ⟨path, between, hpath, hwritten⟩ := save_eq_ok h
  have hfile : readFile path after = .ok (some context.config.toFile) := by
    rw [readFile, Disk.isThere_of_writeFile hwritten, Disk.read_of_writeFile hwritten]
    simp [ConfigFile.parse?_render]
  unfold load
  simp only [hpath, hfile, Result.ok_bind, Config.applyFile_toFile]
  rfl

end ConfigContext

end StubGen
