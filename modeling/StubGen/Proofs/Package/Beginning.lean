import StubGen.Proofs.Package.Names
import StubGen.Proofs.Package.Regeneration

/-!
# What a package begins with

A package that is begun has its own files, and the aggregators of its sections with nothing but
their preambles: whatever a former run has left in the sections is gone. That is `begin_eq_bare`,
and what stubs leave in the package from there on is all that is in it.
-/

namespace StubGen

open Disk (Place Node IsPlain)
open Disk.Path (join)

namespace PackageWriter

open Transaction

variable {w : PackageWriter} {root place : Place} {top : Option String} {disk after : Disk}
  {t t' : Transaction} {tree : Disk.Tree} {node : Node} {name : String}

/-- Nothing at the top of a package is an aggregator of a section. -/
theorem aggregatorIn_ne_top (root : Place) (sec : Section) (namespaces : List String)
    (name : String) : aggregatorIn root sec namespaces ≠ root ++ [name] := by
  intro hsame
  have hlength := congrArg List.length hsame
  simp only [aggregatorIn, placeIn, List.length_append, List.length_cons, List.length_nil]
    at hlength
  omega

theorem Bare.put (h : Bare w root tree) (name : String) (node : Node) :
    Bare w root (tree.put (root ++ [name]) node) := by
  intro sec namespaces
  rw [Disk.Tree.text?_put_of_ne (aggregatorIn_ne_top root sec namespaces name)]
  exact h sec namespaces

/-- A disk on which a package is being started: its aggregators have nothing but their preambles,
and at its top is a module, if it has been written. -/
structure Starting (w : PackageWriter) (root : Place) (top : Option String) (disk : Disk) :
    Prop where
  candid : disk.Candid
  reached : disk.Reaches w.root root
  bare : Bare w root disk.tree
  top : ∀ content ∈ top, disk.tree.text? (root ++ [aggregatorName]) = some content

theorem Starting.becomes (h : Starting w root top disk) (hb : disk.Becomes disk.tree after) :
    Starting w root top after := by
  refine ⟨hb.candid h.candid, hb.onward.reaches _ _ h.reached, ?_, ?_⟩
  · rw [hb.tree_eq]
    exact h.bare
  · rw [hb.tree_eq]
    exact h.top

/-- One of the package's own files is written; the top module is what that is. -/
theorem Starting.writeOwnFile {file : PackageFile} (h : Starting w root top t.disk)
    (hn : IsPlain file.path) (hrun : w.writeOwnFile file t = (.ok (), t')) :
    Starting w root (if file.path = aggregatorName then some file.content else top) t'.disk := by
  obtain ⟨hfree, hb⟩ := writeOwnFile_eq_ok h.reached hn hrun
  have honward := hb.onward_put hfree
  refine ⟨honward.candid h.candid, honward.reaches _ _ h.reached, ?_, fun content hm => ?_⟩
  · rw [hb.tree_eq]
    exact h.bare.put _ _
  · rw [hb.tree_eq]
    split at hm
    · rename_i hname
      rw [hname, ← Option.some.inj hm]
      exact Disk.Tree.text?_put_self (by simp)
    · rename_i hname
      rw [Disk.Tree.text?_put_of_ne fun hsame => hname (by simpa using hsame.symm)]
      exact h.top content hm

/-- A section gets its aggregator. -/
theorem Starting.ensureAggregator {sec : Section} {aggregator : String}
    (h : Starting w root top t.disk)
    (hrun : w.ensureAggregator (join w.root sec.directory) sec t = (.ok aggregator, t')) :
    Starting w root top t'.disk := by
  obtain ⟨-, honward, -, -, htexts⟩ :=
    ensured_of_ensureAggregator (isPlain_directory sec) h.reached hrun
  refine ⟨honward.candid h.candid, honward.reaches _ _ h.reached, fun other namespaces => ?_,
    fun content hm => ?_⟩
  -- a new aggregator has nothing but its preamble, which is as bare as none at all
  · by_cases hsame : other = sec ∧ namespaces = []
    · obtain ⟨rfl, rfl⟩ := hsame
      have hmade := htexts.getD_eq (q := aggregatorIn root other [])
      exact hmade.trans (h.bare other [])
    · have hother : aggregatorIn root other namespaces ≠
          root ++ [sec.directory] ++ [aggregatorName] := by
        have hhere : root ++ [sec.directory] ++ [aggregatorName] = aggregatorIn root sec [] := rfl
        rw [hhere, ne_eq, aggregatorIn_inj]
        exact hsame
      rw [htexts.text?_of_ne hother]
      exact h.bare other namespaces
  · have htop : root ++ [aggregatorName] ≠ root ++ [sec.directory] ++ [aggregatorName] :=
      (aggregatorIn_ne_top root sec [] aggregatorName).symm
    rw [htexts.text?_of_ne htop]
    exact h.top content hm

/-- **A package that is started** has its top module, and aggregators with nothing but their
preambles. -/
theorem init_eq_ok {renderer : Renderer} {baseUrl : String} (h : Ready w root disk)
    (hbare : Bare w root disk.tree)
    (hrun : w.init (renderer.packageFiles baseUrl) disk = (.ok (), after)) :
    ∃ file ∈ renderer.packageFiles baseUrl, file.path = aggregatorName ∧
      Starting w root (some file.content) after := by
  obtain ⟨t, hsteps, rfl⟩ := run_of_atomically hrun
  obtain ⟨_, made, hmake, hrest⟩ := Result.run_bind_eq_ok hsteps
  obtain ⟨_, filled, hfill, hsections⟩ := Result.run_bind_eq_ok hrest
  have hstart : Starting w root none disk := ⟨h.candid, h.reached, hbare, nofun⟩
  have hmade := hstart.becomes (createDirectories_of_reaches (.inr ⟨root, h.reached⟩) hmake)
  -- the top module is written first, and nothing takes its place
  obtain ⟨file, files, hfiles, htop, hothers⟩ : ∃ file files,
      renderer.packageFiles baseUrl = file :: files ∧ file.path = aggregatorName ∧
        ∀ other ∈ files, other.path ≠ aggregatorName := by
    refine ⟨_, _, rfl, rfl, fun other hm => ?_⟩
    have hruntime : "runtime.py" ≠ aggregatorName := by decide
    rwa [List.mem_singleton.mp hm]
  have hplain : ∀ other ∈ file :: files, IsPlain other.path := fun other hm =>
    isPlain_of_mem_packageFiles (hfiles ▸ hm)
  rw [hfiles] at hfill
  obtain ⟨_, written, hwrite, hothersWritten⟩ := Result.run_bind_eq_ok hfill
  have hwritten := hmade.writeOwnFile (hplain file List.mem_cons_self) hwrite
  rw [if_pos htop] at hwritten
  have hfilled : Starting w root (some file.content) filled.disk :=
    Result.forM_keeps (P := fun t => Starting w root (some file.content) t.disk)
      (fun other hm _ _ hkept hown => by
        have hkept' := hkept.writeOwnFile (hplain other (List.mem_cons_of_mem _ hm)) hown
        rwa [if_neg (hothers other hm)] at hkept') hwritten hothersWritten
  refine ⟨file, hfiles ▸ List.mem_cons_self, htop,
    Result.forM_keeps (P := fun t => Starting w root (some file.content) t.disk)
      (fun sec _ t t' hkept hsec => ?_) hfilled hsections⟩
  obtain ⟨_, ensured, hensure, hend⟩ := Result.run_bind_eq_ok hsec
  rw [← (Result.run_pure_eq_ok hend).2]
  exact hkept.ensureAggregator hensure

end PackageWriter

namespace Generator

open PackageWriter (Ready Bare Starting aggregatorIn)

variable {g : Generator} {path : String} {root : Place} {start disk begun : Disk}

/-- **A package that is begun** has its top module, and aggregators with nothing but their
preambles, whatever a former run has left. -/
theorem begin_eq_bare (hv : Vacant start path root) (hg : g.root = path)
    (h : Confined root start disk) (hc : disk.Candid) {baseUrl : String} {specs : List Spec}
    (hrun : g.begin baseUrl specs disk = (.ok (), begun)) :
    Ready g.writer root begun ∧ Bare g.writer root begun.tree ∧
      ∃ file ∈ g.renderer.packageFiles baseUrl, file.path = aggregatorName ∧
        begun.tree.text? (root ++ [aggregatorName]) = some file.content := by
  have hw : g.writer.root = path := hg
  subst hw
  have hbegun := confined_begin hv hg baseUrl specs h
  rw [hrun] at hbegun
  obtain ⟨-, cleared, started, hremoves, hgone, hinit, hwrite⟩ := begin_eq_ok hv hg h hrun
  have hready : Ready g.writer root cleared :=
    ⟨hremoves.confined.wellFormed, by unfold Disk.Candid; rw [hremoves.refusals]; exact hc,
      hremoves.confined.reaches hv⟩
  have hcleared : Bare g.writer root cleared.tree := by
    intro sec namespaces
    have howned : IsOwned root (aggregatorIn root sec namespaces) :=
      .inr ⟨sec, namespaces ++ [aggregatorName], by
        simp [aggregatorIn, PackageWriter.placeIn]⟩
    rw [Disk.Tree.text?_of_get? (hgone _ howned
      (PackageWriter.aggregatorIn_ne_top root sec namespaces _))]
    rfl
  obtain ⟨file, hm, hname, hstarted⟩ := PackageWriter.init_eq_ok hready hcleared hinit
  -- the specs are stored beside the package
  rcases SpecCache.write_cases hstarted.reached specs with ⟨e, herror⟩ | ⟨-, -, hstored⟩
  · rw [hwrite] at herror
    exact absurd (Prod.mk.inj herror).1 (by simp)
  obtain rfl := (Prod.mk.inj (hwrite.symm.trans hstored)).2
  refine ⟨⟨hbegun.wellFormed, hstarted.candid, hbegun.reaches hv⟩,
    hstarted.bare.put _ _, file, hm, hname, ?_⟩
  have hother : root ++ [aggregatorName] ≠ root ++ [SpecCache.fileName] := by
    rw [ne_eq, List.append_cancel_left_eq]
    decide
  exact (Disk.Tree.text?_put_of_ne hother).trans (hstarted.top _ rfl)

end Generator

end StubGen
