import StubGen.Proofs.Package.Confinement

/-!
# A package that is cleared is gone

Removing a package takes away whatever it may have, except for the specs beside it, if the paths of
its sections and of its own files can be used: `removeOldLibrary_clears`. They can where a package
has been started, since paths of those sections and files have been used then: `init_usable`.
-/

namespace StubGen

open Disk (Place Node IsPlain checkPath)
open Disk.Path (join)

variable {path directory name : String} {root place : Place} {start disk : Disk}

/-! ## Paths that can be used -/

namespace Disk

theorem removeAll_of_find {node : Node} (h : disk.find path = .ok (some node)) :
    ∃ after, disk.removeAll path = .ok after := by
  unfold find at h
  unfold removeAll
  cases hw : disk.walk path with
  | error cause =>
      rw [hw] at h
      exact absurd h nofun
  | ok found => exact ⟨_, rfl⟩

end Disk

namespace PackageWriter

open Transaction

/-- The paths of what a package has at its top can be used. -/
structure Usable (path : String) : Prop where
  sections : ∀ sec : Section, checkPath (join path sec.directory) = .ok ()
  files : ∀ name ∈ rootFiles, checkPath (join path name) = .ok ()

theorem checkPath_of_ensureAggregator {w : PackageWriter} {sec : Section} {aggregator : String}
    {t after : Transaction} (h : w.ensureAggregator directory sec t = (.ok aggregator, after)) :
    checkPath (join directory aggregatorName) = .ok () := by
  obtain ⟨_, made, -, h⟩ := Result.run_bind_eq_ok h
  rw [Result.run_get_bind] at h
  split at h
  · obtain ⟨_, written, hwrite, -⟩ := Result.run_bind_eq_ok h
    obtain ⟨place, hw, -⟩ := writeFile_eq_ok hwrite
    exact Disk.checkPath_of_place? hw.entry
  · rename_i hthere
    exact Disk.checkPath_of_isThere (by simpa using hthere)

theorem checkPath_of_writeOwnFile {w : PackageWriter} {file : PackageFile}
    {t after : Transaction} (h : w.writeOwnFile file t = (.ok (), after)) :
    checkPath (join w.root file.path) = .ok () := by
  obtain ⟨made, hwrite, -⟩ := exists_writeFile_of_writeOwnFile h
  obtain ⟨place, hw, -⟩ := writeFile_eq_ok hwrite
  exact Disk.checkPath_of_place? hw.entry

/-- Where a package has been started its paths can be used. -/
theorem init_usable {w : PackageWriter} {files : List PackageFile} {after : Disk}
    (hfiles : ∀ name ∈ rootFiles, ∃ file ∈ files, file.path = name)
    (h : w.init files disk = (.ok (), after)) : Usable w.root := by
  obtain ⟨t, hsteps, -⟩ := run_of_atomically h
  obtain ⟨_, made, -, hsteps⟩ := Result.run_bind_eq_ok hsteps
  obtain ⟨_, filled, hfill, hsections⟩ := Result.run_bind_eq_ok hsteps
  refine ⟨fun sec => ?_, fun name hm => ?_⟩
  · have hm : sec ∈ Section.all := by cases sec <;> decide
    obtain ⟨s, s', hsec⟩ := Result.forM_ok_of_mem hsections hm
    obtain ⟨aggregator, ensured, hensure, -⟩ := Result.run_bind_eq_ok hsec
    exact Disk.checkPath_of_join isPlain_aggregatorName
      (Disk.Path.join_ne_empty (isPlain_directory sec) w.root)
      (checkPath_of_ensureAggregator hensure)
  · obtain ⟨file, hf, rfl⟩ := hfiles name hm
    obtain ⟨s, s', hown⟩ := Result.forM_ok_of_mem hfill hf
    exact checkPath_of_writeOwnFile hown

/-! ## Removing what there is -/

/-- What one removal comes to: it keeps what belongs to the package where it belongs, and brings
nothing new. -/
structure Removes (root : Place) (start disk after : Disk) : Prop where
  confined : Confined root start after
  refusals : after.refusals = disk.refusals
  nothingNew : ∀ q, disk.tree.get? q = none → after.tree.get? q = none

theorem Removes.trans {between after : Disk} (h : Removes root start disk between)
    (h' : Removes root start between after) : Removes root start disk after :=
  ⟨h'.confined, h'.refusals.trans h.refusals, fun q hnone => h'.nothingNew q (h.nothingNew q hnone)⟩

theorem Removes.nothing (h : Confined root start disk) : Removes root start disk disk :=
  ⟨h, rfl, fun _ hnone => hnone⟩

section

variable (hv : Vacant start path root) (h : Confined root start disk) (hu : Usable path)

include hv h hu

/-- A section is removed with all that is in it. -/
theorem removeSection (sec : Section) : ∃ count after,
    removeIf (disk.isDirectory (join path sec.directory)) (join path sec.directory)
      (disk.removeAll (join path sec.directory)) disk = (.ok count, after) ∧
    Removes root start disk after ∧
    ∀ below, after.tree.get? (root ++ sec.directory :: below) = none := by
  have hlen : sec.directory.utf8ByteSize ≤ Disk.Tree.nameLimit := by cases sec <;> decide
  have hplain := isPlain_directory sec
  have hr := h.reaches hv
  have hfind := Disk.find_of_place?
    (Disk.place?_join_of_checkPath hr hplain hlen (hu.sections sec))
  unfold Disk.isDirectory
  rw [hfind]
  cases hg : disk.tree.get? (root ++ [sec.directory]) with
  | none =>
      refine ⟨0, disk, rfl, .nothing h, fun below => ?_⟩
      cases below with
      | nil => exact hg
      | cons name below =>
          -- what is below a directory that is not there is not there either
          by_cases hnone : disk.tree.get? (root ++ sec.directory :: name :: below) = none
          · exact hnone
          · have hd := @Disk.Tree.WellFormed.directory_of_prefix disk.tree
              (root ++ [sec.directory]) h.wellFormed (name :: below) (by simp)
              (by simpa using Option.ne_none_iff_isSome.mp hnone)
            rw [hg] at hd
            exact absurd hd nofun
  | some node =>
      cases node with
      | file content => exact absurd hg (h.sections sec content)
      | directory =>
          rw [hg] at hfind
          -- a directory is removed with all that is below it, and with nothing else
          obtain ⟨after, hremoved⟩ := Disk.removeAll_of_find hfind
          obtain rfl := Disk.removeAll_eq_ok hremoved
          rw [hremoved, Disk.placeOf_join hplain hr]
          have hne : root ++ [sec.directory] ≠ [] := by simp
          refine ⟨1, _, rfl, ⟨h.eraseSection sec, rfl, fun q hnone => ?_⟩, fun below => ?_⟩
          · show (disk.tree.eraseBelow _).get? q = none
            rw [Disk.Tree.get?_eraseBelow hne, hnone, ite_self]
          · show (disk.tree.eraseBelow _).get? _ = none
            rw [Disk.Tree.get?_eraseBelow hne, if_pos ⟨below, by simp⟩]

/-- One of the package's own files is removed. -/
theorem removeOwnFile {name : String} (hm : name ∈ rootFiles) : ∃ count after,
    removeIf (disk.isFile (join path name)) (join path name) (disk.removeFile (join path name))
      disk = (.ok count, after) ∧
    Removes root start disk after ∧ after.tree.get? (root ++ [name]) = none := by
  have hlen : name.utf8ByteSize ≤ Disk.Tree.nameLimit := by
    rcases List.mem_cons.mp hm with rfl | hm
    · decide
    · rw [List.mem_singleton.mp hm]
      decide
  have hplain := isPlain_of_mem_rootFiles hm
  have he := Disk.place?_join_of_checkPath (h.reaches hv) hplain hlen (hu.files name hm)
  have hs := Disk.Path.saysDirectory_join hplain path
  have hfind := Disk.find_of_place? he
  unfold Disk.isFile
  rw [hfind]
  cases hg : disk.tree.get? (root ++ [name]) with
  | none => exact ⟨0, disk, rfl, .nothing h, hg⟩
  | some node =>
      cases node with
      | directory => exact absurd hg (h.files name (List.mem_cons_of_mem _ hm))
      | file content =>
          rw [Disk.removeFile_of_place? he hg hs]
          dsimp only
          rw [hs]
          refine ⟨1, _, rfl, ⟨h.eraseFile (List.mem_cons_of_mem _ hm) hg, rfl, fun q hnone => ?_⟩,
            Disk.Tree.get?_erase_self (by simp)⟩
          by_cases hq : q = root ++ [name]
          · rw [hq]
            exact Disk.Tree.get?_erase_self (by simp)
          · exact (Disk.Tree.get?_erase_of_ne hq).trans hnone

theorem removeSections : ∃ counts after,
    (Section.all.mapM fun sec => do
      let path := join path sec.directory
      let disk ← get
      removeIf (disk.isDirectory path) path (disk.removeAll path) : OnDisk (List Nat)) disk =
        (.ok counts, after) ∧
    Removes root start disk after ∧
    ∀ (sec : Section) (below : Place), after.tree.get? (root ++ sec.directory :: below) = none := by
  obtain ⟨counts, after, hrun, hremoves, hgone, -⟩ := Result.mapM_achieves
    (Removes root start disk)
    (fun (sec : Section) after => ∀ below, after.tree.get? (root ++ sec.directory :: below) = none)
    (fun sec _ s hs => by
      obtain ⟨count, after, hrun, hremoves, hnone⟩ := removeSection hv hs.confined hu sec
      exact ⟨count, after, hrun, hs.trans hremoves, hnone,
        fun other hother below => hremoves.nothingNew _ (hother below)⟩)
    (.nothing h)
  exact ⟨counts, after, hrun, hremoves, fun sec => hgone sec (by cases sec <;> decide)⟩

theorem removeOwnFiles : ∃ counts after,
    (rootFiles.mapM fun name => do
      let path := join path name
      let disk ← get
      removeIf (disk.isFile path) path (disk.removeFile path) : OnDisk (List Nat)) disk =
        (.ok counts, after) ∧
    Removes root start disk after ∧
      ∀ name ∈ rootFiles, after.tree.get? (root ++ [name]) = none := by
  obtain ⟨counts, after, hrun, hremoves, hgone, -⟩ := Result.mapM_achieves
    (Removes root start disk) (fun name after => after.tree.get? (root ++ [name]) = none)
    (fun name hm s hs => by
      obtain ⟨count, after, hrun, hremoves, hnone⟩ := removeOwnFile hv hs.confined hu hm
      exact ⟨count, after, hrun, hs.trans hremoves, hnone,
        fun other hother => hremoves.nothingNew _ hother⟩)
    (.nothing h)
  exact ⟨counts, after, hrun, hremoves, hgone⟩

end

/-- **A package that is removed is gone,** the specs beside it aside. -/
theorem removeOldLibrary_clears (hv : Vacant start path root) (h : Confined root start disk)
    (hu : Usable path) {w : PackageWriter} (hw : w.root = path) : ∃ count after,
    w.removeOldLibrary disk = (.ok count, after) ∧ Removes root start disk after ∧
      ∀ q, IsOwned root q → q ≠ root ++ [SpecCache.fileName] → after.tree.get? q = none := by
  subst hw
  obtain ⟨sections, between, hsections, hbetween, hgone⟩ := removeSections hv h hu
  obtain ⟨files, after, hfiles, hafter, hfilesGone⟩ := removeOwnFiles hv hbetween.confined hu
  refine ⟨(sections ++ files).foldl (· + ·) 0, after, ?_, hbetween.trans hafter,
    fun q ho hq => ?_⟩
  · unfold removeOldLibrary
    rw [Result.run_bind, hsections]
    dsimp only
    rw [Result.run_bind, hfiles]
    rfl
  · rcases ho with ⟨name, hm, rfl⟩ | ⟨sec, below, rfl⟩
    · rcases List.mem_cons.mp hm with rfl | hm
      · exact absurd rfl hq
      · exact hfilesGone name hm
    · exact hafter.nothingNew _ (hgone sec below)

end PackageWriter

end StubGen
