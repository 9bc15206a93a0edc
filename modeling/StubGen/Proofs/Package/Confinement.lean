import StubGen.Package.Generation
import StubGen.Proofs.Package.Footprint

/-!
# A package stays in its place

Runs that begin with an empty directory only ever touch the places of a package in it: its own
files, the specs beside them, and what is in a section. All else is what it was, and the sections
are directories where they are there, the files files: `Confined`. Every step of a transaction
keeps this, and so do removing the package, storing the specs, and a whole run, however it ends:
`Confined.generate`.
-/

namespace StubGen

open Disk (Place Node IsPlain)
open Disk.Path (join Extends)
open PackageWriter (DirectoryOf FileOf)

variable {path : String} {root place : Place} {start disk : Disk} {tree : Disk.Tree}

/-! ## The places of a package -/

/-- The names of the files at the top of a package, the specs among them. -/
def topFiles : List String := SpecCache.fileName :: rootFiles

/-- The places of a package: the files at its top, and all that is in a section. -/
def IsOwned (root place : Place) : Prop :=
  (∃ name ∈ topFiles, place = root ++ [name]) ∨
    ∃ (sec : Section) (below : Place), place = root ++ sec.directory :: below

theorem IsOwned.inside (h : IsOwned root place) : root <+: place ∧ place ≠ root := by
  rcases h with ⟨name, -, rfl⟩ | ⟨sec, below, rfl⟩
  · exact ⟨List.prefix_append _ _, by simp⟩
  · exact ⟨List.prefix_append _ _, by simp⟩

theorem directory_not_mem_topFiles (sec : Section) : sec.directory ∉ topFiles := by
  cases sec <;> decide

theorem isPlain_fileName : IsPlain SpecCache.fileName :=
  ⟨by decide, by decide, by decide, by decide⟩

/-- A path leads to an empty directory. -/
structure Vacant (disk : Disk) (path : String) (root : Place) : Prop where
  wellFormed : disk.tree.WellFormed
  reached : disk.Reaches path root
  empty : disk.tree.hasChildren root = false

theorem Vacant.get?_eq_none (h : Vacant start path root) (ho : IsOwned root place) :
    start.tree.get? place = none := by
  obtain ⟨hin, hne⟩ := ho.inside
  cases hg : start.tree.get? place with
  | none => rfl
  | some node =>
      have hchild := Disk.Tree.hasChildren_of_get? hin hne (by rw [hg]; rfl)
      rw [h.empty] at hchild
      exact Bool.noConfusion hchild

/-- A disk that differs from another one by what a package in a directory may have. -/
structure Confined (root : Place) (start disk : Disk) : Prop where
  workingDirectory : disk.workingDirectory = start.workingDirectory
  wellFormed : disk.tree.WellFormed
  outside : ∀ place, ¬ IsOwned root place → disk.tree.get? place = start.tree.get? place
  files : ∀ name ∈ topFiles, disk.tree.get? (root ++ [name]) ≠ some .directory
  sections : ∀ (sec : Section) content,
    disk.tree.get? (root ++ [sec.directory]) ≠ some (.file content)

theorem Vacant.confined (h : Vacant start path root) : Confined root start start where
  workingDirectory := rfl
  wellFormed := h.wellFormed
  outside _ _ := rfl
  files name hm := by simp [h.get?_eq_none (.inl ⟨name, hm, rfl⟩)]
  sections sec content := by simp [h.get?_eq_none (.inr ⟨sec, [], rfl⟩)]

namespace Confined

theorem turned (h : Confined root start disk) (refusals : List (Option IoCause)) :
    Confined root start (disk.turned disk.tree refusals) :=
  ⟨h.workingDirectory, h.wellFormed, h.outside, h.files, h.sections⟩

/-- The way to the package leads over what was there before. -/
theorem reaches (h : Confined root start disk) (hv : Vacant start path root) :
    disk.Reaches path root := by
  have hkeep : Disk.Tree.KeepsDirectories start.tree disk.tree := by
    intro place hd
    rw [h.outside place fun ho => ?_, hd]
    rw [hv.get?_eq_none ho] at hd
    exact absurd hd (by simp)
  have hr := hv.reached.mono hkeep
  unfold Disk.Reaches Disk.startOf at *
  rw [h.workingDirectory]
  exact hr

/-- What a package may have at a place: files where files belong, directories elsewhere. -/
theorem put {node : Node} (h : Confined root start disk) (ho : IsOwned root place)
    (hup : disk.tree.get? place.dropLast = some .directory)
    (hfree : disk.tree.get? place ≠ some .directory)
    (hfile : ∀ name ∈ topFiles, place = root ++ [name] → node ≠ .directory)
    (hsection : ∀ (sec : Section) content, place = root ++ [sec.directory] → node ≠ .file content) :
    Confined root start (disk.withTree (disk.tree.put place node)) := by
  have hne := Disk.Tree.ne_nil_of_get?_ne hfree
  refine ⟨h.workingDirectory, h.wellFormed.put hup hfree, fun other hother => ?_,
    fun name hm => ?_, fun sec content => ?_⟩
  · have hdiffers : other ≠ place := fun heq => hother (heq ▸ ho)
    exact (Disk.Tree.get?_put_of_ne hdiffers).trans (h.outside other hother)
  · by_cases heq : root ++ [name] = place
    · rw [heq]
      exact fun hd => hfile name hm heq.symm
        (Option.some.inj ((Disk.Tree.get?_put_self hne).symm.trans hd))
    · exact fun hd => h.files name hm ((Disk.Tree.get?_put_of_ne heq).symm.trans hd)
  · by_cases heq : root ++ [sec.directory] = place
    · rw [heq]
      exact fun hd => hsection sec content heq.symm
        (Option.some.inj ((Disk.Tree.get?_put_self hne).symm.trans hd))
    · exact fun hd => h.sections sec content ((Disk.Tree.get?_put_of_ne heq).symm.trans hd)

theorem putFile {content : String} (h : Confined root start disk) (ho : IsOwned root place)
    (hup : disk.tree.get? place.dropLast = some .directory)
    (hfree : disk.tree.get? place ≠ some .directory)
    (hsection : ∀ sec : Section, place ≠ root ++ [sec.directory]) :
    Confined root start (disk.withTree (disk.tree.put place (.file content))) :=
  h.put ho hup hfree (fun _ _ _ => by simp) fun sec _ heq => absurd heq (hsection sec)

theorem putDirectory {sec : Section} {below : Place} (h : Confined root start disk)
    (hup : disk.tree.get? (root ++ sec.directory :: below).dropLast = some .directory)
    (hfree : disk.tree.get? (root ++ sec.directory :: below) ≠ some .directory) :
    Confined root start
      (disk.withTree (disk.tree.put (root ++ sec.directory :: below) .directory)) := by
  refine h.put (.inr ⟨sec, below, rfl⟩) hup hfree (fun name hm heq => ?_) fun _ _ _ => by simp
  obtain ⟨hname, -⟩ := List.cons.inj (List.append_cancel_left heq)
  exact absurd (hname ▸ hm) (directory_not_mem_topFiles sec)

/-- What a package has may go. -/
theorem remove (h : Confined root start disk) (hw : tree.WellFormed)
    (hget : ∀ q, tree.get? q = disk.tree.get? q ∨ IsOwned root q ∧ tree.get? q = none) :
    Confined root start (disk.withTree tree) := by
  refine ⟨h.workingDirectory, hw, fun place hp => ?_, fun name hm => ?_, fun sec content => ?_⟩
  · exact ((hget place).resolve_right fun hgone => hp hgone.1).trans (h.outside place hp)
  · show tree.get? _ ≠ _
    rcases hget (root ++ [name]) with heq | ⟨-, hnone⟩
    · rw [heq]
      exact h.files name hm
    · simp [hnone]
  · show tree.get? _ ≠ _
    rcases hget (root ++ [sec.directory]) with heq | ⟨-, hnone⟩
    · rw [heq]
      exact h.sections sec content
    · simp [hnone]

end Confined

/-! ## Steps of a transaction -/

namespace PackageWriter

open Transaction

/-- Steps that come to something leave a disk confined. -/
def KeepsConfined (root : Place) (start : Disk) {α : Type} (steps : Writing α) : Prop :=
  ∀ t a after, Confined root start t.disk → steps t = (.ok a, after) →
    Confined root start after.disk

/-- The place of a file of the package. -/
theorem place_of_fileOf {file : String} (hf : FileOf path file) (hr : disk.Reaches path root)
    (he : disk.place? file = .ok (some place)) :
    IsOwned root place ∧ ∀ sec : Section, place ≠ root ++ [sec.directory] := by
  obtain ⟨names, hextends, hnames⟩ := hf
  obtain rfl := (Disk.placeOf_of_place? he).symm.trans (hextends.placeOf_eq hnames.plain hr)
  rcases hnames with ⟨name, hm, rfl⟩ | ⟨front, name, ⟨sec, namespaces, rfl, -⟩, hn, rfl⟩
  · refine ⟨.inl ⟨name, List.mem_cons_of_mem _ hm, rfl⟩, fun sec heq => ?_⟩
    obtain ⟨rfl, -⟩ := List.cons.inj (List.append_cancel_left heq)
    exact directory_not_mem_topFiles sec (List.mem_cons_of_mem _ hm)
  · refine ⟨.inr ⟨sec, namespaces ++ [name], rfl⟩, fun other heq => ?_⟩
    have hlen := congrArg List.length heq
    simp at hlen

section

variable (hv : Vacant start path root)

include hv

/-- A directory that is made is one of a section: those around the package are there. -/
theorem keepsConfined_createDirectory {made : String} (hd : DirectoryOf path made)
    (hne : made ≠ "") : KeepsConfined root start (Transaction.createDirectory made) := by
  intro t a after hc h
  have hr := hc.reaches hv
  rcases createDirectory_eq_ok h with ⟨refusals, -, hafter⟩ | ⟨place, he, hg, refusals, -, hafter⟩
  · rw [hafter]
    exact hc.turned refusals
  · rw [hafter]
    cases hd with
    | here => exact absurd rfl hne
    | around habs hnames =>
        obtain ⟨found, hfound⟩ := hr.of_isOutside habs hnames
        rw [← Disk.placeOf_of_place? he, hfound.placeOf_eq, hfound.get?_eq] at hg
        exact absurd hg (by simp)
    | inside hextends hnames =>
        have hplace := hextends.placeOf_eq hnames.plain hr
        obtain ⟨sec, namespaces, rfl, -⟩ := hnames
        obtain rfl := (Disk.placeOf_of_place? he).symm.trans hplace
        exact (hc.putDirectory (Disk.get?_dropLast_of_place? he) (by simp [hg])).turned refusals

theorem staysIn_keepsConfined : StaysIn path fun {_} steps => KeepsConfined root start steps where
  ofPure a t b after hc h := (Result.run_pure_eq_ok h).2 ▸ hc
  ofThrow e t a after hc h := absurd (Prod.mk.inj h).1 nofun
  bind hsteps hnext t b after hc h := by
    obtain ⟨a, between, hrun, h⟩ := Result.run_bind_eq_ok h
    exact hnext a ⟨t, between, hrun⟩ between b after (hsteps t a between hc hrun) h
  whether _ hyes hno t a after hc h := by
    rw [Result.run_get_bind] at h
    split at h
    · exact hyes t a after hc h
    · exact hno t a after hc h
  createDirectories hd t _ after hc h := by
    unfold Transaction.createDirectories at h
    rw [Result.run_get_bind] at h
    refine Result.forM_keeps (P := fun t => Confined root start t.disk)
      (fun made hm t after hc h => ?_) hc h
    have hm := List.mem_reverse.mp hm
    have hne : made ≠ "" := by
      rintro rfl
      simpa using List.all_eq_true.mp List.all_takeWhile _ hm
    exact keepsConfined_createDirectory hv
      (hd.of_mem_ancestors ((List.takeWhile_sublist _).subset hm)) hne t _ after hc h
  readOrEmpty _ t content after hc h := by
    obtain ⟨found, between, hlook, h⟩ := Result.run_bind_eq_ok h
    obtain ⟨⟨refusals, -, hbetween⟩, -⟩ := look_eq_ok (fun _ => rfl) hlook
    -- reading changes no file, whether there is one to be read or not
    have hsame : between = after := by
      rcases found with cause | _
      · cases cause
        case notFound => exact (Result.run_pure_eq_ok h).2
        all_goals exact absurd (Prod.mk.inj h).1 nofun
      · exact (Result.run_pure_eq_ok h).2
    rw [← hsame, hbetween]
    exact hc.turned refusals
  writeFile content hf t _ after hc h := by
    obtain ⟨place, hw, refusals, -, hafter⟩ := writeFile_eq_ok h
    obtain ⟨ho, hsection⟩ := place_of_fileOf hf (hc.reaches hv) hw.entry
    rw [hafter]
    exact (hc.putFile ho (Disk.get?_dropLast_of_place? hw.entry) hw.free hsection).turned refusals

end

/-- A package that is begun, or fails to be. -/
theorem confined_init (hv : Vacant start path root) {w : PackageWriter} (hw : w.root = path)
    {files : List PackageFile} (hm : ∀ file ∈ files, file.path ∈ rootFiles)
    (h : Confined root start disk) : Confined root start (w.init files disk).2 := by
  subst hw
  rcases hrun : w.init files disk with ⟨e | _, after⟩
  · rw [show after = _ from untouched_of_atomically h.wellFormed (safe_initIn files) hrun]
    exact h.turned _
  · obtain ⟨t, hsteps, rfl⟩ := run_of_atomically hrun
    exact (staysIn_keepsConfined hv).initIn hm (.start disk) () t h hsteps

/-- A stub that is written, or fails to be. -/
theorem confined_write (hv : Vacant start path root) {w : PackageWriter} (hw : w.root = path)
    {stub : Stub} (hn : ∀ segment ∈ stub.path.segments, IsPlain segment)
    (h : Confined root start disk) : Confined root start (w.write stub disk).2 := by
  subst hw
  rcases hrun : w.write stub disk with ⟨e | _, after⟩
  · rw [show after = _ from untouched_of_write h.wellFormed hrun]
    exact h.turned _
  · unfold write at hrun
    split at hrun
    · exact absurd (Prod.mk.inj hrun).1 (by simp)
    · obtain ⟨t, hsteps, rfl⟩ := run_of_atomically hrun
      exact (staysIn_keepsConfined hv).writeIn hn (.start disk) () t h hsteps

/-! ## Removing a package -/

theorem confined_removeIf {isThere : Bool} {removed : Except IoCause Disk} {name : String}
    (h : Confined root start disk) (hr : ∀ after, removed = .ok after → Confined root start after) :
    Confined root start (removeIf isThere name removed disk).2 := by
  unfold removeIf
  split
  · cases removed with
    | error cause => exact h
    | ok after => exact hr after rfl
  · exact h

end PackageWriter

namespace Confined

theorem eraseSection (h : Confined root start disk) (sec : Section) :
    Confined root start (disk.withTree (disk.tree.eraseBelow (root ++ [sec.directory]))) := by
  have hne : root ++ [sec.directory] ≠ [] := by simp
  refine h.remove (h.wellFormed.eraseBelow hne) fun q => ?_
  rw [Disk.Tree.get?_eraseBelow hne]
  split
  · rename_i hbelow
    obtain ⟨below, rfl⟩ := hbelow
    exact .inr ⟨.inr ⟨sec, below, by simp⟩, rfl⟩
  · exact .inl rfl

theorem eraseFile {name content : String} (h : Confined root start disk) (hm : name ∈ topFiles)
    (hg : disk.tree.get? (root ++ [name]) = some (.file content)) :
    Confined root start (disk.withTree (disk.tree.erase (root ++ [name]))) := by
  refine h.remove (h.wellFormed.erase hg) fun q => ?_
  by_cases hq : q = root ++ [name]
  · subst hq
    exact .inr ⟨.inl ⟨name, hm, rfl⟩, Disk.Tree.get?_erase_self (by simp)⟩
  · exact .inl (Disk.Tree.get?_erase_of_ne hq)

theorem removeFile {name : String} {after : Disk} (hv : Vacant start path root)
    (h : Confined root start disk) (hm : name ∈ topFiles)
    (hrun : disk.removeFile (join path name) = .ok after) : Confined root start after := by
  have hn : IsPlain name := by
    rcases List.mem_cons.mp hm with rfl | hm
    · exact isPlain_fileName
    · exact PackageWriter.isPlain_of_mem_rootFiles hm
  obtain ⟨place, content, he, hg, -, rfl⟩ := Disk.removeFile_eq_ok hrun
  obtain rfl := Disk.place?_join hn (h.reaches hv) he
  exact h.eraseFile hm hg

theorem removeOldLibrary (hv : Vacant start path root) {w : PackageWriter} (hw : w.root = path)
    (h : Confined root start disk) : Confined root start (w.removeOldLibrary disk).2 := by
  subst hw
  refine Result.bind_leaves (P := Confined root start) ?_ fun sections between hbetween => ?_
  · refine Result.mapM_leaves (P := Confined root start) (fun sec _ disk h => ?_) h
    rw [Result.run_get_bind]
    refine PackageWriter.confined_removeIf h fun after hremoved => ?_
    rw [Disk.removeAll_eq_ok hremoved,
      Disk.placeOf_join (PackageWriter.isPlain_directory sec) (h.reaches hv)]
    exact h.eraseSection sec
  · refine Result.bind_leaves (P := Confined root start) ?_ fun files after hafter => hafter
    refine Result.mapM_leaves (P := Confined root start) (fun name hm disk h => ?_) hbetween
    rw [Result.run_get_bind]
    exact PackageWriter.confined_removeIf h fun after hremoved =>
      h.removeFile hv (List.mem_cons_of_mem _ hm) hremoved

end Confined

/-! ## The specs beside a package -/

namespace SpecCache

/-- The directory of the cache is there, so that none is made. -/
theorem createParent_eq (path : String) : ∃ result, ∀ (disk : Disk) (root : Place),
    disk.Reaches path root → (ofPackage path).createParent disk = (result, disk) := by
  unfold createParent
  cases hp : Disk.Path.parent? (ofPackage path).path with
  | none => exact ⟨.ok (), fun _ _ _ => rfl⟩
  | some parent =>
      by_cases hempty : parent = ""
      · subst hempty
        exact ⟨.ok (), fun _ _ _ => rfl⟩
      · refine ⟨(Disk.checkPath parent).mapError (.ofIo parent), fun disk root hr => ?_⟩
        obtain ⟨around, hreached⟩ :=
          (Disk.reaches_of_parent?_join isPlain_fileName hr hp).resolve_left hempty
        dsimp only
        rw [Result.run_get_bind, Disk.createDirectories_of_reaches hreached hempty]
        cases Disk.checkPath parent with
        | error cause => rfl
        | ok _ => rfl

/-- A file that is written unhindered can be written, and is all that has changed. -/
theorem writeAtomic_eq_ok {file content : String} {after : Disk}
    (h : disk.writeAtomic file content = .ok after) :
    ∃ place, Writes disk file place ∧
      after = disk.withTree (disk.tree.put place (.file content)) := by
  unfold Disk.writeAtomic OnDisk.unhindered at h
  rcases OnDisk.writeFile_cases file content { disk with refusals := [] } with
    ⟨e, rest, hw⟩ | ⟨place, rest, hw, hf⟩
  · rw [hw] at h
    exact absurd h (by simp)
  · rw [hf] at h
    exact ⟨place, ⟨hw.entry, hw.plain, hw.free, hw.staged⟩, (Except.ok.inj h).symm⟩

/-- The specs are stored in their place, or nothing has changed. -/
theorem write_cases (hr : disk.Reaches path root) (specs : List Spec) :
    (∃ e, (ofPackage path).write specs disk = (.error e, disk)) ∨
      ((ofPackage path).createParent disk = (.ok (), disk) ∧
        Writes disk (ofPackage path).path (root ++ [fileName]) ∧
        (ofPackage path).write specs disk = (.ok (),
          disk.withTree (disk.tree.put (root ++ [fileName]) (.file (render specs))))) := by
  obtain ⟨result, hparent⟩ := createParent_eq path
  unfold write
  rw [Result.run_bind, hparent disk root hr]
  cases result with
  | error e => exact .inl ⟨e, rfl⟩
  | ok _ =>
      dsimp only
      rw [Result.run_get_bind]
      cases hw : disk.writeAtomic (ofPackage path).path (render specs) with
      | error e => exact .inl ⟨e, rfl⟩
      | ok after =>
          obtain ⟨place, hwrites, rfl⟩ := writeAtomic_eq_ok hw
          obtain rfl := Disk.place?_join isPlain_fileName hr hwrites.entry
          exact .inr ⟨rfl, hwrites, rfl⟩

theorem write_of_writes (specs : List Spec)
    (hp : (ofPackage path).createParent disk = (.ok (), disk))
    (hw : Writes disk (ofPackage path).path place) :
    (ofPackage path).write specs disk =
      (.ok (), disk.withTree (disk.tree.put place (.file (render specs)))) := by
  unfold write
  rw [Result.run_bind, hp]
  dsimp only
  rw [Result.run_get_bind, Disk.writeAtomic_of_writes hw]
  rfl

theorem confined_write (hv : Vacant start path root) (h : Confined root start disk)
    (specs : List Spec) : Confined root start ((ofPackage path).write specs disk).2 := by
  rcases write_cases (h.reaches hv) specs with ⟨e, hrun⟩ | ⟨-, hw, hrun⟩
  · rwa [hrun]
  · rw [hrun]
    refine h.putFile (.inl ⟨fileName, List.mem_cons_self, rfl⟩)
      (Disk.get?_dropLast_of_place? hw.entry) hw.free fun sec heq => ?_
    obtain ⟨hname, -⟩ := List.cons.inj (List.append_cancel_left heq)
    exact directory_not_mem_topFiles sec (hname ▸ List.mem_cons_self)

theorem confined_remove (hv : Vacant start path root) (h : Confined root start disk) :
    Confined root start ((ofPackage path).remove disk).2 := by
  unfold remove
  rw [Result.run_get_bind]
  cases hrun : disk.removeFile (ofPackage path).path with
  | error cause => cases cause <;> exact h
  | ok after => exact h.removeFile hv List.mem_cons_self hrun

end SpecCache

/-! ## Whole runs -/

namespace Generator

variable {g : Generator}

theorem packageFiles_mem_rootFiles (r : Renderer) (baseUrl : String) :
    ∀ file ∈ r.packageFiles baseUrl, file.path ∈ rootFiles := by
  intro file hm
  rcases List.mem_cons.mp hm with rfl | hm
  · exact List.mem_cons_self
  · exact List.mem_singleton.mp hm ▸ List.mem_cons_of_mem _ List.mem_cons_self

/-- A step on the package changes what it changes, and fails where it fails. -/
theorem onPackage_eq {α : Type} (step : OnDisk α) (disk : Disk) :
    onPackage step disk = ((step disk).1.mapError PackageError.toError, (step disk).2) := rfl

section

variable (hv : Vacant start path root) (hg : g.root = path)

include hv hg

theorem confined_begin (baseUrl : String) (specs : List Spec) (h : Confined root start disk) :
    Confined root start (g.begin baseUrl specs disk).2 := by
  unfold begin
  refine Result.bind_leaves (P := Confined root start) (h.removeOldLibrary hv hg)
    fun _ cleared hcleared => ?_
  refine Result.bind_leaves (P := Confined root start) ?_ fun _ begun hbegun => ?_
  · exact PackageWriter.confined_init hv hg (packageFiles_mem_rootFiles _ _) hcleared
  · rw [hg]
    exact SpecCache.confined_write hv hbegun specs

theorem confined_attempt (spec : Spec) (h : Confined root start disk) :
    Confined root start (g.attempt spec disk).2 := by
  unfold attempt
  cases hrender : g.renderer.render spec with
  | error e => exact h
  | ok stub =>
      have hwritten := PackageWriter.confined_write hv (w := g.writer) hg
        (PackageWriter.plain_of_render hrender) h
      dsimp only
      split
      · exact h
      · split <;> rename_i hrun <;> rwa [hrun] at hwritten

theorem confined_attemptAll (specs : List Spec) (h : Confined root start disk) :
    Confined root start (g.attemptAll specs disk).2 := by
  induction specs generalizing disk with
  | nil => exact h
  | cons spec specs ih => exact ih (confined_attempt hv hg spec h)

theorem confined_batches (specs : List Spec) (sections : List Section)
    (h : Confined root start disk) : Confined root start (g.batches specs sections disk).2 := by
  induction sections generalizing disk with
  | nil => exact h
  | cons sec sections ih => exact ih (confined_attemptAll hv hg _ h)

/-- **A run touches nothing but the package,** however it ends. -/
theorem confined_generate (query : Query) (baseUrl source : String) (fetched : List Spec)
    (h : Confined root start disk) :
    Confined root start (g.generate query baseUrl source fetched disk).2 := by
  unfold generate
  dsimp only
  split
  · exact h
  · refine Result.bind_leaves (P := Confined root start) ?_ fun _ begun hbegun => ?_
    · rw [onPackage_eq]
      exact confined_begin hv hg baseUrl _ h
    · refine Result.bind_leaves (P := Confined root start) ?_ fun _ after hafter => hafter
      exact confined_batches hv hg _ _ hbegun

end

/-- Clearing touches nothing but the package. -/
theorem confined_clear (hv : Vacant start path root) (h : Confined root start disk) :
    Confined root start (clear path disk).2 := by
  unfold clear
  refine Result.bind_leaves (P := Confined root start) (h.removeOldLibrary hv rfl)
    fun _ cleared hcleared => ?_
  exact Result.bind_leaves (P := Confined root start) (SpecCache.confined_remove hv hcleared)
    fun _ after hafter => hafter

end Generator

end StubGen
