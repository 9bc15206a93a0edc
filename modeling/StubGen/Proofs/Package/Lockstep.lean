import StubGen.Proofs.Disk.Likeness
import StubGen.Proofs.Package.Footprint

/-!
# The same steps on disks that look alike

On two disks that are alike but for the specs beside a package, steps that stay in the package
go together: both come to the same and leave the disks alike, or both fail, with the same
refusals used up. Each of the basic steps of a writer does so, hence whatever is put together of
them: `staysIn_lockstep`. What differs is no more than the names of temporary files and the
reasons given where both fail.
-/

namespace StubGen

open Disk (Place Node IsPlain)
open Disk.Path (join Extends)
open PackageWriter (DirectoryOf FileOf InSection LeadsToFile)
open Result (Steps)

/-! ## Steps that go together -/

section

variable {σ ε α β : Type} {Both : α → σ → α → σ → Prop} {Neither : σ → σ → Prop}

/-- Two runs both come to something, or neither does. -/
inductive Together (Both : α → σ → α → σ → Prop) (Neither : σ → σ → Prop) :
    Except ε α × σ → Except ε α × σ → Prop where
  | both {a a' : α} {s s' : σ} : Both a s a' s' → Together Both Neither (.ok a, s) (.ok a', s')
  | neither {e e' : ε} {s s' : σ} : Neither s s' →
      Together Both Neither (.error e, s) (.error e', s')

namespace Together

theorem bind {Both' : β → σ → β → σ → Prop} {x x' : Steps σ ε α} {f f' : α → Steps σ ε β}
    {s s' : σ} (h : Together Both Neither (x s) (x' s'))
    (hf : ∀ a between a' between', x s = (.ok a, between) → Both a between a' between' →
      Together Both' Neither (f a between) (f' a' between')) :
    Together Both' Neither ((x >>= f) s) ((x' >>= f') s') := by
  rw [Result.run_bind, Result.run_bind]
  generalize hx : x s = run, x' s' = run' at h
  cases h with
  | both h => exact hf _ _ _ _ hx h
  | neither h => exact .neither h

theorem tryCatch {x x' : Steps σ ε α} {handle handle' : ε → Steps σ ε α} {s s' : σ}
    (h : Together Both Neither (x s) (x' s'))
    (hh : ∀ e between e' between', Neither between between' →
      Together Both Neither (handle e between) (handle' e' between')) :
    Together Both Neither ((tryCatch x handle : Steps σ ε α) s)
      ((tryCatch x' handle' : Steps σ ε α) s') := by
  rw [Result.run_tryCatch, Result.run_tryCatch]
  generalize x s = run, x' s' = run' at h
  cases h with
  | both h => exact .both h
  | neither h => exact hh _ _ _ _ h

end Together

end

variable {hidden : Place → Prop} {disk disk' : Disk} {path file content : String}
  {root place : Place} {names : List String} {t t' : Transaction} {α : Type}

/-- Two disks on which the same is refused from outside. -/
def SameRefusals (disk disk' : Disk) : Prop := disk.refusals = disk'.refusals

theorem Disk.Alike.turned (h : disk.Alike hidden disk') :
    (disk.turned disk.tree disk.refusals.tail).Alike hidden
      (disk'.turned disk'.tree disk'.refusals.tail) :=
  ⟨h.tree, h.workingDirectory, congrArg List.tail h.refusals⟩

theorem Disk.Alike.temporaryPath_eq (h : disk.Alike hidden disk') (directory : String) :
    disk.temporaryPath directory = disk'.temporaryPath directory := by
  unfold Disk.temporaryPath
  rw [h.workingDirectory]

/-- Where a file can be written it can be written on a disk that looks alike. -/
theorem Disk.Alike.writes (h : disk.Alike hidden disk') (hw : Writes disk file place) :
    Writes disk' file place := by
  obtain ⟨parent, beside, hp, hb⟩ := hw.staged
  refine ⟨h.place?_of_place? hw.entry, hw.plain,
    fun hd => hw.free ((h.tree.directory_iff place).mpr hd), parent, beside, hp, ?_⟩
  rw [← h.temporaryPath_eq]
  exact h.place?_of_place? hb

/-! ## Steps on the disk -/

namespace OnDisk

theorem nextRefusal_eq (h : SameRefusals disk disk') :
    disk.nextRefusal.1 = disk'.nextRefusal.1 := by
  unfold Disk.nextRefusal
  rw [show disk.refusals = disk'.refusals from h]
  cases disk'.refusals <;> rfl

/-- A step is refused on both disks, or taken on both as far as it can be. -/
theorem attempt_together {Good : Disk → Disk → Prop}
    {action : Disk → Except IoCause (α × Disk)} (hr : SameRefusals disk disk')
    (hidle : Good (disk.turned disk.tree disk.refusals.tail)
      (disk'.turned disk'.tree disk'.refusals.tail))
    (h : (∃ cause, action (disk.turned disk.tree disk.refusals.tail) = .error cause ∧
        action (disk'.turned disk'.tree disk'.refusals.tail) = .error cause) ∨
      ∃ a after after', action (disk.turned disk.tree disk.refusals.tail) = .ok (a, after) ∧
        action (disk'.turned disk'.tree disk'.refusals.tail) = .ok (a, after') ∧
        Good after after') :
    Together (fun found after found' after' => found = found' ∧ Good after after') SameRefusals
      (attempt action disk) (attempt action disk') := by
  rw [attempt_eq, attempt_eq, ← nextRefusal_eq hr]
  cases disk.nextRefusal.1 with
  | some cause => exact .both ⟨rfl, hidle⟩
  | none =>
      rcases h with ⟨cause, h, h'⟩ | ⟨a, after, after', h, h', hgood⟩
      · rw [h, h']
        exact .both ⟨rfl, hidle⟩
      · rw [h, h']
        exact .both ⟨rfl, hgood⟩

/-- Two steps of which each can be taken if the other can are refused or taken together. -/
theorem step_together {Both : α → Disk → α → Disk → Prop} {name name' : String}
    {action action' : Disk → Except IoCause (α × Disk)} (hr : SameRefusals disk disk')
    (h : ∀ a after, action (disk.turned disk.tree disk.refusals.tail) = .ok (a, after) →
      ∃ a' after', action' (disk'.turned disk'.tree disk'.refusals.tail) = .ok (a', after'))
    (h' : ∀ a' after', action' (disk'.turned disk'.tree disk'.refusals.tail) = .ok (a', after') →
      ∃ a after, action (disk.turned disk.tree disk.refusals.tail) = .ok (a, after))
    (hboth : ∀ a after a' after',
      action (disk.turned disk.tree disk.refusals.tail) = .ok (a, after) →
      action' (disk'.turned disk'.tree disk'.refusals.tail) = .ok (a', after') →
      Both a after a' after') :
    Together Both SameRefusals (step name action disk) (step name' action' disk') := by
  have hleft : SameRefusals (disk.turned disk.tree disk.refusals.tail)
      (disk'.turned disk'.tree disk'.refusals.tail) := congrArg List.tail hr
  unfold step
  rw [Result.run_bind, Result.run_bind, attempt_eq, attempt_eq, ← nextRefusal_eq hr]
  cases disk.nextRefusal.1 with
  -- the refusals are the same, so one of the steps is refused if the other is
  | some cause => exact .neither hleft
  | none =>
      rcases hrun : action (disk.turned disk.tree disk.refusals.tail) with cause | ⟨a, after⟩
      · rcases hrun' : action' (disk'.turned disk'.tree disk'.refusals.tail) with
          cause' | ⟨a', after'⟩
        · exact .neither hleft
        · obtain ⟨_, _, hback⟩ := h' _ _ hrun'
          rw [hrun] at hback
          exact absurd hback nofun
      · obtain ⟨a', after', hrun'⟩ := h _ _ hrun
        rw [hrun']
        exact .both (hboth _ _ _ _ hrun hrun')

/-- A new temporary file does not matter to where another file can be written. -/
theorem rename_temporary_iff {temporary : Place} {refusals : List (Option IoCause)}
    (hne : temporary ≠ []) (hfree : disk.tree.get? temporary = none) :
    (∃ after, (disk.turned (disk.tree.put temporary (.file content)) refusals).rename temporary
        file = .ok after) ↔
      ∃ place, disk.place? file = .ok (some place) ∧ Disk.Path.saysDirectory file = false ∧
        disk.tree.get? place ≠ some .directory := by
  have hinto : Disk.Tree.KeepsDirectories disk.tree (disk.tree.put temporary (.file content)) :=
    Disk.Tree.keepsDirectories_put (by simp [hfree])
  have hback : Disk.Tree.KeepsDirectories (disk.tree.put temporary (.file content)) disk.tree :=
    Disk.Tree.keepsDirectories_of_put
  constructor
  · rintro ⟨after, h⟩
    obtain ⟨place, node, he, hs, hd, -, -⟩ := Disk.rename_eq_ok_iff.mp h
    exact ⟨place, Disk.place?_mono hback he, hs, fun hg => hd (hinto _ hg)⟩
  · rintro ⟨place, he, hs, hd⟩
    exact ⟨_, Disk.rename_eq_ok_iff.mpr ⟨place, .file content, Disk.place?_mono hinto he, hs,
      fun hg => hd (hback _ hg), Disk.Tree.get?_put_self hne, rfl⟩⟩

/-- A disk with a new temporary file. -/
structure Staged (disk : Disk) (content : String) (temporary : Place) (staged : Disk) : Prop where
  ne_nil : temporary ≠ []
  free : disk.tree.get? temporary = none
  eq : staged = disk.turned (disk.tree.put temporary (.file content)) staged.refusals

theorem Staged.turned {temporary : Place} {staged : Disk} (h : Staged disk content temporary staged)
    (refusals : List (Option IoCause)) :
    Staged disk content temporary (staged.turned staged.tree refusals) := by
  refine ⟨h.ne_nil, h.free, ?_⟩
  rw [h.eq]
  rfl

theorem Staged.fill {temporary : Place} {staged : Disk} {former : String}
    (h : Staged disk former temporary staged) (content : String) :
    Staged disk content temporary (staged.fill temporary content) := by
  refine ⟨h.ne_nil, h.free, ?_⟩
  rw [h.eq]
  simp only [Disk.fill, Disk.withTree, Disk.turned, Disk.Tree.put_put]

/-- Temporary files have been made on two disks, by steps of which the same were refused. -/
structure BothStaged (disk disk' : Disk) (content : String) (temporary : Place) (staged : Disk)
    (temporary' : Place) (staged' : Disk) : Prop where
  refusals : SameRefusals staged staged'
  left : Staged disk content temporary staged
  right : Staged disk' content temporary' staged'

section

variable {temporary temporary' : Place} {staged staged' : Disk}

theorem BothStaged.turned (h : BothStaged disk disk' content temporary staged temporary' staged') :
    BothStaged disk disk' content temporary
      (staged.turned staged.tree staged.refusals.tail) temporary'
      (staged'.turned staged'.tree staged'.refusals.tail) :=
  ⟨congrArg List.tail h.refusals, h.left.turned _, h.right.turned _⟩

theorem BothStaged.symm (h : BothStaged disk disk' content temporary staged temporary' staged') :
    BothStaged disk' disk content temporary' staged' temporary staged :=
  ⟨h.refusals.symm, h.right, h.left⟩

theorem BothStaged.fill {former : String}
    (h : BothStaged disk disk' former temporary staged temporary' staged') (content : String) :
    BothStaged disk disk' content temporary (staged.fill temporary content) temporary'
      (staged'.fill temporary' content) :=
  ⟨h.refusals, h.left.fill content, h.right.fill content⟩

/-- A temporary file gets the name of a file on a disk that looks alike, too. -/
theorem BothStaged.rename {after : Disk} (h : disk.Alike hidden disk')
    (hs : BothStaged disk disk' content temporary staged temporary' staged')
    (hrun : (do return ((), ← staged.rename temporary file)) = Except.ok ((), after)) :
    ∃ u after', (do return ((), ← staged'.rename temporary' file)) =
      (Except.ok (u, after') : Except IoCause (Unit × Disk)) := by
  obtain ⟨renamed, hrename, -⟩ := Result.bind_eq_ok_iff.mp hrun
  rw [hs.left.eq] at hrename
  obtain ⟨place, he, hplain, hd⟩ :=
    (rename_temporary_iff hs.left.ne_nil hs.left.free).mp ⟨renamed, hrename⟩
  obtain ⟨after', hagain⟩ : ∃ after', staged'.rename temporary' file = .ok after' := by
    rw [hs.right.eq]
    exact (rename_temporary_iff hs.right.ne_nil hs.right.free).mpr ⟨place, h.place?_of_place? he,
      hplain, fun hd' => hd ((h.tree.directory_iff place).mpr hd')⟩
  exact ⟨(), after', by rw [hagain]; rfl⟩

theorem refusals_of_rename {after : Disk}
    (hrun : (do return ((), ← staged.rename temporary file)) = Except.ok ((), after)) :
    after.refusals = staged.refusals := by
  obtain ⟨renamed, hrename, hafter⟩ := Result.bind_eq_ok_iff.mp hrun
  obtain ⟨_, _, -, -, -, -, rfl⟩ := Disk.rename_eq_ok_iff.mp hrename
  rw [← (Prod.mk.inj (Result.pure_eq_ok_iff.mp hafter)).2]
  rfl

/-- A temporary file gets its name on both disks or on neither. -/
theorem promote_together {parent former : String} (h : disk.Alike hidden disk')
    (hs : BothStaged disk disk' former temporary staged temporary' staged') :
    Together (fun _ after _ after' => SameRefusals after after') SameRefusals
      (promote parent file content temporary staged)
      (promote parent file content temporary' staged') := by
  unfold promote
  -- filling the file and bringing it to the disk fail only where they are refused
  have hfill : ∀ {name name' : String}, Together
      (fun _ filled _ filled' => BothStaged disk disk' content temporary filled temporary' filled')
      SameRefusals (step name (fun disk => return ((), disk.fill temporary content)) staged)
      (step name' (fun disk => return ((), disk.fill temporary' content)) staged') := by
    refine step_together hs.refusals (fun _ _ _ => ⟨_, _, rfl⟩) (fun _ _ _ => ⟨_, _, rfl⟩) ?_
    rintro _ _ _ _ ⟨⟩ ⟨⟩
    exact hs.turned.fill content
  refine hfill.bind fun _ filled _ filled' _ hs => ?_
  have hsync : ∀ {name name' : String}, Together
      (fun _ synced _ synced' => BothStaged disk disk' content temporary synced temporary' synced')
      SameRefusals (step name (fun disk => return ((), disk)) filled)
      (step name' (fun disk => return ((), disk)) filled') := by
    refine step_together hs.refusals (fun _ _ _ => ⟨_, _, rfl⟩) (fun _ _ _ => ⟨_, _, rfl⟩) ?_
    rintro _ _ _ _ ⟨⟩ ⟨⟩
    exact hs.turned
  refine hsync.bind fun _ synced _ synced' _ hs => ?_
  refine step_together hs.refusals (fun _ _ => hs.turned.rename h)
    (fun _ _ => hs.turned.symm.rename h.symm) fun _ after _ after' hrun hrun' => ?_
  exact (refusals_of_rename hrun).trans (hs.turned.refusals.trans (refusals_of_rename hrun').symm)

/-- A temporary file is made on a disk that looks alike, too. -/
theorem createTemporary_of_alike {parent : String} (h : disk.Alike hidden disk')
    (hrun : disk.createTemporary parent = .ok (temporary, staged)) :
    ∃ temporary' staged', disk'.createTemporary parent = .ok (temporary', staged') := by
  obtain ⟨⟨beside, he⟩, -, -, -⟩ := Disk.createTemporary_eq_ok hrun
  exact Disk.createTemporary_of_place? (h.temporaryPath_eq parent ▸ h.place?_of_place? he)

theorem bothStaged_of_createTemporary {parent : String} (h : disk.Alike hidden disk')
    (hrun : disk.createTemporary parent = .ok (temporary, staged))
    (hrun' : disk'.createTemporary parent = .ok (temporary', staged')) :
    BothStaged disk disk' "" temporary staged temporary' staged' := by
  obtain ⟨-, hne, hfree, rfl⟩ := Disk.createTemporary_eq_ok hrun
  obtain ⟨-, hne', hfree', rfl⟩ := Disk.createTemporary_eq_ok hrun'
  exact ⟨h.refusals, ⟨hne, hfree, rfl⟩, ⟨hne', hfree', rfl⟩⟩

end

/-- **A file is written on both disks or on neither.** -/
theorem writeFile_together (h : disk.Alike hidden disk') (file content : String) :
    Together (fun _ after _ after' => SameRefusals after after') SameRefusals
      (writeFile file content disk) (writeFile file content disk') := by
  unfold writeFile
  cases hp : Disk.Path.parent? file with
  | none => exact .neither h.refusals
  | some parent =>
      have hstage : Together (BothStaged (disk.turned disk.tree disk.refusals.tail)
          (disk'.turned disk'.tree disk'.refusals.tail) "") SameRefusals
          (step parent (fun disk => disk.createTemporary parent) disk)
          (step parent (fun disk => disk.createTemporary parent) disk') :=
        step_together h.refusals (fun _ _ => createTemporary_of_alike h.turned)
          (fun _ _ => createTemporary_of_alike h.turned.symm)
          fun _ _ _ _ => bothStaged_of_createTemporary h.turned
      refine hstage.bind fun temporary staged temporary' staged' _ hs => ?_
      refine (promote_together h.turned hs).tryCatch fun e failed e' failed' hfailed => ?_
      exact .neither hfailed

end OnDisk

/-! ## The way to what belongs to a package -/

namespace PackageWriter

/-- Nothing but the specs of a package may be hidden. -/
def OnlySpecs (hidden : Place → Prop) (root : Place) : Prop :=
  ∀ place, hidden place → place = root ++ [SpecCache.fileName]

theorem InSection.not_specs (h : InSection names) : ¬ [SpecCache.fileName] <+: names := by
  obtain ⟨sec, namespaces, rfl, -⟩ := h
  intro hp
  have hname := (List.cons_prefix_cons.mp hp).1
  cases sec <;> exact absurd hname (by decide)

theorem LeadsToFile.not_specs (h : LeadsToFile names) : ¬ [SpecCache.fileName] <+: names := by
  rcases h with ⟨name, hm, rfl⟩ | ⟨front, name, hf, -, rfl⟩
  · intro hp
    have hname := (List.cons_prefix_cons.mp hp).1
    exact absurd (hname ▸ hm) (by decide)
  · intro hp
    obtain ⟨sec, namespaces, rfl, -⟩ := id hf
    exact hf.not_specs
      (List.cons_prefix_cons.mpr ⟨(List.cons_prefix_cons.mp hp).1, List.nil_prefix⟩)

section

variable (hh : OnlySpecs hidden root) (h : disk.Alike hidden disk') (hr : disk.Reaches path root)

include hh h hr

theorem avoids_of_extends (he : Extends path names file) (hn : ∀ name ∈ names, IsPlain name)
    (hne : ¬ [SpecCache.fileName] <+: names) : Disk.Avoids hidden disk file := by
  intro front hf
  rw [he.names_eq] at hf
  rw [he.startOf_eq]
  rcases List.prefix_or_prefix_of_prefix hf (List.prefix_append _ names) with hout | ⟨more, rfl⟩
  · exact hr.avoids h.tree.left front hout
  · -- behind the path of the package there are plain names, and the first is not that of the specs
    have hmore := (List.prefix_append_right_inj _).mp hf
    rw [List.foldl_append, Disk.foldl_step_plain fun name hm => hn name (hmore.subset hm)]
    intro hhidden
    have hplace := hh _ hhidden
    rw [show (Disk.Path.names path).foldl _ _ = root from hr.placeOf_eq] at hplace
    exact hne (List.append_cancel_left hplace ▸ hmore)

theorem avoids_of_fileOf (hf : FileOf path file) : Disk.Avoids hidden disk file := by
  obtain ⟨names, he, hnames⟩ := hf
  exact avoids_of_extends hh h hr he hnames.plain hnames.not_specs

theorem avoids_of_directoryOf {directory : String} (hd : DirectoryOf path directory)
    (hne : directory ≠ "") : Disk.Avoids hidden disk directory := by
  cases hd with
  | here => exact absurd rfl hne
  | around habs hnames =>
      obtain ⟨around, hreached⟩ := hr.of_isOutside habs hnames
      exact hreached.avoids h.tree.left
  | inside he hnames => exact avoids_of_extends hh h hr he hnames.plain hnames.not_specs

end

end PackageWriter

/-! ## Steps of a transaction -/

namespace Transaction

open PackageWriter (OnlySpecs StaysIn avoids_of_fileOf avoids_of_directoryOf)

/-- Two transactions of the same changes, on disks that are alike and have the package. -/
structure Abreast (path : String) (root : Place) (hidden : Place → Prop) (t t' : Transaction) :
    Prop where
  alike : t.disk.Alike hidden t'.disk
  reached : t.disk.Reaches path root
  log : t.log = t'.log

/-- Two runs come to the same and leave transactions abreast, or both fail with the same refusals
used up. -/
def StayAbreast (path : String) (root : Place) (hidden : Place → Prop) :
    Except PackageError α × Transaction → Except PackageError α × Transaction → Prop :=
  Together (fun a after a' after' => a = a' ∧ Abreast path root hidden after after')
    fun after after' => SameRefusals after.disk after'.disk

/-- Steps that keep transactions abreast. -/
def Lockstep (path : String) (root : Place) (hidden : Place → Prop) (steps : Writing α) : Prop :=
  ∀ t t', Abreast path root hidden t t' → StayAbreast path root hidden (steps t) (steps t')

theorem StayAbreast.bind {β : Type} {steps : Writing α} {next : α → Writing β}
    (h : StayAbreast path root hidden (steps t) (steps t'))
    (hn : ∀ a, (∃ t after, steps t = (.ok a, after)) → Lockstep path root hidden (next a)) :
    StayAbreast path root hidden ((steps >>= next) t) ((steps >>= next) t') := by
  refine Together.bind h fun a between a' between' hrun hboth => ?_
  obtain ⟨rfl, hbetween⟩ := hboth
  exact hn a ⟨t, between, hrun⟩ between between' hbetween

theorem lockstep_pure (a : α) : Lockstep path root hidden (pure a) :=
  fun _ _ h => .both ⟨rfl, h⟩

theorem lockstep_throw (e : PackageError) : Lockstep path root hidden (throw e : Writing α) :=
  fun _ _ h => .neither h.alike.refusals

theorem lockstep_record (change : Change) : Lockstep path root hidden (record change) :=
  fun _ _ h => .both ⟨rfl, h.alike, h.reached, congrArg (change :: ·) h.log⟩

/-- What steps on the disks do together, they do in two transactions. -/
theorem onDisk_together {steps : OnDisk α} (hlog : t.log = t'.log)
    (h : Together (fun a after a' after' =>
      a = a' ∧ after.Alike hidden after' ∧ after.Reaches path root) SameRefusals
      (steps t.disk) (steps t'.disk)) :
    StayAbreast path root hidden (onDisk steps t) (onDisk steps t') := by
  unfold onDisk
  generalize steps t.disk = run, steps t'.disk = run' at h
  cases h with
  | both h => exact .both ⟨h.1, h.2.1, h.2.2, hlog⟩
  | neither h => exact .neither h

/-- Looking comes to the same on both disks if the same is to be seen. -/
theorem look_together (look : Disk → Except IoCause α) (h : disk.Alike hidden disk')
    (hr : disk.Reaches path root) (hlook : look disk = look disk')
    (hturned : ∀ disk : Disk, look (disk.turned disk.tree disk.refusals.tail) = look disk) :
    Together (fun found after found' after' =>
      found = found' ∧ after.Alike hidden after' ∧ after.Reaches path root) SameRefusals
      (OnDisk.attempt (fun disk => return (← look disk, disk)) disk)
      (OnDisk.attempt (fun disk => return (← look disk, disk)) disk') := by
  refine OnDisk.attempt_together h.refusals ⟨h.turned, hr⟩ ?_
  rw [hturned, hturned, ← hlook]
  cases look disk with
  | error cause => exact .inl ⟨cause, rfl, rfl⟩
  | ok a => exact .inr ⟨a, _, _, rfl, rfl, h.turned, hr⟩

/-- A directory is made in both transactions or in neither. -/
theorem createDirectory_together {directory : String} (h : Abreast path root hidden t t')
    (hc : Disk.Avoids hidden t.disk directory) :
    StayAbreast path root hidden (createDirectory directory t) (createDirectory directory t') := by
  unfold createDirectory
  refine (onDisk_together h.log
    (OnDisk.attempt_together h.alike.refusals ⟨h.alike.turned, h.reached⟩ ?_)).bind ?_
  · have hc' : Disk.Avoids hidden (t.disk.turned t.disk.tree t.disk.refusals.tail) directory := hc
    -- the directory is made at the same place of both disks, one where they are alike
    rcases h.alike.turned.createDirectory_cases hc' with
      ⟨cause, hmade, hmade'⟩ | ⟨place, hne, hplace, hg, hmade, hmade'⟩
    · rw [hmade, hmade']
      exact .inl ⟨cause, rfl, rfl⟩
    · rw [hmade, hmade']
      refine .inr ⟨(), _, _, rfl, rfl, ⟨?_, h.alike.turned.workingDirectory,
        h.alike.turned.refusals⟩, ?_⟩
      · exact h.alike.tree.put hne fun hhidden => absurd hhidden hplace
      · exact h.reached.mono (Disk.Tree.keepsDirectories_put fun hd => by
          rw [show t.disk.tree.get? place = none from hg] at hd
          exact absurd hd nofun)
  · rintro (cause | _) -
    · cases cause
      case alreadyExists => exact lockstep_pure ()
      all_goals exact lockstep_throw _
    · exact lockstep_record _

/-- The same is remembered of a file in both transactions. -/
theorem remember_together (h : Abreast path root hidden t t')
    (hc : Disk.Avoids hidden t.disk file) :
    StayAbreast path root hidden (remember file t) (remember file t') := by
  unfold remember
  rw [Result.run_get_bind, Result.run_get_bind, ← h.log, ← h.alike.isThere_eq hc]
  split
  · exact lockstep_pure () _ _ h
  · split
    · have hlook := look_together (fun disk => disk.read file) h.alike h.reached
        (h.alike.read_eq hc) fun _ => rfl
      refine (onDisk_together h.log (hlook.bind ?_)).bind fun former _ => lockstep_record _
      rintro found between _ between' - ⟨rfl, hbetween⟩
      cases found with
      | error cause => exact .neither hbetween.1.refusals
      | ok former => exact .both ⟨rfl, hbetween⟩
    · exact lockstep_record _ _ _ h

/-- **A file that is written on both disks leaves them alike.** -/
theorem lockstep_write (hh : OnlySpecs hidden root) (hf : FileOf path file) (content : String) :
    Lockstep path root hidden (onDisk (.writeFile file content)) := by
  intro t t' h
  refine onDisk_together h.log ?_
  have htogether := OnDisk.writeFile_together h.alike file content
  -- writing goes well on both disks or on none, so two of the four cases do not arise
  rcases OnDisk.writeFile_cases file content t.disk with
    ⟨e, rest, hrun⟩ | ⟨place, rest, hw, hrun⟩ <;>
  rcases OnDisk.writeFile_cases file content t'.disk with
    ⟨e', rest', hrun'⟩ | ⟨place', rest', hw', hrun'⟩ <;>
  rw [hrun, hrun'] at htogether ⊢
  · cases htogether with
    | neither hleft => exact .neither hleft
  · exact absurd htogether nofun
  · exact absurd htogether nofun
  · cases htogether with
    | both hleft =>
        obtain rfl : place = place' :=
          Option.some.inj (Except.ok.inj ((h.alike.place?_of_place? hw.entry).symm.trans hw'.entry))
        have hplace : ¬ hidden place :=
          Disk.placeOf_of_place? hw.entry ▸ (avoids_of_fileOf hh h.alike h.reached hf).placeOf
        refine .both ⟨rfl, ⟨?_, h.alike.workingDirectory, hleft⟩,
          h.reached.mono (Disk.Tree.keepsDirectories_put hw.free)⟩
        exact h.alike.tree.put (Disk.ne_nil_of_place? hw.entry) fun hhidden => absurd hhidden hplace

theorem lockstep_writeFile (hh : OnlySpecs hidden root) (hf : FileOf path file)
    (content : String) : Lockstep path root hidden (writeFile file content) :=
  fun _ _ h => StayAbreast.bind
    (remember_together h (avoids_of_fileOf hh h.alike h.reached hf))
    fun _ _ => lockstep_write hh hf content

theorem takeWhile_congr {β : Type} {p q : β → Bool} {items : List β}
    (h : ∀ b ∈ items, p b = q b) : items.takeWhile p = items.takeWhile q := by
  induction items with
  | nil => rfl
  | cons first items ih =>
      rw [List.takeWhile_cons, List.takeWhile_cons, h first List.mem_cons_self,
        ih fun b hm => h b (List.mem_cons_of_mem _ hm)]

/-- The same directories are missing. -/
theorem missing_eq {directory : String} (hh : OnlySpecs hidden root)
    (h : disk.Alike hidden disk') (hr : disk.Reaches path root) (hd : DirectoryOf path directory) :
    missing disk directory = missing disk' directory := by
  unfold missing
  refine takeWhile_congr fun outer hm => ?_
  by_cases hne : outer = ""
  · rw [hne]
    rfl
  · rw [h.isDirectory_eq (avoids_of_directoryOf hh h hr (hd.of_mem_ancestors hm) hne)]

theorem lockstep_createDirectories {directory : String} (hh : OnlySpecs hidden root)
    (hd : DirectoryOf path directory) :
    Lockstep path root hidden (createDirectories directory) := by
  intro t t' h
  unfold createDirectories
  rw [Result.run_get_bind, Result.run_get_bind, ← missing_eq hh h.alike h.reached hd]
  have hall : ∀ made ∈ (missing t.disk directory).reverse, DirectoryOf path made ∧ made ≠ "" := by
    intro made hm
    have hm := List.mem_reverse.mp hm
    refine ⟨hd.of_mem_ancestors ((List.takeWhile_sublist _).subset hm), ?_⟩
    rintro rfl
    simpa using List.all_eq_true.mp List.all_takeWhile _ hm
  generalize (missing t.disk directory).reverse = paths at hall
  induction paths generalizing t t' with
  | nil => exact lockstep_pure () _ _ h
  | cons first paths ih =>
      obtain ⟨hfirst, hne⟩ := hall first List.mem_cons_self
      refine StayAbreast.bind
        (createDirectory_together h (avoids_of_directoryOf hh h.alike h.reached hfirst hne))
        fun _ _ t t' h => ?_
      exact ih t t' h fun made hm => hall made (List.mem_cons_of_mem _ hm)

theorem lockstep_readOrEmpty (hh : OnlySpecs hidden root) (hf : FileOf path file) :
    Lockstep path root hidden (PackageWriter.readOrEmpty file) := by
  intro t t' h
  have hread := h.alike.read_eq (avoids_of_fileOf hh h.alike h.reached hf)
  refine StayAbreast.bind (onDisk_together h.log
    (look_together (fun disk => disk.read file) h.alike h.reached hread fun _ => rfl)) ?_
  rintro (cause | content) -
  · cases cause
    case notFound => exact lockstep_pure ""
    all_goals exact lockstep_throw _
  · exact lockstep_pure content

/-- **A writer's steps go together on disks that are alike but for the specs.** -/
theorem staysIn_lockstep (hh : OnlySpecs hidden root) :
    StaysIn path fun {_} steps => Lockstep path root hidden steps where
  ofPure := lockstep_pure
  ofThrow := lockstep_throw
  bind hsteps hnext t t' h := (hsteps t t' h).bind hnext
  whether hf hyes hno t t' h := by
    rw [Result.run_get_bind, Result.run_get_bind,
      ← h.alike.isThere_eq (avoids_of_fileOf hh h.alike h.reached hf)]
    split
    · exact hyes t t' h
    · exact hno t t' h
  createDirectories hd := lockstep_createDirectories hh hd
  readOrEmpty hf := lockstep_readOrEmpty hh hf
  writeFile content hf := lockstep_writeFile hh hf content

end Transaction

end StubGen
