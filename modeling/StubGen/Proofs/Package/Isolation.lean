import StubGen.Package.Generation
import StubGen.Proofs.Package.AllOrNothing
import StubGen.Proofs.Package.Refusals

/-!
# The specs of a batch do not disturb each other

A spec that is skipped or fails leaves the disk as it was: `attempt_idle`. So it can be
left out of a batch, and everything else comes to the same, the outcome of each other
spec and the tree in the end: `attemptAll_of_thinned`. The report sorts the specs of its
section into three lists, each in the order of the batch. All of it is put together in
`batch_isolated`.
-/

namespace StubGen

variable {disk after : Disk} {g : Generator} {spec : Spec} {specs : List Spec}
  {kept attempts : List (Spec × Attempt)}

/-! ## One spec -/

/-- A disk in good order, on which nothing is refused from outside. -/
structure Disk.Calm (disk : Disk) : Prop where
  wellFormed : disk.tree.WellFormed
  unhindered : disk.refusals = []

namespace PackageWriter

variable {w : PackageWriter} {stub : Stub}

/-- A stub that cannot be written leaves the disk as it was. -/
theorem write_eq_error (hd : disk.Calm) {e : PackageError}
    (h : w.write stub disk = (.error e, after)) : after = disk := by
  have hleft := w.refusals_suffix_write stub disk
  rw [h, hd.unhindered] at hleft
  have hnone : after.refusals = [] := List.suffix_nil.mp hleft
  have hback := untouched_of_write hd.wellFormed h
  rw [hback, hnone, ← hd.unhindered]

theorem calm_write (hd : disk.Calm) (w : PackageWriter) (stub : Stub) :
    (w.write stub disk).2.Calm := by
  have hleft := w.refusals_suffix_write stub disk
  rw [hd.unhindered] at hleft
  refine ⟨?_, List.suffix_nil.mp hleft⟩
  unfold write
  split
  · exact hd.wellFormed
  · exact wellFormed_of_atomically hd.wellFormed (safe_writeIn stub)

end PackageWriter

namespace Generator

/-- What can become of a spec: it writes a stub, or it does nothing but fail or be skipped. -/
theorem attempt_cases (g : Generator) (spec : Spec) (disk : Disk) :
    (∃ stub after, g.writer.write stub disk = (.ok (), after) ∧
      g.attempt spec disk = (.generated, after)) ∨
    (∃ stub e after, g.writer.write stub disk = (.error e, after) ∧
      g.attempt spec disk = (.failed e.toError, after)) ∨
    (∃ outcome, outcome ≠ .generated ∧ g.attempt spec disk = (outcome, disk)) := by
  unfold attempt
  cases g.renderer.render spec with
  | error e => exact .inr (.inr ⟨.failed e, nofun, rfl⟩)
  | ok stub =>
      dsimp only
      split
      · exact .inr (.inr ⟨.skipped, nofun, rfl⟩)
      · rcases hw : g.writer.write stub disk with ⟨e | _, after⟩
        · exact .inr (.inl ⟨stub, e, after, hw, rfl⟩)
        · exact .inl ⟨stub, after, hw, rfl⟩

theorem calm_attempt (hd : disk.Calm) (g : Generator) (spec : Spec) :
    (g.attempt spec disk).2.Calm := by
  rcases g.attempt_cases spec disk with
    ⟨stub, after, hw, h⟩ | ⟨stub, e, after, hw, h⟩ | ⟨_, -, h⟩
  · rw [h, show after = (g.writer.write stub disk).2 by rw [hw]]
    exact PackageWriter.calm_write hd g.writer stub
  · rw [h, PackageWriter.write_eq_error hd hw]
    exact hd
  · rwa [h]

/-- **A spec for which nothing is written leaves the disk as it was.** -/
theorem attempt_idle (hd : disk.Calm) (hidle : (g.attempt spec disk).1 ≠ .generated) :
    (g.attempt spec disk).2 = disk := by
  rcases g.attempt_cases spec disk with
    ⟨stub, after, hw, h⟩ | ⟨stub, e, after, hw, h⟩ | ⟨_, -, h⟩
  · rw [h] at hidle
    exact absurd rfl hidle
  · rw [h]
    exact PackageWriter.write_eq_error hd hw
  · rw [h]

/-! ## Batches with some specs left out -/

/-- Some of the attempts of a batch: only such as wrote nothing are left out. -/
inductive Thinned : List (Spec × Attempt) → List (Spec × Attempt) → Prop where
  | nil : Thinned [] []
  | keep (first : Spec × Attempt) {kept attempts : List (Spec × Attempt)} :
      Thinned kept attempts → Thinned (first :: kept) (first :: attempts)
  | leave {first : Spec × Attempt} {kept attempts : List (Spec × Attempt)} :
      first.2 ≠ .generated → Thinned kept attempts → Thinned kept (first :: attempts)

/-- The attempts that wrote something. -/
def written (attempts : List (Spec × Attempt)) : List (Spec × Attempt) :=
  attempts.filter fun attempt => attempt.2 = .generated

theorem thinned_written (attempts : List (Spec × Attempt)) :
    Thinned (written attempts) attempts := by
  induction attempts with
  | nil => exact .nil
  | cons first attempts ih =>
      unfold written
      rw [List.filter_cons]
      split
      · exact .keep first ih
      · rename_i h
        exact .leave (by simpa using h) ih

theorem attemptAll_cons (g : Generator) (spec : Spec) (specs : List Spec) (disk : Disk) :
    g.attemptAll (spec :: specs) disk =
      ((spec, (g.attempt spec disk).1) :: (g.attemptAll specs (g.attempt spec disk).2).1,
        (g.attemptAll specs (g.attempt spec disk).2).2) := rfl

/-- A batch whose first attempt is known goes on from what that attempt leaves. -/
theorem attemptAll_eq_cons {first : Spec × Attempt}
    (h : g.attemptAll specs disk = (first :: attempts, after)) :
    ∃ specs', g.attempt first.1 disk = (first.2, (g.attempt first.1 disk).2) ∧
      g.attemptAll specs' (g.attempt first.1 disk).2 = (attempts, after) := by
  cases specs with
  | nil => exact absurd (Prod.mk.inj h).1 (by simp)
  | cons spec specs =>
      rw [attemptAll_cons] at h
      obtain ⟨hattempts, hafter⟩ := Prod.mk.inj h
      obtain ⟨rfl, hrest⟩ := List.cons.inj hattempts
      exact ⟨specs, rfl, Prod.ext hrest hafter⟩

/-- **What wrote nothing can be left out.** -/
theorem attemptAll_of_thinned (hd : disk.Calm) (ht : Thinned kept attempts)
    (h : g.attemptAll specs disk = (attempts, after)) :
    g.attemptAll (kept.map Prod.fst) disk = (kept, after) := by
  induction ht generalizing specs disk with
  | nil =>
      cases specs with
      | nil => exact h
      | cons spec specs => exact absurd (Prod.mk.inj h).1 (by simp)
  | keep first _ ih =>
      obtain ⟨specs', hfirst, hothers⟩ := attemptAll_eq_cons h
      rw [List.map_cons, attemptAll_cons, ih (calm_attempt hd g first.1) hothers, hfirst]
  | @leave first _ _ hidle _ ih =>
      obtain ⟨specs', hfirst, hothers⟩ := attemptAll_eq_cons h
      have hsame : (g.attempt first.1 disk).2 = disk :=
        attempt_idle hd (by rw [hfirst]; exact hidle)
      rw [hsame] at hothers
      exact ih hd hothers

/-- Every spec is attempted, in order. -/
theorem attemptAll_fst (g : Generator) (specs : List Spec) (disk : Disk) :
    (g.attemptAll specs disk).1.map Prod.fst = specs := by
  induction specs generalizing disk with
  | nil => rfl
  | cons spec specs ih => rw [attemptAll_cons, List.map_cons, ih]

theorem Thinned.sublist (h : Thinned kept attempts) : kept.Sublist attempts := by
  induction h with
  | nil => exact .slnil
  | keep first _ ih => exact ih.cons_cons first
  | leave _ _ ih => exact ih.cons _

/-- The specs that a batch attempts are those of its section. -/
theorem batch_attempts (g : Generator) (root : Section) (specs : List Spec) (disk : Disk) :
    (g.batch root specs disk).1.attempts.map Prod.fst =
      specs.filter fun spec => root.holds spec.category :=
  attemptAll_fst g _ disk

theorem batch_of_thinned (hd : disk.Calm) {root : Section}
    (ht : Thinned kept (g.batch root specs disk).1.attempts) :
    g.batch root (kept.map Prod.fst) disk = (⟨root, kept⟩, (g.batch root specs disk).2) := by
  have hmine : (kept.map Prod.fst).filter (fun spec => root.holds spec.category) =
      kept.map Prod.fst := by
    refine List.filter_eq_self.mpr fun spec hm => ?_
    have hm := (ht.sublist.map Prod.fst).subset hm
    rw [batch_attempts] at hm
    exact (List.mem_filter.mp hm).2
  have hall : g.attemptAll (kept.map Prod.fst) disk = (kept, _) := attemptAll_of_thinned hd ht rfl
  unfold batch
  rw [hmine, hall]

end Generator

/-! ## The report -/

namespace BatchReport

variable {α β : Type}

theorem filterMap_sublist_map {f : α → Option β} {name : α → β}
    (h : ∀ a b, f a = some b → b = name a) (items : List α) :
    (items.filterMap f).Sublist (items.map name) := by
  induction items with
  | nil => exact .slnil
  | cons a items ih =>
      rw [List.filterMap_cons, List.map_cons]
      split
      · exact ih.cons _
      · rename_i b hb
        rw [h a b hb]
        exact ih.cons_cons _

/-- The names of the specs of a batch. -/
def names (report : BatchReport) : List String :=
  report.attempts.map fun attempt => attempt.1.qualifiedName

/-- **A report tells of every spec once,** and in the order of the batch. -/
theorem sorted (report : BatchReport) :
    (report.generated ++ report.skipped ++ report.failedNames).Perm report.names ∧
      report.generated.Sublist report.names ∧ report.skipped.Sublist report.names ∧
      report.failedNames.Sublist report.names := by
  obtain ⟨root, attempts⟩ := report
  refine ⟨?_, ?_, ?_, ?_⟩
  · induction attempts with
    | nil => exact .nil
    -- each name goes to one of the three lists, and is moved there past the lists in front
    | cons first attempts ih =>
        obtain ⟨spec, attempt⟩ := first
        refine List.Perm.trans ?_ (ih.cons spec.qualifiedName)
        cases attempt with
        | generated => exact .refl _
        | skipped =>
            have hmoved : (generated ⟨root, attempts⟩ ++
                spec.qualifiedName :: skipped ⟨root, attempts⟩).Perm
                (spec.qualifiedName :: (generated ⟨root, attempts⟩ ++ skipped ⟨root, attempts⟩)) :=
              List.perm_middle
            exact hmoved.append_right _
        | failed error => exact List.perm_middle
  · exact filterMap_sublist_map (by rintro ⟨spec, _ | _ | _⟩ name h <;> simp_all) attempts
  · exact filterMap_sublist_map (by rintro ⟨spec, _ | _ | _⟩ name h <;> simp_all) attempts
  · unfold failedNames failures
    rw [List.map_filterMap]
    exact filterMap_sublist_map (by rintro ⟨spec, _ | _ | _⟩ name h <;> simp_all) attempts

/-- A report on what was written tells of the same specs, and of nothing else. -/
theorem of_written (root : Section) (attempts : List (Spec × Attempt)) :
    generated ⟨root, Generator.written attempts⟩ = generated ⟨root, attempts⟩ ∧
      skipped ⟨root, Generator.written attempts⟩ = [] ∧
      failures ⟨root, Generator.written attempts⟩ = [] := by
  unfold generated skipped failures Generator.written
  refine ⟨?_, ?_, ?_⟩
  · rw [List.filterMap_filter]
    congr 1
    funext attempt
    obtain ⟨spec, _ | _ | _⟩ := attempt <;> simp
  · refine List.filterMap_eq_nil_iff.mpr fun attempt hm => ?_
    obtain ⟨spec, _ | _ | _⟩ := attempt <;> simp_all
  · refine List.filterMap_eq_nil_iff.mpr fun attempt hm => ?_
    obtain ⟨spec, _ | _ | _⟩ := attempt <;> simp_all

end BatchReport

/-- **The specs of a batch do not disturb each other.** Whichever specs are left out of a batch,
as long as nothing was written for them, all others fare as before and the tree in the end is the
same. So it is if only those are run that were written: the list of these is the same, and nothing
else is reported. And the report has every spec of the section once, in three lists that are each
in the order of the batch. -/
theorem Generator.batch_isolated (g : Generator) (root : Section) (specs : List Spec) (disk : Disk)
    (hd : disk.Calm) :
    let report := (g.batch root specs disk).1
    let after := (g.batch root specs disk).2
    (∀ kept, Thinned kept report.attempts →
      g.batch root (kept.map Prod.fst) disk = (⟨root, kept⟩, after)) ∧
    (∃ again, g.batch root ((written report.attempts).map Prod.fst) disk = (again, after) ∧
      again.generated = report.generated ∧ again.skipped = [] ∧ again.failures = []) ∧
    report.attempts.map Prod.fst = specs.filter (fun spec => root.holds spec.category) ∧
    (report.generated ++ report.skipped ++ report.failedNames).Perm report.names ∧
    report.generated.Sublist report.names ∧ report.skipped.Sublist report.names ∧
    report.failedNames.Sublist report.names := by
  intro report after
  exact ⟨fun kept ht => batch_of_thinned hd ht,
    ⟨_, batch_of_thinned hd (thinned_written _), BatchReport.of_written root report.attempts⟩,
    batch_attempts g root specs disk, report.sorted⟩

/-- Of three specs, the first and the last need not be run if nothing is ever written for them. -/
theorem Generator.thinned_between {root : Section} {first second third : Spec}
    (hmine : [first, second, third].filter (fun spec => root.holds spec.category) =
      [first, second, third])
    (hfirst : (g.attempt first disk).1 ≠ .generated)
    (hthird : ∀ disk, (g.attempt third disk).1 ≠ .generated) :
    Thinned [(second, (g.attempt second (g.attempt first disk).2).1)]
      (g.batch root [first, second, third] disk).1.attempts := by
  unfold batch
  rw [hmine, attemptAll_cons, attemptAll_cons, attemptAll_cons]
  exact .leave hfirst (.keep _ (.leave (hthird _) .nil))

/-- A generator for the package in the top directory. -/
def topGenerator : Generator := .ofRenderer ⟨"pkg", Schema.builtinEngine, fun _ => ""⟩ ""

/-- A disk with a file in the place of a section. -/
def occupiedDisk : Disk := ⟨Disk.Tree.empty.put ["vari"] (.file "x = 1\n"), [], none, []⟩

/-- A function without anything that is not required. -/
def bareFunction (category : Category) (context name : String) : Spec :=
  { Spec.blank with id := name, context := context, name := name, category := category }

/-- A spec that cannot be rendered and one with nothing to write do not matter to the one between
them. -/
theorem Generator.batch_isolated_between :
    let broken := bareFunction .serverFunction "a/b" "broken"
    let ping := bareFunction .serverFunction "util" "ping"
    let other := bareFunction .authFunction "auth" "other"
    occupiedDisk.Calm ∧
      ∃ outcome, topGenerator.batch .functions [ping] occupiedDisk =
        (⟨.functions, [(ping, outcome)]⟩,
          (topGenerator.batch .functions [broken, ping, other] occupiedDisk).2) := by
  intro broken ping other
  have hcalm : occupiedDisk.Calm := ⟨Disk.Tree.wellFormed_empty.put rfl (by decide), rfl⟩
  have hbroken : (topGenerator.attempt broken occupiedDisk).1 ≠ .generated := by decide
  have hother : ∀ disk, (topGenerator.attempt other disk).1 ≠ .generated := by
    intro disk
    have hrender : (topGenerator.renderer.render other).toOption.map Stub.isEmpty = some true := by
      decide
    unfold Generator.attempt
    cases h : topGenerator.renderer.render other with
    | error e => exact nofun
    | ok stub =>
        rw [h] at hrender
        have hempty : stub.isEmpty = true := Option.some.inj hrender
        dsimp only
        rw [if_pos hempty]
        exact nofun
  exact ⟨hcalm, _, (topGenerator.batch_isolated .functions [broken, ping, other] occupiedDisk
    hcalm).1 _ (thinned_between rfl hbroken hother)⟩

end StubGen
