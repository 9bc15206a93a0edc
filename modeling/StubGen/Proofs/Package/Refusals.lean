import StubGen.Proofs.Package.Composition
import StubGen.Proofs.Package.Transaction

/-!
# Refusals are used up one by one

A step that may be refused takes the first of the refusals that are left, and nothing else
touches them: `Spends`. So where nothing is refused at the beginning nothing is refused
later, and the causes of refusals stay among those of the beginning. Taking back uses no
refusal up: `rollback_refusals`. For what a writer does as one change see
`refusals_suffix_write`.
-/

namespace StubGen

open Result (Steps)

variable {σ α β : Type} {left : σ → List (Option IoCause)}

/-- Steps that use refusals up from the front of those that are left. -/
def Spends (left : σ → List (Option IoCause)) (steps : Steps σ PackageError α) : Prop :=
  ∀ s, left (steps s).2 <:+ left s

theorem spends_pure (a : α) : Spends left (pure a : Steps σ PackageError α) :=
  fun _ => List.suffix_rfl

theorem spends_throw (e : PackageError) : Spends left (throw e : Steps σ PackageError α) :=
  fun _ => List.suffix_rfl

theorem Spends.bind {steps : Steps σ PackageError α} {next : α → Steps σ PackageError β}
    (h : Spends left steps) (hn : ∀ a, Spends left (next a)) : Spends left (steps >>= next) := by
  intro s
  have hs := h s
  rw [Result.run_bind]
  rcases hrun : steps s with ⟨e | a, after⟩
  · rwa [hrun] at hs
  · rw [hrun] at hs
    exact (hn a after).trans hs

theorem Spends.tryCatch {steps : Steps σ PackageError α}
    {handle : PackageError → Steps σ PackageError α} (h : Spends left steps)
    (hh : ∀ e, Spends left (handle e)) : Spends left (tryCatch steps handle) := by
  intro s
  have hs := h s
  rw [Result.run_tryCatch]
  rcases hrun : steps s with ⟨e | a, after⟩
  · rw [hrun] at hs
    exact (hh e after).trans hs
  · rwa [hrun] at hs

/-! ## Steps on the disk -/

namespace OnDisk

/-- Only being asked for uses a refusal up, not what a step does to the tree. -/
theorem spends_attempt {action : Disk → Except IoCause (α × Disk)}
    (h : ∀ disk value after, action disk = .ok (value, after) → after.refusals = disk.refusals) :
    Spends Disk.refusals (attempt action) := by
  intro disk
  rcases attempt_cases action disk with ⟨cause, hrun⟩ | ⟨value, after, ha, hrun⟩
  · rw [hrun]
    exact List.tail_suffix disk.refusals
  · rw [hrun]
    show after.refusals <:+ disk.refusals
    rw [h _ value after ha]
    exact List.tail_suffix disk.refusals

theorem spends_step (path : String) {action : Disk → Except IoCause (α × Disk)}
    (h : ∀ disk value after, action disk = .ok (value, after) → after.refusals = disk.refusals) :
    Spends Disk.refusals (step path action) := by
  refine (spends_attempt h).bind fun found => ?_
  cases found with
  | error cause => exact spends_throw _
  | ok value => exact spends_pure value

theorem spends_promote (parent path content : String) (temporary : Disk.Place) :
    Spends Disk.refusals (promote parent path content temporary) := by
  refine (spends_step _ fun disk value after h => ?_).bind fun _ =>
    (spends_step _ fun disk value after h => ?_).bind fun _ =>
      spends_step _ fun disk value after h => ?_
  · rw [← (Prod.mk.inj (Except.ok.inj h)).2]
    rfl
  · rw [← (Prod.mk.inj (Except.ok.inj h)).2]
  · obtain ⟨renamed, hr, h⟩ := Result.bind_eq_ok_iff.mp h
    obtain ⟨_, _, -, -, -, -, rfl⟩ := Disk.rename_eq_ok_iff.mp hr
    rw [← (Prod.mk.inj (Except.ok.inj h)).2]
    rfl

theorem spends_writeFile (path content : String) :
    Spends Disk.refusals (writeFile path content) := by
  unfold writeFile
  split
  · exact spends_throw _
  · rename_i parent _
    refine (spends_step parent fun disk temporary staged h => ?_).bind fun temporary => ?_
    · obtain ⟨-, -, -, rfl⟩ := Disk.createTemporary_eq_ok h
      rfl
    · refine (spends_promote _ _ _ _).tryCatch fun e => Spends.bind (α := PUnit) ?_ fun _ => ?_
      · exact fun disk => List.suffix_rfl
      · exact spends_throw e

end OnDisk

/-! ## Steps of a transaction -/

namespace Transaction

/-- The refusals that are left in a transaction. -/
def refusals (t : Transaction) : List (Option IoCause) := t.disk.refusals

theorem spends_onDisk {steps : OnDisk α} (h : Spends Disk.refusals steps) :
    Spends refusals (onDisk steps) :=
  fun t => h t.disk

theorem spends_record (change : Change) : Spends refusals (record change) :=
  fun _ => List.suffix_rfl

/-- A step that only looks at the disk. -/
theorem spends_look (look : Disk → Except IoCause α) :
    ∀ disk value after, (do return (← look disk, disk)) = Except.ok (ε := IoCause) (value, after) →
      Disk.refusals after = disk.refusals := by
  intro disk value after h
  obtain ⟨found, -, h⟩ := Result.bind_eq_ok_iff.mp h
  rw [← (Prod.mk.inj (Except.ok.inj h)).2]

theorem spends_createDirectory (path : String) : Spends refusals (createDirectory path) := by
  refine (spends_onDisk (OnDisk.spends_attempt fun disk value after h => ?_)).bind fun made => ?_
  · obtain ⟨made, hm, h⟩ := Result.bind_eq_ok_iff.mp h
    obtain ⟨place, -, -, rfl⟩ := Disk.createDirectory_eq_ok hm
    rw [← (Prod.mk.inj (Except.ok.inj h)).2]
    rfl
  · rcases made with cause | _
    · cases cause
      case alreadyExists => exact spends_pure ()
      all_goals exact spends_throw _
    · exact spends_record _

theorem spends_get_bind {next : Transaction → Writing α} (h : ∀ t, Spends refusals (next t)) :
    Spends refusals (get >>= next) :=
  fun t => h t t

theorem spends_remember (path : String) : Spends refusals (remember path) := by
  refine spends_get_bind fun t => ?_
  split
  · exact spends_pure ()
  · split
    · exact (spends_onDisk (OnDisk.spends_step path (spends_look fun disk => disk.read path))).bind
        fun former => spends_record _
    · exact spends_record _

theorem spends_writeFile (path content : String) : Spends refusals (writeFile path content) :=
  (spends_remember path).bind fun _ => spends_onDisk (OnDisk.spends_writeFile path content)

/-- Everything that a writer does uses refusals up from the front. -/
theorem compositional_spends :
    PackageWriter.Compositional fun {_} steps => Spends refusals steps where
  ofPure := spends_pure
  ofThrow := spends_throw
  bind := Spends.bind
  getBind := spends_get_bind
  look look := spends_onDisk (OnDisk.spends_attempt (spends_look look))
  createDirectory := spends_createDirectory
  writeFile := spends_writeFile

/-! ## Rollbacks -/

/-- Taking a change back is not refused, and uses no refusal up. -/
theorem undo_refusals (disk : Disk) (change : Change) :
    (undo disk change).refusals = disk.refusals := by
  unfold undo
  dsimp only
  split
  · rename_i after h
    cases change with
    | createdDirectory path =>
        obtain ⟨_, -, -, -, rfl⟩ := Disk.removeDirectory_eq_ok (Result.mapError_eq_ok_iff.mp h)
        rfl
    | createdFile path =>
        obtain ⟨_, _, -, -, -, rfl⟩ := Disk.removeFile_eq_ok (Result.mapError_eq_ok_iff.mp h)
        rfl
    | replacedFile path former =>
        -- steps that nothing hinders put the refusals back
        unfold Disk.writeAtomic OnDisk.unhindered at h
        dsimp only at h
        split at h
        · rename_i heq
          rw [← Except.ok.inj h, ← (Prod.mk.inj heq).2]
        · exact absurd h (by simp)
  · rfl

theorem rollback_refusals (t : Transaction) : t.rollback.refusals = t.disk.refusals := by
  obtain ⟨disk, log⟩ := t
  unfold rollback
  dsimp only
  induction log generalizing disk with
  | nil => rfl
  | cons change log ih => rw [List.foldl_cons, ih, undo_refusals]

/-- Steps that are run as one change use refusals up from the front, whether they fail or not. -/
theorem refusals_suffix_atomically {steps : Writing α} (h : Spends refusals steps) (disk : Disk) :
    (atomically steps disk).2.refusals <:+ disk.refusals := by
  have hs := h (.start disk)
  unfold atomically
  rcases hrun : (steps.run).run (.start disk) with ⟨e | value, t⟩
  · rw [show steps (.start disk) = _ from hrun] at hs
    show t.rollback.refusals <:+ disk.refusals
    rw [rollback_refusals]
    exact hs
  · rw [show steps (.start disk) = _ from hrun] at hs
    exact hs

end Transaction

/-- Writing a stub uses refusals up from the front. -/
theorem PackageWriter.refusals_suffix_write (w : PackageWriter) (stub : Stub) (disk : Disk) :
    (w.write stub disk).2.refusals <:+ disk.refusals := by
  unfold write
  split
  · exact List.suffix_rfl
  · exact Transaction.refusals_suffix_atomically
      (Transaction.compositional_spends.writeIn stub) disk

end StubGen
