import StubGen.Proofs.Package.Rollback

/-!
# Steps of a transaction that can be taken back

A transaction that was begun on a disk is revertible when its log reverts the disk to the
tree of that time. Steps are safe when they keep it revertible, and leave something that
can be rolled back to the beginning where they fail: `Safe`. Making directories, writing
files and reading are safe, and what is put together of safe steps is safe.
-/

namespace StubGen.Transaction

open Disk (Place Node)
open Disk.Tree (KeepsDirectories)

variable {start disk : Disk} {path content : String} {t : Transaction} {α β : Type}

/-! ## Revertible transactions -/

/-- The log of a transaction leads back to the disk that it was begun on. -/
structure Revertible (start : Disk) (t : Transaction) : Prop where
  wellFormed : t.disk.tree.WellFormed
  reverts : Reverts start.tree t.log t.disk
  /-- Only the tree and the refusals change. -/
  seat : ∃ tree refusals, t.disk = start.turned tree refusals

/-- Rolling a transaction back gives the disk that it was begun on, but for the refusals used up. -/
def RollsBack (start : Disk) (t : Transaction) : Prop :=
  ∃ refusals, t.rollback = start.turned start.tree refusals

theorem revertible_start (h : disk.tree.WellFormed) : Revertible disk (.start disk) :=
  ⟨h, .nothing rfl, disk.tree, disk.refusals, rfl⟩

theorem Revertible.rollsBack (h : Revertible start t) : RollsBack start t := by
  obtain ⟨tree, refusals, hseat⟩ := h.seat
  refine ⟨refusals, ?_⟩
  rw [rollback, h.reverts.rollback_eq, hseat]
  rfl

theorem Revertible.turned (h : Revertible start t) (refusals : List (Option IoCause)) :
    Revertible start { t with disk := t.disk.turned t.disk.tree refusals } := by
  obtain ⟨tree, _, hseat⟩ := h.seat
  refine ⟨h.wellFormed, h.reverts.turned refusals, tree, refusals, ?_⟩
  show t.disk.turned t.disk.tree refusals = start.turned tree refusals
  rw [hseat]
  rfl

/-- A change that does nothing when it is taken back may be logged before a rollback. -/
theorem Revertible.rollsBack_of_undo (h : Revertible start t) {change : Change}
    (hu : ∀ refusals, undo (t.disk.turned t.disk.tree refusals) change =
      t.disk.turned t.disk.tree refusals) (refusals : List (Option IoCause)) :
    RollsBack start ⟨t.disk.turned t.disk.tree refusals, change :: t.log⟩ := by
  obtain ⟨left, hback⟩ := (h.turned refusals).rollsBack
  refine ⟨left, ?_⟩
  rw [← hback, rollback, rollback, List.foldl_cons, hu]

/-! ## Safe steps -/

/-- Steps that keep a transaction revertible, and where they fail, one that rolls back. -/
structure Safe (start : Disk) (steps : Writing α) : Prop where
  run : ∀ t, Revertible start t →
    match steps t with
    | (.ok _, after) => Revertible start after
    | (.error _, after) => RollsBack start after

theorem safe_pure (a : α) : Safe start (pure a) := ⟨fun _ h => h⟩

theorem safe_throw (e : PackageError) : Safe start (throw e : Writing α) :=
  ⟨fun _ h => h.rollsBack⟩

theorem Safe.bind {steps : Writing α} {next : α → Writing β} (h : Safe start steps)
    (hn : ∀ a, Safe start (next a)) : Safe start (steps >>= next) := by
  refine ⟨fun t ht => ?_⟩
  have hs := h.run t ht
  rw [Result.run_bind]
  cases hrun : steps t with
  | mk result after =>
      rw [hrun] at hs
      cases result with
      | ok a => exact (hn a).run after hs
      | error e => exact hs

theorem safe_get_bind {next : Transaction → Writing β} (hn : ∀ t, Safe start (next t)) :
    Safe start (get >>= next) := ⟨fun t ht => (hn t).run t ht⟩

/-- Steps that keep a transaction revertible even where they fail are safe. -/
theorem safe_of_revertible {steps : Writing α}
    (h : ∀ t, Revertible start t → Revertible start (steps t).2) : Safe start steps := by
  refine ⟨fun t ht => ?_⟩
  have hafter := h t ht
  split <;> rename_i hrun <;> rw [hrun] at hafter
  · exact hafter
  · exact hafter.rollsBack

/-- A step that only looks at the disk is safe, whether it gives something or fails. -/
theorem safe_attempt_look (look : Disk → Except IoCause α) :
    Safe start (onDisk (.attempt fun disk => return (← look disk, disk))) := by
  refine ⟨fun t ht => ?_⟩
  unfold onDisk
  rcases OnDisk.attempt_cases (fun disk => return (← look disk, disk)) t.disk with
    ⟨cause, h⟩ | ⟨value, after, ha, h⟩
  · rw [h]
    exact ht.turned _
  · rw [h]
    obtain ⟨found, -, ha⟩ := Result.bind_eq_ok_iff.mp ha
    have hafter := (Prod.mk.inj (Result.pure_eq_ok_iff.mp ha)).2
    rw [← hafter]
    exact ht.turned _

/-! ## Making directories -/

/-- A new directory can be taken back. -/
theorem Revertible.createDirectory {after : Disk} (h : Revertible start t)
    (hc : t.disk.createDirectory path = .ok after) :
    Revertible start ⟨after, .createdDirectory path :: t.log⟩ := by
  obtain ⟨place, he, hg, rfl⟩ := Disk.createDirectory_eq_ok hc
  have hfree : t.disk.tree.get? place ≠ some .directory := by simp [hg]
  have hne := Disk.ne_nil_of_place? he
  have hkeep : KeepsDirectories t.disk.tree (t.disk.tree.put place .directory) :=
    Disk.Tree.keepsDirectories_put hfree
  obtain ⟨tree, refusals, hseat⟩ := h.seat
  refine ⟨h.wellFormed.put (Disk.get?_dropLast_of_place? he) hfree, ?_,
    t.disk.tree.put place .directory, refusals, ?_⟩
  · refine .directory (Disk.place?_mono hkeep he) (Disk.Tree.get?_put_self hne)
      (Disk.Tree.hasChildren_put (fun h => h.2 rfl) (h.wellFormed.hasChildren_eq_false hg)) ?_
    show Reverts _ _ (t.disk.withTree ((t.disk.tree.put place .directory).erase place))
    rw [Disk.Tree.erase_put_self, Disk.Tree.erase_of_get?_none hg]
    exact h.reverts
  · show t.disk.withTree (t.disk.tree.put place .directory) = _
    rw [hseat]
    rfl

/-- Making a directory keeps a transaction revertible, also where it fails. -/
theorem Revertible.after_createDirectory (h : Revertible start t) (path : String) :
    Revertible start (Transaction.createDirectory path t).2 := by
  unfold Transaction.createDirectory
  rw [Result.run_bind]
  unfold onDisk
  rcases OnDisk.attempt_cases (fun disk => return ((), ← disk.createDirectory path)) t.disk with
    ⟨cause, hrun⟩ | ⟨_, after, ha, hrun⟩
  · rw [hrun]
    -- a refusal that says the directory is there is passed over like the fact itself
    cases cause <;> exact h.turned _
  · rw [hrun]
    obtain ⟨made, hc, ha⟩ := Result.bind_eq_ok_iff.mp ha
    have hafter := (Prod.mk.inj (Result.pure_eq_ok_iff.mp ha)).2
    subst hafter
    exact (h.turned _).createDirectory hc

theorem safe_createDirectory (path : String) : Safe start (createDirectory path) :=
  safe_of_revertible fun _ ht => ht.after_createDirectory path

/-! ## Writing files -/

/-- What is remembered of a file before it is written. -/
inductive Remembers (path : String) (t : Transaction) : Transaction → Prop where
  | already {change : Change} : change ∈ t.log → Disk.Path.same change.path path = true →
      Remembers path t t
  | former {former : String} (refusals : List (Option IoCause)) :
      t.disk.read path = .ok former →
      Remembers path t ⟨t.disk.turned t.disk.tree refusals, .replacedFile path former :: t.log⟩
  | absent : t.disk.isThere path = false →
      Remembers path t ⟨t.disk, .createdFile path :: t.log⟩

/-- Where a file cannot be remembered, nothing has changed. -/
theorem remember_cases (path : String) (t : Transaction) :
    (∃ e refusals, remember path t =
      (.error e, { t with disk := t.disk.turned t.disk.tree refusals })) ∨
    (∃ after, Remembers path t after ∧ remember path t = (.ok (), after)) := by
  unfold remember
  rw [Result.run_bind, Result.run_get]
  dsimp only
  -- a path that the log has need not be remembered again
  by_cases hlog : (t.log.any fun change => Disk.Path.same change.path path) = true
  · rw [if_pos hlog]
    obtain ⟨change, hm, hs⟩ := List.any_eq_true.mp hlog
    exact .inr ⟨t, .already hm hs, rfl⟩
  rw [if_neg hlog]
  by_cases hthere : t.disk.isThere path = true
  · rw [if_pos hthere, Result.run_bind]
    unfold onDisk
    rcases OnDisk.step_cases path (fun disk => return (← disk.read path, disk)) t.disk with
      ⟨e, h⟩ | ⟨former, after, ha, h⟩
    · exact .inl ⟨e, t.disk.refusals.tail, by rw [h]⟩
    · obtain ⟨content, hread, ha⟩ := Result.bind_eq_ok_iff.mp ha
      obtain ⟨rfl, rfl⟩ := Prod.mk.inj (Result.pure_eq_ok_iff.mp ha)
      refine .inr ⟨_, .former t.disk.refusals.tail hread, ?_⟩
      rw [h]
      rfl
  · have hgone : t.disk.isThere path = false := by simpa using hthere
    rw [if_neg hthere]
    exact .inr ⟨_, .absent hgone, rfl⟩

/-- A file that has been remembered and could not be written is no trouble to a rollback. -/
theorem Remembers.rollsBack {after : Transaction} (hr : Remembers path t after)
    (h : Revertible start t) (refusals : List (Option IoCause)) :
    RollsBack start { after with disk := after.disk.turned after.disk.tree refusals } := by
  cases hr with
  | already _ _ => exact (h.turned refusals).rollsBack
  | former _ hread =>
      exact h.rollsBack_of_undo (fun _ => undo_replacedFile_of_read h.wellFormed hread) refusals
  | absent hgone =>
      exact h.rollsBack_of_undo (fun _ => undo_createdFile_of_not_isThere hgone) refusals

/-- Remembering changes no file. -/
theorem Remembers.disk_eq {after : Transaction} (hr : Remembers path t after) :
    ∃ left, after.disk = t.disk.turned t.disk.tree left := by
  cases hr with
  | already _ _ => exact ⟨t.disk.refusals, rfl⟩
  | former left _ => exact ⟨left, rfl⟩
  | absent _ => exact ⟨t.disk.refusals, rfl⟩

/-- What has been remembered of a file takes back what is written there. -/
theorem Remembers.reverts {after : Transaction} {place : Place} (hr : Remembers path t after)
    (h : Revertible start t) (hw : Writes t.disk path place) (content : String) :
    Reverts start.tree after.log
      (t.disk.withTree (t.disk.tree.put place (.file content))) := by
  have hne := Disk.ne_nil_of_place? hw.entry
  have hkeep : KeepsDirectories t.disk.tree (t.disk.tree.put place (.file content)) :=
    Disk.Tree.keepsDirectories_put hw.free
  have hself := @Disk.Tree.get?_put_self t.disk.tree place (.file content) hne
  cases hr with
  | already hm hs =>
      -- the log may name the file by another text, but one of the same parts
      obtain ⟨found, he⟩ := h.reverts.place?_of_mem hm
      have hplace : found = place := Disk.place_eq_of_same he hw.entry hs
      subst hplace
      exact h.reverts.put hm he hw.free content
  | @former former left hread =>
      obtain ⟨found, he, hg, -⟩ := Disk.place?_of_read h.wellFormed hread
      have hplace : found = place := Option.some.inj (Except.ok.inj (he.symm.trans hw.entry))
      subst hplace
      refine .content (hw.mono hkeep ?_) ?_ ?_
      · rw [hself]
        simp
      · show ((t.disk.tree.put found (.file content)).get? found).isSome
        rw [hself]
        rfl
      · show Reverts start.tree t.log
          (t.disk.withTree ((t.disk.tree.put found (.file content)).put found (.file former)))
        rw [Disk.Tree.put_put, Disk.Tree.put_of_get? hne hg]
        exact h.reverts
  | absent hgone =>
      -- what is there would have been found, since the path asks for no directory
      have hfree := Disk.get?_of_not_isThere hw.entry hw.plain hgone
      refine .file (hw.mono hkeep ?_).entry hw.plain ?_ ?_
      · rw [hself]
        simp
      · show (t.disk.tree.put place (.file content)).get? place ≠ some .directory
        rw [hself]
        simp
      · show Reverts start.tree t.log
          (t.disk.withTree ((t.disk.tree.put place (.file content)).erase place))
        rw [Disk.Tree.erase_put_self, Disk.Tree.erase_of_get?_none hfree]
        exact h.reverts

/-- A file that has been remembered can be taken back when it has been written. -/
theorem Remembers.revertible {after : Transaction} {place : Place} (hr : Remembers path t after)
    (h : Revertible start t) (hw : Writes after.disk path place) (content : String)
    (refusals : List (Option IoCause)) :
    Revertible start
      ⟨after.disk.turned (after.disk.tree.put place (.file content)) refusals, after.log⟩ := by
  obtain ⟨left, hdisk⟩ := hr.disk_eq
  rw [hdisk] at hw ⊢
  have hw' : Writes t.disk path place := ⟨hw.entry, hw.plain, hw.free, hw.staged⟩
  obtain ⟨tree, first, hseat⟩ := h.seat
  refine ⟨h.wellFormed.put (Disk.get?_dropLast_of_place? hw.entry) hw.free,
    (hr.reverts h hw' content).turned refusals, t.disk.tree.put place (.file content), refusals, ?_⟩
  show t.disk.turned (t.disk.tree.put place (.file content)) refusals = _
  rw [hseat]
  rfl

theorem safe_writeFile (path content : String) : Safe start (writeFile path content) := by
  refine ⟨fun t ht => ?_⟩
  unfold writeFile
  rw [Result.run_bind]
  rcases remember_cases path t with ⟨e, refusals, h⟩ | ⟨after, hr, h⟩
  · rw [h]
    exact (ht.turned refusals).rollsBack
  · rw [h]
    dsimp only
    unfold onDisk
    rcases OnDisk.writeFile_cases path content after.disk with
      ⟨e, refusals, hf⟩ | ⟨place, refusals, hw, hf⟩
    · rw [hf]
      exact hr.rollsBack ht refusals
    · rw [hf]
      exact hr.revertible ht hw content refusals

end StubGen.Transaction
