import StubGen.Proofs.Package.Transaction

/-!
# Carrying on after a failure

A caller need not give up when a call of a transaction fails. Making directories logs only
what has been made, so it can fail in any way. A file is logged before it is written, and
stays logged where that fails. If its path names an entry of a directory that is there
that does no harm: `Revertible.after_writeFile`. Otherwise the directory may be made
later, and is then logged after the file that is to stand in it; taken back in that order
it is not empty, and stays: `rollback_inexact`. But for such files a rollback is exact,
whatever the calls come to: `rollback_exact`.
-/

namespace StubGen

open Disk (Place Node)

variable {start disk : Disk} {path : String} {t after : Transaction}

/-- A path names an entry of a directory that is there, with room for a temporary file. -/
structure Housed (disk : Disk) (path : String) : Prop where
  entry : ∃ place, disk.place? path = .ok (some place)
  plain : Disk.Path.saysDirectory path = false
  staged : ∃ parent beside, Disk.Path.parent? path = some parent ∧
    disk.place? (disk.temporaryPath parent) = .ok (some beside)

namespace Transaction

/-! ## Files that are not written -/

/-- What is remembered of a file that has a place does no harm if the file is not written. -/
theorem Remembers.revertible_unwritten (hr : Remembers path t after) (h : Revertible start t)
    (hh : Housed t.disk path) : Revertible start after := by
  obtain ⟨place, he⟩ := hh.entry
  have hne := Disk.ne_nil_of_place? he
  obtain ⟨tree, refusals, hseat⟩ := h.seat
  cases hr with
  | already _ _ => exact h
  -- writing the former content back, or removing what is not there, changes nothing
  | @former former left hread =>
      obtain ⟨found, hfound, hg, -⟩ := Disk.place?_of_read h.wellFormed hread
      have hsame : found = place := Option.some.inj (Except.ok.inj (hfound.symm.trans he))
      subst hsame
      have hfree : t.disk.tree.get? found ≠ some .directory := by simp [hg]
      have hw : Writes (t.disk.turned t.disk.tree left) path found :=
        ⟨he, hh.plain, hfree, hh.staged⟩
      refine ⟨h.wellFormed, .content hw ?_ ?_, (h.turned left).seat⟩
      · show (t.disk.tree.get? found).isSome
        rw [hg]
        rfl
      · show Reverts start.tree t.log
          ((t.disk.turned t.disk.tree left).withTree (t.disk.tree.put found (.file former)))
        rw [Disk.Tree.put_of_get? hne hg]
        exact h.reverts.turned left
  | absent hgone =>
      have hfree := Disk.get?_of_not_isThere he hh.plain hgone
      refine ⟨h.wellFormed, .file he hh.plain (by simp [hfree]) ?_, h.seat⟩
      rw [Disk.Tree.erase_of_get?_none hfree]
      exact h.reverts

/-- **Writing a file that has a place can be taken back,** also where it fails. -/
theorem Revertible.after_writeFile (h : Revertible start t) (hh : Housed t.disk path)
    (content : String) : Revertible start (writeFile path content t).2 := by
  unfold writeFile
  rw [Result.run_bind]
  rcases remember_cases path t with ⟨e, refusals, hrun⟩ | ⟨after, hr, hrun⟩
  · rw [hrun]
    exact h.turned refusals
  · rw [hrun]
    dsimp only
    unfold onDisk
    rcases OnDisk.writeFile_cases path content after.disk with
      ⟨e, refusals, hf⟩ | ⟨place, refusals, hw, hf⟩
    · rw [hf]
      exact (hr.revertible_unwritten h hh).turned refusals
    · rw [hf]
      exact hr.revertible h hw content refusals

theorem Revertible.after_createDirectories (h : Revertible start t) (path : String) :
    Revertible start (createDirectories path t).2 := by
  suffices hall : ∀ paths : List String, ∀ t, Revertible start t →
      Revertible start (paths.forM Transaction.createDirectory t).2 from hall _ t h
  intro paths
  induction paths with
  | nil => exact fun t ht => ht
  | cons first paths ih =>
      intro t ht
      have hfirst := ht.after_createDirectory first
      show Revertible start ((Transaction.createDirectory first >>= fun _ =>
        paths.forM Transaction.createDirectory) t).2
      rw [Result.run_bind]
      split
      · rename_i hrun
        rw [hrun] at hfirst
        exact ih _ hfirst
      · rename_i hrun
        rw [hrun] at hfirst
        exact hfirst

/-! ## Calls one after another -/

/-- What a caller can ask of a transaction. -/
inductive Call where
  | createDirectories (path : String)
  | writeFile (path content : String)
deriving DecidableEq, Repr

namespace Call

def run : Call → Writing Unit
  | .createDirectories path => Transaction.createDirectories path
  | .writeFile path content => Transaction.writeFile path content

/-- Whether it can be carried on after a call: it makes directories or writes a file, or fails to
write a file that has a place. -/
def Settled (t : Transaction) : Call → Prop
  | .createDirectories _ => True
  | .writeFile path content =>
    (Transaction.writeFile path content t).1 = .ok () ∨ Housed t.disk path

theorem safe_run (call : Call) : Safe start call.run := by
  cases call with
  | createDirectories path => exact safe_of_revertible fun _ ht => ht.after_createDirectories path
  | writeFile path content => exact safe_writeFile path content

theorem Settled.revertible {call : Call} (hs : call.Settled t) (h : Revertible start t) :
    Revertible start (call.run t).2 := by
  cases call with
  | createDirectories path => exact h.after_createDirectories path
  | writeFile path content =>
      rcases hs with hok | hh
      · have hrun := (safe_writeFile path content).run t h
        split at hrun <;> rename_i heq
        · show Revertible start (Transaction.writeFile path content t).2
          rwa [heq]
        · rw [heq] at hok
          exact absurd hok (by simp)
      · exact h.after_writeFile hh content

end Call

/-- A transaction after calls, whatever each of them comes to. -/
def proceed (t : Transaction) (calls : List Call) : Transaction :=
  calls.foldl (fun t call => (call.run t).2) t

/-- It can be carried on after every call but the last. -/
def CarriesOn : Transaction → List Call → Prop
  | _, [] => True
  | _, [_] => True
  | t, call :: next :: calls => call.Settled t ∧ CarriesOn (call.run t).2 (next :: calls)

theorem rollsBack_proceed (h : Revertible start t) {calls : List Call} (hc : CarriesOn t calls) :
    RollsBack start (t.proceed calls) := by
  induction calls generalizing t with
  | nil => exact h.rollsBack
  | cons call calls ih =>
      cases calls with
      | nil =>
          have hlast := call.safe_run.run t h
          show RollsBack start (call.run t).2
          split at hlast <;> rename_i hrun <;> rw [hrun]
          · exact hlast.rollsBack
          · exact hlast
      | cons next calls => exact ih (hc.1.revertible h) hc.2

/-- **A rollback is exact** after any calls of a transaction, whatever they come to, as long as no
file is written that has no place yet, unless it is the last call. -/
theorem rollback_exact (disk : Disk) (hwf : disk.tree.WellFormed) (calls : List Call)
    (h : CarriesOn (.start disk) calls) : RollsBack disk ((Transaction.start disk).proceed calls) :=
  rollsBack_proceed (revertible_start hwf) h

/-- A file in the place of a directory is refused, and the calls behind it can be taken back. -/
theorem rollback_exact_occupied :
    let disk : Disk := ⟨Disk.Tree.empty.put ["d"] .directory, [], none, []⟩
    let calls : List Call := [.writeFile "d" "x", .createDirectories "a", .writeFile "a/b" "x"]
    CarriesOn (.start disk) calls ∧ RollsBack disk ((Transaction.start disk).proceed calls) := by
  intro disk calls
  have hwf : disk.tree.WellFormed := Disk.Tree.wellFormed_empty.put rfl (by decide)
  have hplace : disk.place? "d" = .ok (some ["d"]) :=
    Result.eq_ok_of_toOption (by decide)
  have hbeside : disk.place? (disk.temporaryPath "") = .ok (some [".tmpXXXXXX"]) :=
    Result.eq_ok_of_toOption (by decide)
  have hhoused : Housed disk "d" :=
    ⟨⟨_, hplace⟩, by decide, "", _, by decide, hbeside⟩
  have hcarries : CarriesOn (.start disk) calls := ⟨.inr hhoused, trivial, trivial⟩
  exact ⟨hcarries, rollback_exact disk hwf calls hcarries⟩

/-- **A rollback is not exact** where a file could not be written for want of its directory, and
could be once that was made: the directory stays. -/
theorem rollback_inexact :
    ¬ ∀ (disk : Disk) (calls : List Call), disk.tree.WellFormed →
      RollsBack disk ((Transaction.start disk).proceed calls) := by
  intro h
  let disk : Disk := ⟨Disk.Tree.empty, [], none, []⟩
  obtain ⟨refusals, hback⟩ :=
    h disk [.writeFile "a/b" "x", .createDirectories "a", .writeFile "a/b" "x"]
      Disk.Tree.wellFormed_empty
  have hstays : ((Transaction.start disk).proceed
      [.writeFile "a/b" "x", .createDirectories "a", .writeFile "a/b" "x"]).rollback.tree.get?
        ["a"] = some .directory := by decide
  rw [hback] at hstays
  have hgone : Disk.Tree.empty.get? ["a"] = none := rfl
  exact absurd (hgone.symm.trans hstays) (by decide)

end Transaction

end StubGen
