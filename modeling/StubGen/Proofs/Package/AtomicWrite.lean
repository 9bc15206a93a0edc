import StubGen.Package.AtomicWrite
import StubGen.Proofs.Disk.Walk

/-!
# A file is written or nothing is changed

Writing a file takes four steps, each of which can fail. Whichever does, the tree is the
same as before, without a temporary file; and if none does, the tree differs by that one
file only: `writeFile_cases`. Whether a file can be written depends on the directories of
the tree and on what is at its own place, not on other files: `Writes.mono`.
-/

namespace StubGen

open Disk (Place Node)
open Disk.Tree (KeepsDirectories)

variable {disk : Disk} {path content : String} {place : Place}

namespace Disk

/-- The path of the temporary file in a directory. -/
def temporaryPath (disk : Disk) (directory : String) : String :=
  Path.join (Path.join ("/" ++ Text.join "/" disk.workingDirectory) directory) temporaryName

/-- The disk with another tree, when other steps are refused. -/
def turned (disk : Disk) (tree : Tree) (refusals : List (Option IoCause)) : Disk :=
  { disk with tree := tree, refusals := refusals }

theorem nextRefusal_snd (disk : Disk) :
    disk.nextRefusal.2 = disk.turned disk.tree disk.refusals.tail := by
  obtain ⟨tree, workingDirectory, home, refusals⟩ := disk
  cases refusals <;> rfl

end Disk

/-- A file can be written at a path, whose entry is at a place. -/
structure Writes (disk : Disk) (path : String) (place : Place) : Prop where
  entry : disk.place? path = .ok (some place)
  plain : Disk.Path.saysDirectory path = false
  free : disk.tree.get? place ≠ some .directory
  /-- There is room for the temporary file. -/
  staged : ∃ parent beside, Disk.Path.parent? path = some parent ∧
    disk.place? (disk.temporaryPath parent) = .ok (some beside)

theorem Writes.mono {tree : Disk.Tree} (h : Writes disk path place)
    (hk : KeepsDirectories disk.tree tree) (hf : tree.get? place ≠ some .directory) :
    Writes (disk.withTree tree) path place := by
  obtain ⟨parent, beside, hp, hb⟩ := h.staged
  exact ⟨Disk.place?_mono hk h.entry, h.plain, hf, parent, beside, hp, Disk.place?_mono hk hb⟩

/-! ## Single steps -/

namespace Disk

theorem createTemporary_eq_ok {after : Disk} {temporary : Place} {directory : String}
    (h : disk.createTemporary directory = .ok (temporary, after)) :
    (∃ beside, disk.place? (disk.temporaryPath directory) = .ok (some beside)) ∧
      temporary ≠ [] ∧ disk.tree.get? temporary = none ∧
      after = disk.withTree (disk.tree.put temporary (.file "")) := by
  unfold createTemporary at h
  obtain ⟨found, he, h⟩ := Result.bind_eq_ok_iff.mp h
  cases found with
  | none => exact absurd h Result.throw_ne_ok
  | some beside =>
      have h := Prod.mk.inj (Result.pure_eq_ok_iff.mp h)
      rw [← h.1, ← h.2]
      exact ⟨⟨beside, he⟩, Tree.freshPlace_ne_nil _ _, Tree.get?_freshPlace _ _, rfl⟩

theorem createTemporary_of_place? {beside : Place} {directory : String}
    (h : disk.place? (disk.temporaryPath directory) = .ok (some beside)) :
    ∃ temporary after, disk.createTemporary directory = .ok (temporary, after) := by
  unfold temporaryPath at h
  unfold createTemporary
  simp [h, bind, Except.bind, pure, Except.pure]

theorem rename_eq_ok_iff {after : Disk} {source : Place} :
    disk.rename source path = .ok after ↔
      ∃ place node, disk.place? path = .ok (some place) ∧ Path.saysDirectory path = false ∧
        disk.tree.get? place ≠ some .directory ∧ disk.tree.get? source = some node ∧
        after = disk.withTree ((disk.tree.erase source).put place node) := by
  unfold rename
  rw [Result.bind_eq_ok_iff]
  constructor
  · rintro ⟨found, he, h⟩
    cases found with
    | none => exact absurd h Result.throw_ne_ok
    -- a file is not renamed to a directory, nor by a path that asks for one
    | some place =>
        cases hs : Path.saysDirectory path with
        | true =>
            simp [hs, bind, Except.bind, throw, throwThe, MonadExceptOf.throw] at h
        | false =>
            simp only [hs, Bool.false_eq_true, if_false] at h
            split at h
            · exact absurd h Result.throw_ne_ok
            · exact absurd h Result.throw_ne_ok
            · rename_i node hsource hdir
              exact ⟨place, node, he, rfl, hdir, hsource, (Result.pure_eq_ok_iff.mp h).symm⟩
  · rintro ⟨place, node, he, hs, hf, hn, rfl⟩
    refine ⟨some place, he, ?_⟩
    simp only [hs, Bool.false_eq_true, if_false, hn]
    rfl

end Disk

namespace OnDisk

open Result

variable {α : Type}

theorem attempt_eq (action : Disk → Except IoCause (α × Disk)) (disk : Disk) :
    attempt action disk =
      match disk.nextRefusal.1, action (disk.turned disk.tree disk.refusals.tail) with
      | some cause, _ => (.ok (.error cause), disk.turned disk.tree disk.refusals.tail)
      | none, .error cause => (.ok (.error cause), disk.turned disk.tree disk.refusals.tail)
      | none, .ok (value, after) => (.ok (.ok value), after) := by
  rw [← disk.nextRefusal_snd]
  unfold attempt
  simp only [run_bind, run_get]
  cases disk.nextRefusal with
  | mk refusal left =>
      simp only [run_set]
      cases refusal with
      | some cause => rfl
      | none =>
          dsimp only
          cases action left <;> rfl

/-- A step fails with nothing changed, or it is taken. -/
theorem attempt_cases (action : Disk → Except IoCause (α × Disk)) (disk : Disk) :
    (∃ cause, attempt action disk =
      (.ok (.error cause), disk.turned disk.tree disk.refusals.tail)) ∨
    (∃ value after, action (disk.turned disk.tree disk.refusals.tail) = .ok (value, after) ∧
      attempt action disk = (.ok (.ok value), after)) := by
  rw [attempt_eq]
  cases disk.nextRefusal.1 with
  | some cause => exact .inl ⟨cause, rfl⟩
  | none =>
      cases action (disk.turned disk.tree disk.refusals.tail) with
      | error cause => exact .inl ⟨cause, rfl⟩
      | ok found => exact .inr ⟨found.1, found.2, rfl, rfl⟩

theorem step_cases (path : String) (action : Disk → Except IoCause (α × Disk)) (disk : Disk) :
    (∃ e, step path action disk = (.error e, disk.turned disk.tree disk.refusals.tail)) ∨
    (∃ value after, action (disk.turned disk.tree disk.refusals.tail) = .ok (value, after) ∧
      step path action disk = (.ok value, after)) := by
  unfold step
  rw [run_bind]
  rcases attempt_cases action disk with ⟨cause, h⟩ | ⟨value, after, ha, h⟩
  · rw [h]
    exact .inl ⟨_, rfl⟩
  · rw [h]
    exact .inr ⟨value, after, ha, rfl⟩

/-- A step that nothing refuses is taken if it can be. -/
theorem step_of_ok {action : Disk → Except IoCause (α × Disk)} {value : α} {after : Disk}
    (hr : disk.refusals = []) (h : action disk = .ok (value, after)) :
    step path action disk = (.ok value, after) := by
  obtain ⟨tree, workingDirectory, home, refusals⟩ := disk
  dsimp only at hr
  subst hr
  unfold step
  rw [run_bind, attempt_eq, show Disk.turned _ _ _ = Disk.mk tree workingDirectory home [] from rfl,
    h]
  rfl

/-! ## Filling a temporary file and giving it its name -/

/-- Where giving a temporary file its name fails, nothing but that file has changed. -/
theorem promote_cases {tree : Disk.Tree} {refusals : List (Option IoCause)} {old : String}
    (parent : String) {temporary : Place} (hne : temporary ≠ [])
    (h : tree.get? temporary = some (.file old)) :
    (∃ e node rest, promote parent path content temporary (disk.turned tree refusals) =
      (.error e, disk.turned (tree.put temporary node) rest)) ∨
    (∃ place rest, (disk.withTree (tree.put temporary (.file content))).place? path =
        .ok (some place) ∧
      Disk.Path.saysDirectory path = false ∧
      (tree.put temporary (.file content)).get? place ≠ some .directory ∧
      promote parent path content temporary (disk.turned tree refusals) =
        (.ok (), disk.turned ((tree.erase temporary).put place (.file content)) rest)) := by
  unfold promote
  simp only [run_bind]
  rcases step_cases (Disk.Path.join parent (temporary.getLast?.getD ""))
      (fun disk => return ((), disk.fill temporary content)) (disk.turned tree refusals) with
    ⟨e, h1⟩ | ⟨_, filled, ha, h1⟩
  · left
    rw [h1]
    exact ⟨e, .file old, refusals.tail, by rw [Disk.Tree.put_of_get? hne h]; rfl⟩
  -- from here on the temporary file is full
  have hfilled : filled = disk.turned (tree.put temporary (.file content)) refusals.tail :=
    (Prod.mk.inj (Except.ok.inj ha)).2.symm
  subst hfilled
  rw [h1]
  dsimp only
  rcases step_cases (Disk.Path.join parent (temporary.getLast?.getD ""))
      (fun disk => return ((), disk))
      (disk.turned (tree.put temporary (.file content)) refusals.tail) with
    ⟨e, h2⟩ | ⟨_, synced, hb, h2⟩
  · left
    rw [h2]
    exact ⟨e, .file content, refusals.tail.tail, rfl⟩
  have hsynced : synced = disk.turned (tree.put temporary (.file content)) refusals.tail.tail :=
    (Prod.mk.inj (Except.ok.inj hb)).2.symm
  subst hsynced
  rw [h2]
  dsimp only
  rcases step_cases path (fun disk => return ((), ← disk.rename temporary path))
      (disk.turned (tree.put temporary (.file content)) refusals.tail.tail) with
    ⟨e, h3⟩ | ⟨_, renamed, hc, h3⟩
  · left
    rw [h3]
    exact ⟨e, .file content, refusals.tail.tail.tail, rfl⟩
  right
  obtain ⟨after, hrename, hc⟩ := bind_eq_ok_iff.mp hc
  have hafter : after = renamed := (Prod.mk.inj (pure_eq_ok_iff.mp hc)).2
  subst hafter
  obtain ⟨place, node, he, hs, hf, hn, hrenamed⟩ := Disk.rename_eq_ok_iff.mp hrename
  have hnode : node = .file content := by
    have hself : (tree.put temporary (.file content)).get? temporary = some node := hn
    rw [Disk.Tree.get?_put_self hne] at hself
    exact (Option.some.inj hself).symm
  refine ⟨place, refusals.tail.tail.tail, he, hs, hf, ?_⟩
  rw [h3, hrenamed, hnode, ← Disk.Tree.erase_put_self tree temporary (.file content)]
  rfl

/-- **Writing a file changes that file or nothing.** -/
theorem writeFile_cases (path content : String) (disk : Disk) :
    (∃ e rest, writeFile path content disk = (.error e, disk.turned disk.tree rest)) ∨
    (∃ place rest, Writes disk path place ∧
      writeFile path content disk =
        (.ok (), disk.turned (disk.tree.put place (.file content)) rest)) := by
  unfold writeFile
  cases hp : Disk.Path.parent? path with
  | none => exact .inl ⟨_, disk.refusals, rfl⟩
  | some parent =>
      simp only [run_bind]
      rcases step_cases parent (fun disk => disk.createTemporary parent) disk with
        ⟨e, h1⟩ | ⟨temporary, staged, ha, h1⟩
      · rw [h1]
        exact .inl ⟨e, _, rfl⟩
      obtain ⟨⟨beside, hb⟩, hne, hfree, hstaged⟩ := Disk.createTemporary_eq_ok ha
      have hfree : disk.tree.get? temporary = none := hfree
      have hstaged : staged =
        disk.turned (disk.tree.put temporary (.file "")) disk.refusals.tail := hstaged
      subst hstaged
      rw [h1]
      dsimp only
      rw [run_tryCatch]
      rcases promote_cases parent hne (Disk.Tree.get?_put_self hne) with
        ⟨e, node, rest, h2⟩ | ⟨place, rest, he, hs, hf, h2⟩
      · left
        rw [h2]
        refine ⟨e, rest, ?_⟩
        show (_, (disk.turned _ rest).discard temporary) = _
        simp only [Disk.discard, Disk.turned, Disk.withTree, Disk.Tree.put_put,
          Disk.Tree.erase_put_self, Disk.Tree.erase_of_get?_none hfree]
      · -- with the temporary file gone again, the tree differs by the file alone
        right
        rw [Disk.Tree.put_put] at he hf
        refine ⟨place, rest, ⟨Disk.place?_mono Disk.Tree.keepsDirectories_of_put he, hs, ?_,
          parent, beside, hp, hb⟩, ?_⟩
        · intro hd
          exact hf (Disk.Tree.keepsDirectories_put (by simp [hfree]) _ hd)
        · rw [h2, Disk.Tree.erase_put_self, Disk.Tree.erase_of_get?_none hfree]

/-- A temporary file that can get its name gets it, if nothing refuses that. -/
theorem promote_of_rename (parent : String) {temporary : Place} {after : Disk}
    (hr : disk.refusals = [])
    (h : (disk.fill temporary content).rename temporary path = .ok after) :
    promote parent path content temporary disk = (.ok (), after) := by
  have hfilled : (disk.fill temporary content).refusals = [] := hr
  have hrename : (do return ((), ← (disk.fill temporary content).rename temporary path)) =
      Except.ok (ε := IoCause) ((), after) := by
    rw [h]
    rfl
  unfold promote
  simp only [run_bind]
  rw [@step_of_ok disk _ _ _ () (disk.fill temporary content) hr rfl]
  dsimp only
  rw [@step_of_ok (disk.fill temporary content) _ _ _ () _ hfilled rfl]
  dsimp only
  rw [step_of_ok hfilled hrename]

/-- A file that can be written is written, if nothing refuses it. -/
theorem writeFile_of_writes (h : Writes disk path place) (hr : disk.refusals = []) :
    writeFile path content disk =
      (.ok (), disk.withTree (disk.tree.put place (.file content))) := by
  obtain ⟨parent, beside, hp, hb⟩ := h.staged
  obtain ⟨temporary, staged, hstage⟩ := Disk.createTemporary_of_place? hb
  obtain ⟨-, hne, hfree, hstaged⟩ := Disk.createTemporary_eq_ok hstage
  subst hstaged
  -- the temporary file is in nobody's way: the path leads where it led before
  have hkeep : KeepsDirectories disk.tree (disk.tree.put temporary (.file content)) :=
    Disk.Tree.keepsDirectories_put (by simp [hfree])
  have hfilled : (disk.withTree (disk.tree.put temporary (.file ""))).fill temporary content =
      disk.withTree (disk.tree.put temporary (.file content)) := by
    simp only [Disk.fill, Disk.withTree, Disk.Tree.put_put]
  have hrename : ((disk.withTree (disk.tree.put temporary (.file ""))).fill temporary
      content).rename temporary path =
      .ok (disk.withTree (disk.tree.put place (.file content))) := by
    rw [hfilled]
    refine Disk.rename_eq_ok_iff.mpr ⟨place, .file content, Disk.place?_mono hkeep h.entry,
      h.plain, ?_, Disk.Tree.get?_put_self hne, ?_⟩
    · exact fun hd => h.free (Disk.Tree.keepsDirectories_of_put _ hd)
    · simp only [Disk.withTree, Disk.Tree.erase_put_self, Disk.Tree.erase_of_get?_none hfree]
  have hstaged : (disk.withTree (disk.tree.put temporary (.file ""))).refusals = [] := hr
  have hcreate : step parent (fun disk => disk.createTemporary parent) disk =
      (.ok temporary, disk.withTree (disk.tree.put temporary (.file ""))) :=
    step_of_ok hr hstage
  unfold writeFile
  rw [hp]
  simp only [run_bind]
  rw [hcreate]
  dsimp only
  rw [run_tryCatch, promote_of_rename parent hstaged hrename]

end OnDisk

end StubGen
