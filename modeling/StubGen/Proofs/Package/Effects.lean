import StubGen.Proofs.Disk.Paths
import StubGen.Proofs.Package.Refusals

/-!
# What steps of a transaction do to the tree

What comes of a step that does not fail: looking changes nothing, a file that is written
is the only thing that is new, and in a directory that is there at most one directory is
made. Refusals may hide a step that was taken in vain, but if none of them says that
something is missing, a file that is there is read: `readOrEmpty_join`.
-/

namespace StubGen

open Disk (Place Node IsPlain)
open Disk.Path (join)

variable {disk : Disk} {tree : Disk.Tree} {path content directory name : String} {place : Place}
  {t after : Transaction} {α : Type}

namespace Disk

/-- A disk has another tree after some steps, and some of its refusals are used up. -/
def Becomes (disk : Disk) (tree : Tree) (after : Disk) : Prop :=
  ∃ refusals, refusals <:+ disk.refusals ∧ after = disk.turned tree refusals

theorem Becomes.tree_eq {after : Disk} (h : disk.Becomes tree after) : after.tree = tree := by
  obtain ⟨_, -, rfl⟩ := h
  rfl

theorem Becomes.trans {tree' : Tree} {between after : Disk} (h : disk.Becomes tree between)
    (h' : between.Becomes tree' after) : disk.Becomes tree' after := by
  obtain ⟨refusals, hr, rfl⟩ := h
  obtain ⟨refusals', hr', rfl⟩ := h'
  exact ⟨refusals', hr'.trans hr, rfl⟩

/-- No refusal says that something is missing. -/
def Candid (disk : Disk) : Prop := some .notFound ∉ disk.refusals

theorem Becomes.candid {after : Disk} (h : disk.Becomes tree after) (hc : disk.Candid) :
    after.Candid := by
  obtain ⟨refusals, hr, rfl⟩ := h
  exact fun hm => hc (hr.subset hm)

theorem Becomes.reaches {after : Disk} (h : disk.Becomes tree after)
    (hk : Tree.KeepsDirectories disk.tree tree) (hr : disk.Reaches path place) :
    after.Reaches path place := by
  obtain ⟨refusals, -, rfl⟩ := h
  exact hr.mono hk

end Disk

namespace Transaction

/-! ## Looking -/

theorem mem_refusals_of_nextRefusal {cause : IoCause} (h : disk.nextRefusal.1 = some cause) :
    some cause ∈ disk.refusals := by
  unfold Disk.nextRefusal at h
  split at h
  · exact absurd h (by simp)
  · rename_i refusal rest hrefusals
    rw [hrefusals, ← h]
    exact List.mem_cons_self

/-- A look at the disk gives what is to be seen there, or why that is refused. -/
theorem look_eq_ok {look : Disk → Except IoCause α} {found : Except IoCause α}
    (hturned : ∀ refusals, look (t.disk.turned t.disk.tree refusals) = look t.disk)
    (h : onDisk (.attempt fun disk => return (← look disk, disk)) t = (.ok found, after)) :
    t.disk.Becomes t.disk.tree after.disk ∧
      (found = look t.disk ∨ ∃ cause, some cause ∈ t.disk.refusals ∧ found = .error cause) := by
  have hleft : t.disk.refusals.tail <:+ t.disk.refusals := List.tail_suffix _
  unfold onDisk at h
  rw [OnDisk.attempt_eq, hturned] at h
  -- a refusal is used up by the attempt, whether it refuses or lets it pass
  cases hn : t.disk.nextRefusal.1 with
  | some cause =>
      rw [hn] at h
      obtain ⟨hfound, hafter⟩ := Prod.mk.inj h
      rw [← hafter]
      exact ⟨⟨_, hleft, rfl⟩,
        .inr ⟨cause, mem_refusals_of_nextRefusal hn, (Except.ok.inj hfound).symm⟩⟩
  | none =>
      rw [hn] at h
      cases hlook : look t.disk with
      | error cause =>
          rw [hlook] at h
          obtain ⟨hfound, hafter⟩ := Prod.mk.inj h
          rw [← hafter]
          exact ⟨⟨_, hleft, rfl⟩, .inl (Except.ok.inj hfound).symm⟩
      | ok value =>
          rw [hlook] at h
          obtain ⟨hfound, hafter⟩ := Prod.mk.inj h
          rw [← hafter]
          exact ⟨⟨_, hleft, rfl⟩, .inl (Except.ok.inj hfound).symm⟩

/-- Reading a file that is there gives its content. -/
theorem readOrEmpty_join (hn : IsPlain name) (hc : t.disk.Candid)
    (hr : t.disk.Reaches directory place) {former : String}
    (hg : t.disk.tree.get? (place ++ [name]) = some (.file former))
    (h : PackageWriter.readOrEmpty (join directory name) t = (.ok content, after)) :
    content = former ∧ t.disk.Becomes t.disk.tree after.disk := by
  obtain ⟨found, between, hlook, hrest⟩ := Result.run_bind_eq_ok h
  obtain ⟨hbecomes, hfound⟩ := look_eq_ok (fun _ => rfl) hlook
  have hread : found = .ok former ∨ ∃ cause, cause ≠ .notFound ∧ found = .error cause := by
    rcases hfound with rfl | ⟨cause, hm, rfl⟩
    · exact Disk.read_join hn hr hg
    · exact .inr ⟨cause, fun hcause => hc (hcause ▸ hm), rfl⟩
  rcases hread with rfl | ⟨cause, hcause, rfl⟩
  · obtain ⟨rfl, rfl⟩ := Result.run_pure_eq_ok hrest
    exact ⟨rfl, hbecomes⟩
  · cases cause
    case notFound => exact absurd rfl hcause
    all_goals exact absurd (Prod.mk.inj hrest).1 (by simp)

/-! ## Writing files -/

/-- A file that is written is all that has changed. -/
theorem writeFile_eq_ok (h : writeFile path content t = (.ok (), after)) :
    ∃ place, Writes t.disk path place ∧
      t.disk.Becomes (t.disk.tree.put place (.file content)) after.disk := by
  have hspends := spends_writeFile path content t
  rw [h] at hspends
  obtain ⟨_, between, hremember, hwrite⟩ := Result.run_bind_eq_ok h
  rcases remember_cases path t with ⟨e, refusals, hrun⟩ | ⟨remembered, hr, hrun⟩
  · rw [hrun] at hremember
    exact absurd (Prod.mk.inj hremember).1 (by simp)
  · rw [hrun] at hremember
    obtain ⟨-, rfl⟩ := Prod.mk.inj hremember
    -- what is remembered before is in the log, and leaves the tree alone
    obtain ⟨left, hdisk⟩ := hr.disk_eq
    unfold onDisk at hwrite
    rcases OnDisk.writeFile_cases path content remembered.disk with
      ⟨e, refusals, hf⟩ | ⟨place, refusals, hw, hf⟩
    · rw [hf] at hwrite
      exact absurd (Prod.mk.inj hwrite).1 (by simp)
    · rw [hf] at hwrite
      obtain ⟨-, rfl⟩ := Prod.mk.inj hwrite
      rw [hdisk] at hw
      have hw' : Writes t.disk path place := ⟨hw.entry, hw.plain, hw.free, hw.staged⟩
      have hleft : refusals <:+ t.disk.refusals := hspends
      refine ⟨place, hw', refusals, hleft, ?_⟩
      show remembered.disk.turned (remembered.disk.tree.put place (.file content)) refusals = _
      rw [hdisk]
      rfl

theorem writeFile_join (hn : IsPlain name) (hr : t.disk.Reaches directory place)
    (h : writeFile (join directory name) content t = (.ok (), after)) :
    t.disk.tree.get? (place ++ [name]) ≠ some .directory ∧
      t.disk.Becomes (t.disk.tree.put (place ++ [name]) (.file content)) after.disk := by
  obtain ⟨found, hw, hb⟩ := writeFile_eq_ok h
  rw [← Disk.place?_join hn hr hw.entry]
  exact ⟨hw.free, hb⟩

/-! ## Making directories -/

theorem createDirectory_eq_ok (h : createDirectory path t = (.ok (), after)) :
    t.disk.Becomes t.disk.tree after.disk ∨
      ∃ place, t.disk.place? path = .ok (some place) ∧ t.disk.tree.get? place = none ∧
        t.disk.Becomes (t.disk.tree.put place .directory) after.disk := by
  have hleft : t.disk.refusals.tail <:+ t.disk.refusals := List.tail_suffix _
  unfold createDirectory at h
  obtain ⟨made, between, hmake, hrest⟩ := Result.run_bind_eq_ok h
  unfold onDisk at hmake
  rcases OnDisk.attempt_cases (fun disk => return ((), ← disk.createDirectory path)) t.disk with
    ⟨cause, hrun⟩ | ⟨_, final, ha, hrun⟩
  · rw [hrun] at hmake
    obtain ⟨hmade, rfl⟩ := Prod.mk.inj hmake
    obtain rfl := Except.ok.inj hmade
    left
    cases cause
    -- the only cause that is no failure
    case alreadyExists =>
      rw [← (Prod.mk.inj hrest).2]
      exact ⟨_, hleft, rfl⟩
    all_goals exact absurd (Prod.mk.inj hrest).1 (by simp)
  · rw [hrun] at hmake
    obtain ⟨hmade, rfl⟩ := Prod.mk.inj hmake
    obtain rfl := Except.ok.inj hmade
    obtain ⟨disk, hcreate, ha⟩ := Result.bind_eq_ok_iff.mp ha
    obtain ⟨-, rfl⟩ := Prod.mk.inj (Except.ok.inj ha)
    obtain ⟨place, he, hg, rfl⟩ := Disk.createDirectory_eq_ok hcreate
    rw [← (Prod.mk.inj hrest).2]
    exact .inr ⟨place, he, hg, _, hleft, rfl⟩

/-- Making what is there already changes nothing. -/
theorem forM_createDirectory_of_reaches {paths : List String}
    (hp : ∀ path ∈ paths, ∃ place, t.disk.Reaches path place)
    (h : paths.forM createDirectory t = (.ok (), after)) :
    t.disk.Becomes t.disk.tree after.disk := by
  induction paths generalizing t with
  | nil =>
      rw [← (Prod.mk.inj h).2]
      exact ⟨_, List.suffix_rfl, rfl⟩
  | cons first paths ih =>
      obtain ⟨_, between, hfirst, hrest⟩ := Result.run_bind_eq_ok h
      obtain ⟨place, hr⟩ := hp first List.mem_cons_self
      have hbetween : t.disk.Becomes t.disk.tree between.disk := by
        rcases createDirectory_eq_ok hfirst with hb | ⟨found, he, hg, -⟩
        · exact hb
        · rw [← Disk.placeOf_of_place? he, hr.placeOf_eq, hr.get?_eq] at hg
          exact absurd hg (by simp)
      have hbecomes := ih (fun path hm => ?_) hrest
      · rw [hbetween.tree_eq] at hbecomes
        exact hbetween.trans hbecomes
      · obtain ⟨around, hr⟩ := hp path (List.mem_cons_of_mem _ hm)
        exact ⟨around, hbetween.reaches (fun _ hd => hd) hr⟩

theorem createDirectories_of_reaches (hp : path = "" ∨ ∃ place, t.disk.Reaches path place)
    (h : createDirectories path t = (.ok (), after)) :
    t.disk.Becomes t.disk.tree after.disk := by
  unfold createDirectories at h
  rw [Result.run_get_bind] at h
  refine forM_createDirectory_of_reaches (fun outer hm => ?_) h
  have hm := List.mem_reverse.mp hm
  have hne : outer ≠ "" := by
    rintro rfl
    simpa using List.all_eq_true.mp List.all_takeWhile _ hm
  rcases hp with rfl | ⟨place, hr⟩
  · exact absurd hm (by simp [missing, Disk.Path.ancestors, Disk.Path.parts,
      Disk.Path.ancestorsFrom])
  · exact hr.of_mem_ancestors ((List.takeWhile_sublist _).subset hm) hne

/-- **In a directory that is there at most the wanted one is made.** -/
theorem createDirectories_join (hn : IsPlain name) (hr : t.disk.Reaches directory place)
    (h : createDirectories (join directory name) t = (.ok (), after)) :
    t.disk.Becomes t.disk.tree after.disk ∨
      t.disk.tree.get? (place ++ [name]) = none ∧
        t.disk.Becomes (t.disk.tree.put (place ++ [name]) .directory) after.disk := by
  unfold createDirectories at h
  rw [Result.run_get_bind] at h
  -- what is missing is at most the directory itself and what the path goes over, which is there
  have hmissing : missing t.disk (join directory name) = [] ∨
      ∃ others, missing t.disk (join directory name) = join directory name :: others ∧
        ∀ path ∈ others, ∃ around, t.disk.Reaches path around := by
    unfold missing Disk.Path.ancestors
    rw [Disk.Path.ancestorsFrom_eq_cons, List.takeWhile_cons]
    split
    · refine .inr ⟨_, rfl, fun path hm => ?_⟩
      have hne := List.all_eq_true.mp List.all_takeWhile path hm
      exact Disk.reaches_of_mem_ancestors_join hn hr ((List.takeWhile_sublist _).subset hm)
        (by rintro rfl; simp at hne)
    · exact .inl rfl
  rcases hmissing with hnone | ⟨others, hcons, hothers⟩
  · rw [hnone] at h
    rw [← (Prod.mk.inj h).2]
    exact .inl ⟨_, List.suffix_rfl, rfl⟩
  · have happend : (others.reverse ++ [join directory name]).forM createDirectory =
        (others.reverse.forM createDirectory >>= fun _ =>
          [join directory name].forM createDirectory) := List.forM_append
    rw [hcons, List.reverse_cons, happend] at h
    obtain ⟨_, between, hfirst, hlast⟩ := Result.run_bind_eq_ok h
    have hbetween := forM_createDirectory_of_reaches
      (fun path hm => hothers path (List.mem_reverse.mp hm)) hfirst
    obtain ⟨_, final, hcreate, hend⟩ := Result.run_bind_eq_ok hlast
    obtain rfl := (Prod.mk.inj hend).2
    rcases createDirectory_eq_ok hcreate with hsame | ⟨found, he, hg, hmade⟩
    · rw [hbetween.tree_eq] at hsame
      exact .inl (hbetween.trans hsame)
    · have hfound := Disk.place?_join hn (hbetween.reaches (fun _ hd => hd) hr) he
      rw [hbetween.tree_eq, hfound] at hmade hg
      exact .inr ⟨hg, hbetween.trans hmade⟩

end Transaction

end StubGen
