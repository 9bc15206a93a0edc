import StubGen.Proofs.Package.Aggregator
import StubGen.Proofs.Package.Effects

/-!
# Directories and their aggregators

Below the directory of a package, every directory of a namespace has an aggregator, which
imports all directories in it: `Kept`. While a writer goes down a path there is for a moment a
directory that is not imported yet, the one that has just been made; it is `due`. The invariant
says what has been written so far as well, since the aggregators hold it.

A writer does three things to a tree: it makes a directory with an aggregator, it changes
an aggregator, and it writes other files: `Kept.makeDirectory`, `Kept.putAggregator`,
`Kept.putElsewhere`. What the steps of a writer keep follows from these.
-/

namespace StubGen.PackageWriter

open Disk (Place Node IsPlain Becomes)
open Disk.Path (join)
open Transaction

variable {w : PackageWriter} {root place : Place} {sec : Section} {namespaces : List String}
  {history : List Stub} {due : Option Place} {disk after : Disk}
  {directory name child content : String}

/-! ## The invariant -/

/-- Where the directory of a namespace is. -/
def placeIn (root : Place) (sec : Section) (namespaces : List String) : Place :=
  root ++ sec.directory :: namespaces

/-- The sources that have been written to a namespace, in order. -/
def sourcesIn (history : List Stub) (sec : Section) (namespaces : List String) : List String :=
  (history.filter fun stub => stub.path.root = sec ∧ stub.path.namespaces = namespaces).map
    fun stub => Text.trimEnd stub.source

/-- A package in good order, in which the stubs of a history have been written. The directory that
is due need not be imported. -/
structure Kept (w : PackageWriter) (root : Place) (history : List Stub) (due : Option Place)
    (disk : Disk) : Prop where
  wellFormed : disk.tree.WellFormed
  candid : disk.Candid
  reached : disk.Reaches w.root root
  /-- Every directory has an aggregator with all that has been written there. -/
  aggregated : ∀ sec namespaces,
    disk.tree.get? (placeIn root sec namespaces) = some .directory →
    ∃ content, disk.tree.get? (placeIn root sec namespaces ++ [aggregatorName]) =
        some (.file content) ∧
      Aggregates (w.preamble sec) (sourcesIn history sec namespaces) content
  /-- Every directory in another one is imported by the aggregator of that one. -/
  imported : ∀ sec namespaces child content,
    disk.tree.get? (placeIn root sec (namespaces ++ [child])) = some .directory →
    due ≠ some (placeIn root sec (namespaces ++ [child])) →
    disk.tree.get? (placeIn root sec namespaces ++ [aggregatorName]) = some (.file content) →
    imports content child = 1
  /-- What has been written has a directory. -/
  written : ∀ stub ∈ history,
    disk.tree.get? (placeIn root stub.path.root stub.path.namespaces) = some .directory

theorem placeIn_append (root : Place) (sec : Section) (namespaces names : List String) :
    placeIn root sec (namespaces ++ names) = placeIn root sec namespaces ++ names := by
  simp [placeIn]

theorem placeIn_inj {sec' : Section} {namespaces' : List String} :
    placeIn root sec namespaces = placeIn root sec' namespaces' ↔
      sec = sec' ∧ namespaces = namespaces' := by
  have hsec : sec.directory = sec'.directory ↔ sec = sec' := by
    cases sec <;> cases sec' <;> decide
  unfold placeIn
  rw [List.append_cancel_left_eq, List.cons.injEq, hsec]

theorem placeIn_ne_nil : placeIn root sec namespaces ≠ [] := by
  simp [placeIn]

/-- A directory that is due may as well not be. -/
theorem Kept.delay (h : Kept w root history none disk) (due : Option Place) :
    Kept w root history due disk :=
  { h with
    imported := fun sec namespaces child content hd _ hg =>
      h.imported sec namespaces child content hd (by simp) hg }

/-- Nothing imports the directory of a section. -/
theorem Kept.settle (h : Kept w root history (some (placeIn root sec [])) disk) :
    Kept w root history none disk :=
  { h with
    imported := fun sec' namespaces child content hd _ hg => by
      refine h.imported sec' namespaces child content hd ?_ hg
      rw [ne_eq, Option.some.injEq, placeIn_inj]
      exact fun hsame => List.cons_ne_nil _ _ (List.append_eq_nil_iff.mp hsame.2.symm).2 }

/-- No stub has been written where no directory is. -/
theorem Kept.sourcesIn_eq_nil (h : Kept w root history due disk)
    (hnone : disk.tree.get? (placeIn root sec namespaces) = none) :
    sourcesIn history sec namespaces = [] := by
  unfold sourcesIn
  rw [List.map_eq_nil_iff, List.filter_eq_nil_iff]
  intro stub hm hthere
  obtain ⟨hsec, hnames⟩ := of_decide_eq_true hthere
  have hd := h.written stub hm
  rw [hsec, hnames, hnone] at hd
  exact nomatch hd

/-- What the directory of a namespace is in is the directory of the namespace around it. -/
theorem Kept.outer (h : Kept w root history due disk) {node : Node}
    (hd : disk.tree.get? (placeIn root sec (namespaces ++ [child])) = some node) :
    disk.tree.get? (placeIn root sec namespaces) = some .directory := by
  have hup := h.wellFormed _ _ placeIn_ne_nil hd
  rwa [placeIn_append, List.dropLast_concat] at hup

/-! ## What may happen to the tree -/

/-- A file that is no aggregator can be written. -/
theorem Kept.putElsewhere (h : Kept w root history due disk)
    (hb : disk.Becomes (disk.tree.put place (.file content)) after)
    (hup : disk.tree.get? place.dropLast = some .directory)
    (hfree : disk.tree.get? place ≠ some .directory)
    (hne : ∀ sec namespaces, placeIn root sec namespaces ++ [aggregatorName] ≠ place) :
    Kept w root history due after := by
  have hkeep := @Disk.Tree.keepsDirectories_put _ _ (.file content) hfree
  -- every aggregator and every directory is as before
  have hsame : ∀ sec namespaces,
      after.tree.get? (placeIn root sec namespaces ++ [aggregatorName]) =
        disk.tree.get? (placeIn root sec namespaces ++ [aggregatorName]) := fun sec namespaces => by
    rw [hb.tree_eq, Disk.Tree.get?_put_of_ne (hne sec namespaces)]
  have hold : Disk.Tree.KeepsDirectories after.tree disk.tree := by
    rw [hb.tree_eq]
    exact Disk.Tree.keepsDirectories_of_put
  refine ⟨?_, hb.candid h.candid, hb.reaches hkeep h.reached, fun sec namespaces hd => ?_,
    fun sec namespaces child old hd hdue hg => ?_, fun stub hm => ?_⟩
  · rw [hb.tree_eq]
    exact h.wellFormed.put hup hfree
  · rw [hsame]
    exact h.aggregated sec namespaces (hold _ hd)
  · rw [hsame] at hg
    exact h.imported sec namespaces child old (hold _ hd) hdue hg
  · rw [hb.tree_eq]
    exact hkeep _ (h.written stub hm)

/-- **An aggregator can be changed** if it goes on aggregating and no import is lost. What was due
and is no longer so has to be imported by it. -/
theorem Kept.putAggregator {history' : List Stub} {due' : Option Place} {old : String}
    (h : Kept w root history due disk)
    (hd : disk.tree.get? (placeIn root sec namespaces) = some .directory)
    (hold : disk.tree.get? (placeIn root sec namespaces ++ [aggregatorName]) = some (.file old))
    (hb : disk.Becomes
      (disk.tree.put (placeIn root sec namespaces ++ [aggregatorName]) (.file content)) after)
    (hnew : Aggregates (w.preamble sec) (sourcesIn history' sec namespaces) content)
    (hmono : ∀ name, imports old name ≤ imports content name)
    (hothers : ∀ sec' namespaces', ¬ (sec' = sec ∧ namespaces' = namespaces) →
      sourcesIn history' sec' namespaces' = sourcesIn history sec' namespaces')
    (hwritten : ∀ stub ∈ history',
      stub ∈ history ∨ (stub.path.root = sec ∧ stub.path.namespaces = namespaces))
    (hdue : ∀ place, due = some place → due' ≠ some place →
      ∃ child, place = placeIn root sec (namespaces ++ [child]) ∧ imports content child = 1) :
    Kept w root history' due' after := by
  have hfree : disk.tree.get? (placeIn root sec namespaces ++ [aggregatorName]) ≠
      some .directory := by simp [hold]
  have hkeep := @Disk.Tree.keepsDirectories_put _ _ (.file content) hfree
  have hback : Disk.Tree.KeepsDirectories after.tree disk.tree := by
    rw [hb.tree_eq]
    exact Disk.Tree.keepsDirectories_of_put
  have hself : after.tree.get? (placeIn root sec namespaces ++ [aggregatorName]) =
      some (.file content) := by
    rw [hb.tree_eq, Disk.Tree.get?_put_self (by simp)]
  have hother : ∀ sec' namespaces', ¬ (sec' = sec ∧ namespaces' = namespaces) →
      after.tree.get? (placeIn root sec' namespaces' ++ [aggregatorName]) =
        disk.tree.get? (placeIn root sec' namespaces' ++ [aggregatorName]) := by
    intro sec' namespaces' hne
    rw [hb.tree_eq, Disk.Tree.get?_put_of_ne]
    rw [ne_eq, List.append_cancel_right_eq, placeIn_inj]
    exact hne
  refine ⟨?_, hb.candid h.candid, hb.reaches hkeep h.reached, fun sec' namespaces' hd' => ?_,
    fun sec' namespaces' child read hd' hdue' hg => ?_, fun stub hm => ?_⟩
  · rw [hb.tree_eq]
    exact h.wellFormed.put (by rwa [List.dropLast_concat]) hfree
  · by_cases heq : sec' = sec ∧ namespaces' = namespaces
    · obtain ⟨rfl, rfl⟩ := heq
      exact ⟨content, hself, hnew⟩
    · rw [hother _ _ heq, hothers _ _ heq]
      exact h.aggregated _ _ (hback _ hd')
  · by_cases heq : sec' = sec ∧ namespaces' = namespaces
    · obtain ⟨rfl, rfl⟩ := heq
      rw [hself] at hg
      obtain rfl : content = read := by simpa using hg
      -- what was due is imported now; what was imported before still is, and once
      by_cases hwas : due = some (placeIn root sec' (namespaces' ++ [child]))
      · obtain ⟨child', hplace, hone⟩ := hdue _ hwas hdue'
        obtain ⟨-, hnames⟩ := placeIn_inj.mp hplace
        obtain rfl : child = child' := by simpa using hnames
        exact hone
      · have hone := h.imported _ _ child old (hback _ hd') hwas hold
        exact Nat.le_antisymm (hnew.once child) (hone ▸ hmono child)
    · rw [hother _ _ heq] at hg
      refine h.imported _ _ child read (hback _ hd') (fun hwas => ?_) hg
      -- what is no longer due is in the directory of this aggregator, and of no other
      obtain ⟨child', hplace, -⟩ := hdue _ hwas hdue'
      obtain ⟨hsec, hnames⟩ := placeIn_inj.mp hplace
      exact heq ⟨hsec, (List.append_inj' hnames rfl).1⟩
  · rw [hb.tree_eq]
    rcases hwritten stub hm with hm | ⟨hsec, hnames⟩
    · exact hkeep _ (h.written stub hm)
    · rw [hsec, hnames]
      exact hkeep _ hd

/-- **A directory can be made** with an aggregator that has nothing but its preamble; it is due. -/
theorem Kept.makeDirectory (h : Kept w root history none disk)
    (hp : Importless (w.preamble sec))
    (hnone : disk.tree.get? (placeIn root sec namespaces) = none)
    (hup : disk.tree.get? (placeIn root sec namespaces).dropLast = some .directory)
    (hb : disk.Becomes ((disk.tree.put (placeIn root sec namespaces) .directory).put
      (placeIn root sec namespaces ++ [aggregatorName]) (.file (w.preamble sec))) after) :
    Kept w root history (some (placeIn root sec namespaces)) after := by
  have hshort : placeIn root sec namespaces ≠ placeIn root sec namespaces ++ [aggregatorName] :=
    fun heq => by simpa using congrArg List.length heq
  have hfree := h.wellFormed.get?_concat_eq_none hnone aggregatorName
  have hmade : (disk.tree.put (placeIn root sec namespaces) .directory).get?
      (placeIn root sec namespaces ++ [aggregatorName]) = none := by
    rw [Disk.Tree.get?_put_of_ne hshort.symm, hfree]
  have hkeep : Disk.Tree.KeepsDirectories disk.tree after.tree := by
    rw [hb.tree_eq]
    intro place hd
    exact Disk.Tree.keepsDirectories_put (by simp [hmade]) _
      (Disk.Tree.keepsDirectories_put (by simp [hnone]) _ hd)
  have hself : after.tree.get? (placeIn root sec namespaces ++ [aggregatorName]) =
      some (.file (w.preamble sec)) := by
    rw [hb.tree_eq, Disk.Tree.get?_put_self (by simp)]
  have hother : ∀ place, place ≠ placeIn root sec namespaces →
      place ≠ placeIn root sec namespaces ++ [aggregatorName] →
      after.tree.get? place = disk.tree.get? place := fun place hne hne' => by
    rw [hb.tree_eq, Disk.Tree.get?_put_of_ne hne', Disk.Tree.get?_put_of_ne hne]
  -- the only directory that is new is the one that is made
  have hback : ∀ place, place ≠ placeIn root sec namespaces →
      after.tree.get? place = some .directory → disk.tree.get? place = some .directory := by
    intro place hne hd
    rwa [hother place hne (by rintro rfl; rw [hself] at hd; exact absurd hd (by simp))] at hd
  refine ⟨?_, hb.candid h.candid, hb.reaches (hb.tree_eq ▸ hkeep) h.reached,
    fun sec' namespaces' hd => ?_, fun sec' namespaces' child content hd hdue hg => ?_,
    fun stub hm => hkeep _ (h.written stub hm)⟩
  · rw [hb.tree_eq]
    refine (h.wellFormed.put hup (by simp [hnone])).put ?_ (by simp [hmade])
    rw [List.dropLast_concat, Disk.Tree.get?_put_self placeIn_ne_nil]
  · by_cases heq : placeIn root sec' namespaces' = placeIn root sec namespaces
    · obtain ⟨rfl, rfl⟩ := placeIn_inj.mp heq
      rw [h.sourcesIn_eq_nil hnone]
      exact ⟨_, hself, aggregates_preamble hp⟩
    · obtain ⟨content, hg, hold⟩ := h.aggregated sec' namespaces' (hback _ heq hd)
      refine ⟨content, ?_, hold⟩
      rw [hother, hg]
      · -- nor can the new place be one where an aggregator was
        rintro hplace
        rw [hplace, hnone] at hg
        exact absurd hg (by simp)
      · rw [ne_eq, List.append_cancel_right_eq]
        exact heq
  · have hne : placeIn root sec' (namespaces' ++ [child]) ≠ placeIn root sec namespaces :=
      fun heq => hdue (congrArg some heq.symm)
    have hd' := hback _ hne hd
    have hparent := h.outer hd'
    refine h.imported sec' namespaces' child content hd' (by simp) ?_
    rw [← hother, hg]
    · intro hplace
      rw [hplace, hb.tree_eq, Disk.Tree.get?_put_of_ne hshort,
        Disk.Tree.get?_put_self placeIn_ne_nil] at hg
      exact absurd hg (by simp)
    · rw [ne_eq, List.append_cancel_right_eq]
      intro heq
      rw [heq, hnone] at hparent
      exact absurd hparent (by simp)

/-- Looking changes nothing. -/
theorem Kept.becomes (h : Kept w root history due disk) (hb : disk.Becomes disk.tree after) :
    Kept w root history due after := by
  obtain ⟨refusals, hr, rfl⟩ := hb
  exact ⟨h.wellFormed, fun hm => h.candid (hr.subset hm), h.reached, h.aggregated, h.imported,
    h.written⟩

/-! ## What the steps of a writer come to -/

/-- A node is stored at a place, or the tree stays as it is. -/
def Provided (place : Place) (node : Node) (old new : Disk.Tree) : Prop :=
  new = old ∨ old.get? place = none ∧ new = old.put place node

section

variable {node : Node} {old new : Disk.Tree}

theorem Provided.keepsDirectories (h : Provided place node old new) :
    Disk.Tree.KeepsDirectories old new := by
  obtain rfl | ⟨hnone, rfl⟩ := h
  · exact fun _ hd => hd
  · exact Disk.Tree.keepsDirectories_put (by simp [hnone])

theorem Provided.get?_of_ne (h : Provided place node old new) {other : Place}
    (hne : other ≠ place) : new.get? other = old.get? other := by
  obtain rfl | ⟨-, rfl⟩ := h
  · rfl
  · exact Disk.Tree.get?_put_of_ne hne

theorem Provided.isSome (h : Provided place node old new) {other : Place}
    (hs : (old.get? other).isSome) : (new.get? other).isSome := by
  obtain rfl | ⟨hnone, rfl⟩ := h
  · exact hs
  · have hne : other ≠ place := by
      rintro rfl
      rw [hnone] at hs
      exact nomatch hs
    rwa [Disk.Tree.get?_put_of_ne hne]

end

section

variable {t t' : Transaction} {aggregator : String} {added : Bool}

theorem isPlain_aggregatorName : IsPlain aggregatorName :=
  ⟨by decide, by decide, by decide, by decide⟩

/-- **Making sure of an aggregator** provides the directory, and then the aggregator in it. -/
theorem ensureAggregator_eq_ok (hn : IsPlain name) (hr : t.disk.Reaches directory place)
    (hrun : w.ensureAggregator (join directory name) sec t = (.ok aggregator, t')) :
    aggregator = join (join directory name) aggregatorName ∧
      t'.disk.Reaches (join directory name) (place ++ [name]) ∧
      (t'.disk.tree.get? (place ++ [name] ++ [aggregatorName])).isSome ∧
      ∃ made, Provided (place ++ [name]) .directory t.disk.tree made ∧
        Provided (place ++ [name] ++ [aggregatorName]) (.file (w.preamble sec)) made
          t'.disk.tree ∧
        t.disk.Becomes t'.disk.tree t'.disk := by
  obtain ⟨_, made, hmake, hrest⟩ := Result.run_bind_eq_ok hrun
  rw [Result.run_get_bind] at hrest
  obtain ⟨hmade, hbecomes⟩ : Provided (place ++ [name]) .directory t.disk.tree made.disk.tree ∧
      t.disk.Becomes made.disk.tree made.disk := by
    rcases createDirectories_join hn hr hmake with hb | ⟨hnone, hb⟩
    · exact ⟨.inl hb.tree_eq, hb.tree_eq ▸ hb⟩
    · exact ⟨.inr ⟨hnone, hb.tree_eq⟩, hb.tree_eq ▸ hb⟩
  have hinner : ∀ around, made.disk.Reaches (join directory name) around →
      around = place ++ [name] := fun around hr' => by
    rw [← hr'.placeOf_eq, Disk.placeOf_join hn (hbecomes.reaches hmade.keepsDirectories hr)]
  split at hrest
  · rename_i hgone
    have hgone : made.disk.isThere (join (join directory name) aggregatorName) = false := by
      simpa using hgone
    obtain ⟨_, final, hwrite, hend⟩ := Result.run_bind_eq_ok hrest
    obtain ⟨rfl, rfl⟩ := Result.run_pure_eq_ok hend
    -- a path that is written leads over directories that are there
    obtain ⟨found, hw, -⟩ := writeFile_eq_ok hwrite
    obtain ⟨around, hr'⟩ := Disk.reaches_of_place? isPlain_aggregatorName hw.entry
    obtain rfl := hinner around hr'
    have hnone := Disk.get?_of_not_isThere hw.entry hw.plain hgone
    rw [Disk.place?_join isPlain_aggregatorName hr' hw.entry] at hnone
    obtain ⟨hfree, hb⟩ := writeFile_join isPlain_aggregatorName hr' hwrite
    refine ⟨rfl, hb.reaches (Disk.Tree.keepsDirectories_put hfree) hr', ?_, made.disk.tree, hmade,
      .inr ⟨hnone, hb.tree_eq⟩, hbecomes.trans (hb.tree_eq ▸ hb)⟩
    rw [hb.tree_eq, Disk.Tree.get?_put_self (by simp)]
    rfl
  · rename_i hthere
    have hthere : made.disk.isThere (join (join directory name) aggregatorName) = true := by
      simpa using hthere
    obtain ⟨rfl, rfl⟩ := Result.run_pure_eq_ok hrest
    obtain ⟨around, hr', hsome⟩ := Disk.reaches_of_isThere isPlain_aggregatorName hthere
    obtain rfl := hinner around hr'
    exact ⟨rfl, hr', hsome, made.disk.tree, hmade, .inl rfl, hbecomes⟩

/-- **An import is added** to an aggregator that is there, and nothing else changes. -/
theorem appendImport_eq_ok {old : String} (hc : t.disk.Candid) (hr : t.disk.Reaches directory place)
    (hold : t.disk.tree.get? (place ++ [aggregatorName]) = some (.file old))
    (hrun : appendImport (join directory aggregatorName) child t = (.ok added, t')) :
    t.disk.Becomes
      (t.disk.tree.put (place ++ [aggregatorName]) (.file (withImport old child))) t'.disk := by
  obtain ⟨content, read, hread, hrest⟩ := Result.run_bind_eq_ok hrun
  obtain ⟨rfl, hb⟩ := readOrEmpty_join isPlain_aggregatorName hc hr hold hread
  unfold withImport
  dsimp only at hrest
  split at hrest
  · rename_i hthere
    rw [if_pos hthere, Disk.Tree.put_of_get? (by simp) hold, ← (Result.run_pure_eq_ok hrest).2]
    exact hb
  · rename_i hnew
    obtain ⟨_, final, hwrite, hend⟩ := Result.run_bind_eq_ok hrest
    obtain ⟨-, hb'⟩ :=
      writeFile_join isPlain_aggregatorName (hb.reaches (fun _ hd => hd) hr) hwrite
    rw [hb.tree_eq] at hb'
    rw [if_neg hnew, ← (Result.run_pure_eq_ok hend).2]
    exact hb.trans hb'

/-! ## What the steps of a writer keep -/

/-- **A directory with an aggregator is made, or is there already.** -/
theorem Kept.ensureAggregator (h : Kept w root history none t.disk) (hn : IsPlain name)
    (hr : t.disk.Reaches directory place) (hplace : place ++ [name] = placeIn root sec namespaces)
    (hp : Importless (w.preamble sec))
    (hrun : w.ensureAggregator (join directory name) sec t = (.ok aggregator, t')) :
    aggregator = join (join directory name) aggregatorName ∧
      t'.disk.Reaches (join directory name) (placeIn root sec namespaces) ∧
      Kept w root history (some (placeIn root sec namespaces)) t'.disk := by
  obtain ⟨haggregator, hinner, hsome, made, hmade, hensured, hb⟩ :=
    ensureAggregator_eq_ok hn hr hrun
  have hup : t.disk.tree.get? (placeIn root sec namespaces).dropLast = some .directory := by
    rw [← hplace, List.dropLast_concat]
    exact hr.get?_eq
  rw [hplace] at hinner hsome hmade hensured
  refine ⟨haggregator, hinner, ?_⟩
  have hshort : placeIn root sec namespaces ≠ placeIn root sec namespaces ++ [aggregatorName] :=
    fun heq => by simpa using congrArg List.length heq
  obtain rfl | ⟨habsent, rfl⟩ := hmade
  · -- a directory that was there has an aggregator
    have hd : t.disk.tree.get? (placeIn root sec namespaces) = some .directory := by
      rw [← hensured.get?_of_ne hshort]
      exact hinner.get?_eq
    obtain ⟨content, hg, -⟩ := h.aggregated sec namespaces hd
    obtain hsame | ⟨hnone, -⟩ := hensured
    · rw [hsame] at hb
      exact (h.becomes hb).delay _
    · exact nomatch hg.symm.trans hnone
  · obtain hsame | ⟨-, hfinal⟩ := hensured
    · -- in a directory that has just been made there is nothing
      rw [hsame, Disk.Tree.get?_put_of_ne hshort.symm,
        h.wellFormed.get?_concat_eq_none habsent] at hsome
      exact nomatch hsome
    · rw [hfinal] at hb
      exact h.makeDirectory hp habsent hup hb

/-- **A directory is imported by the aggregator of the one that it is in.** -/
theorem Kept.appendImport
    (h : Kept w root history (some (placeIn root sec (namespaces ++ [child]))) t.disk)
    (hr : t.disk.Reaches directory (placeIn root sec namespaces)) (hc : Importable child)
    (hrun : appendImport (join directory aggregatorName) child t = (.ok added, t')) :
    Kept w root history none t'.disk ∧
      ∀ path place, t.disk.Reaches path place → t'.disk.Reaches path place := by
  obtain ⟨old, hold, haggregates⟩ := h.aggregated sec namespaces hr.get?_eq
  have hfree : t.disk.tree.get? (placeIn root sec namespaces ++ [aggregatorName]) ≠
      some .directory := by simp [hold]
  have hb := appendImport_eq_ok h.candid hr hold hrun
  obtain ⟨hnew, hone⟩ := haggregates.withImport hc
  refine ⟨h.putAggregator hr.get?_eq hold hb hnew (imports_le_withImport old child)
    (fun _ _ _ => rfl) (fun _ hm => .inl hm) fun place hwas _ => ?_, ?_⟩
  · exact ⟨child, (Option.some.inj hwas).symm, hone⟩
  · exact fun _ _ => hb.reaches (Disk.Tree.keepsDirectories_put hfree)

/-- **Going down a path,** each directory is made and imported. -/
theorem Kept.enter {names : List String} (hp : Importless (w.preamble sec))
    (hnames : ∀ name ∈ names, IsPlain name ∧ Importable name)
    (h : Kept w root history none t.disk)
    (hr : t.disk.Reaches directory (placeIn root sec namespaces)) {last : String}
    (hrun : w.enter sec directory (some (join directory aggregatorName)) names t = (.ok last, t')) :
    Kept w root history none t'.disk ∧
      t'.disk.Reaches last (placeIn root sec (namespaces ++ names)) := by
  induction names generalizing directory namespaces t with
  | nil =>
      obtain ⟨rfl, rfl⟩ := Result.run_pure_eq_ok hrun
      rw [List.append_nil]
      exact ⟨h, hr⟩
  | cons name names ih =>
      obtain ⟨hn, hc⟩ := hnames name List.mem_cons_self
      obtain ⟨aggregator, made, hmake, hrest⟩ := Result.run_bind_eq_ok hrun
      obtain ⟨_, imported, himport, hrest⟩ := Result.run_bind_eq_ok hrest
      have hplace := (placeIn_append root sec namespaces [name]).symm
      obtain ⟨rfl, hinner, hmade⟩ := h.ensureAggregator hn hr hplace hp hmake
      -- the directory that is left imports the one that is entered, before the way goes on
      obtain ⟨around, houter, haround⟩ := Disk.reaches_outer hn hinner
      rw [placeIn_append] at haround
      obtain ⟨rfl, -⟩ := List.append_inj' haround rfl
      obtain ⟨hkept, hreaches⟩ := hmade.appendImport houter hc himport
      rw [List.append_cons]
      exact ih (fun other hm => hnames other (List.mem_cons_of_mem _ hm)) hkept
        (hreaches _ _ hinner) hrest

end

end StubGen.PackageWriter
