import StubGen.Package.Batch
import StubGen.Proofs.Package.Footprint

/-!
# What a stub leaves in the files

A stub that is written leaves its declaration in the aggregator of its directory, an import in
every aggregator on the way there, and its types in their module; no other file has another
content than before. That is `Leaves`, and `write_leaves` says it of every stub that is written.
An aggregator that is not there counts as one with nothing but its preamble.
-/

namespace StubGen

open Disk (Place Node IsPlain)
open Disk.Path (join)

/-! ## The texts in a tree -/

namespace Disk.Tree

variable {tree : Tree} {place other : Place} {content : String} {node : Node}

/-- The content of the file at a place. -/
def text? (tree : Tree) (place : Place) : Option String :=
  match tree.get? place with
  | some (.file content) => some content
  | _ => none

theorem text?_eq_some_iff :
    tree.text? place = some content ↔ tree.get? place = some (.file content) := by
  unfold text?
  split
  · rename_i found hfound
    rw [hfound]
    simp
  · rename_i hnone
    exact ⟨nofun, fun h => absurd h (hnone content)⟩

theorem text?_of_get? (h : tree.get? place = none) : tree.text? place = none := by
  unfold text?
  rw [h]

theorem text?_put_self (h : place ≠ []) :
    (tree.put place (.file content)).text? place = some content :=
  text?_eq_some_iff.mpr (get?_put_self h)

theorem text?_put_of_ne (h : other ≠ place) :
    (tree.put place node).text? other = tree.text? other := by
  unfold text?
  rw [get?_put_of_ne h]

/-- A directory that is made where nothing is changes no text. -/
theorem text?_put_directory (h : tree.get? place = none) (other : Place) :
    (tree.put place .directory).text? other = tree.text? other := by
  by_cases hne : other = place
  · subst hne
    by_cases hnil : other = []
    · rw [hnil, get?_nil] at h
      exact absurd h (by simp)
    · rw [text?_of_get? h]
      unfold text?
      rw [get?_put_self hnil]
  · exact text?_put_of_ne hne

end Disk.Tree

namespace Disk

variable {disk after : Disk}

/-- What a disk keeps while a writer works on it: its paths lead where they led, what is there
stays, and no refusal says that something is missing. -/
structure Onward (disk after : Disk) : Prop where
  candid : disk.Candid → after.Candid
  reaches : ∀ path place, disk.Reaches path place → after.Reaches path place
  there : ∀ place, (disk.tree.get? place).isSome → (after.tree.get? place).isSome

theorem Onward.refl (disk : Disk) : disk.Onward disk :=
  ⟨id, fun _ _ => id, fun _ => id⟩

theorem Onward.trans {between : Disk} (h : disk.Onward between) (h' : between.Onward after) :
    disk.Onward after :=
  ⟨fun hc => h'.candid (h.candid hc),
    fun path place hr => h'.reaches path place (h.reaches path place hr),
    fun place hs => h'.there place (h.there place hs)⟩

theorem Becomes.onward (h : disk.Becomes disk.tree after) : disk.Onward after :=
  ⟨h.candid, fun _ _ hr => h.reaches (fun _ hd => hd) hr, fun place hs => by rwa [h.tree_eq]⟩

theorem Becomes.onward_put {place : Place} {node : Node}
    (h : disk.Becomes (disk.tree.put place node) after)
    (hfree : disk.tree.get? place ≠ some .directory) : disk.Onward after := by
  refine ⟨h.candid, fun _ _ hr => h.reaches (Tree.keepsDirectories_put hfree) hr,
    fun other hs => ?_⟩
  rw [h.tree_eq]
  by_cases hne : other = place
  · rw [hne, Tree.get?_put_self (Tree.ne_nil_of_get?_ne hfree)]
    rfl
  · rwa [Tree.get?_put_of_ne hne]

end Disk

namespace PackageWriter

open Transaction

variable {w : PackageWriter} {root place : Place} {sec : Section} {namespaces : List String}
  {disk after : Disk} {t t' : Transaction} {stub : Stub} {directory name : String}

/-! ## Places -/

/-- Where the aggregator of a namespace is. -/
def aggregatorIn (root : Place) (sec : Section) (namespaces : List String) : Place :=
  placeIn root sec namespaces ++ [aggregatorName]

/-- Where the aggregator is that a stub is declared in. -/
def homeOf (root : Place) (stub : Stub) : Place :=
  aggregatorIn root stub.path.root stub.path.namespaces

/-- Where the module of a stub's types is. -/
def typesOf (root : Place) (stub : Stub) : Place :=
  placeIn root stub.path.root stub.path.namespaces ++
    [Identifier.typeModule stub.path.leaf ++ ".py"]

theorem aggregatorIn_ne_nil : aggregatorIn root sec namespaces ≠ [] := by
  simp [aggregatorIn]

theorem aggregatorIn_inj {sec' : Section} {namespaces' : List String} :
    aggregatorIn root sec namespaces = aggregatorIn root sec' namespaces' ↔
      sec = sec' ∧ namespaces = namespaces' := by
  unfold aggregatorIn
  rw [List.append_cancel_right_eq, placeIn_inj]

/-- The aggregator of a namespace is none of those further down. -/
theorem aggregatorIn_ne_below (root : Place) (sec : Section) (namespaces below : List String)
    (name : String) :
    aggregatorIn root sec (namespaces ++ [name] ++ below) ≠ aggregatorIn root sec namespaces := by
  rw [ne_eq, aggregatorIn_inj]
  intro hsame
  have hlength := congrArg List.length hsame.2
  simp only [List.length_append, List.length_singleton] at hlength
  omega

/-- The one module of types that would be an aggregator. -/
theorem typesOf_eq_aggregatorIn_iff :
    typesOf root stub = aggregatorIn root sec namespaces ↔
      stub.path.leaf = "_init__" ∧ stub.path.root = sec ∧ stub.path.namespaces = namespaces := by
  have hname : Identifier.typeModule stub.path.leaf ++ ".py" = aggregatorName ↔
      stub.path.leaf = "_init__" := by
    have hparts : aggregatorName = "_" ++ "_init__" ++ ".py" := by decide
    unfold Identifier.typeModule
    rw [hparts, String.append_left_inj, String.append_right_inj]
  unfold typesOf aggregatorIn
  constructor
  · intro h
    obtain ⟨hplace, hlast⟩ := List.append_inj' h rfl
    exact ⟨hname.mp (List.singleton_inj.mp hlast), placeIn_inj.mp hplace⟩
  · rintro ⟨hleaf, rfl, rfl⟩
    rw [hname.mpr hleaf]

/-! ## Reading -/

/-- What is read where something is, is the text there. -/
theorem readOrEmpty_eq_ok {content : String} (hn : IsPlain name) (hc : t.disk.Candid)
    (hr : t.disk.Reaches directory place) (hthere : (t.disk.tree.get? (place ++ [name])).isSome)
    (h : readOrEmpty (join directory name) t = (.ok content, t')) :
    t.disk.tree.text? (place ++ [name]) = some content ∧
      t.disk.Becomes t.disk.tree t'.disk := by
  obtain ⟨node, hnode⟩ := Option.isSome_iff_exists.mp hthere
  cases node with
  | file former =>
      obtain ⟨rfl, hb⟩ := readOrEmpty_join hn hc hr hnode h
      exact ⟨Disk.Tree.text?_eq_some_iff.mpr hnode, hb⟩
  | directory =>
      -- a directory is not read, and that it is none is not said to be missing
      obtain ⟨found, between, hlook, hrest⟩ := Result.run_bind_eq_ok h
      obtain ⟨-, hfound⟩ := look_eq_ok (fun _ => rfl) hlook
      have hread : ∃ cause, cause ≠ .notFound ∧ found = .error cause := by
        rcases hfound with rfl | ⟨cause, hm, rfl⟩
        · unfold Disk.read
          rcases Disk.find_join_cases hn hr with hf | ⟨cause, hcause, hf⟩
          · rw [hf, hnode]
            exact ⟨.isADirectory, nofun, rfl⟩
          · rw [hf]
            exact ⟨cause, hcause, rfl⟩
        · exact ⟨cause, fun hcause => hc (hcause ▸ hm), rfl⟩
      obtain ⟨cause, hcause, rfl⟩ := hread
      cases cause
      case notFound => exact absurd rfl hcause
      all_goals exact absurd (Prod.mk.inj hrest).1 (by simp)

/-! ## Going down -/

/-- The texts of a tree once a file has been made at a place, if there was nothing. -/
def Ensured (preamble : String) (place : Place) (old new : Disk.Tree) : Prop :=
  ∀ q, new.text? q = if q = place ∧ old.get? q = none then some preamble else old.text? q

section

variable {preamble : String} {old new : Disk.Tree} {q : Place}

theorem Ensured.text?_of_ne (h : Ensured preamble place old new) (hq : q ≠ place) :
    new.text? q = old.text? q := by
  rw [h q, if_neg fun hboth => hq hboth.1]

/-- A file that is not there counts as one that has just been made. -/
theorem Ensured.getD_eq (h : Ensured preamble place old new) (q : Place) :
    (new.text? q).getD preamble = (old.text? q).getD preamble := by
  rw [h q]
  split
  · rename_i hnew
    rw [Disk.Tree.text?_of_get? hnew.2]
    rfl
  · rfl

end

/-- **A directory gets an aggregator,** with nothing but its preamble, unless there is one. -/
theorem ensured_of_ensureAggregator {aggregator : String} (hn : IsPlain name)
    (hr : t.disk.Reaches directory place)
    (hrun : w.ensureAggregator (join directory name) sec t = (.ok aggregator, t')) :
    aggregator = join (join directory name) aggregatorName ∧ t.disk.Onward t'.disk ∧
      t'.disk.Reaches (join directory name) (place ++ [name]) ∧
      (t'.disk.tree.get? (place ++ [name] ++ [aggregatorName])).isSome ∧
      Ensured (w.preamble sec) (place ++ [name] ++ [aggregatorName]) t.disk.tree t'.disk.tree := by
  obtain ⟨haggregator, hinner, hsome, made, hmade, hensured, hb⟩ :=
    ensureAggregator_eq_ok hn hr hrun
  have honward : t.disk.Onward t'.disk :=
    ⟨hb.candid, fun _ _ => hb.reaches fun _ hd => hensured.keepsDirectories _
      (hmade.keepsDirectories _ hd), fun _ hs => hensured.isSome (hmade.isSome hs)⟩
  refine ⟨haggregator, honward, hinner, hsome, fun q => ?_⟩
  -- the directory holds no text, and it is not where the aggregator is
  have hbelow : place ++ [name] ++ [aggregatorName] ≠ place ++ [name] :=
    fun heq => by simpa using congrArg List.length heq
  have htexts : made.text? q = t.disk.tree.text? q := by
    obtain rfl | ⟨hnone, rfl⟩ := hmade
    · rfl
    · exact Disk.Tree.text?_put_directory hnone q
  have hsame := hmade.get?_of_ne hbelow
  obtain hkept | ⟨hnone, hput⟩ := hensured
  · rw [hkept, htexts, if_neg]
    rintro ⟨rfl, hnone⟩
    rw [hkept, hsame, hnone] at hsome
    exact nomatch hsome
  · rw [hput]
    by_cases hq : q = place ++ [name] ++ [aggregatorName]
    · subst hq
      rw [if_pos ⟨rfl, hsame ▸ hnone⟩, Disk.Tree.text?_put_self (by simp)]
    · rw [if_neg fun h => hq h.1, Disk.Tree.text?_put_of_ne hq, htexts]

/-- **An aggregator imports a directory,** and no other text changes. -/
theorem imported_of_appendImport {child : String} {added : Bool} (hc : t.disk.Candid)
    (hr : t.disk.Reaches directory place)
    (hthere : (t.disk.tree.get? (place ++ [aggregatorName])).isSome)
    (hrun : appendImport (join directory aggregatorName) child t = (.ok added, t')) :
    t.disk.Onward t'.disk ∧
      ∃ content, t.disk.tree.text? (place ++ [aggregatorName]) = some content ∧
        t'.disk.tree =
          t.disk.tree.put (place ++ [aggregatorName]) (.file (withImport content child)) := by
  obtain ⟨content, read, hread, -⟩ := Result.run_bind_eq_ok hrun
  obtain ⟨hold, -⟩ := readOrEmpty_eq_ok isPlain_aggregatorName hc hr hthere hread
  have hfile := Disk.Tree.text?_eq_some_iff.mp hold
  have hb := appendImport_eq_ok hc hr hfile hrun
  exact ⟨hb.onward_put (by simp [hfile]), content, hold, hb.tree_eq⟩

/-- What the aggregators of a section hold after a writer has gone down from a namespace. -/
structure Entered (w : PackageWriter) (root : Place) (sec : Section)
    (namespaces names : List String) (old new : Disk.Tree) : Prop where
  /-- An aggregator on the way imports where the way goes on. -/
  passed : ∀ above child below, names = above ++ child :: below →
    new.text? (aggregatorIn root sec (namespaces ++ above)) =
      some (withImport
        ((old.text? (aggregatorIn root sec (namespaces ++ above))).getD (w.preamble sec)) child)
  /-- The aggregator at the end is as it was, or new. -/
  arrived : ∀ content, new.text? (aggregatorIn root sec (namespaces ++ names)) = some content →
    content = (old.text? (aggregatorIn root sec (namespaces ++ names))).getD (w.preamble sec)
  others : ∀ q, (∀ above, above <+: names → q ≠ aggregatorIn root sec (namespaces ++ above)) →
    new.text? q = old.text? q

/-- **Going down a path,** each aggregator imports the next directory. The induction is on the
names that are left; the aggregator of the directory where the writer is stays untouched until the
next directory is there. -/
theorem enter_eq_ok {names : List String} (hn : ∀ name ∈ names, IsPlain name)
    (hc : t.disk.Candid) (hr : t.disk.Reaches directory (placeIn root sec namespaces))
    (hthere : (t.disk.tree.get? (aggregatorIn root sec namespaces)).isSome) {last : String}
    (hrun : w.enter sec directory (some (join directory aggregatorName)) names t = (.ok last, t')) :
    t.disk.Onward t'.disk ∧ t'.disk.Reaches last (placeIn root sec (namespaces ++ names)) ∧
      (t'.disk.tree.get? (aggregatorIn root sec (namespaces ++ names))).isSome ∧
      Entered w root sec namespaces names t.disk.tree t'.disk.tree := by
  induction names generalizing directory namespaces t with
  | nil =>
      obtain ⟨rfl, rfl⟩ := Result.run_pure_eq_ok hrun
      rw [List.append_nil]
      refine ⟨.refl _, hr, hthere, fun above child below h => ?_, fun content h => ?_,
        fun _ _ => rfl⟩
      · exact absurd h.symm (List.append_ne_nil_of_right_ne_nil _ (List.cons_ne_nil _ _))
      · rw [h]
        rfl
  | cons name names ih =>
      obtain ⟨aggregator, made, hmake, hrest⟩ := Result.run_bind_eq_ok hrun
      obtain ⟨_, imported, himport, hrest⟩ := Result.run_bind_eq_ok hrest
      have hplain := hn name List.mem_cons_self
      obtain ⟨rfl, hmade, hinner, hsome, htexts⟩ := ensured_of_ensureAggregator hplain hr hmake
      rw [← placeIn_append] at hinner hsome htexts
      rw [← aggregatorIn] at htexts
      -- the outer aggregator is another than the one that has just been made
      have hne : aggregatorIn root sec namespaces ≠ aggregatorIn root sec (namespaces ++ [name]) :=
        fun h => aggregatorIn_ne_below root sec namespaces [] name (by rw [List.append_nil, h])
      obtain ⟨houter, content, hold, himported⟩ := imported_of_appendImport (hmade.candid hc)
        (hmade.reaches _ _ hr) (hmade.there _ hthere) himport
      rw [← aggregatorIn] at hold himported
      rw [htexts.text?_of_ne hne] at hold
      have himported' : ∀ q, q ≠ aggregatorIn root sec namespaces →
          imported.disk.tree.text? q = made.disk.tree.text? q := fun q hq => by
        rw [himported, Disk.Tree.text?_put_of_ne hq]
      obtain ⟨hlast, hreached, hend, hentered⟩ :=
        ih (fun other hm => hn other (List.mem_cons_of_mem _ hm))
          (houter.candid (hmade.candid hc)) (houter.reaches _ _ hinner) (houter.there _ hsome) hrest
      have hbelow := fun below => aggregatorIn_ne_below root sec namespaces below name
      refine ⟨(hmade.trans houter).trans hlast, ?_, ?_, ?_, ?_, ?_⟩
      · rw [List.append_cons]
        exact hreached
      · rw [List.append_cons]
        exact hend
      · intro above child below hnames
        rcases List.cons_eq_append_iff.mp hnames with ⟨rfl, hcons⟩ | ⟨above', rfl, hrest⟩
        · obtain ⟨rfl, rfl⟩ := List.cons.inj hcons
          rw [List.append_nil, hold, hentered.others _ fun above _ => (hbelow above).symm,
            himported]
          exact Disk.Tree.text?_put_self aggregatorIn_ne_nil
        · rw [List.append_cons, hentered.passed above' child below hrest,
            himported' _ (hbelow _), htexts.getD_eq]
      · intro content' hcontent
        rw [List.append_cons] at hcontent ⊢
        rw [hentered.arrived content' hcontent, himported' _ (hbelow _), htexts.getD_eq]
      · intro q hq
        have hhere : q ≠ aggregatorIn root sec namespaces := by
          simpa using hq [] List.nil_prefix
        rw [hentered.others q, himported' q hhere,
          htexts.text?_of_ne (hq [name] (List.prefix_append [name] names))]
        · intro above habove
          rw [← List.append_cons]
          exact hq (name :: above) (List.cons_prefix_cons.mpr ⟨rfl, habove⟩)

/-! ## Writing a stub -/

/-- What a stub leaves in the files of a package. -/
structure Leaves (w : PackageWriter) (root : Place) (stub : Stub) (old new : Disk.Tree) :
    Prop where
  /-- Its declaration stands at the end of the aggregator of its directory. -/
  declared : new.text? (homeOf root stub) =
    some (withStub ((old.text? (homeOf root stub)).getD (w.preamble stub.path.root)) stub)
  /-- The aggregators on the way import where the way goes on. -/
  passed : ∀ above child below, stub.path.namespaces = above ++ child :: below →
    new.text? (aggregatorIn root stub.path.root above) =
      some (withImport ((old.text? (aggregatorIn root stub.path.root above)).getD
        (w.preamble stub.path.root)) child)
  /-- Its types are a module, which an aggregator may only take the place of. -/
  typed : stub.hasTypeDefs = true → typesOf root stub ≠ homeOf root stub →
    new.text? (typesOf root stub) = some stub.typeDefs
  others : ∀ q,
    (∀ above, above <+: stub.path.namespaces → q ≠ aggregatorIn root stub.path.root above) →
    (stub.hasTypeDefs = true → q ≠ typesOf root stub) → new.text? q = old.text? q

/-- What becomes of an aggregator: the stub is declared in it, or it imports where the way goes on,
or nothing is done to it. -/
theorem Leaves.aggregator (h : Leaves w root stub old new) {content : String}
    (hold : old.text? (aggregatorIn root sec namespaces) = some content) :
    ∃ content', new.text? (aggregatorIn root sec namespaces) = some content' ∧
      (content' = content ∨ content' = withStub content stub ∨
        ∃ child, content' = withImport content child) := by
  by_cases hmine : sec = stub.path.root ∧ namespaces <+: stub.path.namespaces
  · obtain ⟨rfl, below, hbelow⟩ := hmine
    -- on the way of the stub the aggregator is at the end, or before the next directory
    cases below with
    | nil =>
        rw [List.append_nil] at hbelow
        subst hbelow
        refine ⟨_, h.declared, .inr (.inl ?_)⟩
        rw [homeOf, hold]
        rfl
    | cons child below =>
        refine ⟨_, h.passed namespaces child below hbelow.symm, .inr (.inr ⟨child, ?_⟩)⟩
        rw [hold]
        rfl
  · refine ⟨content, ?_, .inl rfl⟩
    rw [h.others _ (fun above habove hsame => ?_) fun _ hsame => ?_, hold]
    · obtain ⟨rfl, rfl⟩ := aggregatorIn_inj.mp hsame
      exact hmine ⟨rfl, habove⟩
    · obtain ⟨-, rfl, rfl⟩ := typesOf_eq_aggregatorIn_iff.mp hsame.symm
      exact hmine ⟨rfl, List.prefix_rfl⟩

/-- Going down from the top of a package to the directory of a stub. The directory of the section
comes first, which nothing imports. -/
theorem entered_of_enter {aggregator : String} {made entered : Transaction}
    (hn : ∀ name ∈ stub.path.namespaces, IsPlain name) (hc : t.disk.Candid)
    (hr : t.disk.Reaches w.root root)
    (hmake : w.ensureAggregator (join w.root stub.path.root.directory) stub.path.root t =
      (.ok aggregator, made))
    (hdown : w.enter stub.path.root (join w.root stub.path.root.directory) (some aggregator)
      stub.path.namespaces made = (.ok directory, entered)) :
    t.disk.Onward entered.disk ∧
      entered.disk.Reaches directory (placeIn root stub.path.root stub.path.namespaces) ∧
      (entered.disk.tree.get? (homeOf root stub)).isSome ∧
      Entered w root stub.path.root [] stub.path.namespaces t.disk.tree entered.disk.tree := by
  obtain ⟨rfl, hmade, hinner, hsome, htexts⟩ :=
    ensured_of_ensureAggregator (isPlain_directory _) hr hmake
  have hstart : made.disk.Reaches (join w.root stub.path.root.directory)
      (placeIn root stub.path.root []) := hinner
  obtain ⟨hdown, hreached, hend, hentered⟩ :=
    enter_eq_ok hn (hmade.candid hc) hstart hsome hdown
  refine ⟨hmade.trans hdown, hreached, hend, fun above child below hnames => ?_,
    fun content hcontent => ?_, fun q hq => ?_⟩
  · rw [hentered.passed above child below hnames, htexts.getD_eq]
  · rw [hentered.arrived content hcontent, htexts.getD_eq]
  · rw [hentered.others q hq, htexts.text?_of_ne (hq [] List.nil_prefix)]

/-- Of all texts, declaring a stub changes that of the aggregator and that of the types. -/
theorem Declares.texts {content : String}
    (h : Declares stub (placeIn root stub.path.root stub.path.namespaces) content disk after) :
    disk.Onward after ∧ after.tree.text? (homeOf root stub) = some (withStub content stub) ∧
      (stub.hasTypeDefs = true → typesOf root stub ≠ homeOf root stub →
        after.tree.text? (typesOf root stub) = some stub.typeDefs) ∧
      ∀ q, q ≠ homeOf root stub → (stub.hasTypeDefs = true → q ≠ typesOf root stub) →
        after.tree.text? q = disk.tree.text? q := by
  obtain ⟨typed, htypes, hfree, hb⟩ := h
  have hhome : after.tree.text? (homeOf root stub) = some (withStub content stub) := by
    rw [hb.tree_eq]
    exact Disk.Tree.text?_put_self aggregatorIn_ne_nil
  -- the aggregator is written last, and nothing else after the types
  have helse : ∀ q, q ≠ homeOf root stub → after.tree.text? q = typed.tree.text? q :=
    fun q hq => by
      rw [hb.tree_eq]
      exact Disk.Tree.text?_put_of_ne hq
  obtain ⟨hdefs, hfree', hb'⟩ | ⟨hdefs, rfl⟩ := htypes
  · refine ⟨(hb'.onward_put hfree').trans (hb.onward_put hfree), hhome, fun _ hne => ?_,
      fun q hq hq' => ?_⟩
    · rw [helse _ hne, hb'.tree_eq]
      exact Disk.Tree.text?_put_self (by simp)
    · rw [helse q hq, hb'.tree_eq]
      exact Disk.Tree.text?_put_of_ne (hq' hdefs)
  · refine ⟨hb.onward_put hfree, hhome, fun h => ?_, fun q hq _ => helse q hq⟩
    rw [hdefs] at h
    exact Bool.noConfusion h

/-- **A stub goes into the files that it belongs in.** -/
theorem writeIn_leaves (hn : ∀ segment ∈ stub.path.segments, IsPlain segment)
    (hc : t.disk.Candid) (hr : t.disk.Reaches w.root root)
    (hrun : w.writeIn stub t = (.ok (), t')) :
    t.disk.Onward t'.disk ∧ Leaves w root stub t.disk.tree t'.disk.tree := by
  have htypes := isPlain_typeFile (hn stub.path.leaf (List.mem_append_right _ List.mem_cons_self))
  obtain ⟨aggregator, made, directory, entered, content, looked, hmake, hdown, hread, hdeclares⟩ :=
    writeIn_eq_ok htypes hrun
  obtain ⟨honward, hreached, hsome, hentered⟩ :=
    entered_of_enter (fun name hm => hn name (List.mem_append_left _ hm)) hc hr hmake hdown
  obtain ⟨hold, hlooked⟩ := readOrEmpty_eq_ok isPlain_aggregatorName (honward.candid hc) hreached
    hsome hread
  obtain ⟨hdone, hhome, htyped, hothers⟩ :=
    (hdeclares _ (hlooked.onward.reaches _ _ hreached)).texts
  rw [hlooked.tree_eq] at hothers
  refine ⟨(honward.trans hlooked.onward).trans hdone, ?_, fun above child below hnames => ?_,
    htyped, fun q hq hq' => ?_⟩
  · rw [hhome, hentered.arrived content hold]
    rfl
  · -- an aggregator on the way is none at its end
    have hne : above ≠ stub.path.namespaces := fun h => by
      rw [h] at hnames
      simp at hnames
    rw [hothers _ (fun h => hne (aggregatorIn_inj.mp h).2) fun _ h =>
      hne (typesOf_eq_aggregatorIn_iff.mp h.symm).2.2.symm]
    exact hentered.passed above child below hnames
  · rw [hothers q (hq _ List.prefix_rfl) hq']
    exact hentered.others q hq

/-- A disk on which the package of a writer can be found. -/
structure Ready (w : PackageWriter) (root : Place) (disk : Disk) : Prop where
  wellFormed : disk.tree.WellFormed
  candid : disk.Candid
  reached : disk.Reaches w.root root

/-- **A stub that is written goes into the files that it belongs in.** -/
theorem write_leaves (h : Ready w root disk) (hn : ∀ segment ∈ stub.path.segments, IsPlain segment)
    (hrun : w.write stub disk = (.ok (), after)) :
    Ready w root after ∧ Leaves w root stub disk.tree after.tree := by
  have hwf : (w.write stub disk).2.tree.WellFormed := by
    unfold write
    split
    · exact h.wellFormed
    · exact wellFormed_of_atomically h.wellFormed (safe_writeIn stub)
  rw [hrun] at hwf
  unfold write at hrun
  split at hrun
  · exact absurd (Prod.mk.inj hrun).1 (by simp)
  · obtain ⟨t, hsteps, rfl⟩ := run_of_atomically hrun
    obtain ⟨honward, hleaves⟩ := writeIn_leaves hn h.candid h.reached hsteps
    exact ⟨⟨hwf, honward.candid h.candid, honward.reaches _ _ h.reached⟩, hleaves⟩

/-- A stub that is not written leaves everything as it was. -/
theorem Ready.write_error (h : Ready w root disk) {e : PackageError}
    (hrun : w.write stub disk = (.error e, after)) :
    Ready w root after ∧ after.tree = disk.tree := by
  have hleft := w.refusals_suffix_write stub disk
  rw [hrun] at hleft
  have hb : disk.Becomes disk.tree after := ⟨_, hleft, untouched_of_write h.wellFormed hrun⟩
  refine ⟨⟨?_, hb.candid h.candid, hb.onward.reaches _ _ h.reached⟩, hb.tree_eq⟩
  rw [hb.tree_eq]
  exact h.wellFormed

/-! ## Writing stub after stub -/

/-- The disks that are reached from one by writing stubs, which go into the package, with those
that have been written; others may have failed. -/
inductive Wrote (w : PackageWriter) (start : Disk) : List Stub → Disk → Prop where
  | nothing : Wrote w start [] start
  | written {history : List Stub} {disk after : Disk} {stub : Stub} : Wrote w start history disk →
      (∀ segment ∈ stub.path.segments, IsPlain segment) → w.write stub disk = (.ok (), after) →
      Wrote w start (history ++ [stub]) after
  | failed {history : List Stub} {disk after : Disk} {stub : Stub} {e : PackageError} :
      Wrote w start history disk → w.write stub disk = (.error e, after) →
      Wrote w start history after

theorem Wrote.ready {start : Disk} {history : List Stub} (h : Ready w root start)
    (hw : Wrote w start history disk) : Ready w root disk := by
  induction hw with
  | nothing => exact h
  | written _ hn hrun ih => exact (write_leaves ih hn hrun).1
  | failed _ hrun ih => exact (ih.write_error hrun).1

end PackageWriter

namespace Generator

open PackageWriter (Wrote plain_of_render)

variable {g : Generator} {start disk : Disk} {history : List Stub}

/-- The stubs of the specs that were written, in order. -/
def stubsOf (g : Generator) (attempts : List (Spec × Attempt)) : List Stub :=
  attempts.filterMap fun (spec, attempt) =>
    if attempt = .generated then (g.renderer.render spec).toOption else none

theorem stubsOf_append (g : Generator) (attempts others : List (Spec × Attempt)) :
    g.stubsOf (attempts ++ others) = g.stubsOf attempts ++ g.stubsOf others :=
  List.filterMap_append

theorem stubsOf_cons {g : Generator} {spec : Spec} {stub : Stub}
    (h : g.renderer.render spec = .ok stub) (attempts : List (Spec × Attempt)) :
    g.stubsOf ((spec, .generated) :: attempts) = stub :: g.stubsOf attempts := by
  unfold stubsOf
  exact List.filterMap_cons_some (by simp [h, Except.toOption])

/-- Each of these stubs was rendered for a spec that was written. -/
theorem exists_of_mem_stubsOf {attempts : List (Spec × Attempt)} {stub : Stub}
    (h : stub ∈ g.stubsOf attempts) :
    ∃ spec, (spec, Attempt.generated) ∈ attempts ∧ g.renderer.render spec = .ok stub := by
  obtain ⟨⟨spec, attempt⟩, hm, hstub⟩ := List.mem_filterMap.mp h
  dsimp only at hstub
  split at hstub
  · rename_i hgenerated
    exact ⟨spec, hgenerated ▸ hm, Result.eq_ok_of_toOption hstub⟩
  · exact absurd hstub nofun

theorem wrote_attempt (h : Wrote g.writer start history disk) (spec : Spec) :
    Wrote g.writer start (history ++ g.stubsOf [(spec, (g.attempt spec disk).1)])
      (g.attempt spec disk).2 := by
  unfold attempt stubsOf
  cases hrender : g.renderer.render spec with
  | error e => simpa using h
  | ok stub =>
      dsimp only
      split
      · simpa using h
      · cases hwrite : g.writer.write stub disk with
        | mk result after =>
            cases result with
            | error e => simpa using h.failed hwrite
            | ok _ =>
                have hnext := h.written (plain_of_render hrender) hwrite
                simpa [hrender, Except.toOption] using hnext

theorem wrote_attemptAll (h : Wrote g.writer start history disk) (specs : List Spec) :
    Wrote g.writer start (history ++ g.stubsOf (g.attemptAll specs disk).1)
      (g.attemptAll specs disk).2 := by
  induction specs generalizing history disk with
  | nil => simpa [attemptAll, stubsOf] using h
  | cons spec specs ih =>
      have hrest := ih (wrote_attempt h spec)
      rw [List.append_assoc, ← stubsOf_append] at hrest
      exact hrest

/-- The attempts of batches, in order. -/
def attemptsOf (reports : List BatchReport) : List (Spec × Attempt) :=
  reports.flatMap BatchReport.attempts

/-- **Batches write the stubs of the specs that they report as written,** in that order. -/
theorem wrote_batches (h : Wrote g.writer start history disk) (specs : List Spec)
    (sections : List Section) :
    Wrote g.writer start (history ++ g.stubsOf (attemptsOf (g.batches specs sections disk).1))
      (g.batches specs sections disk).2 := by
  induction sections generalizing history disk with
  | nil => simpa [batches, attemptsOf, stubsOf] using h
  | cons sec sections ih =>
      have hfirst := wrote_attemptAll h (specs.filter fun spec => sec.holds spec.category)
      have hrest := ih hfirst
      rw [List.append_assoc, ← stubsOf_append] at hrest
      exact hrest

end Generator

end StubGen
