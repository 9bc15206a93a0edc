import Mathlib.Logic.ExistsUnique
import StubGen.Proofs.Stub.Modules

/-!
# Sets of definitions merge like sets

Whatever is added to a set of definitions goes behind all that is there, and only where nothing
there has its key: a line of imports is its own key, and a definition goes by its name. So a set can
be taken up by another one before something is added to it or afterwards: `extend_add`. A source is
cut the same way whichever set takes it up, so that the same holds of a step of the cutting
(`Cutting.step_onto`), and from that of a run over the lines of a source: `extend_push`. All laws
of merging follow, `merges_like_sets`: in particular, to collect sources in a set of their own and
to take that up is to push the sources one by one.
-/

namespace StubGen.DefinitionSet

/-! ## Adding what is new -/

section

variable {α κ : Type} [DecidableEq κ] {key : α → κ} {items more : List α} {a : α} {k : κ}

/-- An item behind others, unless one of them has its key. -/
def addNew (key : α → κ) (items : List α) (a : α) : List α :=
  if key a ∈ items.map key then items else items ++ [a]

theorem prefix_addNew : items <+: addNew key items a := by
  unfold addNew
  split
  · exact List.prefix_rfl
  · exact List.prefix_append _ _

theorem mem_keys_addNew : k ∈ (addNew key items a).map key ↔ k ∈ items.map key ∨ k = key a := by
  unfold addNew
  split
  · exact ⟨.inl, fun h => h.elim id fun heq => heq ▸ ‹_›⟩
  · rw [List.map_append, List.mem_append, List.map_singleton, List.mem_singleton]

theorem nodup_addNew (h : (items.map key).Nodup) : ((addNew key items a).map key).Nodup := by
  unfold addNew
  split
  · exact h
  · rename_i hnew
    rw [List.map_append, List.map_singleton]
    exact List.nodup_append.mpr ⟨h, List.nodup_singleton _, fun _ hm _ hm' heq =>
      hnew (List.mem_singleton.mp hm' ▸ heq ▸ hm)⟩

theorem prefix_foldl_addNew (more : List α) : items <+: more.foldl (addNew key) items :=
  List.foldlRecOn more _ List.prefix_rfl fun _ h _ _ => h.trans prefix_addNew

theorem nodup_foldl_addNew (more : List α) (h : (items.map key).Nodup) :
    ((more.foldl (addNew key) items).map key).Nodup :=
  @List.foldlRecOn _ _ (fun items : List α => (items.map key).Nodup) more _ _ h
    fun _ h _ _ => nodup_addNew h

theorem mem_keys_foldl_addNew (key : α → κ) (items more : List α) :
    k ∈ (more.foldl (addNew key) items).map key ↔ k ∈ items.map key ∨ k ∈ more.map key := by
  induction more generalizing items with
  | nil => simp
  | cons a more ih =>
      rw [List.foldl_cons, ih, mem_keys_addNew, List.map_cons, List.mem_cons, or_assoc]

/-- Nothing is new whose key is there. -/
theorem foldl_addNew_of_known (h : ∀ a ∈ more, key a ∈ items.map key) :
    more.foldl (addNew key) items = items := by
  induction more with
  | nil => rfl
  | cons a more ih =>
      rw [List.foldl_cons, addNew, if_pos (h a List.mem_cons_self)]
      exact ih fun other hm => h other (List.mem_cons_of_mem _ hm)

/-- **Items that one is added to can be added before it.** -/
theorem foldl_addNew_addNew (items more : List α) (a : α) :
    (addNew key more a).foldl (addNew key) items =
      addNew key (more.foldl (addNew key) items) a := by
  by_cases hknown : key a ∈ more.map key
  · have hafter := (mem_keys_foldl_addNew key items more).mpr (.inr hknown)
    rw [addNew, if_pos hknown, addNew, if_pos hafter]
  · rw [addNew, if_neg hknown, List.foldl_append]
    rfl

end

/-! ## Taking up a set -/

variable {set other : DefinitionSet} {name line : String}

theorem addImport_eq (set : DefinitionSet) (line : String) :
    set.addImport line = { set with imports := addNew id set.imports line } := by
  simp only [addImport, addNew, List.map_id, id, List.contains_iff_mem]
  split <;> rfl

theorem add_eq (set : DefinitionSet) (d : Definition) :
    set.add d = { set with definitions := addNew Definition.name set.definitions d } := by
  have hknown : set.declares d.name = true ↔ d.name ∈ set.definitions.map Definition.name :=
    declares_iff.trans List.mem_map.symm
  unfold add addNew
  simp only [hknown]
  split <;> rfl

theorem extend_eq (set other : DefinitionSet) :
    set.extend other = ⟨other.imports.foldl (addNew id) set.imports,
      other.definitions.foldl (addNew Definition.name) set.definitions⟩ := by
  have himports : ∀ (lines : List String) (set : DefinitionSet), lines.foldl addImport set =
      { set with imports := lines.foldl (addNew id) set.imports } := by
    intro lines
    induction lines with
    | nil => exact fun _ => rfl
    | cons line lines ih =>
        intro set
        rw [List.foldl_cons, List.foldl_cons, addImport_eq, ih]
  have hdefinitions : ∀ (ds : List Definition) (set : DefinitionSet), ds.foldl add set =
      { set with definitions := ds.foldl (addNew Definition.name) set.definitions } := by
    intro ds
    induction ds with
    | nil => exact fun _ => rfl
    | cons d ds ih =>
        intro set
        rw [List.foldl_cons, List.foldl_cons, add_eq, ih]
  rw [extend, himports, hdefinitions]

theorem extend_empty (set : DefinitionSet) : set.extend empty = set := rfl

theorem extend_addImport (set other : DefinitionSet) (line : String) :
    set.extend (other.addImport line) = (set.extend other).addImport line := by
  simp only [addImport_eq, extend_eq, foldl_addNew_addNew]

theorem extend_add (set other : DefinitionSet) (d : Definition) :
    set.extend (other.add d) = (set.extend other).add d := by
  simp only [add_eq, extend_eq, foldl_addNew_addNew]

/-- To take up a set once more changes nothing. -/
theorem extend_again (set other : DefinitionSet) :
    (set.extend other).extend other = set.extend other := by
  have hknown {α κ : Type} [DecidableEq κ] {key : α → κ} {items more : List α} :
      more.foldl (addNew key) (more.foldl (addNew key) items) = more.foldl (addNew key) items :=
    foldl_addNew_of_known fun _ hm =>
      (mem_keys_foldl_addNew _ _ _).mpr (.inr (List.mem_map_of_mem hm))
  rw [extend_eq (set.extend other), extend_eq]
  simp only [hknown]

/-! ## Pushing a source -/

namespace Cutting

/-- The same cutting, with a set that takes up what is cut. -/
def onto (set : DefinitionSet) (c : Cutting) : Cutting := { c with set := set.extend c.set }

theorem close_onto (set : DefinitionSet) (c : Cutting) :
    (c.onto set).close = set.extend c.close := by
  unfold close onto
  dsimp only
  split
  · rw [extend_add]
  · rfl

/-- **A line is cut the same way whichever set takes it up.** -/
theorem step_onto (set : DefinitionSet) (c : Cutting) (line : String) :
    (c.onto set).step line = (c.step line).onto set := by
  unfold step
  split
  · simp only [onto, extend_addImport]
  · split
    · rw [close_onto]
      rfl
    · unfold onto
      dsimp only
      split
      · rfl
      · split <;> rfl

end Cutting

/-- **A set that a source is pushed onto can be taken up before.** -/
theorem extend_push (set other : DefinitionSet) (source : String) :
    set.extend (other.push source) = (set.extend other).push source := by
  unfold push
  rw [← Cutting.close_onto, ← List.foldl_hom (Cutting.onto set) (Cutting.step_onto set)]
  rfl

theorem extend_foldl_push (sources : List String) (set other : DefinitionSet) :
    set.extend (sources.foldl push other) = sources.foldl push (set.extend other) :=
  (List.foldl_hom set.extend fun other source => (extend_push set other source).symm).symm

/-- What a source brings is what it makes of the empty set. -/
theorem push_eq_extend (set : DefinitionSet) (source : String) :
    set.push source = set.extend (empty.push source) := by
  rw [extend_push, extend_empty]

namespace Cutting

theorem imports_close (c : Cutting) : c.close.imports = c.set.imports := by
  unfold close
  split
  · rw [add_eq]
  · rfl

theorem imports_step (c : Cutting) (line : String) :
    (c.step line).set.imports =
      if isImport line then addNew id c.set.imports line else c.set.imports := by
  unfold step
  split
  · rw [addImport_eq]
  · split
    · exact c.imports_close
    · split
      · rfl
      · split <;> rfl

end Cutting

/-- Pushing a source adds the imports among its lines. -/
theorem imports_push (set : DefinitionSet) (source : String) :
    (set.push source).imports =
      ((Text.lines source).filter isImport).foldl (addNew id) set.imports := by
  rw [push, Cutting.imports_close, List.foldl_filter]
  exact (List.foldl_hom (fun c : Cutting => c.set.imports) fun c line =>
    (Cutting.imports_step c line).symm).symm

theorem mem_imports_push {source : String} :
    line ∈ (set.push source).imports ↔
      line ∈ set.imports ∨ line ∈ Text.lines source ∧ isImport line = true := by
  have h := @mem_keys_foldl_addNew _ _ _ line id set.imports ((Text.lines source).filter isImport)
  rw [imports_push]
  simpa only [List.map_id, List.mem_filter] using h

/-! ## Runs of changes -/

/-- What is done to a set. -/
inductive Change where
  | push (source : String)
  | extend (other : DefinitionSet)

/-- What a change brings. -/
def Change.brought : Change → DefinitionSet
  | .push source => empty.push source
  | .extend other => other

def change (set : DefinitionSet) : Change → DefinitionSet
  | .push source => set.push source
  | .extend other => set.extend other

/-- A set after some changes, one after another. -/
def changeAll (set : DefinitionSet) (changes : List Change) : DefinitionSet :=
  changes.foldl change set

/-- Each change takes up what it brings. -/
theorem change_eq (set : DefinitionSet) (c : Change) : set.change c = set.extend c.brought := by
  cases c with
  | push source => exact push_eq_extend set source
  | extend other => rfl

/-- No name and no line of imports is there twice. -/
structure Distinct (set : DefinitionSet) : Prop where
  names : (set.definitions.map Definition.name).Nodup
  imports : set.imports.Nodup

theorem distinct_empty : empty.Distinct := ⟨List.nodup_nil, List.nodup_nil⟩

theorem Distinct.extend (h : set.Distinct) (other : DefinitionSet) :
    (set.extend other).Distinct := by
  have himports : (set.imports.map id).Nodup := by
    rw [List.map_id]
    exact h.imports
  rw [extend_eq]
  refine ⟨nodup_foldl_addNew _ h.names, ?_⟩
  simpa only [List.map_id] using nodup_foldl_addNew other.imports himports

/-- In a set of distinct names each name has one block. -/
theorem Distinct.existsUnique_block (h : set.Distinct) (hname : set.declares name = true) :
    ∃! block, Definition.mk name block ∈ set.definitions := by
  obtain ⟨d, hd, rfl⟩ := declares_iff.mp hname
  refine ⟨d.block, hd, fun block hblock => ?_⟩
  exact congrArg Definition.block (List.inj_on_of_nodup_map h.names hblock hd rfl)

/-- A set goes on where another one ends: all that is in that one stays as it is and where it
is. -/
structure PrefixOf (before after : DefinitionSet) : Prop where
  definitions : before.definitions <+: after.definitions
  imports : before.imports <+: after.imports

theorem prefixOf_extend (set other : DefinitionSet) : set.PrefixOf (set.extend other) := by
  rw [extend_eq]
  exact ⟨prefix_foldl_addNew _, prefix_foldl_addNew _⟩

theorem PrefixOf.trans {after : DefinitionSet} (h : set.PrefixOf other)
    (h' : other.PrefixOf after) : set.PrefixOf after :=
  ⟨h.definitions.trans h'.definitions, h.imports.trans h'.imports⟩

/-- **Whatever is done to a set, its names and imports stay distinct.** -/
theorem Distinct.changeAll (h : set.Distinct) (changes : List Change) :
    (set.changeAll changes).Distinct :=
  List.foldlRecOn changes _ h fun before h c _ => change_eq before c ▸ h.extend c.brought

/-- **Whatever is done to a set, nothing in it is changed or moved.** -/
theorem prefixOf_changeAll (set : DefinitionSet) (changes : List Change) :
    set.PrefixOf (set.changeAll changes) :=
  List.foldlRecOn changes _ ⟨List.prefix_rfl, List.prefix_rfl⟩ fun before h c _ =>
    h.trans (change_eq before c ▸ prefixOf_extend before c.brought)

/-- **Sets of definitions merge like sets.** After any changes to the empty set no name is there
twice, nor is a line of imports, and each name has one block. No change touches what is there.
Pushing a source adds the names that its lines introduce and the imports among its lines, and
pushing it again adds nothing. And to take up what some sources make of the empty set is to push
them. -/
theorem merges_like_sets (set : DefinitionSet) :
    (∀ changes : List Change, (empty.changeAll changes).Distinct ∧
      ∀ name, (empty.changeAll changes).declares name = true →
        ∃! block, Definition.mk name block ∈ (empty.changeAll changes).definitions) ∧
    (∀ changes : List Change, set.PrefixOf (set.changeAll changes)) ∧
    (∀ source, (∀ name, (set.push source).declares name = true ↔
        set.declares name = true ∨ IntroducedIn source name) ∧
      (∀ line, line ∈ (set.push source).imports ↔
        line ∈ set.imports ∨ line ∈ Text.lines source ∧ isImport line = true) ∧
      (set.push source).push source = set.push source) ∧
    (∀ sources : List String,
      set.extend (sources.foldl push empty) = sources.foldl push set) := by
  refine ⟨fun changes => ?_, prefixOf_changeAll set, fun source => ⟨?_, ?_, ?_⟩, fun sources => ?_⟩
  · have hdistinct := distinct_empty.changeAll changes
    exact ⟨hdistinct, fun name => hdistinct.existsUnique_block⟩
  · exact fun name => declares_push_iff set source
  · exact fun line => mem_imports_push
  · rw [push_eq_extend set source, push_eq_extend, extend_again]
  · rw [extend_foldl_push, extend_empty]

end StubGen.DefinitionSet
