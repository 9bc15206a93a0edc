import Mathlib.Logic.Relation
import StubGen.Proofs.Spec.Normal

/-!
# Kinds in specs

Types stand in types: in the items of an array, the properties of an object, the signature of a
function. Whatever reading enters is read: when a record has been read, so has everything at one of
its positions, except items of an array that are no type: `accepted_of_holds`. Those are kept as
they stand, whatever they hold. So a kind that nobody knows is refused wherever it stands, except
inside such items, and the refusal concerns its own spec only: `decode_kinds`.
-/

namespace StubGen

namespace Spec

open Result Relation

/-! ## Positions -/

/-- What stands in a spec besides names and texts. -/
inductive Role where
  | type
  | parameter
  | signature

/-- A tag that says that a type is of a kind: the kind's name, or its number. -/
def Tags (kind : Kind) : Json → Prop
  | .str name => name = kind.name
  | .int n => 0 ≤ n ∧ Kind.all[n.toNat]? = some kind
  | _ => False

/-- A value that is tagged as a type of a kind: under its key, or before its fields. -/
def Tagged (kind : Kind) : Json → Prop
  | .obj members => ∃ tag, Members.get? members "kind" = some tag ∧ Tags kind tag
  | .arr (tag :: _) => Tags kind tag
  | _ => False

/-- The members of a record with these fields, whichever way it is given. -/
def membersOf (fields : List String) : Json → Members
  | .obj members => members
  | .arr items => fields.zip items
  | _ => []

/-- The members of a type of a kind. In an array the tag comes first. -/
def typeMembersOf (kind : Kind) : Json → Members
  | .arr (_ :: items) => (Kind.fields kind).zip items
  | value => membersOf [] value

/-- Which positions a position leads to at once. Of the items of arrays those are entered that
should be. -/
inductive Holds (enters : Json → Prop) : Role × Json → Role × Json → Prop where
  | items {outer inner : Json} : Tagged .array outer →
      ("items", inner) ∈ typeMembersOf .array outer → enters inner →
      Holds enters (.type, outer) (.type, inner)
  | properties {outer inner : Json} {parameters : List Json} : Tagged .object outer →
      ("properties", .arr parameters) ∈ typeMembersOf .object outer → inner ∈ parameters →
      Holds enters (.type, outer) (.parameter, inner)
  | spec {outer inner : Json} : Tagged .function outer →
      ("spec", inner) ∈ typeMembersOf .function outer →
      Holds enters (.type, outer) (.signature, inner)
  | type {outer inner : Json} : ("type", inner) ∈ membersOf parameterFields outer →
      Holds enters (.parameter, outer) (.type, inner)
  | arguments {outer inner : Json} {parameters : List Json} :
      ("arguments", .arr parameters) ∈ membersOf signatureFields outer → inner ∈ parameters →
      Holds enters (.signature, outer) (.parameter, inner)
  | returnType {outer inner : Json} : ("returnType", inner) ∈ membersOf signatureFields outer →
      Holds enters (.signature, outer) (.type, inner)

/-- The outermost positions of a spec: its function, and the type of its variable. -/
inductive Starts (source : Json) : Role × Json → Prop where
  | function {signature : Json} : ("function", signature) ∈ membersOf fieldNames source →
      Starts source (.signature, signature)
  | valueType {stored type : Json} : ("variable", stored) ∈ membersOf fieldNames source →
      ("valueType", type) ∈ membersOf variableFields stored → Starts source (.type, type)

/-- A value stands where a spec has a type. -/
def TypePosition (enters : Json → Prop) (source value : Json) : Prop :=
  ∃ start, Starts source start ∧ ReflTransGen (Holds enters) start (.type, value)

/-- A value that can be read as a type. -/
def Readable (value : Json) : Prop := ∃ type, decodeType .inside value = .ok type

/-- What stands at a position has been read, or it is null where that stands for absence. -/
def Accepted : Role × Json → Prop
  | (.type, value) => value.isNull ∨ ∃ place type, decodeType place value = .ok type
  | (.parameter, value) => ∃ place p, decodeParameter place value = .ok p
  | (.signature, value) => value.isNull ∨ ∃ place s, decodeSignature place value = .ok s

/-! ## Tags -/

theorem find?_eq_some_iff {name : String} {kind : Kind} :
    (Kind.all.find? fun kind => kind.name == name) = some kind ↔ name = kind.name := by
  constructor
  · intro h
    exact (beq_iff_eq.mp (List.find?_some (p := fun kind : Kind => kind.name == name) h)).symm
  · rintro rfl
    cases kind <;> rfl

theorem Tags.of_decodeKind {place : Place} {kind : Kind} {tag : Json}
    (h : decodeKind place tag = .ok kind) : Tags kind tag := by
  unfold decodeKind at h
  split at h
  · split at h
    · rename_i found hfind
      rw [← Except.ok.inj h]
      exact find?_eq_some_iff.mp hfind
    · exact nomatch h
  · split at h
    · rename_i hn
      split at h
      · rename_i found hget
        exact ⟨hn.2, Except.ok.inj h ▸ hget⟩
      · exact nomatch h
    · exact nomatch h
  · exact nomatch h

theorem Tags.unique {kind kind' : Kind} {tag : Json} (h : Tags kind tag) (h' : Tags kind' tag) :
    kind = kind' := by
  cases tag with
  | str name =>
      exact Option.some.inj ((find?_eq_some_iff.mpr h).symm.trans (find?_eq_some_iff.mpr h'))
  | int n => exact Option.some.inj (h.2.symm.trans h'.2)
  | _ => exact h.elim

theorem Tagged.unique {kind kind' : Kind} {value : Json} (h : Tagged kind value)
    (h' : Tagged kind' value) : kind = kind' := by
  cases value with
  | obj members =>
      obtain ⟨tag, hget, htag⟩ := h
      obtain ⟨tag', hget', htag'⟩ := h'
      rw [Option.some.inj (hget.symm.trans hget')] at htag
      exact htag.unique htag'
  | arr items =>
      cases items with
      | nil => exact h.elim
      | cons tag items => exact Tags.unique h h'
  | _ => exact h.elim

/-- A type that has been read is tagged as its kind, and is made member by member from that kind's
bare type. -/
theorem tagged_of_decodeType {place : Place} {value : Json} {type : DeclaredType}
    (h : decodeType place value = .ok type) :
    ∃ kind, Tagged kind value ∧
      (typeMembersOf kind value).foldlM readType kind.bare = .ok type := by
  cases value with
  -- an object names its kind under a key, an array at its front
  | obj members =>
      rw [decodeType] at h
      obtain ⟨kind, hkind, h⟩ := bind_eq_ok_iff.mp h
      rw [typeMembers_eq] at h
      unfold tagOf at hkind
      split at hkind
      · rename_i tag hget
        exact ⟨kind, ⟨tag, hget, .of_decodeKind hkind⟩, h⟩
      · cases hkind
  | arr items =>
      cases items with
      | nil =>
          rw [decodeType] at h
          cases h
      | cons tag items =>
          rw [decodeType] at h
          obtain ⟨kind, hkind, h⟩ := bind_eq_ok_iff.mp h
          obtain ⟨read, hread, h⟩ := bind_eq_ok_iff.mp h
          -- too many items are refused after the reading, which changes nothing of what was read
          obtain ⟨_, -, h⟩ := bind_eq_ok_iff.mp h
          rw [typeItems_eq, pure_eq_ok_iff.mp h] at hread
          exact ⟨kind, .of_decodeKind hkind, hread⟩
  | _ =>
      rw [decodeType] at h
      · cases h
      all_goals simp

/-- Reading a member keeps the kind of a type. -/
theorem kind_readType {type type' : DeclaredType} {m : String × Json}
    (h : readType type m = .ok type') : type'.kind = type.kind := by
  unfold readType setTypeField at h
  cases type with
  | void => exact Except.ok.inj h ▸ rfl
  | any => exact Except.ok.inj h ▸ rfl
  -- a key that the kind has is read into it, every other key is passed over
  | primitive old =>
      rcases of_ite h with h | h
      · obtain ⟨_, -, rfl⟩ := map_eq_ok_iff.mp h
        rfl
      · exact Except.ok.inj h ▸ rfl
  | plain old =>
      rcases of_ite h with h | h
      · obtain ⟨_, -, rfl⟩ := map_eq_ok_iff.mp h
        rfl
      · exact Except.ok.inj h ▸ rfl
  | function old =>
      rcases of_ite h with h | h
      · obtain ⟨_, -, rfl⟩ := map_eq_ok_iff.mp h
        rfl
      · exact Except.ok.inj h ▸ rfl
  | array old =>
      rcases of_ite h with h | h
      · rcases of_ite h with h | h
        · exact Except.ok.inj h ▸ rfl
        · split at h <;> exact Except.ok.inj h ▸ rfl
      · exact Except.ok.inj h ▸ rfl
  -- two keys of an object are read in steps that may fail, and neither leaves the kind
  | object schema properties typeName =>
      rcases of_ite h with h | h
      · exact Except.ok.inj h ▸ rfl
      rcases of_ite h with h | h
      · exact bind_pure_keeps (P := fun t : DeclaredType => t.kind = .object) h fun _ _ => rfl
      rcases of_ite h with h | h
      · exact bind_pure_keeps (P := fun t : DeclaredType => t.kind = .object) h fun _ _ => rfl
      · exact Except.ok.inj h ▸ rfl

/-- A member of a type that has been read was read into a type of the kind that the type is
tagged as. -/
theorem exists_readType {place : Place} {value : Json} {type : DeclaredType} {kind : Kind}
    {m : String × Json} (h : decodeType place value = .ok type) (ht : Tagged kind value)
    (hm : m ∈ typeMembersOf kind value) :
    ∃ before after, before.kind = kind ∧ readType before m = .ok after := by
  obtain ⟨kind', ht', hread⟩ := tagged_of_decodeType h
  obtain rfl := ht.unique ht'
  refine foldlM_meets (P := fun t => t.kind = kind) ?_ ?_ hread hm
  · intro m _ before after hbefore hafter
    exact (kind_readType hafter).trans hbefore
  · cases kind <;> rfl

/-- The members of a parameter that has been read have been read. -/
theorem exists_readParameter {place : Place} {value : Json} {p : Parameter} {m : String × Json}
    (h : decodeParameter place value = .ok p) (hm : m ∈ membersOf parameterFields value) :
    ∃ before after, readParameter place before m = .ok after := by
  have hread : ∃ read, (membersOf parameterFields value).foldlM (readParameter place) default =
      .ok read := by
    cases value with
    | obj members =>
        rw [decodeParameter, parameterMembers_eq] at h
        exact ⟨p, h⟩
    | arr items =>
        rw [decodeParameter] at h
        obtain ⟨read, hread, -⟩ := bind_eq_ok_iff.mp h
        rw [parameterItems_eq] at hread
        exact ⟨read, hread⟩
    | _ => exact absurd hm List.not_mem_nil
  obtain ⟨read, hread⟩ := hread
  exact exists_of_foldlM hread hm

/-- The members of a signature that has been read have been read. -/
theorem exists_readSignature {place : Place} {value : Json} {s : Signature} {m : String × Json}
    (h : decodeSignature place value = .ok s) (hm : m ∈ membersOf signatureFields value) :
    ∃ before after, readSignature place before m = .ok after := by
  have hread : ∃ read, (membersOf signatureFields value).foldlM (readSignature place) default =
      .ok read := by
    cases value with
    | obj members =>
        rw [decodeSignature, signatureMembers_eq] at h
        exact ⟨s, h⟩
    | arr items =>
        rw [decodeSignature] at h
        obtain ⟨read, hread, -⟩ := bind_eq_ok_iff.mp h
        rw [signatureItems_eq] at hread
        exact ⟨read, hread⟩
    | _ => exact absurd hm List.not_mem_nil
  obtain ⟨read, hread⟩ := hread
  exact exists_of_foldlM hread hm

/-! ## What reading enters -/

theorem of_optional {α : Type} {read : Json → Decoded α} {value : Json} {result : Option α}
    (h : optional read value = .ok result) : value.isNull ∨ ∃ a, read value = .ok a := by
  cases value with
  | null => exact .inl rfl
  | _ =>
      obtain ⟨a, ha, -⟩ := map_eq_ok_iff.mp h
      exact .inr ⟨a, ha⟩

theorem of_orDefault {α : Type} {read : Json → Decoded α} {value : Json} {default a : α}
    (h : orDefault default read value = .ok a) : value.isNull ∨ ∃ a, read value = .ok a := by
  cases value with
  | null => exact .inl rfl
  | _ => exact .inr ⟨a, h⟩

theorem accepted_parameter {place : Place} {items : List Json} {parameters : List Parameter}
    {item : Json} (h : decodeParameters place (.arr items) = .ok parameters) (hm : item ∈ items) :
    Accepted (.parameter, item) := by
  rw [decodeParameters] at h
  induction items generalizing parameters with
  | nil => exact absurd hm List.not_mem_nil
  | cons first items ih =>
      rw [decodeEach] at h
      obtain ⟨p, hp, h⟩ := bind_eq_ok_iff.mp h
      obtain ⟨rest, hrest, -⟩ := bind_eq_ok_iff.mp h
      rcases List.mem_cons.mp hm with rfl | hm
      · exact ⟨place, p, hp⟩
      · exact ih hrest hm

theorem Tagged.isNull {kind : Kind} {value : Json} (h : Tagged kind value) :
    value.isNull = false := by
  cases value with
  | null => exact h.elim
  | _ => rfl

/-- A type that has been read and is tagged as a kind has its members read into one of that kind. -/
theorem readType_of_accepted {value : Json} {kind : Kind} {m : String × Json}
    (h : Accepted (.type, value)) (ht : Tagged kind value) (hm : m ∈ typeMembersOf kind value) :
    ∃ before after, before.kind = kind ∧ readType before m = .ok after := by
  rcases h with hnull | ⟨place, type, hread⟩
  · exact nomatch ht.isNull.symm.trans hnull
  · exact exists_readType hread ht hm

/-- A signature that has been read has its members read. -/
theorem readSignature_of_accepted {value : Json} {m : String × Json}
    (h : Accepted (.signature, value)) (hm : m ∈ membersOf signatureFields value) :
    ∃ place before after, readSignature place before m = .ok after := by
  rcases h with hnull | ⟨place, s, hread⟩
  · cases value with
    | null => exact absurd hm List.not_mem_nil
    | _ => exact nomatch hnull
  · exact ⟨place, exists_readSignature hread hm⟩

/-- Items of an array that are kept as they stand, since they are no type. -/
structure KeptItems (outer items : Json) : Prop where
  tagged : Tagged .array outer
  member : ("items", items) ∈ typeMembersOf .array outer
  isNull : items.isNull = false
  unreadable : ¬ Readable items

/-- **What has been read has all that it holds read**, unless those are items to keep. -/
theorem accepted_of_holds {enters : Json → Prop} {p q : Role × Json} (hp : Accepted p)
    (h : Holds enters p q) :
    Accepted q ∨ ∃ outer items, p = (.type, outer) ∧ q = (.type, items) ∧ KeptItems outer items ∧
      enters items := by
  cases h with
  -- items alone may have been kept as they stand: nothing made a type of them
  | @items outer inner htag hm henters =>
      by_cases hread : Readable inner
      · obtain ⟨type, hread⟩ := hread
        exact .inl (.inr ⟨.inside, type, hread⟩)
      · by_cases hnull : inner.isNull = true
        · exact .inl (.inl hnull)
        · exact .inr ⟨outer, inner, rfl, rfl, ⟨htag, hm, by simpa using hnull, hread⟩, henters⟩
  -- elsewhere what is held was met by the reading, which did not fail on it
  | @properties outer inner parameters htag hm hinner =>
      obtain ⟨before, after, hkind, hstep⟩ := readType_of_accepted hp htag hm
      cases before with
      | object schema properties typeName =>
          obtain ⟨read, hread, -⟩ := bind_eq_ok_iff.mp hstep
          obtain ⟨read, hread, -⟩ := map_eq_ok_iff.mp hread
          exact .inl (accepted_parameter hread hinner)
      | _ => exact nomatch hkind
  | @spec outer inner htag hm =>
      obtain ⟨before, after, hkind, hstep⟩ := readType_of_accepted hp htag hm
      cases before with
      | function old =>
          obtain ⟨read, hread, -⟩ := map_eq_ok_iff.mp hstep
          rcases of_optional hread with hnull | ⟨s, hs⟩
          · exact .inl (.inl hnull)
          · exact .inl (.inr ⟨.inside, s, hs⟩)
      | _ => exact nomatch hkind
  | @type outer inner hm =>
      obtain ⟨place, p, hread⟩ := hp
      obtain ⟨⟨⟩, after, hstep⟩ := exists_readParameter hread hm
      obtain ⟨read, hread, -⟩ := bind_eq_ok_iff.mp hstep
      rcases of_orDefault hread with hnull | ⟨type, htype⟩
      · exact .inl (.inl hnull)
      · exact .inl (.inr ⟨place, type, htype⟩)
  | @arguments outer inner parameters hm hinner =>
      obtain ⟨place, ⟨⟩, after, hstep⟩ := readSignature_of_accepted hp hm
      obtain ⟨read, hread, -⟩ := bind_eq_ok_iff.mp hstep
      exact .inl (accepted_parameter hread hinner)
  | @returnType outer inner hm =>
      obtain ⟨place, ⟨⟩, after, hstep⟩ := readSignature_of_accepted hp hm
      obtain ⟨read, hread, -⟩ := bind_eq_ok_iff.mp hstep
      rcases of_orDefault hread with hnull | ⟨type, htype⟩
      · exact .inl (.inl hnull)
      · exact .inl (.inr ⟨place, type, htype⟩)

/-- On the way from what has been read to a position, either everything has been read or items were
to keep. -/
theorem accepted_or_kept {enters : Json → Prop} {start p : Role × Json} (hs : Accepted start)
    (h : ReflTransGen (Holds enters) start p) :
    Accepted p ∨ ∃ outer items, ReflTransGen (Holds enters) start (.type, outer) ∧
      KeptItems outer items ∧ enters items ∧ ReflTransGen (Holds enters) (.type, items) p := by
  induction h with
  | refl => exact .inl hs
  | @tail p q hp hstep ih =>
      rcases ih with haccepted | ⟨outer, items, hway, hkept, henters, hrest⟩
      · rcases accepted_of_holds haccepted hstep with hq | ⟨outer, items, rfl, rfl, hkept, henters⟩
        · exact .inl hq
        · exact .inr ⟨outer, items, hp, hkept, henters, .refl⟩
      · exact .inr ⟨outer, items, hway, hkept, henters, hrest.tail hstep⟩

/-- A type that has been read has a kind that is known. -/
theorem known_of_accepted {value : Json} {name : String} (h : Accepted (.type, value))
    (hk : value.getStr? "kind" = some name) : ∃ kind : Kind, kind.name = name := by
  obtain ⟨tag, hget, htag⟩ := Option.bind_eq_some_iff.mp hk
  cases value with
  | obj members =>
      rcases h with hnull | ⟨place, type, hread⟩
      · exact nomatch hnull
      obtain ⟨kind, ⟨tag', hget', htagged⟩, -⟩ := tagged_of_decodeType hread
      obtain rfl : tag = tag' := Option.some.inj (hget.symm.trans hget')
      cases tag with
      | str text =>
          obtain rfl := Option.some.inj htag
          exact ⟨kind, htagged.symm⟩
      | _ => exact nomatch htag
  | _ => exact nomatch hget

/-! ## Whole specs -/

theorem membersOf_of_recordMembers {fields : List String} {expected : String} {value : Json}
    {members : Members} (h : recordMembers fields expected value = .ok members) :
    members = membersOf fields value := by
  cases value with
  | obj => exact (Except.ok.inj h).symm
  | arr => exact (Except.ok.inj h).symm
  | _ => exact nomatch h

/-- The type of a variable that has been read has been read. -/
theorem accepted_valueType {stored type : Json} {v : Variable} (h : decodeVariable stored = .ok v)
    (hm : ("valueType", type) ∈ membersOf variableFields stored) : Accepted (.type, type) := by
  obtain ⟨members, hmembers, h⟩ := bind_eq_ok_iff.mp h
  obtain ⟨read, hread, -⟩ := bind_eq_ok_iff.mp h
  rw [← membersOf_of_recordMembers hmembers] at hm
  obtain ⟨before, after, hstep⟩ := exists_of_foldlM hread hm
  obtain ⟨read, hread, -⟩ := bind_eq_ok_iff.mp hstep
  rcases of_orDefault hread with hnull | ⟨type, htype⟩
  · exact .inl hnull
  · exact .inr ⟨.outside, type, htype⟩

/-- A spec that has been read has its function and its variable read. -/
theorem accepted_of_starts {source : Json} {spec : Spec} {start : Role × Json}
    (h : decode source = .ok spec) (hs : Starts source start) : Accepted start := by
  obtain ⟨members, hmembers, h⟩ := bind_eq_ok_iff.mp h
  obtain ⟨draft, hdraft, -⟩ := bind_eq_ok_iff.mp h
  -- each member was met by the reading of the spec, and its step did not fail
  have hmet : ∀ {m}, m ∈ membersOf fieldNames source →
      ∃ before after, setField before m.1 m.2 = .ok after := by
    intro m hm
    rw [← membersOf_of_recordMembers hmembers] at hm
    exact exists_of_foldlM (f := fun draft m => setField draft m.1 m.2) hdraft hm
  cases hs with
  | function hm =>
      obtain ⟨before, after, hstep⟩ := hmet hm
      obtain ⟨read, hread, -⟩ := bind_eq_ok_iff.mp hstep
      rcases of_optional hread with hnull | ⟨s, hs⟩
      · exact .inl hnull
      · exact .inr ⟨.outside, s, hs⟩
  | @valueType stored type hm htype =>
      obtain ⟨before, after, hstep⟩ := hmet hm
      obtain ⟨read, hread, -⟩ := bind_eq_ok_iff.mp hstep
      rcases of_optional hread with hnull | ⟨v, hv⟩
      -- no type is held by `null`, the only value that counts as missing
      · cases stored with
        | null => exact absurd htype List.not_mem_nil
        | _ => exact nomatch hnull
      · exact accepted_valueType hv htype

/-- An array takes its items from the one member that is called so. -/
theorem items_of_foldlM {members : Members} {old : Option ArrayItems} {items : Json}
    {type : DeclaredType} (hdistinct : members.keys.Nodup) (hnull : items.isNull = false)
    (hunread : ¬ Readable items) (h : members.foldlM readType (.array old) = .ok type) :
    (("items", items) ∈ members → type = .array (some (.schema items))) ∧
      ("items" ∉ members.keys → type = .array old) := by
  induction members generalizing old with
  | nil => exact ⟨nofun, fun _ => (pure_eq_ok_iff.mp h).symm⟩
  | cons m members ih =>
      obtain ⟨hfresh, hlater⟩ := List.nodup_cons.mp hdistinct
      rw [List.foldlM_cons] at h
      obtain ⟨between, hstep, h⟩ := bind_eq_ok_iff.mp h
      constructor
      · intro hm
        rcases List.mem_cons.mp hm with rfl | hm
        · -- the items are no type, so the step keeps them, and no later one is about items
          cases hread : decodeType .inside items with
          | ok read => exact absurd ⟨read, hread⟩ hunread
          | error e =>
              have hkeep : readType (.array old) ("items", items) =
                  .ok (.array (some (.schema items))) := by
                simp [readType, setTypeField, readings, hnull, hread]
              obtain rfl := Except.ok.inj (hstep.symm.trans hkeep)
              exact (ih hlater h).2 hfresh
        · have hne : m.1 ≠ "items" := fun heq => hfresh (heq ▸ List.mem_map_of_mem hm)
          obtain rfl := Except.ok.inj (hstep.symm.trans (if_neg hne))
          exact (ih hlater h).1 hm
      · intro hnone
        have hne : m.1 ≠ "items" := fun heq => hnone (heq ▸ List.mem_cons_self)
        obtain rfl := Except.ok.inj (hstep.symm.trans (if_neg hne))
        exact (ih hlater h).2 fun hm => hnone (List.mem_cons_of_mem _ hm)

/-- An array whose items are kept is read as one of a piece of a schema. -/
theorem KeptItems.eq_schema {outer items : Json} (h : KeptItems outer items)
    (hdistinct : (typeMembersOf .array outer).keys.Nodup) {place : Place} {type : DeclaredType}
    (hread : decodeType place outer = .ok type) : type = .array (some (.schema items)) := by
  obtain ⟨kind, htag, hfold⟩ := tagged_of_decodeType hread
  obtain rfl := htag.unique h.tagged
  exact (items_of_foldlM hdistinct h.isNull h.unreadable hfold).1 h.member

/-- Values are read one by one. -/
theorem parseMany_append (values others : List Json) :
    parseMany (values ++ others) =
      ((parseMany values).1 ++ (parseMany others).1,
        (parseMany values).2 ++ (parseMany others).2) := by
  induction values with
  | nil => rfl
  | cons value values ih =>
      unfold parseMany at ih ⊢
      rw [List.cons_append, List.foldr_cons, List.foldr_cons, ih]
      cases decode value <;> rfl

/-- A value that is no spec is reported, and the values around it are read as without it. -/
theorem parseMany_reject {source : Json} {e : DecodeError} (h : decode source = .error e)
    (before behind : List Json) :
    parseMany (before ++ source :: behind) =
      ((parseMany before).1 ++ (parseMany behind).1,
        (parseMany before).2 ++
          (describe source ++ ": " ++ e.message) :: (parseMany behind).2) := by
  have hfirst : parseMany (source :: behind) = ((parseMany behind).1,
      (describe source ++ ": " ++ e.message) :: (parseMany behind).2) := by
    rw [parseMany, List.foldr_cons, h]
    rfl
  rw [parseMany_append, hfirst]

/-- **A kind that nobody knows is refused**, alone of all values, wherever reading enters. In a spec
that has been read it stands only inside items of an array that are no type, and they are kept as
they stand. -/
theorem decode_kinds (source : Json) :
    (∀ value name, TypePosition Readable source value → value.getStr? "kind" = some name →
      (∀ kind : Kind, kind.name ≠ name) → ∃ e, decode source = .error e ∧ ∀ before behind,
        parseMany (before ++ source :: behind) =
          ((parseMany before).1 ++ (parseMany behind).1,
            (parseMany before).2 ++ (describe source ++ ": " ++ e.message) ::
              (parseMany behind).2)) ∧
    ∀ spec value name, decode source = .ok spec → TypePosition (fun _ => True) source value →
      value.getStr? "kind" = some name → (∀ kind : Kind, kind.name ≠ name) →
      ∃ outer items, TypePosition (fun _ => True) source outer ∧ KeptItems outer items ∧
        ReflTransGen (Holds fun _ => True) (.type, items) (.type, value) ∧
        ((typeMembersOf .array outer).keys.Nodup → ∀ place type,
          decodeType place outer = .ok type → type = .array (some (.schema items))) := by
  constructor
  · rintro value name ⟨start, hs, hway⟩ hk hunknown
    -- were the spec read, then so was the value, and its kind would be a known one
    cases hd : decode source with
    | error e => exact ⟨e, rfl, parseMany_reject hd⟩
    | ok spec =>
        rcases accepted_or_kept (accepted_of_starts hd hs) hway with hread |
          ⟨outer, items, -, hkept, hentered, -⟩
        · obtain ⟨kind, hkind⟩ := known_of_accepted hread hk
          exact absurd hkind (hunknown kind)
        · exact absurd hentered hkept.unreadable
  · -- on the way to the value either everything was read, or items were kept
    rintro spec value name hd ⟨start, hs, hway⟩ hk hunknown
    rcases accepted_or_kept (accepted_of_starts hd hs) hway with hread |
      ⟨outer, items, houter, hkept, -, hrest⟩
    · obtain ⟨kind, hkind⟩ := known_of_accepted hread hk
      exact absurd hkind (hunknown kind)
    · exact ⟨outer, items, ⟨start, hs, houter⟩, hkept, hrest,
        fun hdistinct _ _ hread => hkept.eq_schema hdistinct hread⟩

/-- The signature of a function that takes nothing, with its result. -/
def resultSignature (result : Json) : Json := .obj [("arguments", .arr []), ("returnType", result)]

/-- The spec of that function. -/
def resultSpec (result : Json) : Json :=
  .obj [("id", .str "1"), ("context", .str ""), ("name", .str "f"), ("type", .str "apiFunction"),
    ("function", resultSignature result)]

theorem typePosition_result (enters : Json → Prop) (result : Json) :
    TypePosition enters (resultSpec result) result := by
  refine ⟨(.signature, resultSignature result), .function ?_, .single (.returnType ?_)⟩
  · simp [resultSpec, membersOf]
  · simp [resultSignature, membersOf]

/-- A type of a kind that nobody knows. -/
def tupleType : Json := .obj [("kind", .str "tuple")]

theorem tuple_unknown (kind : Kind) : kind.name ≠ "tuple" := by
  cases kind <;> decide

/-- A function whose result is a tuple is refused, and one of unknown result is read beside it. -/
theorem decode_kinds_tuple :
    ∃ e, decode (resultSpec tupleType) = .error e ∧
      (parseMany [resultSpec .null, resultSpec tupleType]).2 =
        [describe (resultSpec tupleType) ++ ": " ++ e.message] := by
  obtain ⟨e, he, hparse⟩ := (decode_kinds (resultSpec tupleType)).1 tupleType "tuple"
    (typePosition_result _ _) rfl tuple_unknown
  refine ⟨e, he, ?_⟩
  rw [← List.singleton_append, hparse]
  rfl

/-- An array of tuples. -/
def tuplesType : Json := .obj [("kind", .str "array"), ("items", tupleType)]

/-- A function whose result is an array of tuples is read, though its items stand where a type
should. -/
theorem decode_keeps_tuples :
    ¬ ∀ source spec, decode source = .ok spec → ∀ value name,
      TypePosition (fun _ => True) source value → value.getStr? "kind" = some name →
      ∃ kind : Kind, kind.name = name := by
  intro h
  have hread : (decode (resultSpec tuplesType)).toBool = true := by rfl
  cases hd : decode (resultSpec tuplesType) with
  | error e =>
      rw [hd] at hread
      exact nomatch hread
  | ok spec =>
      obtain ⟨start, hs, hway⟩ := typePosition_result (fun _ => True) tuplesType
      have hitems : Holds (fun _ => True) (.type, tuplesType) (.type, tupleType) := by
        refine .items ⟨.str "array", rfl, rfl⟩ ?_ trivial
        simp [tuplesType, typeMembersOf, membersOf]
      obtain ⟨kind, hkind⟩ := h _ spec hd tupleType "tuple" ⟨start, hs, hway.tail hitems⟩ rfl
      exact tuple_unknown kind hkind

end Spec

end StubGen
