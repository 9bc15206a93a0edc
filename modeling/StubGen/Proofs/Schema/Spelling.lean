import StubGen.Proofs.Result
import StubGen.Proofs.Schema.Closed
import StubGen.Proofs.Schema.Nesting
import StubGen.Proofs.Text.Characters

/-!
# How declarations are spelled

Each name that is declared or referred to is made of the root name, or of a definition key or
property names that have been sanitized, with a few letters and digits behind it. The other texts
in type expressions are literals, and what documents a declaration is some schema's description.
So what holds of the root name and of the document, and is kept by these ways of making names and
handed down to the schemas that are typed, holds of all declarations: `declares_declarations`. A
class of characters that holds all identifier characters is such a property of the names that are
made of it.
-/

namespace StubGen.Schema

open Result
open Identifier (isIdentifierChar isIdentifierChar_of_isAlphanum identifierChars_sanitize)

variable {α β γ : Type} {good : Char → Prop} {fine : String → Prop}

/-! ## Names -/

/-- A class of characters that identifiers are made of and that keeps what is raised in it. -/
structure Alphabet (good : Char → Prop) : Prop where
  identifier : ∀ c, isIdentifierChar c = true → good c
  upper : ∀ c, good c → ∀ d ∈ Text.toUpper c, good d

/-- A name that is made of good characters. -/
def Spelled (good : Char → Prop) (name : String) : Prop := ∀ c ∈ name.toList, good c

instance (good : Char → Prop) [DecidablePred good] (name : String) :
    Decidable (Spelled good name) :=
  List.decidableBAll _ _

theorem Spelled.append {name more : String} (h : Spelled good name) (h' : Spelled good more) :
    Spelled good (name ++ more) := by
  intro c hm
  rw [String.toList_append] at hm
  exact (List.mem_append.mp hm).elim (h c) (h' c)

theorem Spelled.mono {good' : Char → Prop} {name : String} (h : Spelled good name)
    (himp : ∀ c, good c → good' c) : Spelled good' name :=
  fun c hm => himp c (h c hm)

theorem Spelled.upperFirst {name : String} (h : Spelled good name)
    (hupper : ∀ c, good c → ∀ d ∈ Text.toUpper c, good d) :
    Spelled good (Identifier.upperFirst name) := by
  intro c hm
  unfold Identifier.upperFirst at hm
  rw [String.toList_ofList] at hm
  cases hname : name.toList with
  | nil => simp [hname, Identifier.upperFirstChars] at hm
  | cons first rest =>
      rw [hname, Identifier.upperFirstChars] at hm
      rcases List.mem_append.mp hm with hm | hm
      · exact hupper first (h first (by simp [hname])) c hm
      · exact h c (by simp [hname, hm])

theorem Spelled.nestedName {parent property : String} (h : Spelled good parent)
    (hunderscore : good '_')
    (hproperty : Spelled good (Identifier.upperFirst (Identifier.sanitize property))) :
    Spelled good (nestedName parent property) := by
  have hlead : Spelled good "_" := by
    intro c hm
    rw [List.mem_singleton.mp hm]
    exact hunderscore
  refine (hlead.append fun c hm => ?_).append hproperty
  rw [String.toList_ofList] at hm
  exact h c ((List.dropWhile_sublist _).subset hm)

namespace Alphabet

variable (a : Alphabet good)
include a

theorem spelled_sanitize (name : String) : Spelled good (Identifier.sanitize name) :=
  fun c hm => a.identifier c (identifierChars_sanitize name c hm)

theorem spelled_of_alphanum {name : String} (h : name.toList.all Char.isAlphanum = true) :
    Spelled good name :=
  fun c hm => a.identifier c (isIdentifierChar_of_isAlphanum (List.all_eq_true.mp h c hm))

theorem spelled_definitionName (key : String) : Spelled good (definitionName key) :=
  (a.spelled_sanitize _).upperFirst a.upper

theorem spelled_nestedName {parent : String} (h : Spelled good parent) (property : String) :
    Spelled good (nestedName parent property) :=
  h.nestedName (a.identifier '_' (by decide)) ((a.spelled_sanitize _).upperFirst a.upper)

end Alphabet

/-- What is put behind a name to make another one. -/
inductive Suffix : String → Prop where
  | item : Suffix "Item"
  | value : Suffix "Value"
  | number (n : Nat) : Suffix (toString n)

theorem isDigit_of_mem_toString {n : Nat} {c : Char} (h : c ∈ (toString n).toList) :
    c.isDigit = true := by
  have hdigit : c ∈ Nat.toDigits 10 n := by simpa [toString, Nat.repr] using h
  exact Nat.isDigit_of_mem_toDigits (by decide) (by decide) hdigit

theorem Suffix.alphanum {more : String} (h : Suffix more) :
    more.toList.all Char.isAlphanum = true := by
  cases h with
  | item => decide
  | value => decide
  | number n =>
      refine List.all_eq_true.mpr fun c hm => ?_
      simp [Char.isAlphanum, isDigit_of_mem_toString hm]

/-- A property that all names have which a document makes: of its definition keys, of properties
and the name of what has them, and by putting something behind a name. -/
structure Naming (fine : String → Prop) : Prop where
  definition : ∀ key, fine (definitionName key)
  nested : ∀ {parent}, fine parent → ∀ property, fine (nestedName parent property)
  longer : ∀ {name more}, fine name → Suffix more → fine (name ++ more)

/-- Being made of good characters is such a property. -/
theorem Alphabet.naming (a : Alphabet good) : Naming (Spelled good) where
  definition := a.spelled_definitionName
  nested := a.spelled_nestedName
  longer h hmore := h.append (a.spelled_of_alphanum hmore.alphanum)

/-- What is asked of the schemas that are typed, of the names that are made, and of the texts that
document what is declared. -/
structure Manner where
  fit : Json → Prop
  fine : String → Prop
  said : String → Prop

/-- A document keeps to a manner: each way of making a name or a text does. -/
structure Manner.Kept (m : Manner) (document : Json) : Prop where
  hereditary : Hereditary m.fit
  whole : m.fit document
  definition : ∀ {key schema}, definition? document key = some schema →
    m.fine (definitionName key)
  nested : ∀ {members properties property parent}, m.fit (.obj members) →
    objectProperties? members = some properties → property ∈ properties → m.fine parent →
    m.fine (nestedName parent property.1)
  longer : ∀ {name more}, m.fine name → Suffix more → m.fine (name ++ more)
  described : ∀ {schema text}, m.fit schema → description? schema = some text → m.said text
  required : m.said "Required property"

/-- The manner that only names are asked of. -/
def Manner.ofNames (fine : String → Prop) : Manner := ⟨fun _ => True, fine, fun _ => True⟩

theorem Naming.kept (n : Naming fine) (document : Json) : (Manner.ofNames fine).Kept document where
  hereditary := ⟨fun _ _ => trivial, fun _ _ _ => trivial, fun _ => trivial⟩
  whole := trivial
  definition _ := n.definition _
  nested _ _ _ hparent := n.nested hparent _
  longer := n.longer
  described _ _ := trivial
  required := trivial

namespace Manner.Kept

variable {m : Manner} {document : Json} (k : m.Kept document)
include k

theorem freshName {name : String} (h : m.fine name) (taken : List String) :
    m.fine (freshName taken name) := by
  rcases freshName_cases taken name with heq | ⟨n, heq⟩
  · rwa [heq]
  · rw [heq]
    exact k.longer h (.number n)

end Manner.Kept

/-! ## Expressions and declarations -/

/-- A text that stands for a constant. -/
def IsLiteral (text : String) : Prop := ∃ value, text = literalText value

mutual

/-- An expression whose names are fine, and its other texts are literals. -/
def TypeExpr.Proper (fine : String → Prop) : TypeExpr → Prop
  | .literal values => ∀ text ∈ values, IsLiteral text
  | .ref name => fine name
  | .list item => item.Proper fine
  | .tuple items => TypeExpr.AllProper fine items
  | .dict value => value.Proper fine
  | .union members => TypeExpr.AllProper fine members
  | _ => True

def TypeExpr.AllProper (fine : String → Prop) : List TypeExpr → Prop
  | [] => True
  | expr :: exprs => expr.Proper fine ∧ TypeExpr.AllProper fine exprs

end

namespace TypeExpr

theorem allProper_iff {exprs : List TypeExpr} :
    AllProper fine exprs ↔ ∀ expr ∈ exprs, expr.Proper fine := by
  induction exprs with
  | nil => simp [AllProper]
  | cons expr exprs ih => simp [AllProper, ih]

mutual

theorem Proper.mono {fine' : String → Prop} (himp : ∀ name, fine name → fine' name) :
    ∀ {expr : TypeExpr}, expr.Proper fine → expr.Proper fine'
  | .any, _ | .none, _ | .str, _ | .int, _ | .float, _ | .bool, _ => trivial
  | .literal _, h => h
  | .ref name, h => himp name h
  | .list item, h => (Proper.mono himp h : item.Proper fine')
  | .tuple _, h => AllProper.mono himp h
  | .dict value, h => (Proper.mono himp h : value.Proper fine')
  | .union _, h => AllProper.mono himp h

theorem AllProper.mono {fine' : String → Prop} (himp : ∀ name, fine name → fine' name) :
    ∀ {exprs : List TypeExpr}, AllProper fine exprs → AllProper fine' exprs
  | [], _ => trivial
  | _ :: _, h => ⟨Proper.mono himp h.1, AllProper.mono himp h.2⟩

end

theorem proper_oneOf {exprs : List TypeExpr} (h : ∀ expr ∈ exprs, expr.Proper fine) :
    (oneOf exprs).Proper fine := by
  have hdistinct : ∀ expr ∈ distinct exprs, expr.Proper fine :=
    fun expr hm => h expr (distinct_subset exprs hm)
  unfold oneOf
  split
  · trivial
  · rename_i expr heq
    exact hdistinct expr (heq ▸ List.mem_cons_self)
  · exact allProper_iff.mpr hdistinct

end TypeExpr

theorem proper_constantType (value : Json) : (constantType value).Proper fine := by
  unfold constantType
  split
  · trivial
  · intro text hm
    exact ⟨value, List.mem_singleton.mp hm⟩

theorem proper_enumType (values : List Json) : (enumType values).Proper fine := by
  have hliterals : ∀ text ∈ (values.filter fun v => !v.isNull).map literalText, IsLiteral text := by
    intro text hm
    obtain ⟨value, -, rfl⟩ := List.mem_map.mp hm
    exact ⟨value, rfl⟩
  unfold enumType TypeExpr.oneOfValues
  split
  · trivial
  · exact hliterals
  · exact ⟨hliterals, trivial, trivial⟩

/-- A declaration whose names are fine. -/
def Declaration.Proper (fine : String → Prop) : Declaration → Prop
  | .record name _ fields => fine name ∧ ∀ field ∈ fields, field.type.Proper fine
  | .alias name type => fine name ∧ type.Proper fine

theorem Declaration.Proper.name {d : Declaration} (h : d.Proper fine) : fine d.name := by
  cases d with
  | record _ _ _ => exact h.1
  | «alias» _ _ => exact h.1

theorem Declaration.Proper.mono {fine' : String → Prop} {d : Declaration} (h : d.Proper fine)
    (himp : ∀ name, fine name → fine' name) : d.Proper fine' := by
  cases d with
  | record name doc fields =>
      exact ⟨himp name h.1, fun field hm => TypeExpr.Proper.mono himp (h.2 field hm)⟩
  | «alias» name type => exact ⟨himp name h.1, TypeExpr.Proper.mono himp h.2⟩

/-- The texts that document a declaration and its fields. -/
def Declaration.docs : Declaration → List String
  | .record _ doc fields => doc.toList ++ fields.flatMap fun field => field.doc.toList
  | .alias _ _ => []

/-- A declaration in a manner. -/
structure Manner.Declares (m : Manner) (d : Declaration) : Prop where
  proper : d.Proper m.fine
  docs : ∀ text ∈ d.docs, m.said text

/-- What has been declared so far is in a manner, and the pointers stand for fine names. -/
structure Scope.Proper (m : Manner) (scope : Scope) : Prop where
  pointers : ∀ pointer ∈ scope.pointers, m.fine pointer.2
  declarations : ∀ d ∈ scope.declarations, m.Declares d

/-! ## Steps that keep to a manner -/

/-- A step that declares in a manner, and of whose result something holds. -/
structure Keeps (m : Manner) (result : α → Prop) (step : Declaring α) : Prop where
  run : ∀ {scope a after}, Scope.Proper m scope → step scope = .ok (a, after) →
    Scope.Proper m after ∧ result a

/-- Typing a fit schema under a fine name gives a proper type, and declares in the manner. -/
def KeepsTypes (m : Manner) (typeOf : TypeOf) : Prop :=
  ∀ {schema hint}, m.fit schema → m.fine hint →
    Keeps m (TypeExpr.Proper m.fine) (typeOf schema hint)

variable {m : Manner} {result : α → Prop} {result' : β → Prop}

theorem keeps_pure {a : α} (h : result a) : Keeps m result (pure a) := by
  refine ⟨fun hs hrun => ?_⟩
  obtain ⟨rfl, rfl⟩ := Prod.mk.inj (Except.ok.inj hrun)
  exact ⟨hs, h⟩

theorem keeps_throw (e : SchemaError) : Keeps m result (throw e) :=
  ⟨fun _ hrun => nomatch hrun⟩

theorem Keeps.bind {x : Declaring α} {f : α → Declaring β} (hx : Keeps m result x)
    (hf : ∀ a, result a → Keeps m result' (f a)) : Keeps m result' (x >>= f) := by
  refine ⟨fun hs hrun => ?_⟩
  obtain ⟨a, between, hx', hf'⟩ := run_bind_eq_ok hrun
  obtain ⟨hbetween, ha⟩ := hx.run hs hx'
  exact (hf a ha).run hbetween hf'

theorem keeps_lift_bind {x : Except SchemaError γ} {f : γ → Declaring β}
    (hf : ∀ c, x = .ok c → Keeps m result' (f c)) :
    Keeps m result' ((x : Declaring γ) >>= f) := by
  cases x with
  | error e => exact keeps_throw e
  | ok c => exact hf c rfl

theorem keeps_bindPointer {reference name : String} (h : m.fine name) :
    Keeps m (fun _ => True) (bindPointer reference name) := by
  refine ⟨fun hs hrun => ?_⟩
  obtain ⟨-, rfl⟩ := Prod.mk.inj (Except.ok.inj hrun)
  refine ⟨⟨fun pointer hm => ?_, hs.declarations⟩, trivial⟩
  rcases List.mem_cons.mp hm with rfl | hm
  · exact h
  · exact hs.pointers pointer hm

theorem keeps_emit {d : Declaration} (h : m.Declares d) :
    Keeps m (fun _ => True) (emit d) := by
  refine ⟨fun hs hrun => ?_⟩
  obtain ⟨-, rfl⟩ := Prod.mk.inj (Except.ok.inj hrun)
  refine ⟨⟨hs.pointers, fun other hm => ?_⟩, trivial⟩
  rcases List.mem_append.mp hm with hm | hm
  · exact hs.declarations other hm
  · rw [List.mem_singleton.mp hm]
    exact h

theorem Keeps.mapM {f : γ → Declaring α} {items : List γ}
    (h : ∀ item ∈ items, Keeps m result (f item)) :
    Keeps m (fun results => ∀ a ∈ results, result a) (items.mapM f) := by
  induction items with
  | nil => exact keeps_pure fun _ hm => absurd hm List.not_mem_nil
  | cons item items ih =>
      rw [List.mapM_cons]
      refine (h item List.mem_cons_self).bind fun a ha => ?_
      have hrest := ih fun other hm => h other (List.mem_cons_of_mem _ hm)
      exact hrest.bind fun results hresults => keeps_pure (List.forall_mem_cons.mpr ⟨ha, hresults⟩)

/-! ## The steps of typing a schema -/

section

variable {document : Document} (k : m.Kept document.schema) {typeOf fieldType : TypeOf}
include k

theorem keeps_claim {hint : String} (h : m.fine hint) : Keeps m m.fine (claim hint) := by
  refine ⟨fun {scope name after} hs hrun => ?_⟩
  obtain ⟨rfl, rfl⟩ := Prod.mk.inj (Except.ok.inj hrun)
  exact ⟨⟨hs.pointers, hs.declarations⟩, k.freshName h scope.taken⟩

/-- What documents a field is the description of its schema, or says that it is required. -/
theorem said_fieldOf (required : List String) (property : String) {schema : Json}
    (hfit : m.fit schema) (type : TypeExpr) :
    ∀ text ∈ (fieldOf required property schema type).doc, m.said text := by
  intro text hm
  unfold fieldOf at hm
  dsimp only at hm
  cases hd : description? schema with
  | some described =>
      rw [hd] at hm
      exact k.described hfit (hd.trans hm)
  | none =>
      rw [hd] at hm
      obtain ⟨-, htext⟩ := Option.ite_none_right_eq_some.mp hm
      rw [← Option.some.inj htext]
      exact k.required

theorem keeps_declareRecord (h : KeepsTypes m fieldType) {name : String} (hname : m.fine name)
    {members properties : Members} (hfit : m.fit (.obj members))
    (hproperties : objectProperties? members = some properties) :
    Keeps m (fun _ => True) (declareRecord fieldType name members properties) := by
  have hfields : Keeps m
      (fun fields => ∀ field ∈ fields,
        field.type.Proper m.fine ∧ ∀ text ∈ field.doc, m.said text)
      (properties.mapM fun property => do
        let type ← fieldType property.2 (nestedName name property.1)
        return fieldOf (requiredNames members) property.1 property.2 type) := by
    refine .mapM fun property hm => ?_
    have hproperty : m.fit property.2 :=
      k.hereditary.part hfit (part_of_objectProperties? hproperties hm)
    have hnested : m.fine (nestedName name property.1) := k.nested hfit hproperties hm hname
    exact (h hproperty hnested).bind fun type htype =>
      keeps_pure ⟨htype, said_fieldOf k _ _ hproperty type⟩
  refine hfields.bind fun fields hproper =>
    keeps_emit ⟨⟨hname, fun field hm => (hproper field hm).1⟩, fun text hm => ?_⟩
  -- what a record says is its own documentation and that of its fields
  rcases List.mem_append.mp hm with hm | hm
  · exact k.described hfit (Option.mem_toList.mp hm)
  · obtain ⟨field, hfield, hm⟩ := List.mem_flatMap.mp hm
    exact (hproper field hfield).2 text (Option.mem_toList.mp hm)

theorem keeps_declareAs (h : KeepsTypes m typeOf) (hf : KeepsTypes m fieldType)
    {name : String} (hname : m.fine name) {schema : Json} (hfit : m.fit schema) :
    Keeps m (fun _ => True) (declareAs document.schema typeOf fieldType name schema) := by
  refine keeps_lift_bind fun flat hflat => ?_
  have hflat := k.hereditary.flattenAllOf k.whole hfit hflat
  split
  · rename_i members properties hobj hproperties
    rw [hobj, Option.bind_some] at hproperties
    rw [eq_of_obj? hobj] at hflat
    exact keeps_declareRecord k hf hname hflat hproperties
  · exact (h hflat hname).bind fun type htype =>
      keeps_emit ⟨⟨hname, htype⟩, fun _ hm => absurd hm List.not_mem_nil⟩

theorem keeps_arrayType (h : KeepsTypes m typeOf) {members : Members}
    (hfit : m.fit (.obj members)) {hint : String} (hhint : m.fine hint) :
    Keeps m (TypeExpr.Proper m.fine) (arrayType typeOf members hint) := by
  have hitem : m.fine (hint ++ "Item") := k.longer hhint .item
  unfold arrayType
  split
  · rename_i items hitems
    refine Keeps.bind (.mapM fun item hm => ?_) fun types htypes =>
      keeps_pure (TypeExpr.allProper_iff.mpr htypes)
    have hmem : item.1 ∈ items := List.fst_mem_of_mem_zipIdx hm
    exact h (k.hereditary.part hfit (.among (by simp) hitems hmem)) (k.longer hitem (.number _))
  · rename_i item _ hget
    exact (h (k.hereditary.part hfit (.under (by simp) hget)) hitem).bind fun type htype =>
      keeps_pure htype
  · exact keeps_pure trivial

theorem keeps_objectType (h : KeepsTypes m typeOf) (hf : KeepsTypes m fieldType)
    {members : Members} (hfit : m.fit (.obj members)) {hint : String} (hhint : m.fine hint) :
    Keeps m (TypeExpr.Proper m.fine) (objectType typeOf fieldType members hint) := by
  unfold objectType
  split
  · refine (keeps_claim k hhint).bind fun name hname => ?_
    exact (keeps_declareRecord k hf hname hfit ‹_›).bind fun _ _ => keeps_pure hname
  · split
    · have hvalue : m.fine (hint ++ "Value") := k.longer hhint .value
      exact (h (k.hereditary.part hfit (part_of_valueSchema? ‹_›)) hvalue).bind fun type htype =>
        keeps_pure htype
    · exact keeps_pure trivial

theorem keeps_newPointer (h : KeepsTypes m typeOf) (hf : KeepsTypes m fieldType)
    (reference : String) :
    Keeps m (TypeExpr.Proper m.fine) (do
      let key ← (requireKey reference : Except SchemaError String)
      let schema ← (lookup document.schema reference key : Except SchemaError Json)
      let name ← claim (definitionName key)
      bindPointer reference name
      declareAs document.schema typeOf fieldType name schema
      return .ref name) := by
  refine keeps_lift_bind fun key _ => keeps_lift_bind fun schema hlookup => ?_
  have hdefinition : definition? document.schema key = some schema := by
    unfold lookup at hlookup
    split at hlookup
    · rw [← Except.ok.inj hlookup]
      assumption
    · exact nomatch hlookup
  have hfit : m.fit schema := k.hereditary.definition? k.whole hdefinition
  refine (keeps_claim k (k.definition hdefinition)).bind fun name hname => ?_
  refine (keeps_bindPointer hname).bind fun _ _ => ?_
  exact (keeps_declareAs k h hf hname hfit).bind fun _ _ => keeps_pure hname

theorem keeps_pointerType (h : KeepsTypes m typeOf) (hf : KeepsTypes m fieldType)
    (hroot : m.fine document.root) (reference : String) :
    Keeps m (TypeExpr.Proper m.fine) (pointerType document typeOf fieldType reference) := by
  unfold pointerType
  split
  · exact keeps_pure hroot
  · refine ⟨fun {scope type after} hs hrun => ?_⟩
    obtain ⟨_, between, hget, hrun⟩ := run_bind_eq_ok hrun
    obtain ⟨rfl, rfl⟩ := Prod.mk.inj (Except.ok.inj hget)
    cases hlookup : scope.pointers.lookup reference with
    | some name =>
        rw [hlookup] at hrun
        obtain ⟨before, behind, hmem, -⟩ := List.lookup_eq_some_iff.mp hlookup
        have hname : m.fine name := hs.pointers (reference, name) (by simp [hmem])
        have hpure : Keeps m (TypeExpr.Proper m.fine) (pure (.ref name)) := keeps_pure hname
        exact hpure.run hs hrun
    | none =>
        rw [hlookup] at hrun
        exact (keeps_newPointer k h hf reference).run hs hrun

theorem keeps_union (h : KeepsTypes m typeOf) {schemas : List Json}
    (hfit : ∀ schema ∈ schemas, m.fit schema) {hint : String} (hhint : m.fine hint) :
    Keeps m (TypeExpr.Proper m.fine) (TypeExpr.oneOf <$> memberTypes typeOf schemas hint) := by
  rw [map_eq_pure_bind]
  refine Keeps.bind (.mapM fun schema hm => h (hfit _ (List.fst_mem_of_mem_zipIdx hm)) ?_)
    fun types htypes => keeps_pure (TypeExpr.proper_oneOf htypes)
  split
  · exact hhint
  · exact k.longer hhint (.number _)

theorem keeps_typedSchema (h : KeepsTypes m typeOf) (hf : KeepsTypes m fieldType)
    {members : Members} (hfit : m.fit (.obj members)) {hint : String} (hhint : m.fine hint) :
    Keeps m (TypeExpr.Proper m.fine) (typedSchema typeOf fieldType members hint) := by
  unfold typedSchema
  split
  · refine Keeps.bind (.mapM fun type hm => ?_) fun types htypes =>
      keeps_pure (TypeExpr.proper_oneOf htypes)
    exact h (k.hereditary.retyped hfit ‹_› hm) hhint
  · split
    case h_6 => exact keeps_arrayType k h hfit hhint
    case h_7 => exact keeps_objectType k h hf hfit hhint
    all_goals exact keeps_pure trivial
  · split
    · exact keeps_objectType k h hf hfit hhint
    · split
      · exact keeps_arrayType k h hfit hhint
      · exact keeps_pure trivial

theorem keeps_schemaType (h : KeepsTypes m typeOf) (hf : KeepsTypes m fieldType)
    (hroot : m.fine document.root) {schema : Json} (hfit : m.fit schema) {hint : String}
    (hhint : m.fine hint) :
    Keeps m (TypeExpr.Proper m.fine) (schemaType document typeOf fieldType schema hint) := by
  unfold schemaType
  -- whatever is typed next stands in the schema or is a merge of its parts
  split
  · exact keeps_pure trivial
  · rename_i members hobj
    obtain rfl := eq_of_obj? hobj
    have hamong : ∀ {key schemas}, key ∈ ["items", "anyOf", "oneOf", "allOf"] →
        arrayUnder? members key = some schemas → ∀ schema ∈ schemas, m.fit schema :=
      fun hkey harray _ hm =>
        k.hereditary.part hfit (.among hkey (get?_of_arrayUnder? harray) hm)
    split
    · exact keeps_pointerType k h hf hroot _
    · split
      · exact keeps_pure (proper_constantType _)
      · exact keeps_pure (proper_enumType _)
      · exact keeps_union k h (hamong (by simp) ‹arrayUnder? members "anyOf" = _›) hhint
      · exact keeps_union k h (hamong (by simp) ‹arrayUnder? members "oneOf" = _›) hhint
      · have hparts := hamong (by simp) ‹arrayUnder? members "allOf" = _›
        exact h (hparts _ List.mem_cons_self) hhint
      · have hparts := hamong (by simp) ‹arrayUnder? members "allOf" = _›
        exact keeps_lift_bind fun merged hm =>
          h (k.hereditary.mergeParts k.whole hparts hm) hhint
      · exact keeps_typedSchema k h hf hfit hhint

/-- Typing a schema keeps to the manner at every depth. -/
theorem keeps_typeAt (hroot : m.fine document.root) :
    ∀ room depth, KeepsTypes m (typeAt document room depth)
  | 0, _ => fun _ _ => keeps_throw _
  | 1, _ => fun hfit hhint =>
    keeps_schemaType k (fun _ _ => keeps_throw _) (fun _ _ => keeps_throw _) hroot hfit hhint
  | room + 2, depth => fun hfit hhint =>
    keeps_schemaType k (keeps_typeAt hroot (room + 1) (depth + 1))
      (keeps_typeAt hroot room (depth + 2)) hroot hfit hhint

/-- **All that is declared keeps to a manner that the document and the root name keep to.** -/
theorem declares_declarations {blocks : List Declaration} (hroot : m.fine document.root)
    (h : declarations document = .ok blocks) : ∀ d ∈ blocks, m.Declares d := by
  obtain ⟨schema, pointer?, after, hschema, hrun, rfl⟩ := exists_of_declarations h
  have hfit : m.fit schema := k.hereditary.rootSchema k.whole hschema
  have hkeeps := keeps_declareAs k (keeps_typeAt k hroot (document.maxDepth + 1) 0)
    (keeps_typeAt k hroot document.maxDepth 1) hroot hfit
  refine (hkeeps.run ⟨fun pointer hm => ?_, fun _ hm => absurd hm (by simp)⟩ hrun).1.declarations
  obtain ⟨_, _, rfl⟩ : ∃ given ∈ pointer?, (given, document.root) = pointer := by simpa using hm
  exact hroot

end

/-- **All names are fine if the root name is,** since they are made in a few ways. -/
theorem proper_declarations (n : Naming fine) {document : Document} {blocks : List Declaration}
    (hroot : fine document.root) (h : declarations document = .ok blocks) :
    ∀ d ∈ blocks, d.Proper fine :=
  fun d hm => (declares_declarations (n.kept document.schema) hroot h d hm).proper

end StubGen.Schema
