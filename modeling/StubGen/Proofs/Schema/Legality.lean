import StubGen.Proofs.Schema.Spelling
import StubGen.Proofs.Stub.Typing

/-!
# Names that can be declared

A name can be declared if it is an identifier and hides nothing that the declarations rely on. What
is made from another name, for a property, an item, a value or by a number, can be declared unless
the other name begins as none can. So only the root and the definitions can be to blame for a name
that cannot be declared: `generate_legal`. They are to blame at times, since the name of a title is
not sanitized when its characters are fine, and is raised after it has been told from the taken
names.
-/

namespace StubGen.Schema

open Text (isAlphabetic)
open Identifier (isIdentifierChar)

variable {name more root : String} {schema : Json}

/-! ## What can be declared -/

/-- Whether a character may stand in a declared name: a letter, a digit or an underscore, or
another character of words, such as the marks that some letters are raised to. -/
def isNamePart (c : Char) : Bool := isIdentifierChar c || Text.isWord c

/-- Whether a name begins with a letter or an underscore. -/
def startsWell (name : String) : Bool :=
  name.toList.head?.any fun c => isAlphabetic c || c == '_'

/-- The names that the imports of declarations bind and that type expressions use. -/
def usedNames : List String :=
  ["Any", "Dict", "List", "Literal", "Tuple", "Union", "Required", "TypedDict",
   "int", "float", "str", "bool"]

/-- The names that no declaration may bind. -/
def takenNames : List String := Identifier.keywords ++ Identifier.preambleNames ++ usedNames

/-- A name that is an identifier, and not a taken one. -/
structure Declarable (name : String) : Prop where
  starts : startsWell name = true
  chars : ∀ c ∈ name.toList, isNamePart c = true
  free : name ∉ takenNames

theorem declarable_iff : Declarable name ↔
    startsWell name = true ∧ (∀ c ∈ name.toList, isNamePart c = true) ∧ name ∉ takenNames :=
  ⟨fun h => ⟨h.starts, h.chars, h.free⟩, fun h => ⟨h.1, h.2.1, h.2.2⟩⟩

instance (name : String) : Decidable (Declarable name) :=
  decidable_of_iff
    ((startsWell name && (name.toList.all isNamePart && !takenNames.contains name)) = true) <| by
      simp [declarable_iff]

/-- The names that a document gives: the root's, and those of its definitions. -/
inductive Base (schema : Json) (root : String) : String → Prop where
  | root : Base schema root root
  | definition {key : String} {target : Json} :
      definition? schema key = some target → Base schema root (definitionName key)

/-- A name is at fault for another one: it cannot be declared itself, and the other one is the same
or begins in the same way, as no name can. -/
def Blamed (base name : String) : Prop :=
  ¬ Declarable base ∧
    (name = base ∨ startsWell base = false ∧ base.toList <+: name.toList)

/-- A name of legal characters that can be declared, or for which one is to blame that the document
gives. -/
structure Legal (schema : Json) (root name : String) : Prop where
  nonempty : name ≠ ""
  chars : ∀ c ∈ name.toList, isNamePart c = true
  declarable : Declarable name ∨ ∃ base, Base schema root base ∧ Blamed base name

/-! ## Characters -/

theorem isNamePart_of_isIdentifierChar {c : Char} (h : isIdentifierChar c = true) :
    isNamePart c = true := by
  simp [isNamePart, h]

theorem isNamePart_of_isAlphabetic {c : Char} (h : isAlphabetic c = true) :
    isNamePart c = true :=
  isNamePart_of_isIdentifierChar (by simp [isIdentifierChar, Text.isAlphanumeric, h])

/-- What is raised stays what may stand in a name. -/
theorem alphabet_isNamePart : Alphabet (isNamePart · = true) where
  identifier _ := isNamePart_of_isIdentifierChar
  upper c h d hm := by
    rcases Text.mem_toUpper hm with
      ⟨hc, rfl⟩ | ⟨-, rfl⟩ | ⟨entry, hentry, n, hn, rfl⟩ | ⟨run, hrun, k, hk, hstep, rfl⟩
    · have hall := Text.ascii_forall (p := fun c => !isNamePart c || isNamePart c.toUpper)
        (by decide +kernel) hc
      simpa [h] using hall
    · exact h
    · have hall : (Text.upperExpansions.all fun entry =>
          entry.2.all fun n => isNamePart (Char.ofNat n)) = true := by decide +kernel
      exact List.all_eq_true.mp (List.all_eq_true.mp hall entry hentry) n hn
    · exact isNamePart_of_isAlphabetic (Text.isAlphabetic_of_upperRun hrun hk hstep)

/-! ## Names made from other names -/

theorem startsWell_append (h : startsWell name = true) (more : String) :
    startsWell (name ++ more) = true := by
  unfold startsWell at h ⊢
  cases hname : name.toList with
  | nil => simp [hname] at h
  | cons c cs => simpa [hname] using h

/-- No taken name begins with an underscore. -/
theorem not_mem_takenNames_of_underscore {cs : List Char} (h : name.toList = '_' :: cs) :
    name ∉ takenNames := by
  have hall : ∀ taken ∈ takenNames, taken.toList.head? ≠ some '_' := by decide
  intro hm
  exact hall name hm (by rw [h]; rfl)

/-- No taken name ends with what names are made with. -/
theorem not_mem_takenNames_of_suffix (h : Suffix more) : name ++ more ∉ takenNames := by
  intro hm
  cases h with
  | item =>
      have hall : ∀ taken ∈ takenNames, ¬ "Item".toList <:+ taken.toList := by decide
      exact hall _ hm ⟨name.toList, by simp⟩
  | value =>
      have hall : ∀ taken ∈ takenNames, ¬ "Value".toList <:+ taken.toList := by decide
      exact hall _ hm ⟨name.toList, by simp⟩
  | number n =>
      have hall : ∀ taken ∈ takenNames, taken.toList.getLast?.any Char.isDigit = false := by decide
      have hdigits : (toString n).toList ≠ [] := by
        rw [Ne, String.toList_eq_nil_iff]
        exact Nat.repr_ne_empty
      have hlast : (name ++ toString n).toList.getLast? =
          some ((toString n).toList.getLast hdigits) := by
        rw [String.toList_append, List.getLast?_append_of_ne_nil _ hdigits,
          List.getLast?_eq_some_getLast hdigits]
      -- a number ends with a digit, and no taken name does
      have hdigit := isDigit_of_mem_toString (List.getLast_mem hdigits)
      have hany := hall _ hm
      rw [hlast, Option.any_some, hdigit] at hany
      exact Bool.noConfusion hany

/-- **The name of a class made for a property can be declared** whatever the class is called that
has the property: it begins with an underscore. -/
theorem declarable_nestedName {parent : String} (h : ∀ c ∈ parent.toList, isNamePart c = true)
    (property : String) : Declarable (nestedName parent property) := by
  obtain ⟨cs, hcs⟩ : ∃ cs, (nestedName parent property).toList = '_' :: cs := by
    simp [nestedName]
  refine ⟨?_, alphabet_isNamePart.spelled_nestedName h property,
    not_mem_takenNames_of_underscore hcs⟩
  rw [startsWell, hcs]
  rfl

/-- What stands behind a name that begins well makes it another one that can be declared. -/
theorem declarable_append (hs : startsWell name = true)
    (hc : ∀ c ∈ name.toList, isNamePart c = true) (h : Suffix more) :
    Declarable (name ++ more) where
  starts := startsWell_append hs more
  chars := Spelled.append hc (alphabet_isNamePart.spelled_of_alphanum h.alphanum)
  free := not_mem_takenNames_of_suffix h

theorem Base.legal {base : String} (hb : Base schema root base) (hne : base ≠ "")
    (hc : ∀ c ∈ base.toList, isNamePart c = true) : Legal schema root base := by
  refine ⟨hne, hc, ?_⟩
  by_cases hd : Declarable base
  · exact .inl hd
  · exact .inr ⟨base, hb, hd, .inl rfl⟩

theorem Legal.append (hl : Legal schema root name) (h : Suffix more) :
    Legal schema root (name ++ more) := by
  refine ⟨by simp [hl.nonempty],
    Spelled.append hl.chars (alphabet_isNamePart.spelled_of_alphanum h.alphanum), ?_⟩
  by_cases hs : startsWell name = true
  · exact .inl (declarable_append hs hl.chars h)
  · obtain ⟨base, hb, hbad, hfrom⟩ := hl.declarable.resolve_left fun hd => hs hd.starts
    refine .inr ⟨base, hb, hbad, .inr ?_⟩
    rw [String.toList_append]
    rcases hfrom with rfl | ⟨hstart, hprefix⟩
    · exact ⟨by simpa using hs, List.prefix_append _ _⟩
    · exact ⟨hstart, hprefix.trans (List.prefix_append _ _)⟩

/-! ## All names of a document -/

/-- Every name that a document makes is legal. -/
theorem kept_legal (schema : Json) (root : String) :
    (Manner.ofNames (Legal schema root)).Kept schema where
  hereditary := ⟨fun _ _ => trivial, fun _ _ _ => trivial, fun _ => trivial⟩
  whole := trivial
  definition {key target} hd :=
    Base.legal (.definition hd) (Identifier.upperFirst_ne_empty (sanitize_ne_empty _))
      (alphabet_isNamePart.spelled_definitionName key)
  nested _ _ _ hparent :=
    ⟨by simp [nestedName], alphabet_isNamePart.spelled_nestedName hparent.chars _,
      .inl (declarable_nestedName hparent.chars _)⟩
  longer hname hmore := hname.append hmore
  described _ _ := trivial
  required := trivial

theorem legal_declarations {maxDepth : Nat} {blocks : List Declaration}
    (hroot : Legal schema root root) (h : declarations ⟨schema, root, maxDepth⟩ = .ok blocks) :
    ∀ block ∈ blocks, Legal schema root block.name :=
  fun block hm => (declares_declarations (kept_legal schema root) hroot h block hm).proper.name

theorem legal_rootName (schema given : Json) (wanted fallback : String) :
    Legal schema (rootName given wanted fallback) (rootName given wanted fallback) :=
  Base.legal .root (rootName_ne_empty given wanted fallback) fun c hm =>
    isNamePart_of_isIdentifierChar
      (List.all_eq_true.mp (identifierChars_rootName given wanted fallback) c hm)

/-- **The declared names are identifiers and hide nothing, but for the names that the document
gives.** Each block of a generated module opens with the name that it declares. That name has
legal characters only. It can be declared, or else it is the root or the name of a definition and
cannot be declared, or begins with such a name that begins with neither a letter nor an
underscore. -/
theorem generate_legal {maxDepth : Nat} {schema given : Json} {wanted fallback source : String}
    (h : generate maxDepth schema (rootName given wanted fallback) = .ok source) :
    ∃ blocks : List Declaration, source = Declaration.renderModule blocks ∧
      ∀ block ∈ blocks, Declaration.Opens block.name block.render ∧
        Legal schema (rootName given wanted fallback) block.name := by
  obtain ⟨blocks, hb, hsource⟩ := Result.map_eq_ok_iff.mp h
  exact ⟨blocks, hsource.symm, fun block hm => ⟨Declaration.opens_render block,
    legal_declarations (legal_rootName schema given wanted fallback) hb block hm⟩⟩

/-- The names of a document whose root is named by a title of two words. -/
theorem generate_legal_knotted :
    ∃ source, generate 4 knottedSchema (rootName .null "Node 1" "Dict") = .ok source ∧
      ∃ blocks : List Declaration, source = Declaration.renderModule blocks ∧
        ∀ block ∈ blocks, Declaration.Opens block.name block.render ∧
          Legal knottedSchema (rootName .null "Node 1" "Dict") block.name := by
  have hok : (generate 4 knottedSchema (rootName .null "Node 1" "Dict")).toBool = true := by
    decide +kernel
  match h : generate 4 knottedSchema (rootName .null "Node 1" "Dict") with
  | .ok source => exact ⟨source, rfl, generate_legal h⟩
  | .error _ =>
      rw [h] at hok
      exact Bool.noConfusion hok

/-- A document whose definition has the name of a keyword but for the case of a letter. -/
def keywordSchema : Json :=
  .obj [("type", .str "object"),
    ("properties", .obj [("a", .obj [("$ref", .str "#/definitions/none")])]),
    ("definitions", .obj [("none", .obj [("type", .str "string")])])]

/-- A definition is declared as `None`, and a root that begins with a digit as it stands. -/
theorem generate_not_declarable :
    (declarations ⟨keywordSchema, rootName .null "Pet" "Dict", defaultMaxDepth⟩).toOption.map
        (List.map Declaration.name) = some ["None", "Pet"] ∧ ¬ Declarable "None" ∧
      (declarations ⟨.obj [("type", .str "string")], rootName .null "1st" "Dict",
        defaultMaxDepth⟩).toOption.map (List.map Declaration.name) = some ["1st"] ∧
      ¬ Declarable "1st" := by
  refine ⟨by decide +kernel, fun h => h.free (by decide), by decide +kernel, fun h => ?_⟩
  exact Bool.noConfusion (h.starts.symm.trans (by decide : startsWell "1st" = false))

end StubGen.Schema
