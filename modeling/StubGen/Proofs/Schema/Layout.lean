import StubGen.Proofs.Schema.Spelling
import StubGen.Proofs.Text.Lines
import StubGen.Schema.Resolution

/-!
# How declarations are laid out

The text of a module is its declarations with empty lines between them. In a root name without
a line end no line of a declaration ever is a lone closing brace: free text stands behind an
indentation, in a comment or inside a literal. So there is nothing in the module that would be
cleaned away: `cleanExamples_of_generate`.
-/

namespace StubGen

open Schema

/-! ## Texts on one line -/

/-- A text without a line end. -/
def OneLine (text : String) : Prop := '\n' ∉ text.toList

instance (text : String) : Decidable (OneLine text) := inferInstanceAs (Decidable (_ ∉ _))

theorem OneLine.append {text more : String} (h : OneLine text) (h' : OneLine more) :
    OneLine (text ++ more) := by
  unfold OneLine
  rw [String.toList_append, List.mem_append]
  exact fun hm => hm.elim h h'

theorem OneLine.between {lead text tail : String} (h : OneLine text) (hlead : OneLine lead)
    (htail : OneLine tail) : OneLine (lead ++ text ++ tail) :=
  (hlead.append h).append htail

namespace Schema

open Text

variable {good : Char → Prop}

/-- The characters that are no line ends. -/
theorem alphabet_oneLine : Alphabet (· ≠ '\n') where
  identifier c h heq := absurd (heq ▸ h) (by decide)
  upper _ h d hm heq := newline_not_mem_toUpper h (heq ▸ hm)

theorem spelled_eq_oneLine : Spelled (· ≠ '\n') = OneLine :=
  funext fun _ => propext ⟨fun h hm => h '\n' hm rfl, fun h _ hm heq => h (heq ▸ hm)⟩

/-- No name gets a line end. -/
theorem naming_oneLine : Naming OneLine := spelled_eq_oneLine ▸ alphabet_oneLine.naming

/-! ## Texts that the rules of type expressions write -/

/-- The two characters that a line may end with. -/
def IsLineEnd (c : Char) : Prop := c = '\n' ∨ c = '\r'

instance (c : Char) : Decidable (IsLineEnd c) := inferInstanceAs (Decidable (_ ∨ _))

/-- A text in which no line ends. -/
abbrev Flat (text : String) : Prop := Spelled (¬ IsLineEnd ·) text

theorem spelled_join {sep : String} {pieces : List String} (hsep : Spelled good sep)
    (h : ∀ piece ∈ pieces, Spelled good piece) : Spelled good (join sep pieces) := by
  intro c hm
  rw [join, String.toList_ofList] at hm
  rcases mem_joinChars hm with hm | ⟨piece, hpiece, hm⟩
  · exact hsep c hm
  · obtain ⟨text, htext, rfl⟩ := List.mem_map.mp hpiece
    exact h text htext c hm

theorem flat_literal (text : String) : Flat (Quoting.literal text) := by
  have hescape : ∀ c, ∀ d ∈ Quoting.escapeChar '"' c, ¬ IsLineEnd d := by
    intro c d hm
    unfold Quoting.escapeChar at hm
    unfold IsLineEnd
    grind
  intro c hm
  unfold Quoting.literal Quoting.quoted at hm
  rw [String.toList_ofList, List.cons_append, List.mem_cons, List.mem_append, List.mem_flatMap]
    at hm
  rcases hm with rfl | ⟨d, -, hm⟩ | hm
  · decide
  · exact hescape d c hm
  · rw [List.mem_singleton.mp hm]
    decide

/-- The characters that numbers are written with. -/
def numeralChars : List Char := "0123456789+-.e".toList

theorem natDigits_subset (n : Nat) : Json.natDigits n ⊆ numeralChars := by
  intro c hm
  have hdigit : c.isDigit = true := Nat.isDigit_of_mem_toDigits (by decide) (by decide) hm
  have hrange := isDigit_iff.mp hdigit
  have hall := ascii_forall (p := fun c => !c.isDigit || numeralChars.contains c)
    (by decide +kernel) (show c.toNat < 128 by omega)
  rw [hdigit, Bool.not_true, Bool.false_or] at hall
  exact List.contains_iff_mem.mp hall

theorem intDigits_subset (n : Int) : Json.intDigits n ⊆ numeralChars := by
  unfold Json.intDigits
  split
  · exact List.cons_subset.mpr ⟨by decide, natDigits_subset _⟩
  · exact natDigits_subset _

/-- Digits, zeros, a point, an exponent and its sign are all that a decimal is written with. -/
theorem scaledChars_subset (d : Decimal.Scaled) : Json.scaledChars d ⊆ numeralChars := by
  have hdigits : (Json.splitTrailingZeros (Json.natDigits d.digits)).1 ⊆ numeralChars :=
    List.Subset.trans (List.take_subset _ _) (natDigits_subset _)
  have hzeros (n : Nat) : List.replicate n '0' ⊆ numeralChars := fun c hm => by
    rw [List.eq_of_mem_replicate hm]
    decide
  unfold Json.scaledChars
  dsimp only
  generalize Json.splitTrailingZeros (Json.natDigits d.digits) = written at hdigits ⊢
  obtain ⟨digits, zeros⟩ := written
  split
  · split
    · exact List.append_subset.mpr ⟨List.append_subset.mpr ⟨hdigits, hzeros _⟩, by decide⟩
    · split
      · exact List.append_subset.mpr ⟨List.Subset.trans (List.take_subset _ _) hdigits,
          List.cons_subset.mpr ⟨by decide, List.Subset.trans (List.drop_subset _ _) hdigits⟩⟩
      · exact List.cons_subset.mpr ⟨by decide, List.cons_subset.mpr ⟨by decide,
          List.append_subset.mpr ⟨hzeros _, hdigits⟩⟩⟩
  · refine List.append_subset.mpr ⟨?_, List.cons_subset.mpr ⟨by decide,
      List.cons_subset.mpr ⟨?_, natDigits_subset _⟩⟩⟩
    · rcases digits with _ | ⟨digit, _ | ⟨next, more⟩⟩
      · exact List.nil_subset _
      · exact hdigits
      · obtain ⟨hdigit, hmore⟩ := List.cons_subset.mp hdigits
        exact List.cons_subset.mpr ⟨hdigit, List.cons_subset.mpr ⟨by decide, hmore⟩⟩
    · split <;> decide

theorem floatChars_subset (x : Float) : Json.floatChars x ⊆ numeralChars := by
  have hsign : (if x.toBits.toNat < Nat.pow 2 63 then [] else ['-']) ⊆ numeralChars := by
    split <;> decide
  unfold Json.floatChars
  dsimp only
  split
  · exact List.append_subset.mpr ⟨hsign, by decide⟩
  · exact List.append_subset.mpr ⟨hsign, scaledChars_subset _⟩

theorem flat_literalText (value : Json) : Flat (literalText value) := by
  have hnumeral : ∀ c ∈ numeralChars, ¬ IsLineEnd c :=
    List.forall_iff_forall_mem.mp (by decide)
  intro e hm
  unfold literalText at hm
  split at hm
  · exact flat_literal _ e hm
  · exact (by decide : Flat "True") e hm
  · exact (by decide : Flat "False") e hm
  · exact (by decide : Flat "None") e hm
  · exact hnumeral e (intDigits_subset _ (String.toList_ofList ▸ hm))
  · exact hnumeral e (floatChars_subset _ (String.toList_ofList ▸ hm))
  · exact flat_literal _ e hm

theorem flat_of_isLiteral {text : String} (h : IsLiteral text) : Flat text := by
  obtain ⟨value, rfl⟩ := h
  exact flat_literalText value

theorem Spelled.between (hgood : ∀ c, ¬ IsLineEnd c → good c) {lead text tail : String}
    (h : Spelled good text) (hlead : Flat lead) (htail : Flat tail) :
    Spelled good (lead ++ text ++ tail) :=
  ((hlead.mono hgood).append h).append (htail.mono hgood)

mutual

/-- What is good for all characters but those that end lines, is so for a type in text if it is so
for the names in it. -/
theorem spelled_render (hgood : ∀ c, ¬ IsLineEnd c → good c) :
    ∀ expr : TypeExpr, expr.Proper (Spelled good) → Spelled good expr.render
  | .any, _ | .none, _ | .str, _ | .int, _ | .float, _ | .bool, _ => by
      rw [TypeExpr.render]
      exact Spelled.mono (by decide) hgood
  | .literal values, h => by
      rw [TypeExpr.render]
      have hvalues : ∀ text ∈ values, Spelled good text :=
        fun text hm => (flat_of_isLiteral (h text hm)).mono hgood
      exact (spelled_join (Spelled.mono (by decide) hgood) hvalues).between hgood
        (by decide) (by decide)
  | .ref name, h => by
      rw [TypeExpr.render]
      exact Spelled.between hgood h (by decide) (by decide)
  | .list item, h => by
      rw [TypeExpr.render]
      exact (spelled_render hgood item h).between hgood (by decide) (by decide)
  | .tuple items, h => by
      rw [TypeExpr.render]
      have hpieces := spelled_renderAll hgood items h
      exact (spelled_join (Spelled.mono (by decide) hgood) hpieces).between hgood
        (by decide) (by decide)
  | .dict value, h => by
      rw [TypeExpr.render]
      exact (spelled_render hgood value h).between hgood (by decide) (by decide)
  | .union members, h => by
      rw [TypeExpr.render]
      have hpieces := spelled_renderAll hgood members h
      exact (spelled_join (Spelled.mono (by decide) hgood) hpieces).between hgood
        (by decide) (by decide)

theorem spelled_renderAll (hgood : ∀ c, ¬ IsLineEnd c → good c) :
    ∀ exprs : List TypeExpr, TypeExpr.AllProper (Spelled good) exprs →
      ∀ text ∈ TypeExpr.renderAll exprs, Spelled good text
  | [], _ => fun _ hm => absurd hm List.not_mem_nil
  | expr :: exprs, h => by
      intro text hm
      rcases List.mem_cons.mp hm with rfl | hm
      · exact spelled_render hgood expr h.1
      · exact spelled_renderAll hgood exprs h.2 text hm

end

theorem spelled_renderAlias (hgood : ∀ c, ¬ IsLineEnd c → good c) {expr : TypeExpr}
    (h : expr.Proper (Spelled good)) : Spelled good expr.renderAlias := by
  unfold TypeExpr.renderAlias
  split
  · exact h
  · exact spelled_render hgood expr h

theorem spelled_typeText (hgood : ∀ c, ¬ IsLineEnd c → good c) {field : Field}
    (h : field.type.Proper (Spelled good)) : Spelled good field.typeText := by
  unfold Field.typeText
  split
  · exact (spelled_render hgood field.type h).between hgood (by decide) (by decide)
  · exact spelled_render hgood field.type h

theorem not_newline_of_not_isLineEnd (c : Char) (h : ¬ IsLineEnd c) : c ≠ '\n' :=
  fun heq => h (.inl heq)

theorem OneLine.of_flat {text : String} (h : Flat text) : OneLine text :=
  fun hm => h _ hm (.inl rfl)

theorem oneLine_renderAlias {expr : TypeExpr} (h : expr.Proper OneLine) :
    OneLine expr.renderAlias := by
  rw [← spelled_eq_oneLine] at h ⊢
  exact spelled_renderAlias not_newline_of_not_isLineEnd h

theorem oneLine_typeText {field : Field} (h : field.type.Proper OneLine) :
    OneLine field.typeText := by
  rw [← spelled_eq_oneLine] at h ⊢
  exact spelled_typeText not_newline_of_not_isLineEnd h

/-- The name of a field of a class is made of ASCII letters, digits and underscores. -/
theorem isFieldName_chars {name : String} (h : Identifier.isFieldName name = true) :
    ∀ c ∈ name.toList, (c.isAlphanum || c == '_') = true := by
  unfold Identifier.isFieldName at h
  cases hname : name.toList with
  | nil => exact fun _ hm => absurd hm List.not_mem_nil
  | cons c cs =>
      simp only [hname, Bool.and_eq_true, List.all_eq_true] at h
      intro d hm
      rcases List.mem_cons.mp hm with rfl | hm
      · rcases Bool.or_eq_true _ _ ▸ h.1.1 with hd | hd
        · simp [Char.isAlphanum, hd]
        · simp [hd]
      · exact h.1.2 d hm

theorem oneLine_of_isFieldName {name : String} (h : Identifier.isFieldName name = true) :
    OneLine name :=
  fun hm => absurd (isFieldName_chars h _ hm) (by decide)

/-! ## Lone closing braces -/

/-- No line is a lone closing brace. -/
def Braceless (text : String) : Prop := ['}'] ∉ splitChars '\n' text.toList

instance (text : String) : Decidable (Braceless text) := inferInstanceAs (Decidable (_ ∉ _))

theorem braceless_of_oneLine {text : String} (h : OneLine text) (hne : text.toList ≠ ['}']) :
    Braceless text := by
  unfold Braceless
  rw [splitChars_of_not_mem h, List.mem_singleton]
  exact hne.symm

theorem braceless_join {sep : String} {k : Nat} {pieces : List String}
    (hsep : sep.toList = List.replicate (k + 1) '\n') (h : ∀ piece ∈ pieces, Braceless piece) :
    Braceless (join sep pieces) := by
  unfold Braceless join
  rw [String.toList_ofList, hsep, mem_splitChars_joinChars (by decide)]
  rintro ⟨text, hm, hbrace⟩
  obtain ⟨piece, hpiece, rfl⟩ := List.mem_map.mp hm
  exact h piece hpiece hbrace

/-- All lines but the first one begin with a blank. -/
def Indented (cs : List Char) : Prop :=
  ∀ line ∈ (splitChars '\n' cs).tail, ∃ rest, line = ' ' :: rest

theorem indented_join {indent : List Char} {pieces : List (List Char)}
    (hindent : '\n' ∉ ' ' :: indent) (h : ∀ piece ∈ pieces, '\n' ∉ piece) :
    Indented (joinChars ('\n' :: ' ' :: indent) pieces) := by
  induction pieces with
  | nil => exact fun _ hm => absurd hm List.not_mem_nil
  | cons piece pieces ih =>
      have hpiece := splitChars_of_not_mem (h piece List.mem_cons_self)
      cases pieces with
      | nil =>
          intro line hm
          rw [joinChars, hpiece] at hm
          exact absurd hm List.not_mem_nil
      | cons next pieces =>
          have hrest := ih fun other hm => h other (List.mem_cons_of_mem _ hm)
          have hjoin : joinChars ('\n' :: ' ' :: indent) (piece :: next :: pieces) =
              piece ++ '\n' :: (' ' :: indent ++
                joinChars ('\n' :: ' ' :: indent) (next :: pieces)) := by
            simp [joinChars]
          -- the separator ends a line and indents the next one
          obtain ⟨first, rest, hsplit⟩ := List.exists_cons_of_ne_nil
            (splitChars_ne_nil '\n' (joinChars ('\n' :: ' ' :: indent) (next :: pieces)))
          unfold Indented at hrest ⊢
          rw [hsplit] at hrest
          rw [hjoin, splitChars_append_sep, hpiece, splitChars_append_of_not_mem hindent hsplit]
          intro line hm
          rcases List.mem_cons.mp hm with rfl | hm
          · exact ⟨_, rfl⟩
          · exact hrest line hm

theorem Indented.between {lead cs tail : List Char} (h : Indented cs) (hlead : '\n' ∉ lead)
    (htail : '\n' ∉ tail) : Indented (lead ++ cs ++ tail) := by
  obtain ⟨first, rest, hcs⟩ := List.exists_cons_of_ne_nil (splitChars_ne_nil '\n' cs)
  obtain ⟨init, last, first', rest', hlast, ht, ha⟩ := splitChars_append '\n' (lead ++ cs) tail
  rw [splitChars_append_of_not_mem hlead hcs] at hlast
  rw [splitChars_of_not_mem htail] at ht
  obtain ⟨rfl, rfl⟩ := List.cons.inj ht
  unfold Indented at h ⊢
  rw [hcs] at h
  rw [ha]
  cases init with
  | nil => exact fun _ hm => absurd hm List.not_mem_nil
  | cons piece init =>
      obtain ⟨-, rfl⟩ := List.cons.inj hlast
      intro line hm
      rcases List.mem_append.mp hm with hm | hm
      · exact h line (List.mem_append_left _ hm)
      · obtain ⟨more, rfl⟩ := h last (List.mem_append_right _ List.mem_cons_self)
        exact ⟨more ++ tail, List.mem_singleton.mp hm⟩

/-- All lines begin with a blank. -/
def Inner (text : String) : Prop := ∀ line ∈ splitChars '\n' text.toList, ∃ rest, line = ' ' :: rest

/-- An indented text that begins with a blank has only lines that do. -/
theorem Indented.inner {text : String} {rest : List Char} (h : Indented text.toList)
    (hblank : text.toList = ' ' :: rest) : Inner text := by
  obtain ⟨first, more, hsplit⟩ := List.exists_cons_of_ne_nil (splitChars_ne_nil '\n' rest)
  have hlines : splitChars '\n' text.toList = (' ' :: first) :: more :=
    hblank ▸ splitChars_cons_of_ne (by decide) hsplit
  unfold Indented at h
  unfold Inner
  rw [hlines] at h ⊢
  intro line hm
  rcases List.mem_cons.mp hm with rfl | hm
  · exact ⟨first, rfl⟩
  · exact h line hm

theorem inner_of_oneLine {text : String} {rest : List Char} (h : OneLine text)
    (hblank : text.toList = ' ' :: rest) : Inner text := by
  unfold Inner
  rw [splitChars_of_not_mem h]
  intro line hm
  exact ⟨rest, (List.mem_singleton.mp hm).trans hblank⟩

theorem Inner.braceless {text : String} (h : Inner text) : Braceless text := by
  intro hm
  obtain ⟨_, heq⟩ := h ['}'] hm
  exact absurd heq (by simp)

theorem indented_indentContinuation (text : String) :
    Indented (Quoting.indentContinuation "    " text).toList := by
  unfold Quoting.indentContinuation join split
  rw [String.toList_ofList, List.map_map]
  refine @indented_join "   ".toList _ (by decide) fun piece hm => ?_
  obtain ⟨line, hline, rfl⟩ := List.mem_map.mp hm
  simpa using not_mem_of_mem_splitChars hline

theorem inner_docLine (doc : String) : Inner (Declaration.docLine doc) := by
  let body := (Quoting.indentContinuation "    " (Quoting.docstring (Text.trim doc))).toList
  let quotes := ['"', '"', '"']
  have htext : (Declaration.docLine doc).toList =
      [' ', ' ', ' ', ' '] ++ quotes ++ [' '] ++ body ++ (' ' :: quotes) := by
    simp [Declaration.docLine, body, quotes]
  have hindented : Indented (Declaration.docLine doc).toList := by
    rw [htext]
    exact (indented_indentContinuation _).between (by decide) (by decide)
  exact hindented.inner htext

/-! ## Declarations -/

namespace Declaration

theorem prefix_dropTrailingEmpty (lines : List String) : dropTrailingEmpty lines <+: lines := by
  have hsuffix : lines.reverse.dropWhile (fun line => line.isEmpty) <:+ lines.reverse :=
    List.dropWhile_suffix _
  rwa [← List.reverse_prefix, List.reverse_reverse] at hsuffix

theorem inner_classField {field : Field} (hname : Identifier.isFieldName field.name = true)
    (htype : field.type.Proper OneLine) :
    ∀ piece ∈ classField field, Inner piece ∨ piece = "" := by
  intro piece hm
  simp only [classField, List.mem_append, List.mem_singleton, Option.mem_toList,
    Option.map_eq_some_iff] at hm
  rcases hm with (rfl | ⟨doc, -, rfl⟩) | rfl
  · have hkey : OneLine ("    " ++ field.name ++ ": ") :=
      (oneLine_of_isFieldName hname).between (by decide) (by decide)
    exact .inl (inner_of_oneLine (hkey.append (oneLine_typeText htype)) (by simp; rfl))
  · exact .inl (inner_docLine doc)
  · exact .inr rfl

/-- A class is its first line, and what is further in behind it. -/
theorem classLines_eq (name : String) (doc : Option String) {fields : List Field}
    (hfits : fitsClass fields = true) (htypes : ∀ field ∈ fields, field.type.Proper OneLine) :
    ∃ body, classLines name doc fields = ("class " ++ name ++ "(TypedDict, total=False):") :: body ∧
      ∀ piece ∈ body, Inner piece ∨ piece = "" := by
  have hopen : ("class " ++ name ++ "(TypedDict, total=False):").isEmpty = false := by simp
  unfold classLines
  rw [List.append_assoc, List.singleton_append]
  generalize hlines : _ ++ fields.flatMap classField = lines
  obtain ⟨body, hbody⟩ := dropTrailingEmpty_cons hopen lines
  have hprefix := prefix_dropTrailingEmpty
    (("class " ++ name ++ "(TypedDict, total=False):") :: lines)
  rw [hbody, List.cons_prefix_cons] at hprefix
  refine ⟨body, hbody, fun piece hm => ?_⟩
  have hm := hprefix.2.subset hm
  rw [← hlines] at hm
  rcases List.mem_append.mp hm with hm | hm
  · split at hm
    · rcases List.mem_cons.mp hm with rfl | hm
      · exact .inl (inner_docLine _)
      · exact .inr (List.mem_singleton.mp hm)
    · exact absurd hm List.not_mem_nil
  · obtain ⟨field, hfield, hm⟩ := List.mem_flatMap.mp hm
    exact inner_classField (List.all_eq_true.mp hfits field hfield) (htypes field hfield) piece hm

theorem braceless_classLines {name : String} (hname : OneLine name) (doc : Option String)
    {fields : List Field} (hfits : fitsClass fields = true)
    (htypes : ∀ field ∈ fields, field.type.Proper OneLine) :
    ∀ line ∈ classLines name doc fields, Braceless line := by
  obtain ⟨body, hlines, hbody⟩ := classLines_eq name doc hfits htypes
  rw [hlines]
  intro line hm
  rcases List.mem_cons.mp hm with rfl | hm
  · exact braceless_of_oneLine (hname.between (by decide) (by decide)) (by simp)
  · rcases hbody line hm with hinner | rfl
    · exact hinner.braceless
    · decide

/-- What is listed for a field is one comment at most and its key in quotes. -/
theorem keyedField_cases {field : Field} (htype : field.type.Proper OneLine) :
    ∀ line ∈ keyedField field, OneLine line ∧
      ∃ c cs, line.toList = "    ".toList ++ c :: cs ∧ (c = '#' ∨ c = '"') := by
  intro line hm
  simp only [keyedField, List.mem_append, List.mem_singleton, Option.mem_toList,
    Option.map_eq_some_iff] at hm
  rcases hm with ⟨doc, -, rfl⟩ | rfl
  · refine ⟨OneLine.append (by decide) (not_mem_comment doc), '#',
      ' ' :: (Quoting.comment doc).toList, ?_, .inl rfl⟩
    rw [String.toList_append]
    rfl
  · have hkey : OneLine ("    " ++ Quoting.literal field.name ++ ": ") :=
      (OneLine.of_flat (flat_literal field.name)).between (by decide) (by decide)
    obtain ⟨rest, hquoted⟩ : ∃ rest, (Quoting.literal field.name).toList = '"' :: rest :=
      ⟨_, String.toList_ofList⟩
    refine ⟨(hkey.append (oneLine_typeText htype)).append (by decide), '"',
      rest ++ (": " ++ field.typeText ++ ",").toList, ?_, .inr rfl⟩
    simp [hquoted]

theorem braceless_keyedField {field : Field} (htype : field.type.Proper OneLine) :
    ∀ line ∈ keyedField field, Braceless line := by
  intro line hm
  obtain ⟨hline, c, cs, htext, -⟩ := keyedField_cases htype line hm
  exact (inner_of_oneLine hline htext).braceless

theorem oneLine_keyedHeader {name : String} (h : OneLine name) :
    OneLine (name ++ " = TypedDict(" ++ Quoting.literal name ++ ", \x7b") :=
  (OneLine.of_flat (flat_literal name)).between (h.append (by decide)) (by decide)

theorem braceless_keyedLines {name : String} (hname : OneLine name) (doc : Option String)
    {fields : List Field} (htypes : ∀ field ∈ fields, field.type.Proper OneLine) :
    ∀ line ∈ keyedLines name doc fields, Braceless line := by
  intro line hm
  simp only [keyedLines, List.mem_append, List.mem_singleton, Option.mem_toList,
    Option.map_eq_some_iff, List.mem_flatMap] at hm
  rcases hm with ((⟨text, -, rfl⟩ | rfl) | ⟨field, hfield, hm⟩) | rfl
  · exact braceless_of_oneLine (OneLine.append (by decide) (not_mem_comment text)) (by simp)
  · refine braceless_of_oneLine (oneLine_keyedHeader hname) fun h => ?_
    have := congrArg List.length h
    simp at this
    omega
  · exact braceless_keyedField (htypes field hfield) line hm
  · decide

/-- Whatever a declaration says in its texts, it has no lone closing brace. -/
theorem braceless_render {d : Declaration} (h : d.Proper OneLine) : Braceless d.render := by
  cases d with
  | «alias» name type =>
      have hleft : OneLine (name ++ " = ") := h.1.append (by decide)
      refine braceless_of_oneLine (hleft.append (oneLine_renderAlias h.2)) fun heq => ?_
      have := congrArg List.length heq
      simp [render] at this
      omega
  | record name doc fields =>
      have hname := h.1
      refine @braceless_join _ 0 _ rfl fun line hm => ?_
      split at hm
      · exact braceless_classLines hname doc ‹_› h.2 line hm
      · exact braceless_keyedLines hname doc h.2 line hm

/-- The lines of a module are those of its imports and of its declarations, and empty ones. -/
theorem mem_lines_renderModule {line : List Char} (hne : line ≠ []) (ds : List Declaration) :
    line ∈ splitChars '\n' (renderModule ds).toList ↔
      line ∈ splitChars '\n' header.toList ∨ ∃ d ∈ ds, line ∈ splitChars '\n' d.render.toList := by
  obtain ⟨init, hinit⟩ : ∃ init, header.toList = init ++ ['\n'] :=
    ⟨header.toList.dropLast, by decide⟩
  have hsep : "\n\n\n".toList = List.replicate (2 + 1) '\n' := rfl
  have htext : (renderModule ds).toList = init ++ '\n' :: (joinChars (List.replicate (2 + 1) '\n')
      (ds.map fun d => d.render.toList) ++ '\n' :: []) := by
    simp [renderModule, hinit, join, hsep, Function.comp_def]
  have hblocks : (∃ text ∈ ds.map fun d => d.render.toList, line ∈ splitChars '\n' text) ↔
      ∃ d ∈ ds, line ∈ splitChars '\n' d.render.toList := by
    constructor
    · rintro ⟨text, hm, hline⟩
      obtain ⟨d, hd, rfl⟩ := List.mem_map.mp hm
      exact ⟨d, hd, hline⟩
    · rintro ⟨d, hd, hline⟩
      exact ⟨_, List.mem_map_of_mem hd, hline⟩
  rw [htext, splitChars_append_sep, splitChars_append_sep, hinit, splitChars_append_sep,
    List.mem_append, List.mem_append, List.mem_append, mem_splitChars_joinChars hne, hblocks]
  simp [splitChars, hne]

theorem braceless_renderModule {ds : List Declaration} (h : ∀ d ∈ ds, d.Proper OneLine) :
    Braceless (renderModule ds) := by
  unfold Braceless
  rw [mem_lines_renderModule (by decide)]
  rintro (hm | ⟨d, hd, hm⟩)
  · exact absurd hm (by decide)
  · exact braceless_render (h d hd) hm

end Declaration

/-! ## Cleaning -/

theorem afterExample?_eq_none {cs : List Char} :
    ∀ {start : Bool}, (start = true → ['}'] ∉ splitChars '\n' cs) →
      ['}'] ∉ (splitChars '\n' cs).tail → afterExample? start cs = none := by
  induction cs with
  | nil => exact fun _ _ => rfl
  | cons c cs ih =>
      intro start hstart htail
      cases cs with
      | nil =>
          rw [afterExample?]
          refine if_neg fun hbrace => ?_
          simp only [Bool.and_eq_true, decide_eq_true_eq] at hbrace
          obtain ⟨rfl, rfl⟩ := hbrace
          exact hstart rfl (by simp [splitChars])
      | cons d rest =>
          rw [afterExample?, if_neg fun hbrace => ?_]
          · -- only at the start of a line a brace can stand alone in it
            by_cases hc : c = '\n'
            · rw [hc, splitChars, if_pos rfl, List.tail_cons] at htail
              exact ih (fun _ => htail) fun hm => htail (List.mem_of_mem_tail hm)
            · obtain ⟨first, more, hsplit⟩ := List.exists_cons_of_ne_nil
                (splitChars_ne_nil '\n' (d :: rest))
              rw [splitChars_cons_of_ne hc hsplit] at htail
              rw [hsplit] at ih
              exact ih (fun h => absurd (of_decide_eq_true h) hc) htail
          · simp only [Bool.and_eq_true, decide_eq_true_eq] at hbrace
            obtain ⟨⟨rfl, rfl⟩, rfl⟩ := hbrace
            exact hstart rfl (by simp [splitChars])

theorem cleanExamplesChars_eq_self {cs : List Char} (h : ['}'] ∉ (splitChars '\n' cs).tail) :
    cleanExamplesChars cs = cs := by
  induction cs with
  | nil => rw [cleanExamplesChars]
  | cons c cs ih =>
      have hrest : cleanExamplesChars cs = cs := by
        refine ih fun hm => h ?_
        obtain ⟨first, more, hsplit⟩ := List.exists_cons_of_ne_nil (splitChars_ne_nil '\n' cs)
        by_cases hc : c = '\n'
        · rw [hc, splitChars, if_pos rfl]
          exact List.mem_of_mem_tail hm
        · rw [splitChars_cons_of_ne hc hsplit]
          rwa [hsplit] at hm
      rw [cleanExamplesChars]
      split
      · rw [hrest]
      · rename_i body hopening
        -- the example would begin behind a line end, so its lines are lines of the text
        have hnone : afterExample? true body = none := by
          have htext := afterChars?_eq_some_iff.mp hopening
          obtain ⟨mark, hmark⟩ : ∃ mark, exampleOpening = mark ++ ['\n'] :=
            ⟨exampleOpening.dropLast, by decide⟩
          rw [htext, hmark, List.append_assoc, List.singleton_append, splitChars_append_sep,
            List.tail_append_of_ne_nil (splitChars_ne_nil _ _), List.mem_append, not_or] at h
          exact afterExample?_eq_none (fun _ => h.2) fun hm => h.2 (List.mem_of_mem_tail hm)
        split
        · rw [hrest]
        · exact absurd (hnone.symm.trans ‹_›) (by simp)

/-- **A text without a lone closing brace is clean.** -/
theorem cleanExamples_eq_self {text : String} (h : Braceless text) : cleanExamples text = text := by
  unfold cleanExamples
  rw [cleanExamplesChars_eq_self fun hm => h (List.mem_of_mem_tail hm), String.ofList_toList]

theorem cleanExamples_of_generate {maxDepth : Nat} {schema : Json} {root source : String}
    (hroot : OneLine root) (h : generate maxDepth schema root = .ok source) :
    cleanExamples source = source := by
  obtain ⟨blocks, hb, rfl⟩ := Result.map_eq_ok_iff.mp h
  exact cleanExamples_eq_self (Declaration.braceless_renderModule
    (proper_declarations naming_oneLine hroot hb))

end Schema

end StubGen
