import StubGen.Proofs.Schema.Legality
import StubGen.Proofs.Stub.Fields
import StubGen.Proofs.Stub.Signatures

/-!
# Records as they are read

The text of a record is read line by line, as the language reads it: a class by its fields, between
which there may be documentation of several lines, and a call by the keys of its display. What is
read is the keys, and which of them are marked as required. A key of a class that is private to it
is not read as it is written. Every record is read back with a key for each of its fields, in turn:
`readRecord?_render`. Whether the name of a record could be declared at all is not looked at.
-/

namespace StubGen.Schema

open Quoting (readLiteral?)
open Text (afterChars? afterChars?_eq_some_iff splitChars)

variable {name : String}

/-! ## Reading -/

/-- A character of a word or a number. -/
def isWordSign (c : Char) : Bool := c.isAlphanum || ['_', '.', '+', '-'].contains c

/-- What stands behind an expression that is `depth` brackets deep: nothing, or a comma that is in
no bracket. -/
def exprEnd? (depth : Nat) (cs : List Char) : Option (List Char) :=
  match cs with
  | [] => if depth = 0 then some [] else none
  | c :: cs =>
    if c = '"' then
      match _h : readLiteral? '"' cs with
      | some (_, rest) => exprEnd? depth rest
      | none => none
    else if c = '[' then exprEnd? (depth + 1) cs
    else if c = ']' then
      match depth with
      | 0 => none
      | depth + 1 => exprEnd? depth cs
    else if c = ',' ∧ depth = 0 then some (c :: cs)
    else if isWordSign c || c == ',' || c == ' ' then exprEnd? depth cs
    else none
termination_by cs.length
decreasing_by
  · have := Quoting.length_readLiteral? _h
    simp only [List.length_cons]
    omega
  all_goals simp

/-- Whether an annotation, with only the given characters behind it, is marked as required. -/
def readAnnotation? (tail cs : List Char) : Option Bool :=
  if exprEnd? 0 cs = some tail then some (afterChars? "Required[".toList cs).isSome else none

/-- Whether a name is private to the class that it stands in. -/
def isPrivate (name : String) : Bool :=
  "__".toList.isPrefixOf name.toList && !"__".toList.isSuffixOf name.toList

/-- What a name in a class stands for. To a private one the name of the class is added, without the
underscores that it begins with, unless it is nothing but underscores. -/
def attributeName (className name : String) : String :=
  let stem := className.toList.dropWhile (· = '_')
  if isPrivate name && !stem.isEmpty then "_" ++ String.ofList stem ++ name else name

/-- The name that a line of a class annotates. -/
def readField? (line : List Char) : Option (String × Bool) :=
  (afterChars? "    ".toList line).bind fun cs =>
    let word := String.ofList (cs.takeWhile isAsciiWord)
    if Identifier.isFieldName word then
      (afterChars? ": ".toList (cs.dropWhile isAsciiWord)).bind fun annotation =>
        (readAnnotation? [] annotation).map fun required => (word, required)
    else none

/-- What stands behind the quotes that close a documentation. -/
def docEnd? : List Char → Option (List Char)
  | '"' :: '"' :: '"' :: rest => some rest
  | '\\' :: _ :: cs => docEnd? cs
  | _ :: cs => docEnd? cs
  | [] => none

/-- What opens a documentation. -/
def docOpening : List Char := [' ', ' ', ' ', ' ', '"', '"', '"']

/-- The keys of a class below its first line; `inDoc` tells whether a documentation is open. -/
def readClassBody? (className : String) (inDoc : Bool) :
    List (List Char) → Option (List (String × Bool))
  | [] => if inDoc then none else some []
  | line :: lines =>
    match (if inDoc then some line else afterChars? docOpening line) with
    | some body =>
      match docEnd? body with
      | none => readClassBody? className true lines
      | some [] => readClassBody? className false lines
      | some _ => none
    | none =>
      if line = [] then readClassBody? className false lines
      else
        (readField? line).bind fun field =>
          (readClassBody? className false lines).map fun keys =>
            (attributeName className field.1, field.2) :: keys

/-- The keys of a record that is written as a class. -/
def readClass? : List (List Char) → Option (List (String × Bool))
  | [] => none
  | line :: lines =>
    (afterChars? "class ".toList line).bind fun cs =>
      let className := cs.takeWhile isNamePart
      if className ≠ [] ∧ cs.dropWhile isNamePart = "(TypedDict, total=False):".toList then
        readClassBody? (String.ofList className) false lines
      else none

/-- The keys in a display below its first line. -/
def readDisplayBody? : List (List Char) → Option (List (String × Bool))
  | [] => none
  | line :: lines =>
    match afterChars? "    ".toList line with
    | none => if line = "\x7d, total=False)".toList ∧ lines = [] then some [] else none
    | some ('#' :: _) => readDisplayBody? lines
    | some ('"' :: cs) =>
      (readLiteral? '"' cs).bind fun key =>
        (afterChars? ": ".toList key.2).bind fun annotation =>
          (readAnnotation? [','] annotation).bind fun required =>
            (readDisplayBody? lines).map fun keys => (String.ofList key.1, required) :: keys
    | some _ => none

/-- The keys of a record that is written as a call with a display of its keys. -/
def readCall? : List (List Char) → Option (List (String × Bool))
  | [] => none
  | line :: lines =>
    if line.head? = some '#' then readCall? lines
    else
      (afterChars? " = TypedDict(\"".toList (line.dropWhile isNamePart)).bind fun cs =>
        (readLiteral? '"' cs).bind fun called =>
          if called.1 = line.takeWhile isNamePart ∧ called.2 = ", \x7b".toList then
            readDisplayBody? lines
          else none

/-- The keys of a record in text, and whether each is marked as required. No text with a null
character is read at all. -/
def readRecord? (text : String) : Option (List (String × Bool)) :=
  if '\x00' ∈ text.toList then none
  else
    let lines := splitChars '\n' text.toList
    (readClass? lines).or (readCall? lines)

/-! ## Expressions -/

/-- Characters that an expression goes on behind at any depth. -/
def Passes (text : List Char) : Prop :=
  ∀ depth rest, exprEnd? depth (text ++ rest) = exprEnd? depth rest

/-- Characters that an expression goes on behind inside of brackets. -/
def PassesInside (text : List Char) : Prop :=
  ∀ depth rest, exprEnd? (depth + 1) (text ++ rest) = exprEnd? (depth + 1) rest

theorem Passes.inside {text : List Char} (h : Passes text) : PassesInside text :=
  fun depth rest => h (depth + 1) rest

theorem Passes.append {text more : List Char} (h : Passes text) (h' : Passes more) :
    Passes (text ++ more) := fun depth rest => by rw [List.append_assoc, h, h']

theorem PassesInside.append {text more : List Char} (h : PassesInside text)
    (h' : PassesInside more) : PassesInside (text ++ more) :=
  fun depth rest => by rw [List.append_assoc, h, h']

theorem exprEnd?_nil : exprEnd? 0 [] = some [] := by rw [exprEnd?.eq_def]; rfl

theorem exprEnd?_literal {depth : Nat} {cs text rest : List Char}
    (h : readLiteral? '"' cs = some (text, rest)) :
    exprEnd? depth ('"' :: cs) = exprEnd? depth rest := by
  rw [exprEnd?.eq_def]
  simp only [if_pos]
  split
  · rename_i heq
    obtain ⟨-, rfl⟩ := Prod.mk.inj (Option.some.inj (heq.symm.trans h))
    rfl
  · rename_i heq
    exact nomatch heq.symm.trans h

theorem exprEnd?_open (depth : Nat) (cs : List Char) :
    exprEnd? depth ('[' :: cs) = exprEnd? (depth + 1) cs := by
  rw [exprEnd?.eq_def]
  rfl

theorem exprEnd?_close (depth : Nat) (cs : List Char) :
    exprEnd? (depth + 1) (']' :: cs) = exprEnd? depth cs := by
  rw [exprEnd?.eq_def]
  rfl

theorem exprEnd?_comma (cs : List Char) : exprEnd? 0 (',' :: cs) = some (',' :: cs) := by
  rw [exprEnd?.eq_def]
  rfl

/-- Any other character that may stand in an expression is read over. -/
theorem exprEnd?_sign {depth : Nat} {c : Char} {cs : List Char}
    (hc : (isWordSign c || c == ',' || c == ' ') = true) (hcomma : c = ',' → depth ≠ 0) :
    exprEnd? depth (c :: cs) = exprEnd? depth cs := by
  have hsigns : c ≠ '"' ∧ c ≠ '[' ∧ c ≠ ']' := by
    refine ⟨?_, ?_, ?_⟩ <;> rintro rfl <;> exact absurd hc (by decide)
  rw [exprEnd?.eq_def]
  dsimp only
  rw [if_neg hsigns.1, if_neg hsigns.2.1, if_neg hsigns.2.2, if_neg fun h => hcomma h.1 h.2,
    if_pos hc]

/-- Words and numbers are expressions. -/
theorem passes_of_word {cs : List Char} (h : ∀ c ∈ cs, isWordSign c = true) : Passes cs := by
  intro depth rest
  induction cs with
  | nil => rfl
  | cons c cs ih =>
      have hc := h c List.mem_cons_self
      have hcomma : c ≠ ',' := by
        rintro rfl
        exact absurd hc (by decide)
      rw [List.cons_append, exprEnd?_sign (by simp [hc]) fun heq => absurd heq hcomma]
      exact ih fun d hm => h d (List.mem_cons_of_mem _ hm)

/-- So is a literal. -/
theorem passes_literal (text : String) : Passes (Quoting.literal text).toList := by
  intro depth rest
  have htext : (Quoting.literal text).toList ++ rest =
      '"' :: (text.toList.flatMap (Quoting.escapeChar '"') ++ '"' :: rest) := by
    simp [Quoting.literal, Quoting.quoted]
  rw [htext, exprEnd?_literal (Quoting.readLiteral?_escape (.inr rfl) text.toList rest)]

/-- What is in brackets is an expression behind which the brackets close. -/
theorem passes_brackets {text : List Char} (h : PassesInside text) :
    Passes ('[' :: text ++ [']']) := by
  intro depth rest
  rw [List.append_assoc, List.cons_append, exprEnd?_open, h, List.singleton_append, exprEnd?_close]

theorem passesInside_comma : PassesInside ", ".toList := by
  intro depth rest
  change exprEnd? (depth + 1) (',' :: ' ' :: rest) = _
  rw [exprEnd?_sign (by decide) (by simp), exprEnd?_sign (by decide) (by simp)]

theorem passesInside_joinChars {pieces : List (List Char)}
    (h : ∀ piece ∈ pieces, Passes piece) : PassesInside (Text.joinChars ", ".toList pieces) := by
  induction pieces with
  | nil => exact fun _ _ => rfl
  | cons piece pieces ih =>
      have hpiece := (h piece List.mem_cons_self).inside
      cases pieces with
      | nil => exact hpiece
      | cons next pieces =>
          exact (hpiece.append passesInside_comma).append
            (ih fun other hm => h other (List.mem_cons_of_mem _ hm))

/-- A constant is an expression. -/
theorem passes_literalText (value : Json) : Passes (literalText value).toList := by
  have hnumeral : ∀ c ∈ numeralChars, isWordSign c = true := List.all_eq_true.mp (by decide)
  unfold literalText
  split
  · exact passes_literal _
  · exact passes_of_word (List.all_eq_true.mp (by decide))
  · exact passes_of_word (List.all_eq_true.mp (by decide))
  · exact passes_of_word (List.all_eq_true.mp (by decide))
  · rw [String.toList_ofList]
    exact passes_of_word fun c hm => hnumeral c (intDigits_subset _ hm)
  · rw [String.toList_ofList]
    exact passes_of_word fun c hm => hnumeral c (floatChars_subset _ hm)
  · exact passes_literal _

/-! ### Annotations -/

/-- A word and brackets behind it are an expression. -/
theorem passes_bracketed (word inside : List Char) {lead text : String}
    (hlead : lead.toList = word ++ '[' :: inside) (hword : word.all isWordSign = true)
    (hinside : PassesInside inside) (h : PassesInside text.toList) :
    Passes (lead ++ text ++ "]").toList := by
  have htext : (lead ++ text ++ "]").toList =
      word ++ ('[' :: (inside ++ text.toList) ++ [']']) := by simp [hlead]
  rw [htext]
  exact (passes_of_word (List.all_eq_true.mp hword)).append (passes_brackets (hinside.append h))

theorem passesInside_nil : PassesInside [] := fun _ _ => rfl

theorem passesInside_join {pieces : List String} (h : ∀ piece ∈ pieces, Passes piece.toList) :
    PassesInside (Text.join ", " pieces).toList := by
  rw [Text.join, String.toList_ofList]
  refine passesInside_joinChars fun piece hm => ?_
  obtain ⟨text, htext, rfl⟩ := List.mem_map.mp hm
  exact h text htext

theorem oneLine_of_spelled (h : Spelled (isNamePart · = true) name) : OneLine name :=
  fun hm => absurd (h _ hm) (by decide)

/-- A name is read up to the first character that is none of its own. -/
theorem takeWhile_name (hname : Spelled (isNamePart · = true) name) {c : Char}
    (hc : isNamePart c = false) (cs : List Char) :
    (name.toList ++ c :: cs).takeWhile isNamePart = name.toList := by
  rw [List.takeWhile_append_of_pos hname, List.takeWhile_cons_of_neg (by simp [hc]),
    List.append_nil]

theorem dropWhile_name (hname : Spelled (isNamePart · = true) name) {c : Char}
    (hc : isNamePart c = false) (cs : List Char) :
    (name.toList ++ c :: cs).dropWhile isNamePart = c :: cs := by
  rw [List.dropWhile_append_of_pos hname, List.dropWhile_cons_of_neg (by simp [hc])]

/-- A name is a literal as it stands. -/
theorem literal_of_spelled (h : Spelled (isNamePart · = true) name) :
    Quoting.literal name = "\"" ++ name ++ "\"" := by
  have hsigns : ['\\', '\n', '\r', '\t', '"'].all (fun sign => !isNamePart sign) = true := by
    decide +kernel
  have hchars : ∀ c ∈ name.toList, Quoting.escapeChar '"' c = [c] := by
    intro c hm
    have hplain : c ∉ ['\\', '\n', '\r', '\t', '"'] := by
      intro hsign
      have hnot := List.all_eq_true.mp hsigns c hsign
      rw [h c hm] at hnot
      exact Bool.noConfusion hnot
    simp only [List.mem_cons, List.not_mem_nil, or_false, not_or] at hplain
    simp [Quoting.escapeChar, hplain]
  rw [← String.toList_inj, Quoting.literal, Quoting.quoted, String.toList_ofList,
    List.flatMap_congr hchars, List.flatMap_singleton']
  simp

mutual

/-- A type in text is an expression. -/
theorem passes_render :
    ∀ expr : TypeExpr, expr.Proper (Spelled (isNamePart · = true)) → Passes expr.render.toList
  | .any, _ | .none, _ | .str, _ | .int, _ | .float, _ | .bool, _ => by
      rw [TypeExpr.render]
      exact passes_of_word (List.all_eq_true.mp (by decide))
  | .literal values, h => by
      rw [TypeExpr.render]
      refine passes_bracketed "Literal".toList [] rfl (by decide) passesInside_nil
        (passesInside_join fun text hm => ?_)
      obtain ⟨value, rfl⟩ := h text hm
      exact passes_literalText value
  | .ref name, h => by
      rw [TypeExpr.render, ← literal_of_spelled h]
      exact passes_literal name
  | .list item, h => by
      rw [TypeExpr.render]
      exact passes_bracketed "List".toList [] rfl (by decide) passesInside_nil
        (passes_render item h).inside
  | .tuple items, h => by
      rw [TypeExpr.render]
      exact passes_bracketed "Tuple".toList [] rfl (by decide) passesInside_nil
        (passesInside_join (passes_renderAll items h))
  | .dict value, h => by
      rw [TypeExpr.render]
      have hstr : Passes "str".toList := passes_of_word (List.all_eq_true.mp (by decide))
      exact passes_bracketed "Dict".toList "str, ".toList rfl (by decide)
        (hstr.inside.append passesInside_comma) (passes_render value h).inside
  | .union members, h => by
      rw [TypeExpr.render]
      exact passes_bracketed "Union".toList [] rfl (by decide) passesInside_nil
        (passesInside_join (passes_renderAll members h))

theorem passes_renderAll :
    ∀ exprs : List TypeExpr, TypeExpr.AllProper (Spelled (isNamePart · = true)) exprs →
      ∀ text ∈ TypeExpr.renderAll exprs, Passes text.toList
  | [], _ => fun _ hm => absurd hm List.not_mem_nil
  | expr :: exprs, h => by
      intro text hm
      rcases List.mem_cons.mp hm with rfl | hm
      · exact passes_render expr h.1
      · exact passes_renderAll exprs h.2 text hm

end

variable {fields : List Field} {field : Field}

/-- **The annotation of a field is read as marked exactly when the field is required.** -/
theorem readAnnotation?_typeText (h : field.type.Proper (Spelled (isNamePart · = true)))
    {tail : List Char} (htail : exprEnd? 0 tail = some tail) :
    readAnnotation? tail (field.typeText.toList ++ tail) = some field.required := by
  have hrender := passes_render field.type h
  unfold readAnnotation? Field.typeText
  cases hrequired : field.required with
  | true =>
      have hpasses : Passes ("Required[" ++ field.type.render ++ "]").toList :=
        passes_bracketed "Required".toList [] rfl (by decide) passesInside_nil hrender.inside
      have hmark : (afterChars? "Required[".toList
          (("Required[" ++ field.type.render ++ "]").toList ++ tail)).isSome = true :=
        Option.isSome_iff_exists.mpr ⟨field.type.render.toList ++ ("]".toList ++ tail),
          afterChars?_eq_some_iff.mpr (by simp)⟩
      rw [if_pos rfl, if_pos ((hpasses 0 tail).trans htail), hmark]
  | false =>
      have hmark : (afterChars? "Required[".toList
          (field.type.render.toList ++ tail)).isSome = false := by
        cases field.type <;> simp [TypeExpr.render, afterChars?]
      rw [if_neg Bool.false_ne_true, if_pos ((hrender 0 tail).trans htail), hmark]

/-! ## Classes -/

/-- The line of a field is read as its name. -/
theorem readField?_classLine (hname : Identifier.isFieldName field.name = true)
    (htype : field.type.Proper (Spelled (isNamePart · = true))) :
    readField? (Row.classLine field).toList = some (field.name, field.required) := by
  have hchars : ∀ c ∈ field.name.toList, isAsciiWord c = true := isFieldName_chars hname
  have hline : (Row.classLine field).toList =
      "    ".toList ++ (field.name.toList ++ ':' :: ' ' :: field.typeText.toList) := by
    simp [Row.classLine]
  -- the name ends where the first character stands that is of no word
  have htake : (field.name.toList ++ ':' :: ' ' :: field.typeText.toList).takeWhile isAsciiWord =
      field.name.toList := by
    rw [List.takeWhile_append_of_pos hchars, List.takeWhile_cons_of_neg (by decide),
      List.append_nil]
  have hdrop : (field.name.toList ++ ':' :: ' ' :: field.typeText.toList).dropWhile isAsciiWord =
      ": ".toList ++ field.typeText.toList := by
    rw [List.dropWhile_append_of_pos hchars, List.dropWhile_cons_of_neg (by decide)]
    rfl
  have hannotation := readAnnotation?_typeText htype exprEnd?_nil
  rw [List.append_nil] at hannotation
  unfold readField?
  rw [hline, afterChars?_eq_some_iff.mpr rfl, Option.bind_some, htake, hdrop,
    String.ofList_toList]
  dsimp only
  rw [if_pos hname, afterChars?_eq_some_iff.mpr rfl, Option.bind_some, hannotation,
    Option.map_some]

variable {className : String} {lines : List (List Char)}

theorem readClassBody?_blank :
    readClassBody? className false ([] :: lines) = readClassBody? className false lines := rfl

/-- The field of a line in front is the first one that is read. -/
theorem readClassBody?_field (hname : Identifier.isFieldName field.name = true)
    (htype : field.type.Proper (Spelled (isNamePart · = true))) :
    readClassBody? className false ((Row.classLine field).toList :: lines) =
      (readClassBody? className false lines).map fun keys =>
        (attributeName className field.name, field.required) :: keys := by
  obtain ⟨c, cs, hcons⟩ : ∃ c cs, field.name.toList = c :: cs := by
    refine List.exists_cons_of_ne_nil fun hnil => ?_
    rw [Identifier.isFieldName, hnil] at hname
    exact Bool.noConfusion hname
  have hquote : '"' ≠ c := fun heq =>
    absurd (isFieldName_chars hname c (by simp [hcons])) (heq ▸ by decide)
  have hline : (Row.classLine field).toList =
      "    ".toList ++ c :: (cs ++ ": ".toList ++ field.typeText.toList) := by
    simp [Row.classLine, hcons]
  have hdoc : afterChars? docOpening (Row.classLine field).toList = none := by
    rw [hline]
    exact if_neg hquote
  have hne : (Row.classLine field).toList ≠ [] := by simp [hline]
  rw [readClassBody?, if_neg Bool.false_ne_true, hdoc]
  dsimp only
  rw [if_neg hne, readField?_classLine hname htype, Option.bind_some]

/-- Empty lines at the end make no difference. -/
theorem readClassBody?_append_blank {blanks : List (List Char)} (h : ∀ line ∈ blanks, line = [])
    (inDoc : Bool) :
    readClassBody? className inDoc (lines ++ blanks) = readClassBody? className inDoc lines := by
  induction lines generalizing inDoc with
  | nil =>
      induction blanks with
      | nil => rfl
      | cons blank blanks ih =>
          obtain rfl := h blank List.mem_cons_self
          have hrest := ih fun line hm => h line (List.mem_cons_of_mem _ hm)
          cases inDoc <;> exact hrest
  | cons line lines ih =>
      rw [List.cons_append, readClassBody?, readClassBody?]
      simp only [ih]

/-! ### Documentation -/

/-- Only quotes close a documentation. -/
theorem docEnd?_of_not_mem {cs : List Char} (h : '"' ∉ cs) : docEnd? cs = none := by
  fun_induction docEnd? cs with
  | case1 => simp at h
  | case2 _ _ ih => exact ih (by simp_all)
  | case3 _ _ _ _ ih => exact ih (by simp_all)
  | case4 => rfl

/-- They do so behind a space, whatever is in front of it. -/
theorem docEnd?_append {cs : List Char} (h : '"' ∉ cs) :
    docEnd? (cs ++ " \"\"\"".toList) = some [] := by
  fun_induction docEnd? cs with
  | case1 => simp at h
  | case2 c cs ih =>
      rw [List.cons_append, List.cons_append, docEnd?]
      exact ih (by simp_all)
  | case3 c cs hquotes hescape ih =>
      have hc : c ≠ '"' := fun heq => h (heq ▸ List.mem_cons_self)
      have hrest := ih fun hm => h (List.mem_cons_of_mem _ hm)
      -- a backslash at the end takes the space and not a quote
      cases cs with
      | nil =>
          by_cases hbackslash : c = '\\'
          · subst hbackslash
            rfl
          · rw [List.cons_append, docEnd?]
            · exact hrest
            · rintro rest rfl
              exact absurd rfl hc
            · rintro d ds rfl
              exact absurd rfl hbackslash
      | cons d cs =>
          rw [List.cons_append, docEnd?]
          · exact hrest
          · rintro rest rfl
            exact absurd rfl hc
          · rintro e es rfl
            exact (hescape d cs rfl rfl).elim
  | case4 => rfl

/-- Lines without quotes leave a documentation open. -/
theorem readClassBody?_open {inner : List (List Char)} (h : ∀ line ∈ inner, '"' ∉ line) :
    readClassBody? className true (inner ++ lines) = readClassBody? className true lines := by
  induction inner with
  | nil => rfl
  | cons line inner ih =>
      rw [List.cons_append, readClassBody?]
      simp only [if_true, docEnd?_of_not_mem (h line List.mem_cons_self)]
      exact ih fun other hm => h other (List.mem_cons_of_mem _ hm)

/-- What a documentation says has no double quotes. -/
theorem not_mem_docBody (doc : String) :
    '"' ∉ (Quoting.indentContinuation "    " (Quoting.docstring (Text.trim doc))).toList := by
  have hquoted : Spelled (· ≠ '"') (Quoting.docstring (Text.trim doc)) := by
    rintro c hm rfl
    exact Quoting.not_mem_docstring _ hm
  have hbody : Spelled (· ≠ '"')
      (Quoting.indentContinuation "    " (Quoting.docstring (Text.trim doc))) := by
    refine spelled_join (by decide) fun piece hpiece c hm => ?_
    obtain ⟨line, hline, rfl⟩ := List.mem_map.mp hpiece
    rw [String.toList_ofList] at hm
    exact hquoted c (Text.subset_of_mem_splitChars hline hm)
  exact fun hm => hbody _ hm rfl

/-- **A documentation is read over,** however many lines it has. -/
theorem readClassBody?_docLine (doc : String) :
    readClassBody? className false (splitChars '\n' (Declaration.docLine doc).toList ++ lines) =
      readClassBody? className false lines := by
  let body := ' ' :: (Quoting.indentContinuation "    " (Quoting.docstring (Text.trim doc))).toList
  have hbody : '"' ∉ body := by simp [body, not_mem_docBody doc]
  have htext : (Declaration.docLine doc).toList = docOpening ++ (body ++ " \"\"\"".toList) := by
    simp [Declaration.docLine, docOpening, body]
  obtain ⟨init, last, first, rest, hlast, hclosing, happend⟩ :=
    Text.splitChars_append '\n' body " \"\"\"".toList
  rw [Text.splitChars_of_not_mem (by decide)] at hclosing
  obtain ⟨rfl, rfl⟩ := List.cons.inj hclosing
  have hpieces : ∀ piece ∈ init ++ [last], '"' ∉ piece := fun piece hm hquote =>
    hbody (Text.subset_of_mem_splitChars (hlast ▸ hm) hquote)
  -- the first line is read as any other one, but for the quotes that open it
  have hopen (line : List Char) (more : List (List Char)) :
      readClassBody? className false ((docOpening ++ line) :: more) =
        readClassBody? className true (line :: more) := by
    rw [readClassBody?, readClassBody?, if_neg Bool.false_ne_true, if_pos rfl,
      afterChars?_eq_some_iff.mpr rfl]
  have hclose : readClassBody? className true ((last ++ " \"\"\"".toList) :: lines) =
      readClassBody? className false lines := by
    rw [readClassBody?]
    simp only [if_true, docEnd?_append (hpieces last (by simp))]
  have hread : readClassBody? className true
      (init ++ (last ++ " \"\"\"".toList) :: lines) = readClassBody? className false lines :=
    (readClassBody?_open fun piece hm => hpieces piece (List.mem_append_left _ hm)).trans hclose
  cases init with
  | nil =>
      rw [htext, Text.splitChars_append_of_not_mem (by decide) happend, List.singleton_append,
        hopen]
      exact hclose
  | cons piece init =>
      rw [htext, Text.splitChars_append_of_not_mem (by decide) happend, List.cons_append, hopen]
      simpa using hread

/-! ### The lines of a class -/

theorem splitChars_of_oneLine {text : String} (h : OneLine text) :
    splitChars '\n' text.toList = [text.toList] := Text.splitChars_of_not_mem h

theorem oneLine_classLine (hname : Identifier.isFieldName field.name = true)
    (htype : field.type.Proper (Spelled (isNamePart · = true))) :
    OneLine (Row.classLine field) :=
  Row.oneLine_classLine hname (htype.mono fun _ h => oneLine_of_spelled h)

/-- Documentation that may be missing is read over, and so is the empty line behind it. -/
theorem readClassBody?_docs (doc? : Option String) :
    readClassBody? className false
        (((doc?.map Declaration.docLine).toList.flatMap fun piece =>
          splitChars '\n' piece.toList) ++ [] :: lines) = readClassBody? className false lines := by
  cases doc? with
  | none => exact readClassBody?_blank
  | some doc =>
      rw [Option.map_some, Option.toList_some, List.flatMap_singleton, readClassBody?_docLine,
        readClassBody?_blank]

/-- The fields of a class are read in turn. -/
theorem readClassBody?_fields (hnames : ∀ field ∈ fields, Identifier.isFieldName field.name = true)
    (htypes : ∀ field ∈ fields, field.type.Proper (Spelled (isNamePart · = true))) :
    readClassBody? className false ((fields.flatMap Declaration.classField).flatMap fun piece =>
        splitChars '\n' piece.toList) =
      some (fields.map fun field => (attributeName className field.name, field.required)) := by
  induction fields with
  | nil => rfl
  | cons field fields ih =>
      have hname := hnames field List.mem_cons_self
      have htype := htypes field List.mem_cons_self
      have hrest := ih (fun other hm => hnames other (List.mem_cons_of_mem _ hm))
        fun other hm => htypes other (List.mem_cons_of_mem _ hm)
      -- the first line of a field tells its name, and behind it stands only documentation
      have hlines : (Declaration.classField field).flatMap
          (fun piece => splitChars '\n' piece.toList) = (Row.classLine field).toList ::
            (((field.doc.map Declaration.docLine).toList.flatMap fun piece =>
              splitChars '\n' piece.toList) ++ [[]]) := by
        rw [Declaration.classField, List.append_assoc, List.singleton_append, List.flatMap_cons,
          List.flatMap_append, List.flatMap_singleton]
        exact congrArg (· ++ _) (splitChars_of_oneLine (oneLine_classLine hname htype))
      rw [List.flatMap_cons, List.flatMap_append, hlines, List.cons_append, List.append_assoc,
        List.singleton_append, readClassBody?_field hname htype, readClassBody?_docs, hrest,
        Option.map_some, List.map_cons]

theorem readClassBody?_inner (doc : Option String)
    (hnames : ∀ field ∈ fields, Identifier.isFieldName field.name = true)
    (htypes : ∀ field ∈ fields, field.type.Proper (Spelled (isNamePart · = true))) :
    readClassBody? className false ((classInner doc fields).flatMap fun piece =>
        splitChars '\n' piece.toList) =
      some (fields.map fun field => (attributeName className field.name, field.required)) := by
  rw [classInner, List.flatMap_append]
  cases doc with
  | none => exact readClassBody?_fields hnames htypes
  | some text =>
      rw [← readClassBody?_fields hnames htypes, Option.toList_some, List.flatMap_singleton,
        List.flatMap_cons, List.flatMap_singleton, List.append_assoc]
      exact readClassBody?_docLine text

/-- **A record that is written as a class is read back.** -/
theorem readClass?_classLines (hne : name ≠ "") (hname : Spelled (isNamePart · = true) name)
    (doc : Option String) (hfits : Declaration.fitsClass fields = true)
    (htypes : ∀ field ∈ fields, field.type.Proper (Spelled (isNamePart · = true))) :
    readClass? (splitChars '\n'
        (Text.join "\n" (Declaration.classLines name doc fields)).toList) =
      some (fields.map fun field => (attributeName name field.name, field.required)) := by
  let header := "class " ++ name ++ "(TypedDict, total=False):"
  obtain ⟨body, empty, hclass, hinner, hempty⟩ := Row.exists_classBody name doc fields
  have hheader : header.toList =
      "class ".toList ++ (name.toList ++ '(' :: "TypedDict, total=False):".toList) := by
    simp [header]
  have honeLine : OneLine header := (oneLine_of_spelled hname).between (by decide) (by decide)
  have hblank : ∀ line ∈ empty.flatMap fun piece => splitChars '\n' piece.toList, line = [] := by
    intro line hm
    obtain ⟨piece, hpiece, hm⟩ := List.mem_flatMap.mp hm
    rw [hempty piece hpiece] at hm
    exact List.mem_singleton.mp hm
  -- what the writer has dropped at the end is empty lines, which are read over
  have hread : readClassBody? name false ((classInner doc fields).flatMap fun piece =>
      splitChars '\n' piece.toList) =
        some (fields.map fun field => (attributeName name field.name, field.required)) :=
    readClassBody?_inner doc (List.all_eq_true.mp hfits) htypes
  rw [hinner, List.flatMap_append, readClassBody?_append_blank hblank] at hread
  rw [hclass, Text.splitChars_join (List.cons_ne_nil _ _), List.flatMap_cons,
    splitChars_of_oneLine honeLine, List.singleton_append, readClass?, hheader,
    afterChars?_eq_some_iff.mpr rfl, Option.bind_some, takeWhile_name hname (by decide),
    dropWhile_name hname (by decide)]
  dsimp only
  rw [if_pos ⟨fun h => hne (String.toList_eq_nil_iff.mp h), rfl⟩, String.ofList_toList, hread]

/-! ## Calls -/

/-- What is listed for a field is read as its key, which is the first one. -/
theorem readDisplayBody?_keyedField
    (htype : field.type.Proper (Spelled (isNamePart · = true))) :
    readDisplayBody? ((Declaration.keyedField field).map String.toList ++ lines) =
      (readDisplayBody? lines).map fun keys => (field.name, field.required) :: keys := by
  have hkey : readDisplayBody?
      (("    " ++ Quoting.literal field.name ++ ": " ++ field.typeText ++ ",").toList :: lines) =
        (readDisplayBody? lines).map fun keys => (field.name, field.required) :: keys := by
    have hline : ("    " ++ Quoting.literal field.name ++ ": " ++ field.typeText ++ ",").toList =
        "    ".toList ++ '"' :: (field.name.toList.flatMap (Quoting.escapeChar '"') ++
          '"' :: (": ".toList ++ (field.typeText.toList ++ [',']))) := by
      simp [Quoting.literal, Quoting.quoted]
    rw [readDisplayBody?, hline, afterChars?_eq_some_iff.mpr rfl]
    simp only
    rw [Quoting.readLiteral?_escape (.inr rfl), Option.bind_some,
      afterChars?_eq_some_iff.mpr rfl, Option.bind_some,
      readAnnotation?_typeText htype (exprEnd?_comma []), Option.bind_some, String.ofList_toList]
  rw [Declaration.keyedField, List.map_append, List.append_assoc]
  -- a comment in front of a field is passed over
  cases hdoc : field.doc with
  | none => exact hkey
  | some doc =>
      have hcomment : ("    # " ++ Quoting.comment doc).toList =
          "    ".toList ++ '#' :: ' ' :: (Quoting.comment doc).toList := by simp
      rw [Option.map_some, Option.toList_some, List.map_singleton, List.singleton_append,
        readDisplayBody?, hcomment, afterChars?_eq_some_iff.mpr rfl]
      exact hkey

theorem readDisplayBody?_fields
    (htypes : ∀ field ∈ fields, field.type.Proper (Spelled (isNamePart · = true))) :
    readDisplayBody? ((fields.flatMap Declaration.keyedField).map String.toList ++
        ["\x7d, total=False)".toList]) =
      some (fields.map fun field => (field.name, field.required)) := by
  induction fields with
  | nil => rfl
  | cons field fields ih =>
      rw [List.flatMap_cons, List.map_append, List.append_assoc,
        readDisplayBody?_keyedField (htypes field List.mem_cons_self),
        ih fun other hm => htypes other (List.mem_cons_of_mem _ hm), Option.map_some, List.map_cons]

/-- The lines of a record that is written as a call. -/
theorem splitChars_keyedLines (hname : Spelled (isNamePart · = true) name) (doc : Option String)
    (htypes : ∀ field ∈ fields, field.type.Proper (Spelled (isNamePart · = true))) :
    splitChars '\n' (Text.join "\n" (Declaration.keyedLines name doc fields)).toList =
      (Declaration.keyedLines name doc fields).map String.toList := by
  have hflat := Declaration.oneLine_keyedLines (oneLine_of_spelled hname) doc
    fun field hm => (htypes field hm).mono fun _ h => oneLine_of_spelled h
  rw [Text.splitChars_join (by simp [Declaration.keyedLines]),
    List.flatMap_congr fun piece hm => splitChars_of_oneLine (hflat piece hm),
    List.map_eq_flatMap]

/-- The line that a record begins with, as a call, behind its name. -/
theorem toList_callLine (name : String) :
    (name ++ " = TypedDict(" ++ Quoting.literal name ++ ", \x7b").toList =
      name.toList ++ ' ' :: ("= TypedDict(\"".toList ++
        (name.toList.flatMap (Quoting.escapeChar '"') ++ '"' :: ", \x7b".toList)) := by
  simp [Quoting.literal, Quoting.quoted]

/-- **A record that is written as a call is read back.** -/
theorem readCall?_keyedLines (hname : Spelled (isNamePart · = true) name)
    (doc : Option String)
    (htypes : ∀ field ∈ fields, field.type.Proper (Spelled (isNamePart · = true))) :
    readCall? ((Declaration.keyedLines name doc fields).map String.toList) =
      some (fields.map fun field => (field.name, field.required)) := by
  let call := name ++ " = TypedDict(" ++ Quoting.literal name ++ ", \x7b"
  let entries := (fields.flatMap Declaration.keyedField).map String.toList ++
    ["\x7d, total=False)".toList]
  have hcall : readCall? (call.toList :: entries) =
      some (fields.map fun field => (field.name, field.required)) := by
    -- the name has no comment sign, so the line is not taken for a comment
    have hhead : call.toList.head? ≠ some '#' := by
      rw [toList_callLine]
      cases hchars : name.toList with
      | nil => simp
      | cons c cs =>
          have hc := hname c (by simp [hchars])
          rw [List.cons_append, List.head?_cons]
          intro heq
          exact absurd (Option.some.inj heq ▸ hc) (by decide)
    have hopen (cs : List Char) : ' ' :: ("= TypedDict(\"".toList ++ cs) =
        " = TypedDict(\"".toList ++ cs := rfl
    rw [readCall?, if_neg hhead, toList_callLine, dropWhile_name hname (by decide),
      takeWhile_name hname (by decide), hopen, afterChars?_eq_some_iff.mpr rfl, Option.bind_some,
      Quoting.readLiteral?_escape (.inr rfl), Option.bind_some, if_pos ⟨rfl, rfl⟩]
    exact readDisplayBody?_fields htypes
  have hlines : (Declaration.keyedLines name doc fields).map String.toList =
      ((doc.map fun text => "# " ++ Quoting.comment text).toList.map String.toList) ++
        call.toList :: entries := by
    simp [Declaration.keyedLines, call, entries]
  rw [hlines]
  cases doc with
  | none => exact hcall
  | some text =>
      have hcomment : ("# " ++ Quoting.comment text).toList.head? = some '#' := by simp
      rw [Option.map_some, Option.toList_some, List.map_singleton, List.singleton_append,
        readCall?, if_pos hcomment, hcall]

/-- What is written as a call is not read as a class, though its name may be `class`. -/
theorem readClass?_keyedLines (hname : Spelled (isNamePart · = true) name)
    (doc : Option String) :
    readClass? ((Declaration.keyedLines name doc fields).map String.toList) = none := by
  have hcall (rest : List (List Char)) : readClass?
      ((name ++ " = TypedDict(" ++ Quoting.literal name ++ ", \x7b").toList :: rest) = none := by
    rw [readClass?, toList_callLine, Option.bind_eq_none_iff]
    intro cs hcs
    -- up to the first space both are a name, and behind the word `class` there would be none
    have heq := congrArg (List.dropWhile isNamePart) (afterChars?_eq_some_iff.mp hcs)
    have hclass : ("class ".toList ++ cs).dropWhile isNamePart = ' ' :: cs := rfl
    rw [dropWhile_name hname (by decide), hclass] at heq
    obtain rfl := (List.cons.inj heq).2
    rfl
  unfold Declaration.keyedLines
  cases doc with
  | none => exact hcall _
  | some text =>
      have hcomment : afterChars? "class ".toList ("# " ++ Quoting.comment text).toList = none := by
        simp [afterChars?]
      rw [Option.map_some, Option.toList_some, List.append_assoc, List.append_assoc,
        List.singleton_append, List.map_cons, readClass?, hcomment, Option.bind_none]

/-! ## Records -/

/-- **A record is read back,** with a key for each of its fields in turn and its mark if the field
is required. Only a key that is private to a class is not read as the name of its field. -/
theorem readRecord?_render (hne : name ≠ "") (hname : Spelled (isNamePart · = true) name)
    (doc : Option String)
    (htypes : ∀ field ∈ fields, field.type.Proper (Spelled (isNamePart · = true)))
    (hnull : '\x00' ∉ (Declaration.record name doc fields).render.toList) :
    readRecord? (Declaration.record name doc fields).render = some (fields.map fun field =>
      (if Declaration.fitsClass fields then attributeName name field.name else field.name,
        field.required)) := by
  have hrender : (Declaration.record name doc fields).render = Text.join "\n"
      (if Declaration.fitsClass fields then Declaration.classLines name doc fields
        else Declaration.keyedLines name doc fields) := rfl
  rw [readRecord?, if_neg hnull, hrender]
  cases hfits : Declaration.fitsClass fields with
  | true =>
      simp only [if_true, readClass?_classLines hne hname doc hfits htypes, Option.some_or]
  | false =>
      simp only [Bool.false_eq_true, if_false, splitChars_keyedLines hname doc htypes,
        readClass?_keyedLines hname, readCall?_keyedLines hname doc htypes, Option.none_or]

end StubGen.Schema
