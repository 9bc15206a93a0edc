import Mathlib.Data.List.TakeWhile
import StubGen.Proofs.Stub.Rows
import StubGen.Proofs.Text.Escapes

/-!
# Fields that are read back

The fields of a row are found behind the line that begins it. Of each line of a record it is said
what it is taken for: a field of a class is taken for itself (`told_classLine`), one that is listed
by its key for what is left of the key (`field?_keyedLine`), and a documentation for whatever its
further lines look like (`told_docLine`). What is read of a record is that, stored in turn:
`fields_linesOf`. So a column is read with the type that the engine gave it if its key is written
without escapes and no annotation could begin in it, and no line of a documentation looks like the
field of a column: `lookup_fields`.
-/

namespace StubGen

open Schema
open DefinitionSet (Begins IsComment)
open Schema.Declaration (linesOf withoutReturn)

variable {name line : String} {blocks : List Declaration}

/-- What stands below the first line of a class: the lines of its fields and what documents it and
them. -/
def Schema.classInner (doc : Option String) (fields : List Field) : List String :=
  (doc.toList.flatMap fun text => [Declaration.docLine text, ""]) ++
    fields.flatMap Declaration.classField

namespace Row

/-! ## Fields that are read -/

theorem lookup_put (fields : List (String × String)) (column type other : String) :
    (put fields column type).lookup other =
      if other = column then some type else fields.lookup other := by
  induction fields with
  | nil =>
      by_cases h : other = column
      · simp [put, h]
      · have hb : (other == column) = false := beq_eq_false_iff_ne.mpr h
        simp only [put, List.lookup_cons, hb, if_neg h]
  | cons field fields ih =>
      obtain ⟨c, t⟩ := field
      rw [put]
      by_cases hc : c = column
      · subst hc
        rw [if_pos rfl, List.lookup_cons, List.lookup_cons]
        by_cases h : other = c
        · simp [h]
        · simp only [beq_eq_false_iff_ne.mpr h, if_neg h]
      · rw [if_neg hc, List.lookup_cons, List.lookup_cons, ih]
        by_cases h : other = c
        · simp [h, hc]
        · simp only [beq_eq_false_iff_ne.mpr h]

/-- Stores the fields of a list in turn. -/
def putAll (fields : List (String × String)) (entries : List (String × String)) :
    List (String × String) :=
  entries.foldl (fun fields entry => put fields entry.1 entry.2) fields

/-- A column has the type that is stored for it, if no other is. -/
theorem lookup_putAll {column type : String} {fields entries : List (String × String)}
    (hm : fields.lookup column = some type ∨ (column, type) ∈ entries)
    (hone : ∀ other, (column, other) ∈ entries → other = type) :
    (putAll fields entries).lookup column = some type := by
  induction entries generalizing fields with
  | nil => exact hm.resolve_right List.not_mem_nil
  | cons entry entries ih =>
      obtain ⟨c, t⟩ := entry
      refine ih ?_ fun other hother => hone other (List.mem_cons_of_mem _ hother)
      rw [lookup_put]
      by_cases hc : column = c
      · subst hc
        exact .inl (by rw [if_pos rfl, hone t List.mem_cons_self])
      · rw [if_neg hc]
        refine hm.imp_right fun hm => (List.mem_cons.mp hm).resolve_left fun heq => hc ?_
        exact (Prod.mk.inj heq).1

/-- A carriage return at the end of a line does not change what is read of it. -/
theorem field?_withoutReturn (keyed : Bool) (line : String) :
    field? keyed (withoutReturn line).toList = field? keyed line.toList := by
  unfold field?
  rw [Declaration.withoutReturn_toList, Text.trimChars_dropReturn]

theorem field?_of_isBlankText (keyed : Bool) {line : String} (h : Text.isBlankText line = true) :
    field? keyed line.toList = none := by
  have htrim : Text.trimChars line.toList = [] := by
    have hstart : Text.trimStartChars line.toList = [] := List.dropWhile_eq_nil_iff.mpr fun c hm =>
      List.all_eq_true.mp h c hm
    rw [Text.trimChars, hstart]
    rfl
  unfold field?
  rw [htrim]
  cases keyed <;> rfl

/-- A line that is read over: it is further in, or blank. -/
def IsInside (line : String) : Prop :=
  Text.startsWith "    " line = true ∨ Text.isBlankText line = true

/-- Lines that are read over give their fields, one after the other. -/
theorem fieldsFrom_append {keyed : Bool} {lines : List String} (h : ∀ line ∈ lines, IsInside line)
    (fields : List (String × String)) (rest : List String) :
    fieldsFrom keyed fields (lines ++ rest) =
      fieldsFrom keyed (putAll fields (lines.filterMap fun line => field? keyed line.toList))
        rest := by
  induction lines generalizing fields with
  | nil => rfl
  | cons line lines ih =>
      have hrest := ih fun other hm => h other (List.mem_cons_of_mem _ hm)
      rw [List.cons_append, fieldsFrom]
      by_cases hindent : Text.startsWith "    " line = true
      · rw [if_pos hindent]
        cases hfield : field? keyed line.toList with
        | none =>
            simp only [List.filterMap_cons, hfield]
            exact hrest fields
        | some entry =>
            simp only [List.filterMap_cons, hfield]
            exact hrest _
      · have hblank := (h line List.mem_cons_self).resolve_left hindent
        rw [if_neg hindent, if_pos hblank]
        simp only [List.filterMap_cons, field?_of_isBlankText keyed hblank]
        exact hrest fields

/-! ### One field -/

theorem cutAtColon_cons {c : Char} {cs : List Char} (h : ¬ [':', ' '] <+: c :: cs) :
    cutAtColon (c :: cs) = (cutAtColon cs).map fun (key, value) => (c :: key, value) := by
  rw [cutAtColon]
  rintro rest rfl rfl
  exact h ⟨rest, rfl⟩

/-- There is no place to cut where no `: ` is. -/
theorem cutAtColon_eq_none_iff {cs : List Char} : cutAtColon cs = none ↔ ¬ [':', ' '] <:+: cs := by
  induction cs with
  | nil => simp [cutAtColon]
  | cons c cs ih =>
      rw [List.infix_cons_iff, not_or, ← ih]
      by_cases hcut : [':', ' '] <+: c :: cs
      · obtain ⟨rest, heq⟩ := hcut
        obtain ⟨rfl, rfl⟩ := List.cons.inj heq
        simp [cutAtColon]
      · rw [cutAtColon_cons hcut, Option.map_eq_none_iff]
        simp [hcut]

theorem cutAtColon_of_not_mem {cs : List Char} (h : ':' ∉ cs) : cutAtColon cs = none :=
  cutAtColon_eq_none_iff.mpr fun hcut => h (hcut.subset List.mem_cons_self)

/-- Behind characters in which there is no place to cut, the first place is in what follows. -/
theorem cutAtColon_append {cs ds : List Char} {d : Char} (h : cutAtColon cs = none) (hd : d ≠ ' ') :
    cutAtColon (cs ++ d :: ds) =
      (cutAtColon (d :: ds)).map fun (key, value) => (cs ++ key, value) := by
  induction cs with
  | nil => simp
  | cons c cs ih =>
      rw [cutAtColon_eq_none_iff, List.infix_cons_iff, not_or, ← cutAtColon_eq_none_iff] at h
      have hcut : ¬ [':', ' '] <+: c :: (cs ++ d :: ds) := by
        rintro ⟨rest, heq⟩
        obtain ⟨rfl, hrest⟩ := List.cons.inj heq
        cases cs with
        | nil => exact hd (List.cons.inj hrest).1.symm
        | cons e cs => exact h.1 ⟨cs, by rw [← (List.cons.inj hrest).1]; rfl⟩
      rw [List.cons_append, cutAtColon_cons hcut, ih h.2, Option.map_map]
      rfl

/-- What is cut are the characters in front of the first `: ` and those behind it. -/
theorem cutAtColon_eq_some {cs key value : List Char} (h : cutAtColon cs = some (key, value)) :
    cs = key ++ ':' :: ' ' :: value ∧ cutAtColon key = none := by
  induction cs generalizing key with
  | nil => cases h
  | cons c cs ih =>
      by_cases hcut : [':', ' '] <+: c :: cs
      · obtain ⟨rest, heq⟩ := hcut
        obtain ⟨rfl, rfl⟩ := List.cons.inj heq
        obtain ⟨rfl, rfl⟩ := Prod.mk.inj (Option.some.inj h)
        exact ⟨rfl, rfl⟩
      · rw [cutAtColon_cons hcut] at h
        obtain ⟨⟨front, behind⟩, hfront, heq⟩ := Option.map_eq_some_iff.mp h
        obtain ⟨rfl, rfl⟩ := Prod.mk.inj heq
        obtain ⟨hcs, hnone⟩ := ih hfront
        have hprefix : c :: front <+: c :: cs := ⟨':' :: ' ' :: behind, by rw [hcs]; rfl⟩
        refine ⟨by rw [hcs]; rfl, ?_⟩
        rw [cutAtColon_cons fun hlead => hcut (hlead.trans hprefix), hnone]
        rfl

/-- What is cut off stays what it was, with all that follows. -/
theorem cutAtColon_append_of_some {cs key value : List Char} (h : cutAtColon cs = some (key, value))
    (ds : List Char) : cutAtColon (cs ++ ds) = some (key, value ++ ds) := by
  obtain ⟨rfl, hnone⟩ := cutAtColon_eq_some h
  rw [List.append_assoc, List.cons_append, cutAtColon_append hnone (by decide)]
  simp [cutAtColon]

/-- The type of a field without the mark that it is required. -/
theorem withoutRequired_typeText (field : Field) :
    String.ofList (withoutRequired field.typeText.toList) = field.type.render := by
  unfold Field.typeText
  split
  · have htext : ("Required[" ++ field.type.render ++ "]").toList =
        "Required[".toList ++ (field.type.render.toList ++ [']']) := by simp
    rw [withoutRequired, htext, Text.afterChars?_eq_some_iff.mpr rfl, Option.bind_some,
      Text.beforeChars?, Text.afterChars?_eq_some_iff.mpr (by rw [List.reverse_append]),
      Option.map_some, Option.getD_some, List.reverse_reverse, String.ofList_toList]
  · have hnone : Text.afterChars? "Required[".toList field.type.render.toList = none := by
      cases field.type <;> simp [TypeExpr.render, Text.afterChars?]
    rw [withoutRequired, hnone, Option.bind_none, Option.getD_none, String.ofList_toList]

/-- Characters between a blank lead and a sign at the end are all that is left of a line. -/
theorem trimChars_line {lead : List Char} {text : String} {c : Char} {cs : List Char}
    (hlead : ∀ b ∈ lead, Text.isBlank b = true) (hfirst : text.toList = c :: cs)
    (hc : Text.isBlank c = false) (h : EndsLoud text) :
    Text.trimChars (lead ++ text.toList) = text.toList := by
  obtain ⟨init, d, htext, hd⟩ := h
  rw [hfirst, Text.trimChars_append hlead hc, ← Text.trimEndChars_cons hc, ← hfirst, htext,
    Text.trimEndChars_eq_self_iff (by simp), List.getLast_concat]
  exact hd

/-- The line of a field in a class. -/
def classLine (field : Field) : String := "    " ++ field.name ++ ": " ++ field.typeText

/-- What is read of a line is read of what stands between its lead and its end. -/
theorem field?_of_line {keyed : Bool} {text : String} {c : Char} {cs : List Char}
    (hfirst : text.toList = c :: cs) (hc : Text.isBlank c = false) (h : EndsLoud text)
    (hdoc : Text.afterChars? "\"\"\"".toList text.toList = none) (hcomment : c ≠ '#') :
    field? keyed ("    " ++ text).toList =
      (if keyed then ((Text.beforeChars? [','] text.toList).bind cutAtColon).map
          fun (key, type) => (unquote key, type)
        else cutAtColon text.toList).map
          fun (key, type) => (String.ofList key, String.ofList (withoutRequired type)) := by
  have hlead : ∀ b ∈ "    ".toList, Text.isBlank b = true := List.all_eq_true.mp (by decide)
  have htrim := trimChars_line hlead hfirst hc h
  have hmark : Text.afterChars? ['#'] text.toList = none := by
    simp [hfirst, Text.afterChars?, hcomment.symm]
  unfold field?
  rw [String.toList_append, htrim]
  dsimp only
  rw [hdoc, hmark]
  rfl

/-- A field of a class is read as it is. -/
theorem field?_classLine {field : Field} (hname : Identifier.isFieldName field.name = true) :
    field? false (classLine field).toList = some (field.name, field.type.render) := by
  have hchars := isFieldName_chars hname
  obtain ⟨c, cs, hcons⟩ : ∃ c cs, field.name.toList = c :: cs := by
    refine List.exists_cons_of_ne_nil fun hnil => ?_
    rw [Identifier.isFieldName, hnil] at hname
    exact Bool.noConfusion hname
  -- the characters that are told apart by the reader are none of a field name
  have hsign : ∀ sign ∈ ['"', '#', ':'], sign ∉ field.name.toList := by
    intro sign hm hmem
    have hnot : ∀ sign ∈ ['"', '#', ':'], (sign.isAlphanum || sign == '_') = false := by simp
    exact Bool.noConfusion ((hchars sign hmem).symm.trans (hnot sign hm))
  have hc : Text.isBlank c = false := by
    have hpart := hchars c (by simp [hcons])
    rcases Bool.or_eq_true _ _ ▸ hpart with halpha | hscore
    · exact Text.isBlank_of_isIdentifierChar (Identifier.isIdentifierChar_of_isAlphanum halpha)
    · rw [beq_iff_eq.mp hscore]
      decide
  let text := field.name ++ ": " ++ field.typeText
  have hline : classLine field = "    " ++ text := by simp [classLine, text, String.append_assoc]
  have htext : text.toList = field.name.toList ++ ':' :: ' ' :: field.typeText.toList := by
    simp [text]
  have hfirst : text.toList = c :: (cs ++ ':' :: ' ' :: field.typeText.toList) := by
    rw [htext, hcons]
    rfl
  have hdoc : Text.afterChars? "\"\"\"".toList text.toList = none := by
    have hquote : '"' ≠ c := fun heq => hsign '"' (by simp) (by simp [hcons, ← heq])
    simp [hfirst, Text.afterChars?, hquote]
  have hcomment : c ≠ '#' := fun heq => hsign '#' (by simp) (by simp [hcons, heq])
  rw [hline, field?_of_line hfirst hc ((endsLoud_typeText field).append _) hdoc hcomment,
    if_neg (by simp), htext,
    cutAtColon_append (cutAtColon_of_not_mem (hsign ':' (by simp))) (by decide)]
  simp [cutAtColon, withoutRequired_typeText]

/-- A key that is written without escapes and in which no field could begin. -/
structure Legible (key : String) : Prop where
  plain : ∀ c ∈ key.toList, c ∉ ['\\', '\n', '\r', '\t', '"']
  whole : cutAtColon key.toList = none

theorem Legible.literal {key : String} (h : Legible key) :
    (Quoting.literal key).toList = '"' :: key.toList ++ ['"'] := by
  have hchars : ∀ c ∈ key.toList, Quoting.escapeChar '"' c = [c] := by
    intro c hm
    have hplain := h.plain c hm
    simp only [List.mem_cons, List.not_mem_nil, or_false, not_or] at hplain
    simp [Quoting.escapeChar, hplain]
  rw [Quoting.literal, Quoting.quoted, String.toList_ofList, List.flatMap_congr hchars,
    List.flatMap_singleton']

/-- The line of a field that is listed by its key. -/
def keyedLine (field : Field) : String :=
  "    " ++ Quoting.literal field.name ++ ": " ++ field.typeText ++ ","

theorem unquote_quoted {cs : List Char} (h : '"' ∉ cs) : unquote ('"' :: cs ++ ['"']) = cs := by
  have hstart : ∀ ds : List Char, '"' ∉ ds → ds.dropWhile (· = '"') = ds := by
    intro ds hds
    cases ds with
    | nil => rfl
    | cons d ds =>
        have hd : d ≠ '"' := fun heq => hds (heq ▸ List.mem_cons_self)
        exact List.dropWhile_cons_of_neg (by simpa using hd)
  have hquote : ∀ c ∈ ['"'], decide (c = '"') = true := List.all_eq_true.mp (by decide)
  have hlead : ('"' :: cs ++ ['"']).dropWhile (· = '"') = (cs ++ ['"']).dropWhile (· = '"') :=
    List.dropWhile_cons_of_pos (by simp)
  cases cs with
  | nil => rfl
  | cons c cs =>
      have hc : c ≠ '"' := fun heq => h (heq ▸ List.mem_cons_self)
      have hkept : (c :: cs ++ ['"']).dropWhile (· = '"') = c :: cs ++ ['"'] :=
        List.dropWhile_cons_of_neg (by simpa using hc)
      rw [unquote, hlead, hkept, List.reverse_append, List.dropWhile_append_of_pos (by simp),
        hstart _ (by simpa [and_comm] using h), List.reverse_reverse]

theorem Legible.quote_not_mem {key : String} (h : Legible key) : '"' ∉ key.toList :=
  fun hm => h.plain _ hm (by simp)

/-- What the line of a field that is listed by its key is taken for. The key is taken as it is
written, up to the first `: ` in it, and what follows there goes with the type. -/
def listing (field : Field) : String × String :=
  match cutAtColon (Quoting.literal field.name).toList with
  | none => (String.ofList (unquote (Quoting.literal field.name).toList), field.type.render)
  | some (key, rest) =>
    (String.ofList (unquote key),
      String.ofList (withoutRequired (rest ++ ':' :: ' ' :: field.typeText.toList)))

theorem cutAtColon_listing (field : Field) :
    (cutAtColon ((Quoting.literal field.name).toList ++ ':' :: ' ' :: field.typeText.toList)).map
      (fun (key, type) => (String.ofList (unquote key), String.ofList (withoutRequired type))) =
        some (listing field) := by
  unfold listing
  cases hcut : cutAtColon (Quoting.literal field.name).toList with
  | none =>
      rw [cutAtColon_append hcut (by decide)]
      simp [cutAtColon, withoutRequired_typeText]
  | some found =>
      rw [cutAtColon_append_of_some hcut]
      rfl

/-- A literal goes on behind its first quote with something other than a quote, or with the last
one. -/
theorem afterChars?_literal (name : String) {c : Char} (hc : c ≠ '"') (rest : List Char) :
    Text.afterChars? "\"\"\"".toList ((Quoting.literal name).toList ++ c :: rest) = none := by
  rw [Quoting.literal, Quoting.quoted, String.toList_ofList]
  cases name.toList with
  | nil => simp [Text.afterChars?, hc.symm]
  | cons d ds =>
      obtain ⟨e, es, hpiece, he⟩ : ∃ e es, Quoting.escapeChar '"' d = e :: es ∧ '"' ≠ e := by
        unfold Quoting.escapeChar
        split_ifs with h₁ h₂ h₃ h₄ h₅
        all_goals first | exact ⟨_, _, rfl, by decide⟩ | exact ⟨_, _, rfl, Ne.symm h₅⟩
      simp [hpiece, Text.afterChars?, he]

/-- What is read of the line of such a field. -/
theorem field?_keyedLine (field : Field) :
    field? true (keyedLine field).toList = some (listing field) := by
  let text := Quoting.literal field.name ++ ": " ++ field.typeText ++ ","
  let entry := (Quoting.literal field.name).toList ++ ':' :: ' ' :: field.typeText.toList
  have hline : keyedLine field = "    " ++ text := by simp [keyedLine, text, String.append_assoc]
  have htext : text.toList = entry ++ [','] := by simp [text, entry]
  obtain ⟨cs, hfirst⟩ : ∃ cs, text.toList = '"' :: cs := by
    rw [htext]
    simp [entry, Quoting.literal, Quoting.quoted]
  have hdoc : Text.afterChars? "\"\"\"".toList text.toList = none := by
    have hbehind : text.toList = (Quoting.literal field.name).toList ++
        ':' :: (' ' :: field.typeText.toList ++ [',']) := by simp [htext, entry]
    rw [hbehind]
    exact afterChars?_literal field.name (by decide) _
  have hbefore : Text.beforeChars? [','] text.toList = some entry := by
    rw [htext, Text.beforeChars?, Text.afterChars?_eq_some_iff.mpr (by rw [List.reverse_append]),
      Option.map_some, List.reverse_reverse]
  have hloud : EndsLoud text := ⟨entry, ',', htext, by decide⟩
  rw [hline, field?_of_line hfirst (by decide) hloud hdoc (by decide), if_pos rfl, hbefore,
    Option.bind_some, Option.map_map, ← cutAtColon_listing]
  rfl

/-- A field that is listed by its key is read as it is, if the key is legible. -/
theorem Legible.listing {field : Field} (h : Legible field.name) :
    listing field = (field.name, field.type.render) := by
  have hcut : cutAtColon (Quoting.literal field.name).toList = none := by
    rw [h.literal, List.cons_append, cutAtColon, cutAtColon_append h.whole (by decide)]
    · rfl
    · exact fun _ heq => absurd heq (by decide)
  rw [Row.listing, hcut]
  dsimp only
  rw [h.literal, unquote_quoted h.quote_not_mem, String.ofList_toList]

/-! ### The documentation of a class -/

/-- What a line behind the first one of a documentation is taken for: if there is a `: ` in it, the
annotation of a column, unless it looks like a comment. -/
def remark? (line : String) : Option (String × String) :=
  let body := Text.trimChars line.toList
  if body.head? = some '#' then none
  else (cutAtColon body).map fun (key, type) =>
    (String.ofList key, String.ofList (withoutRequired type))

/-- The lines of a documentation behind the first one, the last of them with the quotes that close
it. -/
def furtherLines (doc : String) : List String :=
  (Text.split '\n' (Quoting.docstring (Text.trim doc) ++ " \"\"\"")).tail

/-- What a documentation is taken for. -/
def remarks (doc : String) : List (String × String) := (furtherLines doc).filterMap remark?

/-- The lines of a documentation in a class are its own, indented. -/
theorem split_docLine (doc : String) : ∃ first, Text.split '\n' (Declaration.docLine doc) =
    ("    \"\"\" " ++ first) :: (furtherLines doc).map ("    " ++ ·) := by
  obtain ⟨front, last, hsplit, happend⟩ := Text.split_append_of_not_mem
    (Quoting.docstring (Text.trim doc)) (show '\n' ∉ " \"\"\"".toList by decide)
  obtain ⟨first, rest, hlines⟩ :=
    List.exists_cons_of_ne_nil (List.concat_ne_nil (last ++ " \"\"\"") front)
  have hfree : ∀ line ∈ first :: rest, '\n' ∉ line.toList := fun line hm =>
    Text.not_mem_of_mem_split (happend ▸ hlines ▸ hm)
  have hdoc : Declaration.docLine doc =
      "    \"\"\" " ++ Text.join (String.singleton '\n' ++ "    ") (first :: rest) := by
    rw [← hlines, Text.join_concat_append, Declaration.docLine, Quoting.indentContinuation, hsplit,
      String.append_assoc]
    rfl
  refine ⟨first, ?_⟩
  rw [hdoc, Text.split_join_indented hfree (by decide) (by decide), furtherLines, happend, hlines,
    List.tail_cons]

/-- The line that a documentation begins with is not read. -/
theorem field?_firstLine (first : String) :
    field? false ("    \"\"\" " ++ first).toList = none := by
  have hline : ("    \"\"\" " ++ first).toList =
      "    ".toList ++ '"' :: '"' :: '"' :: ' ' :: first.toList := by simp
  unfold field?
  rw [hline, Text.trimChars_append (List.all_eq_true.mp (by decide)) (by decide),
    Text.trimEndChars_cons (by decide), Text.trimEndChars_cons (by decide)]
  simp [Text.afterChars?]

/-- No further line begins with quotes but the one that has nothing else. -/
theorem trimChars_furtherLine {doc : String} (hm : line ∈ furtherLines doc) :
    (Text.trimChars line.toList).head? ≠ some '"' ∨
      Text.trimChars line.toList = "\"\"\"".toList := by
  obtain ⟨front, last, hsplit, happend⟩ := Text.split_append_of_not_mem
    (Quoting.docstring (Text.trim doc)) (show '\n' ∉ " \"\"\"".toList by decide)
  -- documentation has no quotes left, so only the closing ones can begin a line
  have hfree : ∀ line ∈ front ++ [last], '"' ∉ line.toList := by
    intro line hm hquote
    obtain ⟨piece, hpiece, rfl⟩ := List.mem_map.mp (hsplit ▸ hm)
    rw [String.toList_ofList] at hquote
    exact Quoting.not_mem_docstring _ (Text.subset_of_mem_splitChars hpiece hquote)
  rw [furtherLines, happend] at hm
  rcases List.mem_append.mp (List.mem_of_mem_tail hm) with hm | hm
  · refine .inl fun hhead => hfree line (List.mem_append_left _ hm) ?_
    exact Text.trimChars_subset _ (List.mem_of_mem_head? hhead)
  · rw [List.mem_singleton.mp hm, String.toList_append]
    by_cases hblank : ∀ c ∈ last.toList, Text.isBlank c = true
    · right
      rw [Text.trimChars_blank_append hblank]
      decide
    · left
      have hne : last.toList.dropWhile Text.isBlank ≠ [] := fun hnil =>
        hblank (List.dropWhile_eq_nil_iff.mp hnil)
      obtain ⟨c, cs, hdrop⟩ := List.exists_cons_of_ne_nil hne
      have hc : Text.isBlank c = false := by
        have hhead := List.head_dropWhile_not Text.isBlank hne
        simpa only [hdrop, List.head_cons] using hhead
      have hlast : last.toList = last.toList.takeWhile Text.isBlank ++ c :: cs := by
        rw [← hdrop, List.takeWhile_append_dropWhile]
      have hquote : c ≠ '"' := fun heq => hfree last (by simp) (by rw [hlast, heq]; simp)
      rw [hlast, List.append_assoc, List.cons_append,
        Text.trimChars_append (fun b hb => List.mem_takeWhile_imp hb) hc, List.head?_cons]
      simpa using hquote

/-- What a text inside a class is taken for, line for line. -/
def told (text : String) : List (String × String) :=
  (Text.split '\n' text).filterMap fun line => field? false line.toList

theorem mem_told {text : String} {said : String × String} :
    said ∈ told text ↔ ∃ line ∈ Text.split '\n' text, field? false line.toList = some said :=
  List.mem_filterMap

theorem told_empty : told "" = [] := by
  rw [told, Text.split_of_not_mem (by decide), List.filterMap_cons,
    field?_of_isBlankText false (by decide), List.filterMap_nil]

/-- **A documentation is taken for what its further lines are taken for.** -/
theorem told_docLine (doc : String) : told (Declaration.docLine doc) = remarks doc := by
  obtain ⟨first, hlines⟩ := split_docLine doc
  have hfurther : ∀ line ∈ furtherLines doc,
      field? false ("    " ++ line).toList = remark? line := by
    intro line hm
    unfold field? remark?
    rw [String.toList_append, Text.trimChars_blank_append (List.all_eq_true.mp (by decide))]
    rcases trimChars_furtherLine hm with hhead | hbody
    · cases hbody : Text.trimChars line.toList with
      | nil => rfl
      | cons c cs =>
          have hquote : '"' ≠ c := fun heq => hhead (by rw [hbody, heq]; rfl)
          by_cases hmark : c = '#'
          · simp [Text.afterChars?, hmark]
          · simp [Text.afterChars?, hquote, hmark, Ne.symm hmark]
    · rw [hbody]
      rfl
  rw [told, hlines, List.filterMap_cons, field?_firstLine, List.filterMap_map, remarks]
  exact List.filterMap_congr hfurther

theorem remarks_of_oneLine {doc : String} (h : OneLine doc) : remarks doc = [] := by
  have hquoted : OneLine (Quoting.docstring (Text.trim doc)) := fun hm =>
    (Declaration.mem_docstring_trim hm).elim (by decide) h
  rw [remarks, furtherLines, Declaration.split_of_oneLine (hquoted.append (by decide))]
  rfl

/-- No line of a documentation is read as a field of one of the columns. -/
def Unread (columns : List String) (doc : String) : Prop :=
  ∀ line ∈ Text.split '\n' (Declaration.docLine doc), ∀ entry,
    field? false line.toList = some entry → entry.1 ∉ columns

theorem not_mem_of_unread {columns : List String} {doc : String} (h : Unread columns doc) :
    ∀ said ∈ remarks doc, said.1 ∉ columns := by
  intro said hm
  rw [← told_docLine] at hm
  obtain ⟨line, hline, hsaid⟩ := mem_told.mp hm
  exact h line hline said hsaid

/-- A documentation of one line is not read. -/
theorem unread_of_oneLine (columns : List String) {doc : String} (h : OneLine doc) :
    Unread columns doc := by
  intro line hm entry hentry
  have hsaid : entry ∈ told (Declaration.docLine doc) := mem_told.mpr ⟨line, hm, hentry⟩
  rw [told_docLine, remarks_of_oneLine h] at hsaid
  exact absurd hsaid List.not_mem_nil

/-! ### The fields of a record -/

/-- What a field says of its column. -/
def entry (field : Field) : String × String := (field.name, field.type.render)

/-- What a class is taken to say of columns, in the order of its lines. -/
def sayings (doc : Option String) (fields : List Field) : List (String × String) :=
  doc.toList.flatMap remarks ++
    fields.flatMap fun field => entry field :: field.doc.toList.flatMap remarks

/-- What a record is taken to say of columns. -/
def heard (doc : Option String) (fields : List Field) : List (String × String) :=
  if Declaration.fitsClass fields then sayings doc fields else fields.map listing

theorem mem_sayings (name : String) {doc : Option String} {fields : List Field}
    {said : String × String} :
    said ∈ sayings doc fields ↔ (∃ field ∈ fields, said = entry field) ∨
      ∃ text ∈ (Declaration.record name doc fields).docs, said ∈ remarks text := by
  simp only [sayings, Declaration.docs, List.mem_append, List.mem_flatMap, List.mem_cons]
  constructor
  · rintro (⟨text, htext, hm⟩ | ⟨field, hfield, heq | ⟨text, htext, hm⟩⟩)
    · exact .inr ⟨text, .inl htext, hm⟩
    · exact .inl ⟨field, hfield, heq⟩
    · exact .inr ⟨text, .inr ⟨field, hfield, htext⟩, hm⟩
  · rintro (⟨field, hfield, heq⟩ | ⟨text, htext | ⟨field, hfield, htext⟩, hm⟩)
    · exact .inr ⟨field, hfield, .inl heq⟩
    · exact .inl ⟨text, htext, hm⟩
    · exact .inr ⟨field, hfield, .inr ⟨text, htext, hm⟩⟩

theorem entry_mem_sayings (doc : Option String) {fields : List Field} {field : Field}
    (hm : field ∈ fields) : entry field ∈ sayings doc fields :=
  List.mem_append_right _ (List.mem_flatMap.mpr ⟨field, hm, List.mem_cons_self⟩)

/-- The lines of a record, as they are read: comments, the line that begins it, the lines of its
fields and what documents them, and a closing bracket. What is read of the lines is given. -/
structure Reads (name : String) (entries : List (String × String)) (keyed : Bool)
    (comments : List String) (header : String) (inner rest : List String) : Prop where
  notes : ∀ line ∈ comments, IsComment line
  opens : (if keyed then name ++ " = TypedDict(" else "class " ++ name ++ "(").toList <+:
    header.toList
  inside : ∀ line ∈ inner, IsInside line
  closes : rest = [] ∨ rest = ["\x7d, total=False)"]
  entries : inner.filterMap (fun line => field? keyed line.toList) = entries

variable {entries : List (String × String)} {keyed : Bool} {comments inner rest : List String}
  {header : String}

theorem startsWith_iff {lead text : String} :
    Text.startsWith lead text = true ↔ lead.toList <+: text.toList := by
  rw [Text.startsWith, Text.after?, Option.isSome_map, Option.isSome_iff_exists]
  exact exists_congr fun rest => Text.afterChars?_eq_some_iff.trans eq_comm

/-- What a line begins with stays when a carriage return goes. -/
theorem prefix_withoutReturn {lead : List Char} (hlead : '\r' ∉ lead)
    (h : lead <+: line.toList) : lead <+: (withoutReturn line).toList := by
  obtain ⟨rest, hline⟩ := h
  rw [Declaration.withoutReturn_toList, ← hline, Text.dropReturn_append hlead]
  exact List.prefix_append _ _

theorem isInside_withoutReturn (h : IsInside line) : IsInside (withoutReturn line) := by
  refine h.imp (fun h => ?_) fun h => ?_
  · exact startsWith_iff.mpr (prefix_withoutReturn (by decide) (startsWith_iff.mp h))
  · refine List.all_eq_true.mpr fun c hm => List.all_eq_true.mp h c ?_
    rw [Declaration.withoutReturn_toList] at hm
    exact Text.dropReturn_subset _ hm

/-- Carriage returns make no difference. -/
theorem Reads.withoutReturn (h : Reads name entries keyed comments header inner rest)
    (hname : Tidy name) : Reads name entries keyed (comments.map withoutReturn)
      (withoutReturn header) (inner.map withoutReturn) (rest.map withoutReturn) where
  notes line hm := by
    obtain ⟨whole, hwhole, rfl⟩ := List.mem_map.mp hm
    obtain ⟨text, htext⟩ := h.notes whole hwhole
    obtain ⟨text, htext⟩ := @prefix_withoutReturn whole ['#'] (by decide) ⟨text, htext.symm⟩
    exact ⟨text, htext.symm⟩
  opens := by
    have hreturn := hname.not_mem (c := '\r') (by decide)
    refine prefix_withoutReturn ?_ h.opens
    split <;> simp [hreturn]
  inside line hm := by
    obtain ⟨whole, hwhole, rfl⟩ := List.mem_map.mp hm
    exact isInside_withoutReturn (h.inside whole hwhole)
  closes := h.closes.imp (fun h => by rw [h]; rfl) fun h => by rw [h]; rfl
  entries := by
    rw [List.filterMap_map, ← h.entries]
    refine List.filterMap_congr fun line _ => ?_
    rw [Function.comp_apply, field?_withoutReturn]

/-- The fields of a row are read behind the line that begins it. -/
theorem fields_of_reads (h : Reads name entries keyed comments header inner rest)
    (hname : Tidy name) {source : String} {front : List String}
    (hlines : Text.lines source = front ++ comments ++ header :: (inner ++ rest))
    (hfront : ∀ line ∈ front, ¬ Begins name line.toList) :
    Row.fields source name = putAll [] entries := by
  have hbegins : ∀ line, (Text.startsWith ("class " ++ name ++ "(") line ||
      Text.startsWith (name ++ " = TypedDict(") line) = true → Begins name line.toList := by
    intro line hline
    rcases Bool.or_eq_true _ _ ▸ hline with hclass | hkeyed
    · exact ⟨_, by simp, startsWith_iff.mp hclass⟩
    · obtain ⟨behind, hbehind⟩ := startsWith_iff.mp hkeyed
      exact ⟨name ++ " = ", by simp, "TypedDict(".toList ++ behind, by simpa using hbehind⟩
  -- no line in front begins the row, so reading starts at its header
  have hskip : ∀ line ∈ front ++ comments, (!(Text.startsWith ("class " ++ name ++ "(") line ||
      Text.startsWith (name ++ " = TypedDict(") line)) = true := by
    intro line hm
    rw [Bool.not_eq_true', Bool.eq_false_iff]
    intro hline
    rcases List.mem_append.mp hm with hm | hm
    · exact hfront line hm (hbegins line hline)
    · exact not_begins_of_continues hname (.inr (h.notes line hm)) (hbegins line hline)
  -- the header tells which of the two forms follows
  have hkeyed : Text.startsWith (name ++ " = TypedDict(") header = keyed := by
    have hheader := h.opens
    cases keyed with
    | true => exact startsWith_iff.mpr hheader
    | false =>
        refine Bool.eq_false_iff.mpr fun hstart => ?_
        obtain ⟨behind, hclass⟩ := hheader
        obtain ⟨behind', hcall⟩ := startsWith_iff.mp hstart
        refine class_ne_assignment hname hname behind (" TypedDict(".toList ++ behind') ?_
        simpa using hclass.trans hcall.symm
  have hfound : (!(Text.startsWith ("class " ++ name ++ "(") header ||
      Text.startsWith (name ++ " = TypedDict(") header)) = false := by
    rw [Bool.not_eq_false', Bool.or_eq_true]
    have hheader := h.opens
    cases keyed with
    | true => exact .inr hkeyed
    | false => exact .inl (startsWith_iff.mpr hheader)
  have hrest : ∀ read, fieldsFrom keyed read rest = read := by
    intro read
    rcases h.closes with rfl | rfl <;> rfl
  unfold Row.fields
  dsimp only
  rw [hlines, List.dropWhile_append_of_pos hskip, List.dropWhile_cons_of_neg (by simp [hfound])]
  dsimp only
  rw [hkeyed, fieldsFrom_append h.inside, hrest, h.entries]

/-! ### The lines of a record -/

theorem dropTrailingEmpty_append (lines : List String) :
    ∃ empty, lines = Declaration.dropTrailingEmpty lines ++ empty ∧ ∀ line ∈ empty, line = "" := by
  refine ⟨(lines.reverse.takeWhile fun line => line.isEmpty).reverse, ?_, fun line hm => ?_⟩
  · rw [Declaration.dropTrailingEmpty, ← List.reverse_append, List.takeWhile_append_dropWhile,
      List.reverse_reverse]
  · have hempty := List.all_eq_true.mp List.all_takeWhile line (List.mem_reverse.mp hm)
    exact String.isEmpty_iff.mp hempty

/-- Behind its first line a class has the lines of its fields and what documents it and them, but
for empty ones at the end. -/
theorem exists_classBody (name : String) (doc : Option String) (fields : List Field) :
    ∃ body empty, Declaration.classLines name doc fields =
        ("class " ++ name ++ "(TypedDict, total=False):") :: body ∧
      classInner doc fields = body ++ empty ∧ ∀ line ∈ empty, line = "" := by
  let header := "class " ++ name ++ "(TypedDict, total=False):"
  have hclass : Declaration.classLines name doc fields =
      Declaration.dropTrailingEmpty (header :: classInner doc fields) := by
    unfold Declaration.classLines classInner
    cases doc <;> rfl
  obtain ⟨body, hbody⟩ := Declaration.dropTrailingEmpty_cons (show header.isEmpty = false by
    simp [header]) (classInner doc fields)
  obtain ⟨empty, happend, hempty⟩ := dropTrailingEmpty_append (header :: classInner doc fields)
  rw [hbody, List.cons_append] at happend
  exact ⟨body, empty, hclass.trans hbody, (List.cons.inj happend).2, hempty⟩

theorem oneLine_classLine {field : Field} (hname : Identifier.isFieldName field.name = true)
    (htype : field.type.Proper OneLine) : OneLine (classLine field) :=
  ((oneLine_of_isFieldName hname).between (by decide) (by decide)).append (oneLine_typeText htype)

/-- The lines below the first one of a class are further in or empty. -/
theorem isInside_classInner (doc : Option String) {fields : List Field}
    (hfits : Declaration.fitsClass fields = true)
    (htypes : ∀ field ∈ fields, field.type.Proper OneLine) :
    ∀ line ∈ (classInner doc fields).flatMap (Text.split '\n'), IsInside line := by
  have hempty : ∀ line ∈ Text.split '\n' "", IsInside line := fun line hm =>
    .inr (List.mem_singleton.mp hm ▸ (by decide))
  -- each line of documentation is written further in
  have hdoc : ∀ text, ∀ line ∈ Text.split '\n' (Declaration.docLine text), IsInside line := by
    intro text line hm
    obtain ⟨first, hlines⟩ := split_docLine text
    refine .inl (startsWith_iff.mpr ?_)
    rcases List.mem_cons.mp (hlines ▸ hm) with rfl | hm
    · exact ⟨("\"\"\" " ++ first).toList, by simp⟩
    · obtain ⟨further, -, rfl⟩ := List.mem_map.mp hm
      exact ⟨further.toList, by simp⟩
  intro line hm
  obtain ⟨piece, hpiece, hm⟩ := List.mem_flatMap.mp hm
  rcases List.mem_append.mp hpiece with hpiece | hpiece
  · obtain ⟨text, -, hpiece⟩ := List.mem_flatMap.mp hpiece
    simp only [List.mem_cons, List.not_mem_nil, or_false] at hpiece
    rcases hpiece with rfl | rfl
    · exact hdoc text line hm
    · exact hempty line hm
  · obtain ⟨field, hfield, hpiece⟩ := List.mem_flatMap.mp hpiece
    simp only [Declaration.classField, List.mem_append, List.mem_singleton, Option.mem_toList,
      Option.map_eq_some_iff] at hpiece
    rcases hpiece with (rfl | ⟨text, -, rfl⟩) | rfl
    · have hone := oneLine_classLine (List.all_eq_true.mp hfits field hfield) (htypes field hfield)
      rw [show "    " ++ field.name ++ ": " ++ field.typeText = classLine field from rfl,
        Declaration.split_of_oneLine hone, List.mem_singleton] at hm
      exact .inl (startsWith_iff.mpr ⟨(field.name ++ ": " ++ field.typeText).toList, by
        simp [hm, classLine]⟩)
    · exact hdoc text line hm
    · exact hempty line hm

theorem told_classLine {field : Field} (hname : Identifier.isFieldName field.name = true)
    (htype : field.type.Proper OneLine) : told (classLine field) = [entry field] := by
  rw [told, Declaration.split_of_oneLine (oneLine_classLine hname htype), List.filterMap_cons,
    field?_classLine hname, List.filterMap_nil]
  rfl

/-- **A class is taken for what its fields say, and for what its documentation is taken for.** -/
theorem flatMap_told {doc : Option String} {fields : List Field}
    (hfits : Declaration.fitsClass fields = true)
    (htypes : ∀ field ∈ fields, field.type.Proper OneLine) :
    (classInner doc fields).flatMap told = sayings doc fields := by
  have hfield : ∀ field ∈ fields, (Declaration.classField field).flatMap told =
      entry field :: field.doc.toList.flatMap remarks := by
    intro field hm
    have hline := told_classLine (List.all_eq_true.mp hfits field hm) (htypes field hm)
    unfold classLine at hline
    cases hdoc : field.doc with
    | none => simp [Declaration.classField, hdoc, hline, told_empty]
    | some text => simp [Declaration.classField, hdoc, hline, told_docLine, told_empty]
  have hdoc : (doc.toList.flatMap fun text => [Declaration.docLine text, ""]).flatMap told =
      doc.toList.flatMap remarks := by
    cases doc with
    | none => simp
    | some text => simp [told_docLine, told_empty]
  rw [classInner, List.flatMap_append, hdoc, List.flatMap_assoc, List.flatMap_congr hfield, sayings]

/-- A record that is written as a class is read as what it is taken to say. -/
theorem exists_reads_class (doc : Option String) {fields : List Field} (hname : Tidy name)
    (hfits : Declaration.fitsClass fields = true)
    (htypes : ∀ field ∈ fields, field.type.Proper OneLine) :
    ∃ header inner, Text.split '\n' (Declaration.record name doc fields).render =
        [] ++ header :: (inner ++ []) ∧
      Reads name (sayings doc fields) false [] header inner [] := by
  obtain ⟨body, empty, hlines, hinner, hempty⟩ := exists_classBody name doc fields
  have hfirst : OneLine ("class " ++ name ++ "(TypedDict, total=False):") :=
    (Tidy.oneLine name hname).between (by decide) (by decide)
  -- the empty lines at the end say nothing
  have hsays : body.flatMap told = sayings doc fields := by
    have hnone : empty.flatMap told = [] := List.flatMap_eq_nil_iff.mpr fun line hm => by
      rw [hempty line hm, told_empty]
    rw [← flatMap_told hfits htypes, hinner, List.flatMap_append, hnone, List.append_nil]
  refine ⟨"class " ++ name ++ "(TypedDict, total=False):", body.flatMap (Text.split '\n'), ?_, ?_⟩
  · rw [Declaration.render, if_pos hfits, hlines, Declaration.split_join_lines
      (List.cons_ne_nil _ _), List.flatMap_cons, Declaration.split_of_oneLine hfirst,
      List.append_nil]
    rfl
  · constructor
    case notes => simp
    case opens => exact ⟨"TypedDict, total=False):".toList, by simp⟩
    case closes => exact .inl rfl
    case inside =>
      intro line hm
      refine isInside_classInner doc hfits htypes line ?_
      rw [hinner, List.flatMap_append]
      exact List.mem_append_left _ hm
    case entries => rw [← hsays, List.filterMap_flatMap]; rfl

/-- A comment is not read. -/
theorem field?_of_comment (keyed : Bool) (text : String) :
    field? keyed ("    # " ++ Quoting.comment text).toList = none := by
  have hline : ("    # " ++ Quoting.comment text).toList =
      "    ".toList ++ '#' :: ' ' :: (Quoting.comment text).toList := by simp
  unfold field?
  rw [hline, Text.trimChars_append (List.all_eq_true.mp (by decide)) (by decide)]
  simp [Text.afterChars?]

/-- The lines of a field that is listed by its key are a comment, which is not read, and one that is
taken for the field. -/
theorem filterMap_keyedField (field : Field) :
    (Declaration.keyedField field).filterMap (fun line => field? true line.toList) =
      [listing field] := by
  have hline := field?_keyedLine field
  unfold keyedLine at hline
  have hcomment : (field.doc.map fun doc => "    # " ++ Quoting.comment doc).toList.filterMap
      (fun line => field? true line.toList) = [] := by
    cases field.doc with
    | none => rfl
    | some text =>
        rw [Option.map_some, Option.toList_some, List.filterMap_cons, field?_of_comment,
          List.filterMap_nil]
  rw [Declaration.keyedField, List.filterMap_append, hcomment, List.nil_append,
    List.filterMap_cons, hline, List.filterMap_nil]

/-- A record that lists its keys is read as what its lines are taken for. -/
theorem exists_reads_keyed (doc : Option String) {fields : List Field} (hname : Tidy name)
    (hfits : Declaration.fitsClass fields = false)
    (htypes : ∀ field ∈ fields, field.type.Proper OneLine) :
    ∃ comments header inner rest, Text.split '\n' (Declaration.record name doc fields).render =
        comments ++ header :: (inner ++ rest) ∧
      Reads name (fields.map listing) true comments header inner rest := by
  let comments := (doc.map fun text => "# " ++ Quoting.comment text).toList
  let call := name ++ " = TypedDict(" ++ Quoting.literal name ++ ", \x7b"
  let inner := fields.flatMap Declaration.keyedField
  -- comments first, then the line that opens the call, the keys, and the line that closes it
  have hpieces : Declaration.keyedLines name doc fields =
      comments ++ call :: (inner ++ ["\x7d, total=False)"]) := by
    simp [Declaration.keyedLines, comments, call, inner]
  refine ⟨comments, call, inner, ["\x7d, total=False)"], ?_, ?_⟩
  · rw [Declaration.render, if_neg (by simp [hfits]), Declaration.split_join_of_oneLine
      (by simp [Declaration.keyedLines])
      (Declaration.oneLine_keyedLines (Tidy.oneLine name hname) doc htypes), hpieces]
  · constructor
    case notes =>
      intro line hm
      obtain ⟨text, -, rfl⟩ := Option.map_eq_some_iff.mp (Option.mem_toList.mp hm)
      exact ⟨' ' :: (Quoting.comment text).toList, by simp⟩
    case opens => exact ⟨(Quoting.literal name ++ ", \x7b").toList, by simp [call]⟩
    case closes => exact .inr rfl
    case inside =>
      intro line hm
      obtain ⟨field, -, hm⟩ := List.mem_flatMap.mp hm
      simp only [Declaration.keyedField, List.mem_append, List.mem_singleton, Option.mem_toList,
        Option.map_eq_some_iff] at hm
      rcases hm with ⟨text, -, rfl⟩ | rfl
      · exact .inl (startsWith_iff.mpr ⟨("# " ++ Quoting.comment text).toList, by simp⟩)
      · exact .inl (startsWith_iff.mpr
          ⟨(Quoting.literal field.name ++ ": " ++ field.typeText ++ ",").toList, by simp⟩)
    case entries =>
      rw [List.filterMap_flatMap, List.flatMap_congr fun field _ => filterMap_keyedField field,
        List.map_eq_flatMap]

/-- A record is laid out to be read as what it is taken to say, as a class or as a call. -/
theorem exists_reads {row : String} {fields : List Field} (doc : Option String) (hrow : Tidy row)
    (htypes : ∀ field ∈ fields, field.type.Proper OneLine) :
    ∃ keyed comments header inner rest,
      Text.split '\n' (Declaration.record row doc fields).render =
        comments ++ header :: (inner ++ rest) ∧
      Reads row (heard doc fields) keyed comments header inner rest := by
  unfold heard
  cases hfits : Declaration.fitsClass fields with
  | true =>
      obtain ⟨header, inner, hlines, hreads⟩ := exists_reads_class doc hrow hfits htypes
      exact ⟨false, _, _, _, _, hlines, hreads⟩
  | false =>
      obtain ⟨comments, header, inner, rest, hlines, hreads⟩ :=
        exists_reads_keyed doc hrow hfits htypes
      exact ⟨true, _, _, _, _, hlines, hreads⟩

/-- No line of another declaration begins a row. -/
theorem not_begins_of_other {row line : String} {d : Declaration} (hrow : Tidy row)
    (hd : d.Proper Tidy) (hne : d.name ≠ row) (hline : line ∈ Text.split '\n' d.render) :
    ¬ Begins row (withoutReturn (withoutReturn line)).toList := by
  rcases Declaration.kind_withoutReturn hd.name
    (Declaration.kind_withoutReturn hd.name (kinds_of_line hd hline)) with hinside | hbegins
  · exact not_begins_of_continues hrow hinside
  · exact fun h => hne (begins_unique hd.name hrow hbegins h)

/-- **A record is read as what it is taken to say,** stored in turn. -/
theorem fields_linesOf {row : String} {doc : Option String} {fields : List Field}
    {others : List Declaration} (hblocks : blocks = others ++ [.record row doc fields])
    (hproper : ∀ d ∈ blocks, d.Proper Tidy) (hdistinct : (blocks.map Declaration.name).Nodup) :
    Row.fields (Text.join "\n" (linesOf blocks)) row = putAll [] (heard doc fields) := by
  have hrecord := hproper (.record row doc fields) (by simp [hblocks])
  obtain ⟨keyed, comments, header, inner, rest, hlines, hreads⟩ :=
    exists_reads doc hrecord.1 fun field hm =>
      TypeExpr.Proper.mono Tidy.oneLine (hrecord.2 field hm)
  obtain ⟨front, hspread, -, hfront⟩ := DefinitionSet.spread_concat
    (others.map fun d => Text.split '\n' d.render)
    (Text.split '\n' (Declaration.record row doc fields).render)
  have hreads := (hreads.withoutReturn hrecord.1).withoutReturn hrecord.1
  have hread := lines_declarations (by simp [hblocks]) hproper
  have hlayout : Text.lines (Text.join "\n" (linesOf blocks)) =
      (front.map withoutReturn).map withoutReturn ++
        (comments.map withoutReturn).map withoutReturn ++
        withoutReturn (withoutReturn header) :: ((inner.map withoutReturn).map withoutReturn ++
          (rest.map withoutReturn).map withoutReturn) := by
    rw [hread, hblocks, linesOf, List.map_append, List.map_singleton, hspread, hlines]
    simp
  refine fields_of_reads hreads hrecord.1 hlayout fun line hm => ?_
  -- in front there are only lines of other declarations
  simp only [List.map_map, List.mem_map] at hm
  obtain ⟨whole, hwhole, rfl⟩ := hm
  obtain rfl | ⟨sheet, hsheet, hline⟩ := hfront whole hwhole
  · exact not_begins_of_continues hrecord.1 (.inl (.inl rfl))
  · obtain ⟨d, hd, rfl⟩ := List.mem_map.mp hsheet
    have hne : d.name ≠ row := by
      rintro rfl
      rw [hblocks, List.map_append] at hdistinct
      exact List.disjoint_of_nodup_append hdistinct (List.mem_map_of_mem hd) (by
        simp [Declaration.name])
    exact not_begins_of_other hrecord.1 (hproper d (by simp [hblocks, hd])) hne hline

/-- **Each column of a row is read with the type that the engine gave it,** if its keys are legible
and no documentation is read as a field. -/
theorem lookup_fields {row : String} {doc : Option String} {fields : List Field}
    {others : List Declaration} (hblocks : blocks = others ++ [.record row doc fields])
    (hproper : ∀ d ∈ blocks, d.Proper Tidy) (hdistinct : (blocks.map Declaration.name).Nodup)
    (hkeys : ∀ field ∈ fields, Legible field.name) (hnodup : (fields.map Field.name).Nodup)
    (hdocs : ∀ text ∈ (Declaration.record row doc fields).docs,
      Unread (fields.map Field.name) text) {field : Field} (hm : field ∈ fields) :
    (Row.fields (Text.join "\n" (linesOf blocks)) row).lookup field.name =
      some field.type.render := by
  -- what is heard under the name of a field comes from a field
  have hheard : ∀ said ∈ heard doc fields, (∃ found ∈ fields, said = entry found) ∨
      said.1 ∉ fields.map Field.name := by
    intro said hsaid
    unfold heard at hsaid
    split at hsaid
    · refine ((mem_sayings row).mp hsaid).imp_right fun ⟨text, htext, hsaid⟩ => ?_
      exact not_mem_of_unread (hdocs text htext) said hsaid
    · obtain ⟨found, hfound, rfl⟩ := List.mem_map.mp hsaid
      exact .inl ⟨found, hfound, (hkeys found hfound).listing⟩
  have hentry : entry field ∈ heard doc fields := by
    unfold heard
    split
    · exact entry_mem_sayings doc hm
    · exact List.mem_map.mpr ⟨field, hm, (hkeys field hm).listing⟩
  rw [fields_linesOf hblocks hproper hdistinct]
  refine lookup_putAll (.inr hentry) fun other hother => ?_
  rcases hheard _ hother with ⟨found, hfound, heq⟩ | hnone
  · obtain ⟨hname, rfl⟩ := Prod.mk.inj heq
    -- names of fields differ, so it comes from this one
    rw [List.inj_on_of_nodup_map hnodup hm hfound hname]
  · exact absurd (List.mem_map_of_mem hm) hnone

end Row

end StubGen
