import Mathlib.Data.List.TakeDrop
import StubGen.Proofs.Toml.Quotes
import StubGen.Toml.Reader

/-!
# Documents of plain entries

A document that is a line for each entry, a bare key and the spelling of a value, is read as the
table of these entries, if no two keys are the same: `parse?_document`. What spells a value has to
be read up to the line end behind it; texts, lists of texts and truth values are spelled so.
-/

namespace StubGen.Toml

variable {c : Char} {cs rest : List Char} {count : Nat}

/-! ## Blanks and line ends -/

/-- A character that something begins with, neither space nor a comment. -/
def Begins (c : Char) : Prop := isBlank c = false ∧ c ≠ '#' ∧ c ≠ '\n' ∧ c ≠ '\r'

instance (c : Char) : Decidable (Begins c) := inferInstanceAs (Decidable (_ ∧ _))

theorem skipBlanks_cons (h : isBlank c = false) : skipBlanks (c :: cs) = c :: cs :=
  List.dropWhile_cons_of_neg (by simp [h])

theorem skipComment?_cons (h : c ≠ '#') : skipComment? (c :: cs) = some (c :: cs) := by
  unfold skipComment?
  split
  · rename_i heq
    exact absurd (List.cons.inj heq).1 h
  · rfl

theorem lineEnd?_cons (hend : c ≠ '\n') (hreturn : c ≠ '\r') : lineEnd? (c :: cs) = none := by
  unfold lineEnd?
  split
  · rename_i heq
    exact absurd (List.cons.inj heq).1 hend
  · rename_i heq
    exact absurd (List.cons.inj heq).1 hreturn
  · rfl

theorem skipSpace?_begins (h : Begins c) (count : Nat) :
    skipSpace? count (c :: cs) = some (c :: cs) := by
  obtain ⟨hblank, hcomment, hend, hreturn⟩ := h
  cases count with
  | zero => rfl
  | succ count =>
      rw [skipSpace?, skipBlanks_cons hblank, skipComment?_cons hcomment]
      simp [lineEnd?_cons hend hreturn]

theorem skipSpace?_newline (cs : List Char) (count : Nat) :
    skipSpace? (count + 1) ('\n' :: cs) = skipSpace? count cs := by
  rw [skipSpace?, skipBlanks_cons (by decide), skipComment?_cons (by decide)]
  rfl

/-- Spaces in front of something do not count. -/
theorem skipSpace?_spaces (h : Begins c) (spaces count : Nat) :
    skipSpace? (count + 1) (List.replicate spaces ' ' ++ c :: cs) = some (c :: cs) := by
  obtain ⟨hblank, hcomment, hend, hreturn⟩ := h
  have hskip : skipBlanks (List.replicate spaces ' ' ++ c :: cs) = c :: cs := by
    rw [skipBlanks, List.dropWhile_append_of_pos (by simp [isBlank])]
    exact skipBlanks_cons hblank
  rw [skipSpace?, hskip, skipComment?_cons hcomment]
  simp [lineEnd?_cons hend hreturn]

/-! ## Values -/

/-- What may follow a value in a list or on a line. -/
def Ends (rest : List Char) : Prop := ∃ c cs, rest = c :: cs ∧ (c = ',' ∨ c = ']' ∨ c = '\n')

theorem Ends.ne_quote (h : Ends rest) : ∀ c ∈ rest.head?, c ≠ '"' ∧ c ≠ '\'' := by
  obtain ⟨first, cs, rfl, hfirst⟩ := h
  intro c hc
  obtain rfl := Option.some.inj hc
  rcases hfirst with rfl | rfl | rfl <;> decide

theorem readScalar?_quote {q : Char} (hq : q = '"' ∨ q = '\'') (cs : List Char) :
    readScalar? (q :: cs) =
      (readText? true (q :: cs)).map fun result => (.text result.1, result.2) := by
  rcases hq with rfl | rfl <;> rfl

theorem readValue?_quote {q : Char} (hq : q = '"' ∨ q = '\'') (cs : List Char) (depth : Nat) :
    readValue? depth (q :: cs) = readScalar? (q :: cs) := by
  cases depth with
  | zero => rfl
  | succ depth => rcases hq with rfl | rfl <;> rfl

/-- A text is read wherever a value may end. -/
theorem readValue?_renderText (text : String) (depth : Nat) (h : Ends rest) :
    readValue? depth ((renderText text).toList ++ rest) = some (.text text, rest) := by
  have hread := readText?_renderText text h.ne_quote
  obtain ⟨q, more, hmore, hq⟩ := renderText_first text
  rw [hmore, List.cons_append] at hread ⊢
  rw [readValue?_quote hq, readScalar?_quote hq, hread]
  rfl

theorem begins_of_quote {q : Char} (hq : q = '"' ∨ q = '\'') : Begins q := by
  rcases hq with rfl | rfl <;> decide

/-- Texts in rows, each indented and with a comma behind it. -/
def rows (texts : List String) : List Char :=
  texts.flatMap fun text => List.replicate 4 ' ' ++ (renderText text).toList ++ [',', '\n']

theorem length_le_flatMap {α : Type} {f : α → List Char} {items : List α}
    (h : ∀ item ∈ items, f item ≠ []) : items.length ≤ (items.flatMap f).length := by
  induction items with
  | nil => exact Nat.le_refl 0
  | cons item items ih =>
      have hitem := List.length_pos_iff.mpr (h item List.mem_cons_self)
      have hitems := ih fun other hm => h other (List.mem_cons_of_mem item hm)
      rw [List.flatMap_cons, List.length_append, List.length_cons]
      omega

section Items

variable {readItem : List Char → Option (Value × List Char)} {items : List Value} {value : Value}
  {more : List Char}

/-- An item with a comma behind it is read before the others. -/
theorem readItems?_comma (hskip : skipSpace? cs.length cs = some (c :: more)) (hc : c ≠ ']')
    (hread : readItem (c :: more) = some (value, ',' :: rest)) :
    readItems? readItem items (count + 1) cs =
      readItems? readItem (items ++ [value]) count rest := by
  rw [readItems?, hskip]
  simp [hc, hread, skipSpace?_begins (show Begins ',' by decide)]

/-- An item with a bracket behind it is the last one. -/
theorem readItems?_last (hskip : skipSpace? cs.length cs = some (c :: more)) (hc : c ≠ ']')
    (hread : readItem (c :: more) = some (value, ']' :: rest)) :
    readItems? readItem items (count + 1) cs = some (items ++ [value], rest) := by
  rw [readItems?, hskip]
  simp [hc, hread, skipSpace?_begins (show Begins ']' by decide)]

theorem readItems?_nil (hskip : skipSpace? cs.length cs = some (']' :: rest)) :
    readItems? readItem items (count + 1) cs = some (items, rest) := by
  rw [readItems?, hskip]
  rfl

end Items

theorem ne_bracket_of_quote {q : Char} (hq : q = '"' ∨ q = '\'') : q ≠ ']' := by
  rcases hq with rfl | rfl <;> decide

/-- Rows of texts are read one by one, up to the bracket behind them. -/
theorem readItems?_rows {texts : List String} {items : List Value} {depth : Nat}
    (hcount : texts.length < count) (rest : List Char) :
    readItems? (readValue? depth) items count ('\n' :: (rows texts ++ ']' :: rest)) =
      some (items ++ texts.map .text, rest) := by
  induction texts generalizing items count with
  | nil =>
      obtain ⟨count, rfl⟩ := Nat.exists_eq_add_one.mpr hcount
      have hskip : skipSpace? ('\n' :: (rows [] ++ ']' :: rest)).length
          ('\n' :: (rows [] ++ ']' :: rest)) = some (']' :: rest) := by
        rw [List.length_cons, skipSpace?_newline]
        exact skipSpace?_begins (by decide) _
      rw [readItems?_nil hskip, List.map_nil, List.append_nil]
  | cons text texts ih =>
      obtain ⟨count, rfl⟩ := Nat.exists_eq_add_one.mpr (Nat.zero_lt_of_lt hcount)
      -- behind the comma stands what the others are read from
      let behind := '\n' :: (rows texts ++ ']' :: rest)
      have hread := readValue?_renderText text depth
        (show Ends (',' :: behind) from ⟨_, _, rfl, .inl rfl⟩)
      obtain ⟨q, more, hmore, hq⟩ := renderText_first text
      have hrows : rows (text :: texts) ++ ']' :: rest =
          List.replicate 4 ' ' ++ q :: (more ++ ',' :: behind) := by
        simp [rows, hmore, behind]
      rw [hmore, List.cons_append] at hread
      have hskip : skipSpace? ('\n' :: (rows (text :: texts) ++ ']' :: rest)).length
          ('\n' :: (rows (text :: texts) ++ ']' :: rest)) =
            some (q :: (more ++ ',' :: behind)) := by
        rw [List.length_cons, skipSpace?_newline, hrows, List.length_append, List.length_cons,
          ← Nat.add_assoc]
        exact skipSpace?_spaces (begins_of_quote hq) 4 _
      rw [readItems?_comma hskip (ne_bracket_of_quote hq) hread,
        ih (Nat.lt_of_succ_lt_succ hcount), List.append_assoc]
      rfl

/-- What is between the brackets of a list of texts: two and more texts stand in rows. -/
def listBody : List String → List Char
  | [] => []
  | [text] => (renderText text).toList
  | texts => '\n' :: rows texts

/-- A list of texts is read wherever a value may end. -/
theorem readValue?_listBody (texts : List String) (depth : Nat) (rest : List Char) :
    readValue? (depth + 1) ('[' :: (listBody texts ++ ']' :: rest)) =
      some (.array (texts.map .text), rest) := by
  -- an empty list and a single text stand on one line, more texts one below the other
  have hitems : readItems? (readValue? depth) [] ((listBody texts ++ ']' :: rest).length + 1)
      (listBody texts ++ ']' :: rest) = some (texts.map .text, rest) := by
    match texts with
    | [] => exact readItems?_nil (skipSpace?_begins (by decide) _)
    | [text] =>
        have hread := readValue?_renderText text depth
          (show Ends (']' :: rest) from ⟨_, _, rfl, .inr (.inl rfl)⟩)
        obtain ⟨q, more, hmore, hq⟩ := renderText_first text
        rw [hmore, List.cons_append] at hread
        rw [listBody, hmore, List.cons_append]
        exact readItems?_last (skipSpace?_begins (begins_of_quote hq) _) (ne_bracket_of_quote hq)
          hread
    | first :: second :: texts =>
        have hrows : (first :: second :: texts).length ≤ (rows (first :: second :: texts)).length :=
          length_le_flatMap fun text _ => by simp
        refine readItems?_rows ?_ rest
        simp only [listBody, List.length_append, List.length_cons] at hrows ⊢
        omega
  rw [readValue?]
  exact congrArg _ hitems

/-! ## Entries -/

/-- An entry of a document, with the spelling of its value. -/
structure Entry where
  key : String
  spelling : List Char
  value : Value

/-- An entry on a line of its own. -/
def Entry.line (entry : Entry) : List Char :=
  entry.key.toList ++ ' ' :: '=' :: ' ' :: (entry.spelling ++ ['\n'])

theorem Entry.line_ne_nil (entry : Entry) : entry.line ≠ [] := by simp [Entry.line]

/-- What an entry stands for. -/
def Entry.binding (entry : Entry) : String × Value := (entry.key, entry.value)

/-- Characters that are read as a value up to the line end behind them. -/
structure IsSpelling (spelling : List Char) (value : Value) : Prop where
  first : ∃ c cs, spelling = c :: cs ∧ isBlank c = false
  read : ∀ rest, readValue? depthLimit (spelling ++ '\n' :: rest) = some (value, '\n' :: rest)

theorem isSpelling_text (text : String) : IsSpelling (renderText text).toList (.text text) := by
  obtain ⟨q, more, hmore, hq⟩ := renderText_first text
  exact ⟨⟨q, more, hmore, (begins_of_quote hq).1⟩, fun rest =>
    readValue?_renderText text depthLimit ⟨_, _, rfl, .inr (.inr rfl)⟩⟩

theorem isSpelling_texts (texts : List String) :
    IsSpelling ('[' :: (listBody texts ++ [']'])) (.array (texts.map .text)) := by
  refine ⟨⟨_, _, rfl, by decide⟩, fun rest => ?_⟩
  rw [List.cons_append, List.append_assoc]
  exact readValue?_listBody texts 79 ('\n' :: rest)

theorem isSpelling_boolean (value : Bool) :
    IsSpelling (if value then "true" else "false").toList (.boolean value) := by
  refine ⟨?_, fun rest => ?_⟩
  · cases value <;> exact ⟨_, _, rfl, by decide⟩
  · cases value <;> rfl

/-- An entry that is read from its line: the key needs no quotes, and the spelling is that of the
value. -/
structure Entry.IsSound (entry : Entry) : Prop where
  ne_nil : entry.key.toList ≠ []
  bare : ∀ c ∈ entry.key.toList, isBareKeyChar c = true
  spelling : IsSpelling entry.spelling entry.value

theorem begins_of_bare (h : isBareKeyChar c = true) : Begins c ∧ c ≠ '[' ∧ c ≠ '"' ∧ c ≠ '\'' := by
  refine ⟨⟨?_, ?_, ?_, ?_⟩, ?_, ?_, ?_⟩
  · rw [← Bool.not_eq_true]
    intro hblank
    simp only [isBlank, Bool.or_eq_true, decide_eq_true_eq] at hblank
    rcases hblank with rfl | rfl <;> exact absurd h (by decide)
  all_goals
    rintro rfl
    exact absurd h (by decide)

theorem span_bare (hbare : ∀ c ∈ cs, isBareKeyChar c = true) (rest : List Char) :
    (cs ++ ' ' :: rest).span isBareKeyChar = (cs, ' ' :: rest) := by
  have hspace : isBareKeyChar ' ' = false := by decide
  rw [List.span_eq_takeWhile_dropWhile, List.takeWhile_append_of_pos hbare,
    List.dropWhile_append_of_pos hbare]
  simp [hspace]

/-- A bare key is read up to the space behind it. -/
theorem readKeyPart?_bare (hne : cs ≠ []) (hbare : ∀ c ∈ cs, isBareKeyChar c = true)
    (rest : List Char) :
    readKeyPart? (cs ++ ' ' :: rest) = some (String.ofList cs, ' ' :: rest) := by
  obtain ⟨c, more, rfl⟩ := List.exists_cons_of_ne_nil hne
  obtain ⟨-, -, hdouble, hsingle⟩ := begins_of_bare (hbare c List.mem_cons_self)
  unfold readKeyPart?
  split
  · rename_i heq
    exact absurd (List.cons.inj heq).1 hdouble
  · rename_i heq
    exact absurd (List.cons.inj heq).1 hsingle
  · rw [span_bare hbare]
    rfl

/-- A bare key is read up to the equals sign behind it. -/
theorem readKey?_bare (hne : cs ≠ []) (hbare : ∀ c ∈ cs, isBareKeyChar c = true) (parts : Nat)
    (rest : List Char) :
    readKey? (parts + 1) (cs ++ ' ' :: '=' :: rest) = some ([String.ofList cs], '=' :: rest) := by
  have hskip : skipBlanks (cs ++ ' ' :: '=' :: rest) = cs ++ ' ' :: '=' :: rest := by
    obtain ⟨c, more, rfl⟩ := List.exists_cons_of_ne_nil hne
    exact skipBlanks_cons (begins_of_bare (hbare c List.mem_cons_self)).1.1
  rw [readKey?, hskip, readKeyPart?_bare hne hbare]
  rfl

/-- What an entry adds to a table in which its key is new. -/
theorem entry?_of_new {entries : Entries} {key : String} (hnew : key ∉ entries.map Prod.fst)
    (value : Value) :
    Reading.entry? ⟨entries, []⟩ [key] value = some ⟨entries ++ [(key, value)], []⟩ := by
  have hnone : entries.lookup key = none := by
    rw [List.lookup_eq_none_iff]
    intro entry hm
    rw [bne_iff_ne]
    rintro rfl
    exact hnew (List.mem_map_of_mem hm)
  unfold Reading.entry?
  simp [Entries.descend?, Entries.addAt?, Entries.addNew?, hnone]

theorem readStatement?_line {entry : Entry} (h : entry.IsSound) {entries : Entries}
    (hnew : entry.key ∉ entries.map Prod.fst) (rest : List Char) :
    readStatement? ⟨entries, []⟩ (entry.line ++ rest) =
      some (⟨entries ++ [entry.binding], []⟩, '\n' :: rest) := by
  obtain ⟨c, more, hspelling, hc⟩ := h.spelling.first
  have hline : entry.line ++ rest =
      entry.key.toList ++ ' ' :: '=' :: ' ' :: (entry.spelling ++ '\n' :: rest) := by
    simp [Entry.line]
  -- a bare key ends at the blank before the equals sign
  have hkey := readKey?_bare h.ne_nil h.bare 79 (' ' :: (entry.spelling ++ '\n' :: rest))
  have hskip : skipBlanks (' ' :: (entry.spelling ++ '\n' :: rest)) =
      entry.spelling ++ '\n' :: rest := by
    rw [hspelling]
    exact skipBlanks_cons hc
  rw [String.ofList_toList] at hkey
  rw [hline]
  obtain ⟨first, others, hfirst⟩ := List.exists_cons_of_ne_nil h.ne_nil
  -- a line that begins with a bracket would open a table
  have hbracket : first ≠ '[' := (begins_of_bare (h.bare first (hfirst ▸ List.mem_cons_self))).2.1
  unfold readStatement?
  split
  · rename_i heq
    rw [hfirst] at heq
    exact absurd (List.cons.inj heq).1 hbracket
  · rename_i heq
    rw [hfirst] at heq
    exact absurd (List.cons.inj heq).1 hbracket
  · rw [show depthLimit = 79 + 1 from rfl, hkey]
    simp only [hskip, ← show depthLimit = 79 + 1 from rfl, h.spelling.read, entry?_of_new hnew]
    rfl

/-- Entries with new keys are read line by line. -/
theorem readLines?_entries {given : List Entry} {entries : Entries}
    (hsound : ∀ entry ∈ given, entry.IsSound)
    (hkeys : (entries.map Prod.fst ++ given.map Entry.key).Nodup) (hcount : given.length < count) :
    readLines? count ⟨entries, []⟩ (given.flatMap Entry.line) =
      some (entries ++ given.map Entry.binding) := by
  -- induction on the lines still to be read, with what has been read as the state
  induction given generalizing entries count with
  | nil =>
      obtain ⟨count, rfl⟩ := Nat.exists_eq_add_one.mpr hcount
      simp [readLines?, skipSpace?]
  | cons entry given ih =>
      obtain ⟨count, rfl⟩ := Nat.exists_eq_add_one.mpr (Nat.zero_lt_of_lt hcount)
      have hentry := hsound entry List.mem_cons_self
      -- a key that was there already would be refused
      have hnew : entry.key ∉ entries.map Prod.fst := fun hm =>
        (List.nodup_append.mp hkeys).2.2 _ hm _ List.mem_cons_self rfl
      have hkeys' : ((entries ++ [entry.binding]).map Prod.fst ++ given.map Entry.key).Nodup := by
        simpa [Entry.binding] using hkeys
      have hrest := ih (fun other hm => hsound other (List.mem_cons_of_mem entry hm)) hkeys'
        (Nat.lt_of_succ_lt_succ hcount)
      -- the line begins with a character of its key, so nothing is skipped before it
      have hskip : skipSpace? (entry.line ++ given.flatMap Entry.line).length
          (entry.line ++ given.flatMap Entry.line) =
            some (entry.line ++ given.flatMap Entry.line) := by
        obtain ⟨c, more, hkey⟩ := List.exists_cons_of_ne_nil hentry.ne_nil
        rw [Entry.line, hkey]
        exact skipSpace?_begins (begins_of_bare (hentry.bare c (hkey ▸ List.mem_cons_self))).1 _
      have hline : entry.line ++ given.flatMap Entry.line ≠ [] :=
        List.append_ne_nil_of_left_ne_nil entry.line_ne_nil _
      rw [List.flatMap_cons, readLines?, hskip]
      split
      · rename_i heq
        exact absurd heq (by simp)
      · rename_i heq
        exact absurd (Option.some.inj heq) hline
      · rename_i heq
        rw [← Option.some.inj heq, readStatement?_line hentry hnew]
        rw [List.append_assoc] at hrest
        exact hrest

/-- **A document of plain entries is read as the table of them,** if no two keys are the same. -/
theorem parse?_document {given : List Entry} {text : String}
    (htext : text.toList = given.flatMap Entry.line) (hsound : ∀ entry ∈ given, entry.IsSound)
    (hkeys : (given.map Entry.key).Nodup) :
    parse? text = some (given.map Entry.binding) := by
  -- the mark that a document may begin with is no part of a key
  have hmark : ∀ cs, text.toList ≠ '\ufeff' :: cs := by
    intro cs heq
    rw [htext] at heq
    cases given with
    | nil => exact absurd heq (by simp)
    | cons entry given =>
        have hentry := hsound entry List.mem_cons_self
        obtain ⟨c, more, hkey⟩ := List.exists_cons_of_ne_nil hentry.ne_nil
        have hc := hentry.bare c (hkey ▸ List.mem_cons_self)
        rw [List.flatMap_cons, Entry.line, hkey] at heq
        rw [(List.cons.inj heq).1] at hc
        exact absurd hc (by decide)
  have hcount : given.length < text.toList.length + 1 := by
    have := length_le_flatMap (f := Entry.line) fun entry (_ : entry ∈ given) => entry.line_ne_nil
    rw [htext]
    omega
  unfold parse?
  split
  · rename_i cs heq
    exact absurd heq (hmark cs)
  · rw [htext] at hcount ⊢
    exact readLines?_entries hsound hkeys hcount

end StubGen.Toml
