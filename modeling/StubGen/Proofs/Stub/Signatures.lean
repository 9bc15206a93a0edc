import StubGen.Proofs.Stub.Annotations

/-!
# Parameter lists as they are read

The parameters of a generated function are written as lines, and what is sent is written as a
display of a mapping. Read back, the lines are a signature: the parameters that may be given by
position, and behind a marker those that must be given by keyword. Where all parameters are by
position, none without a default stands behind one with a default; that is the invariant of an
`Arrangement`, which every step of the rendering keeps. Their names are distinct and can be
declared, and the display pairs the remote name of each parameter with its local name:
`ofParameters_faithful`. Only the owner's name is taken as it stands, so a line end in it ends a
line.
-/

namespace StubGen

open Identifier (isIdentifierChar isReserved)
open Schema (Flat IsLineEnd Spelled)
open StubGen.TypeName (Written isBasic qualify)

namespace Quoting

/-! ## Reading a display -/

/-- What a character behind a backslash stands for. -/
def unescaped? : Char → Option Char
  | '\\' => some '\\'
  | '\x27' => some '\x27'
  | '"' => some '"'
  | 'n' => some '\n'
  | 'r' => some '\r'
  | 't' => some '\t'
  | _ => none

/-- The text of a literal whose opening quote has been read, and what stands behind it. -/
def readLiteral? (quote : Char) : List Char → Option (List Char × List Char)
  | [] => none
  | c :: cs =>
    if c = quote then some ([], cs)
    else if c = '\\' then
      match cs with
      | [] => none
      | d :: rest =>
        (unescaped? d).bind fun e => (readLiteral? quote rest).map fun r => (e :: r.1, r.2)
    else if IsLineEnd c then none
    else (readLiteral? quote cs).map fun r => (c :: r.1, r.2)

/-- A literal, a colon and a name, and what stands behind them. -/
def readEntry? : List Char → Option ((String × String) × List Char)
  | '\x27' :: cs =>
    (readLiteral? '\x27' cs).bind fun key =>
      (Text.afterChars? ": ".toList key.2).bind fun behind =>
        let name := behind.takeWhile isIdentifierChar
        if name.isEmpty then none
        else some ((String.ofList key.1, String.ofList name), behind.dropWhile isIdentifierChar)
  | _ => none

theorem length_readLiteral? {quote : Char} {cs text rest : List Char}
    (h : readLiteral? quote cs = some (text, rest)) : rest.length < cs.length := by
  fun_induction readLiteral? quote cs generalizing text with
  | case1 => exact nomatch h
  | case2 => simp_all
  | case3 => exact nomatch h
  | case4 _ d tail ih =>
      obtain ⟨_, -, h⟩ := Option.bind_eq_some_iff.mp h
      obtain ⟨r, hr, heq⟩ := Option.map_eq_some_iff.mp h
      obtain ⟨-, rfl⟩ := Prod.mk.inj heq
      have := ih hr
      simp only [List.length_cons]
      omega
  | case5 => exact nomatch h
  | case6 c cs _ _ _ ih =>
      obtain ⟨r, hr, heq⟩ := Option.map_eq_some_iff.mp h
      obtain ⟨-, rfl⟩ := Prod.mk.inj heq
      have := ih hr
      simp only [List.length_cons]
      omega

theorem length_readEntry? {cs rest : List Char} {entry : String × String}
    (h : readEntry? cs = some (entry, rest)) : rest.length < cs.length := by
  unfold readEntry? at h
  split at h
  · rename_i tail
    obtain ⟨⟨key, behind⟩, hkey, h⟩ := Option.bind_eq_some_iff.mp h
    obtain ⟨named, hnamed, h⟩ := Option.bind_eq_some_iff.mp h
    obtain ⟨-, h⟩ := Option.ite_none_left_eq_some.mp h
    obtain ⟨-, rfl⟩ := Prod.mk.inj (Option.some.inj h)
    have hlit := length_readLiteral? hkey
    have hcolon := congrArg List.length (Text.afterChars?_eq_some_iff.mp hnamed)
    have hname := (List.dropWhile_sublist isIdentifierChar (l := named)).length_le
    simp only [List.length_append, List.length_cons] at hcolon ⊢
    omega
  · exact nomatch h

/-- The entries of a display whose opening brace has been read, up to its closing brace. -/
def readEntries? (cs : List Char) : Option (List (String × String)) :=
  match _h : readEntry? cs with
  | some (entry, ['\x7d']) => some [entry]
  | some (entry, ',' :: ' ' :: rest) => (readEntries? rest).map fun entries => entry :: entries
  | _ => none
termination_by cs.length
decreasing_by
  have := length_readEntry? _h
  simp only [List.length_cons] at this
  omega

/-- The keys and the names that a display of a mapping pairs, in order. -/
def readDisplay? (text : String) : Option (List (String × String)) :=
  match text.toList with
  | '\x7b' :: cs => if cs = ['\x7d'] then some [] else readEntries? cs
  | _ => none

/-- A character is written as an escape that stands for it, or is plain and written as itself. -/
theorem escapeChar_cases {quote : Char} (hquote : quote = '\x27' ∨ quote = '"') (c : Char) :
    (∃ d, escapeChar quote c = ['\\', d] ∧ unescaped? d = some c) ∨
      escapeChar quote c = [c] ∧ c ≠ quote ∧ c ≠ '\\' ∧ ¬ IsLineEnd c := by
  by_cases hbackslash : c = '\\'
  · subst hbackslash
    exact .inl ⟨'\\', by simp [escapeChar], rfl⟩
  by_cases hnewline : c = '\n'
  · subst hnewline
    exact .inl ⟨'n', by simp [escapeChar], rfl⟩
  by_cases hreturn : c = '\r'
  · subst hreturn
    exact .inl ⟨'r', by simp [escapeChar], rfl⟩
  by_cases htab : c = '\t'
  · subst htab
    exact .inl ⟨'t', by simp [escapeChar], rfl⟩
  by_cases hclosing : c = quote
  · subst hclosing
    refine .inl ⟨c, by simp [escapeChar, hbackslash, hnewline, hreturn, htab], ?_⟩
    rcases hquote with rfl | rfl <;> rfl
  · refine .inr ⟨by simp [escapeChar, hbackslash, hnewline, hreturn, htab, hclosing], hclosing,
      hbackslash, ?_⟩
    rintro (h | h)
    · exact hnewline h
    · exact hreturn h

/-- **A literal is read back.** -/
theorem readLiteral?_escape {quote : Char} (hquote : quote = '\x27' ∨ quote = '"')
    (cs rest : List Char) :
    readLiteral? quote (cs.flatMap (escapeChar quote) ++ quote :: rest) = some (cs, rest) := by
  have hbackslash : '\\' ≠ quote := by rcases hquote with rfl | rfl <;> decide
  induction cs with
  | nil =>
      rw [List.flatMap_nil, List.nil_append, readLiteral?.eq_def]
      exact if_pos rfl
  | cons c cs ih =>
      rw [List.flatMap_cons, List.append_assoc]
      rcases escapeChar_cases hquote c with ⟨d, hescape, hd⟩ | ⟨hescape, hc, hplain, hline⟩
      · rw [hescape, readLiteral?.eq_def]
        simp only [List.cons_append, List.nil_append, if_neg hbackslash, if_true, hd, ih,
          Option.bind_some, Option.map_some]
      · rw [hescape, readLiteral?.eq_def]
        simp only [List.cons_append, List.nil_append, if_neg hc, if_neg hplain, if_neg hline, ih,
          Option.map_some]

/-- An entry of a display. -/
def entryText (entry : String × String) : String := singleQuoted entry.1 ++ ": " ++ entry.2

theorem readEntry?_text {entry : String × String} (hne : entry.2 ≠ "")
    (hchars : ∀ c ∈ entry.2.toList, isIdentifierChar c = true) {c : Char}
    (hc : isIdentifierChar c = false) (rest : List Char) :
    readEntry? ((entryText entry).toList ++ c :: rest) = some (entry, c :: rest) := by
  have htext : (entryText entry).toList ++ c :: rest =
      '\x27' :: (entry.1.toList.flatMap (escapeChar '\x27') ++
        '\x27' :: (": ".toList ++ (entry.2.toList ++ c :: rest))) := by
    simp [entryText, singleQuoted, quoted]
  have htake : (entry.2.toList ++ c :: rest).takeWhile isIdentifierChar = entry.2.toList := by
    rw [List.takeWhile_append_of_pos hchars, List.takeWhile_cons_of_neg (by simp [hc]),
      List.append_nil]
  have hdrop : (entry.2.toList ++ c :: rest).dropWhile isIdentifierChar = c :: rest := by
    rw [List.dropWhile_append_of_pos hchars, List.dropWhile_cons_of_neg (by simp [hc])]
  have hempty : entry.2.toList.isEmpty = false := by
    simpa using fun hnil => hne (String.toList_eq_nil_iff.mp hnil)
  rw [htext, readEntry?, readLiteral?_escape (.inl rfl)]
  simp only [Option.bind_some, Text.afterChars?_eq_some_iff.mpr rfl]
  rw [htake, hdrop, hempty]
  simp

theorem readEntries?_last {cs : List Char} {entry : String × String}
    (h : readEntry? cs = some (entry, ['\x7d'])) : readEntries? cs = some [entry] := by
  rw [readEntries?]
  split <;> simp_all

theorem readEntries?_more {cs rest : List Char} {entry : String × String}
    (h : readEntry? cs = some (entry, ',' :: ' ' :: rest)) :
    readEntries? cs = (readEntries? rest).map fun entries => entry :: entries := by
  rw [readEntries?]
  split <;> simp_all

theorem readEntries?_text (entry : String × String) (entries : List (String × String))
    (h : ∀ e ∈ entry :: entries, e.2 ≠ "" ∧ ∀ c ∈ e.2.toList, isIdentifierChar c = true) :
    readEntries? ((Text.join ", " ((entry :: entries).map entryText)).toList ++ ['\x7d']) =
      some (entry :: entries) := by
  obtain ⟨hne, hchars⟩ := h entry List.mem_cons_self
  induction entries generalizing entry with
  | nil =>
      have htext : Text.join ", " [entryText entry] = entryText entry := by
        simp [Text.join, Text.joinChars]
      rw [List.map_singleton, htext]
      exact readEntries?_last (readEntry?_text hne hchars (by decide) [])
  | cons next entries ih =>
      have hrest := ih next (fun e hm => h e (List.mem_cons_of_mem _ hm))
        (h next (by simp)).1 (h next (by simp)).2
      have htext : (Text.join ", " ((entry :: next :: entries).map entryText)).toList ++ ['\x7d'] =
          (entryText entry).toList ++ ',' :: (' ' ::
            ((Text.join ", " ((next :: entries).map entryText)).toList ++ ['\x7d'])) := by
        rw [List.map_cons, List.map_cons, Text.join_cons_cons]
        simp
      rw [htext, readEntries?_more (readEntry?_text hne hchars (by decide) _), hrest,
        Option.map_some]

/-- **A display is read back**, when what it pairs the keys with are names. -/
theorem readDisplay?_text {entries : List (String × String)}
    (h : ∀ entry ∈ entries, entry.2 ≠ "" ∧ ∀ c ∈ entry.2.toList, isIdentifierChar c = true) :
    readDisplay? ("\x7b" ++ Text.join ", " (entries.map entryText) ++ "\x7d") = some entries := by
  cases entries with
  | nil => rfl
  | cons entry entries =>
      have hentries := readEntries?_text entry entries h
      have hne : (Text.join ", " ((entry :: entries).map entryText)).toList ++ ['\x7d'] ≠
          ['\x7d'] := by
        intro heq
        rw [heq, readEntries?] at hentries
        exact nomatch hentries
      have htext : ("\x7b" ++ Text.join ", " ((entry :: entries).map entryText) ++
          "\x7d").toList = '\x7b' ::
            ((Text.join ", " ((entry :: entries).map entryText)).toList ++ ['\x7d']) := by
        simp
      unfold readDisplay?
      rw [htext]
      exact (if_neg hne).trans hentries

end Quoting

/-! ## Types on one line -/

namespace Typing

open Schema (Engine)

theorem flat_of_isBasic {name : String} (h : isBasic name = true) : Flat name := by
  have hall : ∀ name ∈ TypeName.basicTypes, Flat name := by decide
  exact hall name (mem_basicTypes h)

theorem flat_of_identifierChars {name : String}
    (h : ∀ c ∈ name.toList, isIdentifierChar c = true) : Flat name := by
  intro c hm hc
  have hchar := h c hm
  rcases hc with rfl | rfl <;> exact absurd hchar (by decide)

theorem flat_render (engine : Engine) (schema : Json) (root : String) {fallback : String}
    (hw : Written fallback) (hf : Flat fallback) :
    Written (Schema.render engine schema root fallback).expr ∧
      Flat (Schema.render engine schema root fallback).expr := by
  rcases Schema.render_cases engine schema root fallback with ⟨source, -, hrender⟩ | hrender
  · have hchars := Schema.identifierChars_rootName schema root fallback
    have hne := Schema.rootName_ne_empty schema root fallback
    rw [hrender]
    dsimp only
    exact ⟨.name hne hchars, flat_of_identifierChars (List.all_eq_true.mp hchars)⟩
  · rw [hrender]
    exact ⟨hw, hf⟩

/-- Whatever the engine, the expression of a type is written in one line. -/
theorem compositional_flat (engine : Engine) :
    Compositional engine fun r => Written r.expr ∧ Flat r.expr where
  basic h := ⟨written_of_isBasic h, flat_of_isBasic h⟩
  list h := ⟨h.1.list, h.2.between (fun _ h => h) (by decide) (by decide)⟩
  compact h := ⟨h.1.withoutSpaces.1, fun c hm => h.2 c (by
    rw [Identifier.dropSpaces, String.toList_ofList] at hm
    exact (List.mem_filter.mp hm).1)⟩
  render schema root _ h := flat_render engine schema root h.1 h.2
  callable {parameters} h result := by
    have hresult := isBasic_callableResult result
    have hwritten : ∀ expr ∈ parameters.map Resolution.expr, Written expr :=
      List.forall_mem_map.mpr fun r hr => (h r hr).1
    have hflat : ∀ expr ∈ parameters.map Resolution.expr, Flat expr :=
      List.forall_mem_map.mpr fun r hr => (h r hr).2
    refine ⟨(written_callable hwritten (written_of_isBasic hresult)).1, ?_⟩
    have hlist : Flat ("Callable[[" ++ Text.join ", " (parameters.map Resolution.expr) ++ "], ") :=
      (Schema.spelled_join (by decide) hflat).between (fun _ h => h) (by decide) (by decide)
    exact (hlist.append (flat_of_isBasic hresult)).append (by decide)

/-- Seen from outside the module of types an expression is on one line, if the owner's name is. -/
theorem flat_qualify {owner expr : String} (howner : Flat owner) (hw : Written expr)
    (hf : Flat expr) : Flat (qualify owner expr) := by
  induction hw with
  | name hne h =>
      rw [TypeName.qualify_identifier owner hne h]
      split
      · exact hf
      · have hmodule : Flat ("_" ++ owner ++ ".") :=
          howner.between (fun _ h => h) (by decide) (by decide)
        exact hmodule.append hf
  | @list element _ ih =>
      rw [TypeName.qualify_list]
      have helement : Flat element := fun c hm => hf c (by simp [hm])
      exact (ih helement).between (fun _ h => h) (by decide) (by decide)
  | callable =>
      rw [TypeName.qualify_callable]
      exact hf

end Typing

/-! ## Local names -/

namespace Identifier

/-- A name that a parameter can have: of letters, digits and underscores, without an ASCII digit
in front, and not taken. -/
structure Usable (name : String) : Prop where
  nonempty : name ≠ ""
  chars : ∀ c ∈ name.toList, isIdentifierChar c = true
  starts : ∀ c ∈ name.toList.head?, c.isDigit = false
  free : isReserved name = false

/-- The keywords and the typing names begin with a letter and have no digits. -/
theorem of_isReserved {name : String} (h : isReserved name = true) :
    ∀ c ∈ name.toList, c ≠ '_' ∧ c.isDigit = false := by
  have hall : ∀ name ∈ keywords ++ preambleNames,
      (name.toList.all fun c => c != '_' && !c.isDigit) = true := by decide
  have hm : name ∈ keywords ++ preambleNames := by
    unfold isReserved isKeyword at h
    exact List.mem_append.mpr
      ((Bool.or_eq_true _ _ ▸ h).imp List.contains_iff_mem.mp List.contains_iff_mem.mp)
  intro c hc
  simpa using List.all_eq_true.mp (hall name hm) c hc

theorem starts_sanitize (name : String) :
    ∀ c ∈ (sanitize name).toList.head?, c.isDigit = false := by
  unfold sanitize sanitizeChars
  rw [String.toList_ofList]
  split
  · rintro c hm
    obtain rfl := Option.some.inj hm
    decide
  · split
    · rename_i hdigit
      simp
    · rename_i hdigit
      simpa using hdigit

/-- A text made into an identifier that is not taken is usable. -/
theorem usable_sanitized (name : String) : Usable (avoidReserved (sanitize name)) := by
  unfold avoidReserved
  have hchars := identifierChars_sanitize name
  split
  · refine ⟨by simp, ?_, by simp, Bool.eq_false_iff.mpr fun h => ?_⟩
    · intro c hm
      rw [String.toList_append, List.mem_append] at hm
      rcases hm with hm | hm
      · rw [List.mem_singleton.mp hm]
        decide
      · exact hchars c hm
    · exact (of_isReserved h '_' (by simp)).1 rfl
  · exact ⟨Schema.sanitize_ne_empty _, hchars, starts_sanitize _, Bool.eq_false_iff.mpr ‹_›⟩

theorem usable_argumentName (name : String) : Usable (argumentName name) :=
  usable_sanitized (camelCase name)

theorem Usable.numbered {name : String} (h : Usable name) (n : Nat) :
    Usable (name ++ toString n) := by
  have hdigits : ∀ c ∈ (toString n).toList, c.isDigit = true := fun c hm =>
    Schema.isDigit_of_mem_toString hm
  refine ⟨by simp [h.nonempty], fun c hm => ?_, fun c hm => ?_, Bool.eq_false_iff.mpr fun hr => ?_⟩
  · rw [String.toList_append, List.mem_append] at hm
    rcases hm with hm | hm
    · exact h.chars c hm
    · exact isIdentifierChar_of_isAlphanum (by simp [Char.isAlphanum, hdigits c hm])
  · obtain ⟨d, ds, hname⟩ := List.exists_cons_of_ne_nil fun hnil =>
      h.nonempty (String.toList_eq_nil_iff.mp hnil)
    have hstarts := h.starts
    simp only [String.toList_append, hname, List.cons_append, List.head?_cons] at hm hstarts
    exact hstarts c hm
  · -- a taken name has no digit, and a number has one
    have hne : (toString n).toList ≠ [] := by
      rw [Ne, String.toList_eq_nil_iff]
      exact Nat.repr_ne_empty
    obtain ⟨c, hc⟩ := List.exists_mem_of_ne_nil _ hne
    have hmem : c ∈ (name ++ toString n).toList := by
      rw [String.toList_append]
      exact List.mem_append_right _ hc
    have hfree := (of_isReserved hr c hmem).2
    exact Bool.noConfusion ((hdigits c hc).symm.trans hfree)

end Identifier

theorem ParameterLine.text_ne_empty (line : ParameterLine) : line.text ≠ "" := by
  cases line <;> simp [text]

namespace ParameterList

open Identifier (Usable)
open Schema (Engine)

variable {engine : Engine} {owner : String}

theorem freeName_eq_freshName (used : List String) (name : String) :
    freeName used name = Schema.freshName used name := by
  have hfrom : ∀ steps counter,
      freeNameFrom used name steps counter = Schema.freshFrom used name steps counter := by
    intro steps
    induction steps with
    | zero => exact fun _ => rfl
    | succ steps ih =>
        intro counter
        rw [freeNameFrom, Schema.freshFrom, ih]
  rw [freeName, Schema.freshName, hfrom]

theorem usable_freeName {name : String} (h : Usable name) (used : List String) :
    Usable (freeName used name) := by
  rw [freeName_eq_freshName]
  rcases Schema.freshName_cases used name with heq | ⟨n, heq⟩
  · rwa [heq]
  · rw [heq]
    exact h.numbered n

/-! ## Signatures -/

/-- A parameter as it is written. -/
structure Given where
  name : String
  annotation : String
  optional : Bool
  comment : String

def Given.line (g : Given) : ParameterLine :=
  .parameter g.name g.annotation g.optional g.comment

/-- The parameters of a function: those that may be given by position, of which none without a
default stands behind one with a default, and those that must be given by keyword. -/
structure Arrangement where
  positional : List Given
  keywords : List Given
  ordered : positional.Pairwise fun first later => first.optional = true → later.optional = true

namespace Arrangement

/-- All parameters in order. -/
def given (a : Arrangement) : List Given := a.positional ++ a.keywords

/-- The lines of the parameters. The marker stands in front of those that must be given by
keyword, if there are any. -/
def lines (a : Arrangement) : List ParameterLine :=
  a.positional.map Given.line ++
    if a.keywords.isEmpty then [] else .keywordsOnly :: a.keywords.map Given.line

def empty : Arrangement := ⟨[], [], .nil⟩

/-- Adds a parameter behind all others: by position if it may be, else by keyword. -/
def add (a : Arrangement) (g : Given) : Arrangement :=
  if h : a.keywords = [] ∧ (g.optional = true ∨ a.positional.any Given.optional = false) then
    { positional := a.positional ++ [g]
      keywords := a.keywords
      ordered := by
        refine List.pairwise_append.mpr ⟨a.ordered, List.pairwise_singleton _ _, ?_⟩
        intro first hfirst later hlater hopt
        rw [List.mem_singleton.mp hlater]
        refine h.2.resolve_right fun hnone => ?_
        exact Bool.noConfusion (hnone.symm.trans (List.any_eq_true.mpr ⟨first, hfirst, hopt⟩)) }
  else { a with keywords := a.keywords ++ [g] }

/-- Whether a parameter is the first one that must be given by keyword. -/
def startsKeywords (a : Arrangement) (g : Given) : Bool :=
  !g.optional && a.given.any Given.optional && a.keywords.isEmpty

variable (a : Arrangement) (g : Given)

theorem given_add : (a.add g).given = a.given ++ [g] := by
  unfold add given
  split
  · rename_i h
    simp [h.1]
  · simp

/-- The lines of a parameter are added behind the others, the marker in front of it if it is the
first one by keyword. -/
theorem lines_add : (a.add g).lines =
    a.lines ++ (if a.startsKeywords g then [.keywordsOnly] else []) ++ [g.line] := by
  cases hkeywords : a.keywords with
  | nil =>
      cases hopt : g.optional <;> cases hany : a.positional.any Given.optional <;>
        simp [add, lines, startsKeywords, given, hkeywords, hopt, hany]
  | cons first rest => simp [add, lines, startsKeywords, hkeywords]

theorem mem_lines {line : ParameterLine} (h : line ∈ a.lines) :
    line = .keywordsOnly ∨ ∃ g ∈ a.given, line = g.line := by
  unfold lines at h
  unfold given
  rcases List.mem_append.mp h with h | h
  · obtain ⟨g, hg, rfl⟩ := List.mem_map.mp h
    exact .inr ⟨g, List.mem_append_left _ hg, rfl⟩
  · split at h
    · exact absurd h List.not_mem_nil
    · rcases List.mem_cons.mp h with rfl | h
      · exact .inl rfl
      · obtain ⟨g, hg, rfl⟩ := List.mem_map.mp h
        exact .inr ⟨g, List.mem_append_right _ hg, rfl⟩

theorem isEmpty_keywords_add : (a.add g).keywords.isEmpty =
    (a.keywords.isEmpty && !a.startsKeywords g) := by
  cases hkeywords : a.keywords with
  | nil =>
      cases hopt : g.optional <;> cases hany : a.positional.any Given.optional <;>
        simp [add, startsKeywords, given, hkeywords, hopt, hany]
  | cons first rest => simp [add, startsKeywords, hkeywords]

end Arrangement

/-- What a parameter is given as, after its name. -/
def Given.rest (g : Given) : String × Bool × String := (g.annotation, g.optional, g.comment)

/-- What a parameter asks for, as seen from outside the module of types. -/
def restOf (engine : Engine) (owner : String) (parameter : Parameter) : String × Bool × String :=
  (qualify owner (typeOf engine parameter).expr, !parameter.required,
    Quoting.comment parameter.description)

/-- A draft with these entries done is the text of an arrangement. -/
structure Drafts (engine : Engine) (owner : String) (done : List (Parameter × Nat)) (d : Draft)
    (a : Arrangement) : Prop where
  lines : d.list.lines = a.lines.map ParameterLine.text
  seen : d.seenOptional = a.given.any Given.optional
  keywords : d.keywordOnly = !a.keywords.isEmpty
  remotes : d.list.names.map Prod.fst = done.map fun entry => remoteName entry.2 entry.1
  locals : d.list.names.map Prod.snd = a.given.map Given.name
  rests : a.given.map Given.rest = done.map fun entry => restOf engine owner entry.1
  distinct : (a.given.map Given.name).Nodup
  usable : ∀ g ∈ a.given, Usable g.name

theorem drafts_empty : Drafts engine owner [] ⟨⟨[], [], .empty⟩, false, false⟩ .empty where
  lines := rfl
  seen := rfl
  keywords := rfl
  remotes := rfl
  locals := rfl
  rests := rfl
  distinct := .nil
  usable _ hm := absurd hm List.not_mem_nil

/-- **Each step adds one parameter to the arrangement.** -/
theorem drafts_step {done : List (Parameter × Nat)} {d : Draft} {a : Arrangement}
    (h : Drafts engine owner done d a) (entry : Parameter × Nat) :
    ∃ g, Drafts engine owner (done ++ [entry]) (step engine owner d entry) (a.add g) := by
  let remote := remoteName entry.2 entry.1
  let name := freeName (d.list.names.map Prod.snd) (Identifier.argumentName remote)
  let g : Given := ⟨name, qualify owner (typeOf engine entry.1).expr, !entry.1.required,
    Quoting.comment entry.1.description⟩
  -- both see the same reason to begin the part that is given by keyword
  have hstarts : (entry.1.required && d.seenOptional && !d.keywordOnly) = a.startsKeywords g := by
    simp [Arrangement.startsKeywords, g, h.seen, h.keywords]
  -- the name is chosen apart from those that were taken before
  have hfresh : name ∉ d.list.names.map Prod.snd := by
    simp only [name, freeName_eq_freshName]
    exact Schema.freshName_not_mem _ _
  have hline : line owner name entry.1 (typeOf engine entry.1) = g.line.text :=
    line_eq_text owner name entry.1 _
  have hlines : (step engine owner d entry).list.lines =
      d.list.lines ++ (if a.startsKeywords g then ["    *,"] else []) ++ [g.line.text] := by
    rw [← hstarts, ← hline]
    rfl
  have hnames : (step engine owner d entry).list.names = d.list.names ++ [(remote, name)] := rfl
  have hkeywords : (step engine owner d entry).keywordOnly =
      (d.keywordOnly || a.startsKeywords g) := by
    rw [← hstarts]
    rfl
  refine ⟨g, ?_, ?_, ?_, ?_, ?_, ?_, ?_, ?_⟩
  · rw [hlines, Arrangement.lines_add, List.map_append, List.map_append, h.lines]
    split <;> rfl
  · have hseen : (step engine owner d entry).seenOptional =
        (d.seenOptional || !entry.1.required) := rfl
    rw [hseen, h.seen, Arrangement.given_add, List.any_append]
    simp [g]
  · rw [hkeywords, h.keywords, Arrangement.isEmpty_keywords_add, Bool.not_and, Bool.not_not]
  · rw [hnames, List.map_append, h.remotes, List.map_append]
    rfl
  · rw [hnames, List.map_append, h.locals, Arrangement.given_add, List.map_append]
    rfl
  · rw [Arrangement.given_add, List.map_append, h.rests, List.map_append]
    rfl
  · rw [Arrangement.given_add, List.map_append, ← h.locals]
    refine List.nodup_append.mpr ⟨h.locals ▸ h.distinct, List.nodup_singleton _, ?_⟩
    rintro taken htaken fresh hm rfl
    rw [List.mem_singleton.mp hm] at htaken
    exact hfresh htaken
  · rw [Arrangement.given_add]
    intro other hm
    rcases List.mem_append.mp hm with hm | hm
    · exact h.usable other hm
    · rw [List.mem_singleton.mp hm]
      exact usable_freeName (Identifier.usable_argumentName remote) _

theorem drafts_foldl {done : List (Parameter × Nat)} {d : Draft} {a : Arrangement}
    (h : Drafts engine owner done d a) (entries : List (Parameter × Nat)) :
    ∃ a', Drafts engine owner (done ++ entries) (entries.foldl (step engine owner) d) a' := by
  induction entries generalizing done d a with
  | nil => exact ⟨a, by simpa using h⟩
  | cons entry entries ih =>
      obtain ⟨g, hstep⟩ := drafts_step h entry
      obtain ⟨a', hrest⟩ := ih hstep
      exact ⟨a', by simpa using hrest⟩

/-! ## What is rendered -/

/-- The names that the remote side knows parameters by. -/
def remoteNames (parameters : List Parameter) : List String :=
  parameters.zipIdx.map fun entry => remoteName entry.2 entry.1

theorem flat_comment (text : String) : Flat (Quoting.comment text) := by
  intro c hm hc
  rcases hc with rfl | rfl
  · exact Schema.Declaration.not_mem_comment_of_isBlank (by decide) (by decide) text hm
  · exact Schema.Declaration.not_mem_comment_of_isBlank (by decide) (by decide) text hm

theorem flat_line {g : Given} (hname : Usable g.name) (htype : Flat g.annotation)
    (hcomment : Flat g.comment) : Flat g.line.text := by
  have hname : Flat g.name := Typing.flat_of_identifierChars hname.chars
  have hdefault : Flat (if g.optional then " = None" else "") := by split <;> decide
  have hbehind : Flat (if g.comment.isEmpty then "" else "  # " ++ g.comment) := by
    split
    · decide
    · exact Spelled.append (by decide) hcomment
  have hhead : Flat ("    " ++ g.name ++ ": " ++ g.annotation) :=
    (hname.between (fun _ h => h) (by decide) (by decide)).append htype
  exact ((hhead.append hdefault).append (by decide)).append hbehind

theorem flat_restOf {parameter : Parameter} (howner : Flat owner) :
    Flat (restOf engine owner parameter).1 := by
  have hexpr := (Typing.compositional_flat engine).resolve
    (Typing.withFallbackTitle parameter.type parameter.name) (Identifier.title parameter.name)
  exact Typing.flat_qualify howner hexpr.1 hexpr.2

/-- **A parameter list is a signature and sends what it is given.** It is the text of an
arrangement with one line for each parameter, in order, and with one more line, which is not the
last one, if some must be given by keyword. The local names are distinct and can be declared. The
payload pairs the remote name of each parameter with its local name. No description has a line
end, and if the owner's name has none, then the lines of the text are those of the
arrangement. -/
theorem ofParameters_faithful (engine : Engine) (owner : String) (parameters : List Parameter) :
    ∃ a : Arrangement,
      (ofParameters engine owner parameters).signature =
        Text.join "\n" (a.lines.map ParameterLine.text) ∧
      a.given.map Given.rest = parameters.map (restOf engine owner) ∧
      (a.given.map Given.name).Nodup ∧ (∀ g ∈ a.given, Usable g.name ∧ Flat g.comment) ∧
      Quoting.readDisplay? (ofParameters engine owner parameters).payload =
        some ((remoteNames parameters).zip (a.given.map Given.name)) ∧
      (Flat owner → Text.lines (ofParameters engine owner parameters).signature =
        a.lines.map ParameterLine.text) := by
  obtain ⟨a, h⟩ := drafts_foldl (@drafts_empty engine owner) parameters.zipIdx
  rw [List.nil_append] at h
  have hrests : a.given.map Given.rest = parameters.map (restOf engine owner) := by
    have hfst : (fun entry : Parameter × Nat => restOf engine owner entry.1) =
        restOf engine owner ∘ Prod.fst := rfl
    rw [h.rests, hfst, ← List.map_map, List.zipIdx_map_fst]
  have hcomment : ∀ g ∈ a.given, Flat g.comment := by
    intro g hm
    obtain ⟨parameter, -, hrest⟩ := List.mem_map.mp (hrests ▸ List.mem_map_of_mem hm)
    have hsame : g.comment = Quoting.comment parameter.description :=
      (congrArg (fun rest => rest.2.2) hrest).symm
    rw [hsame]
    exact flat_comment _
  have hlines : (ofParameters engine owner parameters).lines = a.lines.map ParameterLine.text :=
    h.lines
  -- the names of the arrangement were recorded step by step along with its lines
  have hnames : (ofParameters engine owner parameters).names =
      (remoteNames parameters).zip (a.given.map Given.name) := by
    rw [remoteNames, ← h.remotes, ← h.locals]
    exact List.zip_of_prod rfl rfl
  refine ⟨a, congrArg (Text.join "\n") hlines, hrests, h.distinct,
    fun g hm => ⟨h.usable g hm, hcomment g hm⟩, ?_, fun howner => ?_⟩
  · rw [← hnames]
    refine Quoting.readDisplay?_text fun entry hm => ?_
    have hlocal : entry.2 ∈ a.given.map Given.name := h.locals ▸ List.mem_map_of_mem hm
    obtain ⟨g, hg, hname⟩ := List.mem_map.mp hlocal
    rw [← hname]
    exact ⟨(h.usable g hg).nonempty, (h.usable g hg).chars⟩
  · rw [signature, hlines]
    refine Text.lines_join fun line hm => ?_
    obtain ⟨written, hwritten, rfl⟩ := List.mem_map.mp hm
    have hflat : Flat written.text := by
      -- a line is that of a parameter or the one with the asterisk
      rcases a.mem_lines hwritten with rfl | ⟨g, hg, rfl⟩
      · decide
      · obtain ⟨parameter, -, hrest⟩ := List.mem_map.mp (hrests ▸ List.mem_map_of_mem hg)
        have htype : g.annotation = (restOf engine owner parameter).1 :=
          (congrArg Prod.fst hrest).symm
        exact flat_line (h.usable g hg) (htype ▸ flat_restOf howner) (hcomment g hg)
    exact ⟨written.text_ne_empty, fun hc => hflat _ hc (.inl rfl), fun hc => hflat _ hc (.inr rfl)⟩

/-- Two parameters whose names come to the same, the second one required behind an optional one,
and one without a name. -/
def request : List Parameter :=
  [.mk "first-name" "the name\nas it is called" false none (.primitive "string"),
   .mk "first name" "" true none (.primitive "string"),
   .mk "" "it's" true none .any]

/-- Signature and payload of the request. -/
theorem ofParameters_faithful_request : ∃ a : Arrangement,
    (ofParameters Schema.builtinEngine "adopt" request).signature =
      Text.join "\n" (a.lines.map ParameterLine.text) ∧
    a.given.map Given.rest = request.map (restOf Schema.builtinEngine "adopt") ∧
    (a.given.map Given.name).Nodup ∧ (∀ g ∈ a.given, Usable g.name ∧ Flat g.comment) ∧
    Quoting.readDisplay? (ofParameters Schema.builtinEngine "adopt" request).payload =
      some ((remoteNames request).zip (a.given.map Given.name)) ∧ Flat "adopt" ∧
    Text.lines (ofParameters Schema.builtinEngine "adopt" request).signature =
      a.lines.map ParameterLine.text := by
  obtain ⟨a, hsignature, hrests, hdistinct, hgiven, hpayload, hlines⟩ :=
    ofParameters_faithful Schema.builtinEngine "adopt" request
  have howner : Flat "adopt" := by decide
  exact ⟨a, hsignature, hrests, hdistinct, hgiven, hpayload, howner, hlines howner⟩

example : (ofParameters Schema.builtinEngine "adopt" request).lines =
    ["    firstName: str = None,  # the name as it is called", "    *,",
     "    firstName2: str,", "    arg2: Any,  # it's"] := by
  decide +kernel

/-- **An owner whose name has a line end breaks the line of a parameter.** -/
theorem ofParameters_broken_line :
    Text.lines (ofParameters Schema.builtinEngine "a\nb"
      [.mk "x" "" true none (.object (some (.obj [("type", .str "object"),
        ("properties", .obj [("y", .obj [("type", .str "string")])])])) none none)]).signature =
      ["    x: _a", "b.X,"] := by
  decide +kernel

end ParameterList

end StubGen
