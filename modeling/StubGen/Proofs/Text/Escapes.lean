import Mathlib.Data.List.Chain
import StubGen.Proofs.Stub.Signatures
import StubGen.Proofs.Toml.Quotes

/-!
# Quoted text cannot be broken out of

What is quoted is read by a reader that knows all escapes of the generated language, not only those
that are written (`unescape?`). Reading from the left, a backslash escapes what follows it unless
it is escaped itself (`isEscapedBehind`). A piece that stands for a character ends unescaped, and a
quote in it is escaped; so each encoding is taken apart piece by piece, and a literal ends at its
last quote and nowhere before. In a docstring a cut that no backslash stands before falls between
two pieces, so that backslashes come in pairs. A comment is replaced, folded and trimmed, and each
of these steps finds nothing to do in what the three have left. The whole is
`quoting_inescapable`.
-/

namespace StubGen

variable {cs : List Char}

namespace Text

/-! ## Replaced, folded and trimmed -/

/-- Not both of two characters are white space. -/
def Apart (c d : Char) : Prop := ¬ (isBlank c = true ∧ isBlank d = true)

/-- Two characters do not spell a line end. -/
def NotSpelled (c d : Char) : Prop := ¬ (c = '\\' ∧ d = 'n')

/-- Spelled line ends replaced by spaces. -/
abbrev spaced (skip : Nat) (cs : List Char) : List Char :=
  replaceCharsFrom ['\\', 'n'] [' '] skip cs

theorem head?_of_spaced (h : (spaced 0 cs).head? = some 'n') : cs.head? = some 'n' := by
  cases cs with
  | nil => exact h
  | cons c cs =>
      rw [spaced, replaceCharsFrom] at h
      split at h
      · exact absurd (Option.some.inj h) (by decide)
      · exact h

theorem isChain_spaced (skip : Nat) (cs : List Char) : (spaced skip cs).IsChain NotSpelled := by
  unfold spaced
  fun_induction replaceCharsFrom ['\\', 'n'] [' '] skip cs with
  | case1 => exact .nil
  | case2 _ _ _ ih => exact ih
  | case3 _ _ _ ih => exact List.IsChain.cons ih fun _ _ h => absurd h.1 (by decide)
  | case4 c cs hplain ih =>
      refine List.IsChain.cons ih fun d hd hspelled => hplain ?_
      obtain ⟨rfl, rfl⟩ := hspelled
      obtain ⟨rest, rfl⟩ := List.head?_eq_some_iff.mp (head?_of_spaced hd)
      simp [afterChars?]

/-- Nothing is replaced where no line end is spelled. -/
theorem spaced_eq_self (h : cs.IsChain NotSpelled) : spaced 0 cs = cs := by
  induction cs with
  | nil => rfl
  | cons c cs ih =>
      have hplain : ¬ (afterChars? ['\\', 'n'] (c :: cs)).isSome = true := by
        intro hsome
        obtain ⟨rest, hrest⟩ := Option.isSome_iff_exists.mp hsome
        obtain ⟨rfl, rfl⟩ := List.cons.inj (afterChars?_eq_some_iff.mp hrest)
        exact h.rel ⟨rfl, rfl⟩
      rw [spaced, replaceCharsFrom, if_neg hplain]
      exact congrArg (c :: ·) (ih h.tail)

/-- What is folded begins with a space or as it did. -/
theorem head?_foldBlanks (cs : List Char) :
    ∀ d ∈ (foldBlanks cs).head?, d = ' ' ∨ cs.head? = some d := by
  intro d hd
  cases cs with
  | nil => exact absurd hd (by simp [foldBlanks, foldBlanksFrom])
  | cons c cs =>
      rw [foldBlanks, foldBlanksFrom] at hd
      split at hd
      · exact .inl (Option.some.inj hd).symm
      · exact .inr hd

theorem isChain_foldBlanksFrom (h : cs.IsChain NotSpelled) (inGap : Bool) :
    (foldBlanksFrom inGap cs).IsChain NotSpelled := by
  induction cs generalizing inGap with
  | nil => exact .nil
  | cons c cs ih =>
      rw [foldBlanksFrom]
      split
      · split
        · exact ih h.tail true
        · exact List.IsChain.cons (ih h.tail true) fun _ _ hd => absurd hd.1 (by decide)
      · refine List.IsChain.cons (ih h.tail false) fun d hd hspelled => ?_
        rcases head?_foldBlanks cs d hd with rfl | hhead
        · exact absurd hspelled.2 (by decide)
        · exact h.rel_head? hhead hspelled

/-- No two spaces are left in a row, and none in front where the character before was one. -/
theorem isChain_apart_foldBlanksFrom (inGap : Bool) (cs : List Char) :
    (foldBlanksFrom inGap cs).IsChain Apart ∧
      (inGap = true → ∀ d ∈ (foldBlanksFrom inGap cs).head?, isBlank d = false) := by
  induction cs generalizing inGap with
  | nil => exact ⟨.nil, by simp [foldBlanksFrom]⟩
  | cons c cs ih =>
      rw [foldBlanksFrom]
      split
      · split
        · rename_i hgap
          exact ⟨(ih true).1, fun _ => (ih true).2 rfl⟩
        · rename_i hgap
          refine ⟨(ih true).1.cons fun d hd hboth => ?_, fun h => absurd h hgap⟩
          exact absurd hboth.2 (by simp [(ih true).2 rfl d hd])
      · rename_i hc
        refine ⟨(ih false).1.cons fun d _ hboth => hc hboth.1, fun _ d hd => ?_⟩
        simpa [← Option.some.inj hd] using hc

/-- Nothing is folded where white space is single spaces. -/
theorem foldBlanksFrom_eq_self (h : cs.IsChain Apart)
    (hspace : ∀ c ∈ cs, isBlank c = true → c = ' ') {inGap : Bool}
    (hgap : inGap = true → ∀ d ∈ cs.head?, isBlank d = false) :
    foldBlanksFrom inGap cs = cs := by
  induction cs generalizing inGap with
  | nil => rfl
  | cons c cs ih =>
      have ih {inGap : Bool} := @ih h.tail (fun d hd => hspace d (List.mem_cons_of_mem _ hd)) inGap
      rw [foldBlanksFrom]
      split
      · rename_i hc
        obtain rfl := hspace c List.mem_cons_self hc
        have hfront : inGap = false := by
          by_contra hin
          exact absurd hc (by simp [hgap (by simpa using hin) ' ' rfl])
        rw [hfront, if_neg (by decide), ih fun _ d hd => ?_]
        simpa [hc] using fun hd' => h.rel_head? hd ⟨hc, hd'⟩
      · rw [ih (by simp)]

/-- What is left by trimming stands together in the text. -/
theorem infix_trimChars (cs : List Char) : trimChars cs <:+: cs := by
  obtain ⟨blank, -, hblank⟩ := exists_blank_of_trimEndChars (trimStartChars cs)
  have hprefix : trimChars cs <+: trimStartChars cs := ⟨blank, hblank.symm⟩
  exact hprefix.isInfix.trans (List.dropWhile_suffix isBlank).isInfix

/-- Nothing is trimmed from what has been trimmed. -/
theorem trimChars_trimChars (cs : List Char) : trimChars (trimChars cs) = trimChars cs := by
  have hhead := List.head?_dropWhile_not isBlank cs
  cases hstart : trimStartChars cs with
  | nil =>
      have hnil : trimChars cs = [] := by
        rw [trimChars, hstart]
        rfl
      rw [hnil]
      rfl
  | cons c rest =>
      have hc : isBlank c = false := by
        rw [trimStartChars] at hstart
        simpa [hstart] using hhead
      have htrim : trimChars cs = c :: trimEndChars rest := by
        rw [trimChars, hstart, trimEndChars_cons hc]
      have hagain : trimChars (c :: trimEndChars rest) = c :: trimEndChars (trimEndChars rest) :=
        @trimChars_append [] c (fun _ hb => absurd hb List.not_mem_nil) hc (trimEndChars rest)
      rw [htrim, hagain, trimEndChars_trimEndChars]

end Text

namespace Quoting

open Schema (IsLineEnd singleQuotes)
open Text

variable {quote c d : Char} {front back rest read : List Char}

/-! ## Reading escapes -/

/-- The code that so many hexadecimal digits stand for, and what stands behind them. -/
def readCode? : Nat → Nat → List Char → Option (Nat × List Char)
  | 0, code, cs => some (code, cs)
  | _ + 1, _, [] => none
  | missing + 1, code, c :: cs =>
    (Toml.hexValue? c).bind fun value => readCode? missing (16 * code + value) cs

/-- The character that is given by the digits of its code. -/
def readNumbered? (digits : Nat) (cs : List Char) : Option (List Char × List Char) :=
  (readCode? digits 0 cs).bind fun r => (Toml.charOf? r.1).map fun c => ([c], r.2)

def isOctal (c : Char) : Bool := '0' ≤ c && c ≤ '7'

def octalValue (digits : List Char) : Nat :=
  digits.foldl (fun value c => 8 * value + (c.toNat - '0'.toNat)) 0

/-- What an escape whose backslash has been read stands for, and what stands behind it. A backslash
before a line end joins two lines, one before a character that is no escape stands for itself. A
character that is given by its name is not looked up. -/
def readEscape? : List Char → Option (List Char × List Char)
  | [] => none
  | 'N' :: _ => none
  | '\n' :: cs => some ([], cs)
  | 'a' :: cs => some (['\x07'], cs)
  | 'b' :: cs => some (['\x08'], cs)
  | 'f' :: cs => some (['\x0c'], cs)
  | 'v' :: cs => some (['\x0b'], cs)
  | 'x' :: cs => readNumbered? 2 cs
  | 'u' :: cs => readNumbered? 4 cs
  | 'U' :: cs => readNumbered? 8 cs
  | c :: cs =>
    match unescaped? c with
    | some d => some ([d], cs)
    | none =>
      if isOctal c then
        let more := (cs.take 2).takeWhile isOctal
        some ([Char.ofNat (octalValue (c :: more))], cs.drop more.length)
      else some (['\\', c], cs)

theorem length_readCode? {missing code value : Nat}
    (h : readCode? missing code cs = some (value, rest)) : rest.length ≤ cs.length := by
  induction missing generalizing code cs with
  | zero =>
      obtain ⟨-, rfl⟩ := Prod.mk.inj (Option.some.inj h)
      exact Nat.le_refl _
  | succ missing ih =>
      cases cs with
      | nil => cases h
      | cons c cs =>
          obtain ⟨_, -, h⟩ := Option.bind_eq_some_iff.mp h
          exact Nat.le_succ_of_le (ih h)

theorem length_readNumbered? {digits : Nat} (h : readNumbered? digits cs = some (read, rest)) :
    rest.length ≤ cs.length := by
  obtain ⟨r, hcode, h⟩ := Option.bind_eq_some_iff.mp h
  obtain ⟨_, -, h⟩ := Option.map_eq_some_iff.mp h
  obtain ⟨-, rfl⟩ := Prod.mk.inj h
  exact length_readCode? hcode

theorem length_readEscape? (h : readEscape? cs = some (read, rest)) :
    rest.length < cs.length := by
  unfold readEscape? at h
  split at h
  case h_8 | h_9 | h_10 => exact Nat.lt_succ_of_le (length_readNumbered? h)
  case h_11 =>
    split at h
    · obtain ⟨-, rfl⟩ := Prod.mk.inj (Option.some.inj h)
      exact Nat.lt_succ_self _
    · split at h
      · obtain ⟨-, rfl⟩ := Prod.mk.inj (Option.some.inj h)
        simp only [List.length_drop, List.length_cons]
        omega
      · obtain ⟨-, rfl⟩ := Prod.mk.inj (Option.some.inj h)
        exact Nat.lt_succ_self _
  all_goals simp at h <;> simp [← h.2]

/-- What text stands for in which escapes are read. -/
def unescape? : List Char → Option (List Char)
  | [] => some []
  | c :: cs =>
    if c = '\\' then
      match _h : readEscape? cs with
      | none => none
      | some (read, rest) => (unescape? rest).map fun text => read ++ text
    else (unescape? cs).map fun text => c :: text
termination_by cs => cs.length
decreasing_by
  · have := length_readEscape? _h
    simp only [List.length_cons]
    omega
  · simp

/-- Whether the character behind the given ones is escaped: a backslash stands before it that is
not escaped itself. -/
def isEscapedBehind (cs : List Char) : Bool :=
  cs.foldl (fun escaped c => c = '\\' && !escaped) false

@[simp] theorem unescape?_nil : unescape? [] = some [] := by rw [unescape?]

theorem unescape?_plain (hc : c ≠ '\\') (cs : List Char) :
    unescape? (c :: cs) = (unescape? cs).map fun text => c :: text := by
  rw [unescape?, if_neg hc]

theorem readEscape?_of_unescaped? (h : unescaped? d = some c) (cs : List Char) :
    readEscape? (d :: cs) = some ([c], cs) := by
  unfold unescaped? at h
  split at h
  all_goals cases h
  all_goals rfl

theorem unescape?_escape (h : unescaped? d = some c) (cs : List Char) :
    unescape? ('\\' :: d :: cs) = (unescape? cs).map fun text => c :: text := by
  have hread := readEscape?_of_unescaped? h cs
  rw [unescape?, if_pos rfl]
  split
  · rename_i hnone
    exact absurd (hnone.symm.trans hread) (by simp)
  · rename_i read rest hsome
    obtain ⟨rfl, rfl⟩ := Prod.mk.inj (Option.some.inj (hsome.symm.trans hread))
    rfl

/-! ## Pieces -/

/-- A piece of quoted text stands for a character: it is an escape of it, or the character itself
and no backslash. -/
def StandsFor (piece : List Char) (c : Char) : Prop :=
  (∃ d, piece = ['\\', d] ∧ unescaped? d = some c) ∨ piece = [c] ∧ c ≠ '\\'

section
variable {encode : Char → List Char} {meaning : Char → Char}

theorem unescape?_flatMap (h : ∀ c, StandsFor (encode c) (meaning c)) (cs : List Char) :
    unescape? (cs.flatMap encode) = some (cs.map meaning) := by
  induction cs with
  | nil => exact unescape?_nil
  | cons c cs ih =>
      rw [List.flatMap_cons, List.map_cons]
      rcases h c with ⟨d, hpiece, hd⟩ | ⟨hpiece, hplain⟩
      · rw [hpiece, List.cons_append, List.cons_append, List.nil_append, unescape?_escape hd, ih]
        rfl
      · rw [hpiece, List.cons_append, List.nil_append, unescape?_plain hplain, ih]
        rfl

theorem isEscapedBehind_append (h : isEscapedBehind cs = false) (ds : List Char) :
    isEscapedBehind (cs ++ ds) = isEscapedBehind ds := by
  unfold isEscapedBehind at *
  rw [List.foldl_append, h]

/-- What stands behind a piece is not escaped. -/
theorem StandsFor.isEscapedBehind {piece : List Char} (h : StandsFor piece c) :
    isEscapedBehind piece = false := by
  rcases h with ⟨d, rfl, -⟩ | ⟨rfl, hc⟩
  · simp [Quoting.isEscapedBehind]
  · simp [Quoting.isEscapedBehind, hc]

theorem isEscapedBehind_flatMap (h : ∀ c, StandsFor (encode c) (meaning c)) (cs : List Char) :
    isEscapedBehind (cs.flatMap encode) = false := by
  induction cs with
  | nil => rfl
  | cons c cs ih => rw [List.flatMap_cons, isEscapedBehind_append (h c).isEscapedBehind, ih]

/-- A cut in a piece: an escaped character ends it, and another one begins it. -/
theorem StandsFor.cut {piece : List Char} (h : StandsFor piece c)
    (hcut : piece = front ++ d :: back) :
    if Quoting.isEscapedBehind front then piece = ['\\', d] else piece.head? = some d := by
  rcases h with ⟨e, rfl, -⟩ | ⟨rfl, -⟩
  · rcases front with _ | ⟨b, _ | ⟨b', front⟩⟩
    · simpa [Quoting.isEscapedBehind] using (List.cons.inj hcut).1
    · obtain ⟨rfl, hlast⟩ := List.cons.inj hcut
      simpa [Quoting.isEscapedBehind] using congrArg List.head? hlast
    · have hlength := congrArg List.length hcut
      simp at hlength
  · rcases front with _ | ⟨b, front⟩
    · simpa [Quoting.isEscapedBehind] using (List.cons.inj hcut).1
    · have hlength := congrArg List.length hcut
      simp at hlength

/-- An escaped character ends a piece, and one that is not escaped begins a piece. -/
theorem exists_piece (h : ∀ c, StandsFor (encode c) (meaning c))
    (hcut : cs.flatMap encode = front ++ d :: back) :
    ∃ c, if isEscapedBehind front then encode c = ['\\', d] else (encode c).head? = some d := by
  induction cs generalizing front with
  | nil => exact absurd hcut (by simp)
  | cons c cs ih =>
      -- the first piece ends unescaped, so behind it all is as in the rest
      have hbehind (front' : List Char) (hfront : front = encode c ++ front')
          (hcs : cs.flatMap encode = front' ++ d :: back) :
          ∃ c, if isEscapedBehind front then encode c = ['\\', d]
            else (encode c).head? = some d := by
        rw [hfront, isEscapedBehind_append (h c).isEscapedBehind]
        exact ih hcs
      rw [List.flatMap_cons] at hcut
      rcases List.append_eq_append_iff.mp hcut with ⟨front', hfront, hcs⟩ | ⟨behind, hpiece, hcs⟩
      · exact hbehind front' hfront hcs
      · cases behind with
        | nil => exact hbehind [] (by rw [hpiece, List.append_nil, List.append_nil]) hcs.symm
        | cons b more =>
            obtain ⟨rfl, -⟩ := List.cons.inj hcs
            exact ⟨c, (h c).cut hpiece⟩

end

/-! ## Literals -/

/-- A text between two quotes that is read as another one. Only the quotes at its ends count as
such, and it is one line. -/
def IsLiteral (quote : Char) (written text : String) : Prop :=
  ∃ body, written.toList = quote :: body ++ [quote] ∧ '\n' ∉ body ∧ '\r' ∉ body ∧
    (∀ front back, body = front ++ quote :: back → isEscapedBehind front = true) ∧
    isEscapedBehind body = false ∧ unescape? body = some text.toList

theorem standsFor_escapeChar (hquote : quote = '\x27' ∨ quote = '"') (c : Char) :
    StandsFor (escapeChar quote c) c := by
  rcases escapeChar_cases hquote c with h | ⟨h, -, hplain, -⟩
  · exact .inl h
  · exact .inr ⟨h, hplain⟩

theorem not_mem_escapeChar (hquote : quote = '\x27' ∨ quote = '"') (hline : IsLineEnd d)
    (c : Char) : d ∉ escapeChar quote c := by
  intro hm
  rcases escapeChar_cases hquote c with ⟨e, h, he⟩ | ⟨h, -, -, hc⟩
  · rw [h] at hm
    rcases hline with rfl | rfl <;> (simp at hm; subst hm; cases he)
  · rw [h, List.mem_singleton] at hm
    exact hc (hm ▸ hline)

theorem isLiteral_quoted (hquote : quote = '\x27' ∨ quote = '"') (text : String) :
    IsLiteral quote (quoted quote text) text := by
  have hpieces := standsFor_escapeChar hquote
  have hline {d : Char} (hd : IsLineEnd d) : d ∉ text.toList.flatMap (escapeChar quote) := by
    intro hm
    obtain ⟨c, -, hm⟩ := List.mem_flatMap.mp hm
    exact not_mem_escapeChar hquote hd c hm
  refine ⟨text.toList.flatMap (escapeChar quote), String.toList_ofList, hline (.inl rfl),
    hline (.inr rfl), fun front back hcut => ?_, isEscapedBehind_flatMap hpieces _, ?_⟩
  · obtain ⟨c, hc⟩ := exists_piece hpieces hcut
    by_contra hplain
    rw [if_neg hplain] at hc
    rcases escapeChar_cases hquote c with ⟨e, h, -⟩ | ⟨h, hne, -, -⟩
    · rw [h] at hc
      rcases hquote with rfl | rfl <;> exact absurd (Option.some.inj hc) (by decide)
    · rw [h] at hc
      exact hne (Option.some.inj hc)
  · rw [unescape?_flatMap hpieces, List.map_id']

/-! ## Docstrings -/

/-- Backslashes come in pairs: every run of them that is as long as can be has an even length. -/
def PairsBackslashes (cs : List Char) : Prop :=
  ∀ front run back, cs = front ++ run ++ back → (∀ c ∈ run, c = '\\') →
    front.getLast? ≠ some '\\' → back.head? ≠ some '\\' → run.length % 2 = 0

/-- One character inside a docstring. -/
def docstringChar (c : Char) : List Char :=
  if c = '\\' then ['\\', '\\'] else if c = '"' then ['\x27'] else [c]

theorem standsFor_docstringChar (c : Char) :
    StandsFor (docstringChar c) (if c = '"' then '\x27' else c) := by
  unfold docstringChar
  by_cases hc : c = '\\'
  · subst hc
    exact .inl ⟨'\\', rfl, rfl⟩
  · rw [if_neg hc]
    split
    · exact .inr ⟨rfl, by decide⟩
    · exact .inr ⟨rfl, hc⟩

theorem isEscapedBehind_of_getLast? (h : cs.getLast? ≠ some '\\') : isEscapedBehind cs = false := by
  rcases List.eq_nil_or_concat cs with rfl | ⟨init, last, rfl⟩
  · rfl
  · have hlast : last ≠ '\\' := by simpa using h
    simp [isEscapedBehind, hlast]

theorem foldl_backslashes (hcs : ∀ c ∈ cs, c = '\\') (escaped : Bool) :
    cs.foldl (fun escaped c => decide (c = '\\') && !escaped) escaped =
      (escaped ^^ decide (cs.length % 2 = 1)) := by
  induction cs generalizing escaped with
  | nil => simp
  | cons c cs ih =>
      obtain rfl := hcs c List.mem_cons_self
      rw [List.foldl_cons, ih fun c hc => hcs c (List.mem_cons_of_mem _ hc)]
      rcases Nat.mod_two_eq_zero_or_one cs.length with h | h <;> cases escaped <;>
        simp [h, Nat.add_mod]

theorem pairsBackslashes_docstring (text : String) :
    PairsBackslashes (docstring text).toList := by
  intro front run back hcut hrun hfront hback
  rw [docstring, String.toList_ofList] at hcut
  change text.toList.flatMap docstringChar = front ++ run ++ back at hcut
  by_contra hodd
  -- behind an odd run comes something escaped, and nothing but backslashes ever is
  have hescaped : isEscapedBehind (front ++ run) = true := by
    rw [isEscapedBehind_append (isEscapedBehind_of_getLast? hfront), isEscapedBehind,
      foldl_backslashes hrun]
    simpa using hodd
  cases back with
  | nil =>
      have hend := isEscapedBehind_flatMap standsFor_docstringChar text.toList
      rw [hcut, List.append_nil, hescaped] at hend
      exact absurd hend (by decide)
  | cons d back =>
      obtain ⟨c, hc⟩ := exists_piece standsFor_docstringChar hcut
      rw [if_pos hescaped, docstringChar] at hc
      split at hc
      · exact hback (congrArg some (List.cons.inj (List.cons.inj hc).2).1.symm)
      · split at hc <;> simp at hc

theorem not_mem_docstring (text : String) : '"' ∉ (docstring text).toList := by
  intro hm
  rcases Schema.Declaration.mem_docstring hm with hm | ⟨-, hne⟩
  · exact absurd hm (by decide)
  · exact hne rfl

theorem unescape?_docstring (text : String) :
    unescape? (docstring text).toList = some (singleQuotes text).toList := by
  rw [docstring, String.toList_ofList, singleQuotes, String.toList_ofList]
  exact unescape?_flatMap standsFor_docstringChar text.toList

/-! ## Comments -/

/-- The line breaks of Unicode: line feed, vertical tab, form feed, carriage return, next line, line
separator and paragraph separator. -/
def lineBreaks : List Char := ['\n', '\x0b', '\x0c', '\r', '\u0085', '\u2028', '\u2029']

/-- In a comment no two blanks stand in a row and no line end is spelled. -/
theorem isChain_comment (text : String) :
    (comment text).toList.IsChain Apart ∧ (comment text).toList.IsChain NotSpelled := by
  rw [comment, String.toList_ofList]
  have hapart := (isChain_apart_foldBlanksFrom false (spaced 0 text.toList)).1
  have hspelled := isChain_foldBlanksFrom (isChain_spaced 0 text.toList) false
  constructor
  · exact List.IsChain.infix hapart (infix_trimChars _)
  · exact List.IsChain.infix hspelled (infix_trimChars _)

theorem comment_comment (text : String) : comment (comment text) = comment text := by
  obtain ⟨hapart, hspelled⟩ := isChain_comment text
  -- each of the three steps finds nothing to do
  have hspace : ∀ c ∈ (comment text).toList, isBlank c = true → c = ' ' := fun c hc hb =>
    by_contra fun hne => Schema.Declaration.not_mem_comment_of_isBlank hb hne text hc
  have hspaced : replaceCharsFrom ['\\', 'n'] [' '] 0 (comment text).toList =
      (comment text).toList := spaced_eq_self hspelled
  have hfold : foldBlanks (comment text).toList = (comment text).toList :=
    foldBlanksFrom_eq_self hapart hspace (by simp)
  have htrim : trimChars (comment text).toList = (comment text).toList := by
    rw [comment, String.toList_ofList, trimChars_trimChars]
  rw [comment, hspaced, hfold, htrim, String.ofList_toList]

/-- **Quoting cannot be broken out of.** For every text: as a literal, in either quote, it is one
line that begins and ends with its quote, has no other quote that is not escaped, and is read as
the text. In a docstring there is no double quote, backslashes come in pairs, and it is read as the
text with single quotes for double ones. In a comment there is no line break and there are no two
blanks in a row, and making it a comment again changes nothing. -/
theorem quoting_inescapable (text : String) :
    (IsLiteral '"' (literal text) text ∧ IsLiteral '\x27' (singleQuoted text) text) ∧
    ('"' ∉ (docstring text).toList ∧ PairsBackslashes (docstring text).toList ∧
      unescape? (docstring text).toList = some (singleQuotes text).toList) ∧
    (∀ c ∈ lineBreaks, c ∉ (comment text).toList) ∧
    (∀ front c d back, (comment text).toList = front ++ c :: d :: back →
      ¬ (isBlank c = true ∧ isBlank d = true)) ∧
    comment (comment text) = comment text := by
  refine ⟨⟨isLiteral_quoted (.inr rfl) text, isLiteral_quoted (.inl rfl) text⟩,
    ⟨not_mem_docstring text, pairsBackslashes_docstring text, unescape?_docstring text⟩,
    fun c hc => ?_, fun front c d back hcut => ?_, comment_comment text⟩
  · have hall : (lineBreaks.all fun c => isBlank c && c != ' ') = true := by decide
    obtain ⟨hblank, hspace⟩ := Bool.and_eq_true_iff.mp (List.all_eq_true.mp hall c hc)
    exact Schema.Declaration.not_mem_comment_of_isBlank hblank (bne_iff_ne.mp hspace) text
  · have hchain := (isChain_comment text).1
    rw [hcut] at hchain
    exact hchain.right_of_append.rel

end Quoting

end StubGen
