import StubGen.Json.Number

/-!
# JSON tokens

Text is cut into marks, words, strings and numbers. White space is the space, the tab and the two
line end characters. The lexer goes on as long as a token is shorter than what it was cut from,
which every token is.
-/

namespace StubGen.Json

inductive Token where
  | openArray
  | closeArray
  | openObject
  | closeObject
  | comma
  | colon
  | null
  | bool (value : Bool)
  | int (value : Int)
  | float (value : Float)
  | str (text : String)

def isJsonBlank (c : Char) : Bool := c = ' ' || c = '\n' || c = '\t' || c = '\r'

/-- The value of a hexadecimal digit. -/
def hexValue? (c : Char) : Option Nat :=
  if c.isDigit then some (c.toNat - '0'.toNat)
  else if 'a' ≤ c ∧ c ≤ 'f' then some (c.toNat - 'a'.toNat + 10)
  else if 'A' ≤ c ∧ c ≤ 'F' then some (c.toNat - 'A'.toNat + 10)
  else none

/-- The code unit that four hexadecimal digits stand for. -/
def codeUnit? (a b c d : Char) : Option Nat := do
  let a ← hexValue? a
  let b ← hexValue? b
  let c ← hexValue? c
  let d ← hexValue? d
  return ((a * 16 + b) * 16 + c) * 16 + d

/-- The character that a letter stands for behind a backslash. -/
def simpleEscape? (c : Char) : Option Char :=
  match c with
  | '\x22' => some '\x22'
  | '\\' => some '\\'
  | '/' => some '/'
  | 'b' => some '\x08'
  | 'f' => some '\x0c'
  | 'n' => some '\n'
  | 'r' => some '\r'
  | 't' => some '\t'
  | _ => none

/-- Puts a character in front of what was scanned. -/
def consScanned (c : Char) : Option (List Char × List Char) → Option (List Char × List Char)
  | none => none
  | some (text, after) => some (c :: text, after)

theorem consScanned_eq_some {c : Char} {scanned : Option (List Char × List Char)}
    {text rest : List Char} (h : consScanned c scanned = some (text, rest)) :
    ∃ tail, scanned = some (tail, rest) := by
  cases scanned with
  | none => simp [consScanned] at h
  | some pair =>
    simp only [consScanned, Option.some.injEq, Prod.mk.injEq] at h
    exact ⟨pair.1, by rw [← h.2]⟩

/-- The content of a string behind its opening quote, and the text behind its closing one. Pairs
of surrogates make one character; a lone surrogate, a raw control character and an unknown escape
are refused. -/
def scanString : List Char → Option (List Char × List Char)
  | [] => none
  | '\x22' :: rest => some ([], rest)
  | '\\' :: 'u' :: a :: b :: c :: d :: rest =>
    match codeUnit? a b c d with
    | none => none
    | some unit =>
      if 0xDC00 ≤ unit ∧ unit ≤ 0xDFFF then none
      else if 0xD800 ≤ unit ∧ unit ≤ 0xDBFF then
        match rest with
        | '\\' :: 'u' :: e :: f :: g :: h :: rest' =>
          match codeUnit? e f g h with
          | none => none
          | some low =>
            if 0xDC00 ≤ low ∧ low ≤ 0xDFFF then
              let code := 0x10000 + (unit - 0xD800) * 0x400 + (low - 0xDC00)
              consScanned (Char.ofNat code) (scanString rest')
            else none
        | _ => none
      else consScanned (Char.ofNat unit) (scanString rest)
  | '\\' :: e :: rest =>
    match simpleEscape? e with
    | none => none
    | some c => consScanned c (scanString rest)
  | ['\\'] => none
  | c :: rest =>
    if c.toNat < 32 then none
    else consScanned c (scanString rest)

theorem length_of_scanString {cs text rest : List Char} (h : scanString cs = some (text, rest)) :
    rest.length < cs.length := by
  fun_induction scanString cs generalizing text rest <;>
    simp only [List.length_cons, List.length_nil] <;> grind [consScanned_eq_some]

/-- The letters of a word. -/
def isWordLetter (c : Char) : Bool := c.isAlpha

/-- The token that a word stands for. -/
def wordToken? (word : List Char) : Option Token :=
  if word = "null".toList then some .null
  else if word = "true".toList then some (.bool true)
  else if word = "false".toList then some (.bool false)
  else none

/-- Digits behind a point, of which there must be one. -/
def scanFraction : List Char → Option (Option (List Char) × List Char)
  | '.' :: cs =>
    let digits := cs.takeWhile Char.isDigit
    if digits.isEmpty then none else some (some digits, cs.dropWhile Char.isDigit)
  | cs => some (none, cs)

/-- An exponent's sign and digits, of which there must be one. -/
def scanExponent : List Char → Option (Option (Bool × List Char) × List Char)
  | [] => some (none, [])
  | c :: cs =>
    if c = 'e' || c = 'E' then
      let (negative, rest) :=
        match cs with
        | '-' :: r => (true, r)
        | '+' :: r => (false, r)
        | r => (false, r)
      let digits := rest.takeWhile Char.isDigit
      if digits.isEmpty then none
      else some (some (negative, digits), rest.dropWhile Char.isDigit)
    else some (none, c :: cs)

/-- The token of a number's parts. Without point and exponent it is a whole number if it fits
into 64 bits, signed when it is below zero; minus zero is a floating-point number. -/
def NumberText.token? (t : NumberText) : Option Token :=
  let n := readDigits t.whole
  if t.fraction.isNone && t.exponent.isNone &&
      (if t.negative then 0 < n && n ≤ Nat.pow 2 63 else n < Nat.pow 2 64) then
    some (.int (if t.negative then -n else n))
  else t.float?.map .float

/-- Whether digits may stand before a point: a zero stands alone, any other number begins with
another digit. -/
def isWholePart : List Char → Bool
  | [] => false
  | ['0'] => true
  | c :: _ => c ≠ '0'

/-- A number behind its sign. -/
def scanNumber (negative : Bool) (cs : List Char) : Option (Token × List Char) :=
  let whole := cs.takeWhile Char.isDigit
  if isWholePart whole then do
    let (fraction, rest) ← scanFraction (cs.dropWhile Char.isDigit)
    let (exponent, rest) ← scanExponent rest
    let token ← NumberText.token? ⟨negative, whole, fraction, exponent⟩
    return (token, rest)
  else none

/-- The token that a mark stands for. -/
def markToken? (c : Char) : Option Token :=
  match c with
  | '[' => some .openArray
  | ']' => some .closeArray
  | '\x7b' => some .openObject
  | '\x7d' => some .closeObject
  | ',' => some .comma
  | ':' => some .colon
  | _ => none

/-- The first token of a text that does not begin with white space, and what follows it. -/
def nextToken? : List Char → Option (Token × List Char)
  | [] => none
  | c :: cs =>
    match markToken? c with
    | some token => some (token, cs)
    | none =>
      if c = '\x22' then
        (scanString cs).map fun (text, rest) => (.str (String.ofList text), rest)
      else if c = '-' then scanNumber true cs
      else if c.isDigit then scanNumber false (c :: cs)
      else if isWordLetter c then
        (wordToken? (c :: cs.takeWhile isWordLetter)).map fun t => (t, cs.dropWhile isWordLetter)
      else none

theorem length_dropWhile_le (p : Char → Bool) (cs : List Char) :
    (cs.dropWhile p).length ≤ cs.length :=
  (List.dropWhile_sublist p).length_le

theorem length_of_scanFraction {cs rest : List Char} {fraction : Option (List Char)}
    (h : scanFraction cs = some (fraction, rest)) : rest.length ≤ cs.length := by
  unfold scanFraction at h
  split at h
  · have := length_dropWhile_le Char.isDigit
    grind
  · simp at h
    simp [h.2]

theorem length_of_scanExponent {cs rest : List Char} {exponent : Option (Bool × List Char)}
    (h : scanExponent cs = some (exponent, rest)) : rest.length ≤ cs.length := by
  have := length_dropWhile_le Char.isDigit
  unfold scanExponent at h
  grind

theorem length_of_scanNumber {negative : Bool} {cs rest : List Char} {token : Token}
    (h : scanNumber negative cs = some (token, rest)) : rest.length < cs.length := by
  have hlen := congrArg List.length (List.takeWhile_append_dropWhile (p := Char.isDigit) (l := cs))
  rw [List.length_append] at hlen
  simp only [scanNumber] at h
  split at h
  · rename_i hw
    have hpos : 0 < (cs.takeWhile Char.isDigit).length := by
      revert hw
      cases cs.takeWhile Char.isDigit <;> simp [isWholePart]
    simp only [bind, Option.bind_eq_some_iff] at h
    obtain ⟨⟨f, r1⟩, h1, ⟨e, r2⟩, h2, t, _, h4⟩ := h
    have e1 := length_of_scanFraction h1
    have e2 := length_of_scanExponent h2
    simp at h4
    simp only at e2
    rw [← h4.2]
    omega
  · simp at h

theorem length_of_nextToken? {cs rest : List Char} {token : Token}
    (h : nextToken? cs = some (token, rest)) : rest.length < cs.length := by
  cases cs with
  | nil => simp [nextToken?] at h
  | cons c cs =>
    have hdrop := length_dropWhile_le isWordLetter cs
    have hstr := @length_of_scanString cs
    have hneg := @length_of_scanNumber true cs
    have hpos := @length_of_scanNumber false (c :: cs)
    simp only [nextToken?] at h
    grind [Option.map_eq_some_iff]

/-- The tokens of a text; nothing when some part of it is none. -/
def tokens? (cs : List Char) : Option (List Token) :=
  match _h : cs.dropWhile isJsonBlank with
  | [] => some []
  | c :: rest =>
    match _h' : nextToken? (c :: rest) with
    | none => none
    | some (token, after) => (tokens? after).map (token :: ·)
termination_by cs.length
decreasing_by
  have h1 := length_of_nextToken? _h'
  have h2 := length_dropWhile_le isJsonBlank cs
  rw [_h] at h2
  omega

end StubGen.Json
