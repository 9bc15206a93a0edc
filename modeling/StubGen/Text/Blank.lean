import StubGen.Text.Range

/-!
# White space

The property White_Space of Unicode, and what is done with it: trimming a text, telling whether
it is blank, cutting it into its words and folding every stretch of blanks into one space.
-/

namespace StubGen.Text

/-- The white space from code point 128 on. -/
def blankRanges : List (Nat × Nat) :=
  [(0x85, 0x85), (0xa0, 0xa0), (0x1680, 0x1680), (0x2000, 0x200a), (0x2028, 0x2029),
   (0x202f, 0x202f), (0x205f, 0x205f), (0x3000, 0x3000)]

/-- Whether a character is white space. -/
def isBlank (c : Char) : Bool :=
  if c.toNat < 128 then c == ' ' || (9 ≤ c.toNat && c.toNat ≤ 13)
  else inRanges blankRanges c.toNat

theorem isBlank_of_isWhitespace {c : Char} (h : c.isWhitespace = true) : isBlank c = true := by
  simp only [Char.isWhitespace, Bool.or_eq_true, decide_eq_true_eq] at h
  rcases h with ((h | h) | h) | h <;> subst h <;> decide

/-- Characters without the white space in front. -/
def trimStartChars (cs : List Char) : List Char :=
  cs.dropWhile isBlank

/-- Characters without the white space at the end. -/
def trimEndChars (cs : List Char) : List Char :=
  (cs.reverse.dropWhile isBlank).reverse

/-- Characters without the white space at either end. -/
def trimChars (cs : List Char) : List Char :=
  trimEndChars (trimStartChars cs)

/-- A text without the white space at its end. -/
def trimEnd (s : String) : String :=
  String.ofList (trimEndChars s.toList)

/-- A text without the white space at either end. -/
def trim (s : String) : String :=
  String.ofList (trimChars s.toList)

/-- Whether a text holds white space only. -/
def isBlankText (s : String) : Bool :=
  s.toList.all isBlank

/-- The words of a text, read from the left; `word` is the part already read of the current one,
in reverse. -/
def wordsFrom (word : List Char) : List Char → List (List Char)
  | [] => if word.isEmpty then [] else [word.reverse]
  | c :: cs =>
    if isBlank c then
      if word.isEmpty then wordsFrom [] cs else word.reverse :: wordsFrom [] cs
    else wordsFrom (c :: word) cs

/-- The longest stretches of a text that hold no white space. -/
def words (s : String) : List String :=
  (wordsFrom [] s.toList).map String.ofList

/-- Characters with every stretch of white space folded into one space; `inGap` tells that the
character before was white space. -/
def foldBlanksFrom (inGap : Bool) : List Char → List Char
  | [] => []
  | c :: cs =>
    if isBlank c then
      if inGap then foldBlanksFrom true cs else ' ' :: foldBlanksFrom true cs
    else c :: foldBlanksFrom false cs

/-- Characters with every stretch of white space folded into one space. -/
def foldBlanks (cs : List Char) : List Char :=
  foldBlanksFrom false cs

end StubGen.Text
