/-!
# Cutting text

Cutting at a separator, into lines, and at a prefix or suffix, and replacing one text by another
throughout. The functions on lists of characters carry the rules; those on `String` wrap them.
-/

namespace StubGen.Text

/-- The pieces between the separators, one more than there are separators. -/
def splitChars (sep : Char) : List Char → List (List Char)
  | [] => [[]]
  | c :: cs =>
    if c = sep then [] :: splitChars sep cs
    else
      match splitChars sep cs with
      | [] => [[c]]
      | piece :: pieces => (c :: piece) :: pieces

/-- Pieces set side by side with a separator between them. -/
def joinChars (sep : List Char) : List (List Char) → List Char
  | [] => []
  | [piece] => piece
  | piece :: pieces => piece ++ sep ++ joinChars sep pieces

theorem splitChars_ne_nil (sep : Char) (cs : List Char) : splitChars sep cs ≠ [] := by
  cases cs with
  | nil => simp [splitChars]
  | cons c cs =>
    unfold splitChars
    split
    · simp
    · split <;> simp

/-- The pieces of a text between the separators, one more than there are separators. -/
def split (sep : Char) (s : String) : List String :=
  (splitChars sep s.toList).map String.ofList

/-- Texts set side by side with a separator between them. -/
def join (sep : String) (pieces : List String) : String :=
  String.ofList (joinChars sep.toList (pieces.map String.toList))

/-- A line without the carriage return at its end. -/
def dropReturn (line : List Char) : List Char :=
  match line.reverse with
  | '\r' :: rest => rest.reverse
  | _ => line

/-- The lines of a text: it is cut at line feeds, the piece after the last one counts only if it
is not empty, and a carriage return before a line feed belongs to it. -/
def linesChars (cs : List Char) : List (List Char) :=
  let pieces := splitChars '\n' cs
  match pieces.getLast? with
  | some [] => pieces.dropLast.map dropReturn
  | some last => pieces.dropLast.map dropReturn ++ [last]
  | none => []

/-- The lines of a text, without their line ends. -/
def lines (s : String) : List String :=
  (linesChars s.toList).map String.ofList

/-- The rest of the characters behind a lead, when they begin with it. -/
def afterChars? : List Char → List Char → Option (List Char)
  | [], cs => some cs
  | _ :: _, [] => none
  | p :: ps, c :: cs => if p = c then afterChars? ps cs else none

theorem afterChars?_eq_some_iff {ps cs rest : List Char} :
    afterChars? ps cs = some rest ↔ cs = ps ++ rest := by
  induction ps generalizing cs with
  | nil => simp [afterChars?]
  | cons p ps ih =>
    cases cs with
    | nil => simp [afterChars?]
    | cons c cs =>
      by_cases h : p = c
      · simp [afterChars?, h, ih]
      · simp [afterChars?, h]
        exact fun hc => absurd hc.symm h

/-- The rest of a text behind a lead, when it begins with it. -/
def after? (lead s : String) : Option String :=
  (afterChars? lead.toList s.toList).map String.ofList

/-- The part of the characters before a tail, when they end with it. -/
def beforeChars? (tail cs : List Char) : Option (List Char) :=
  (afterChars? tail.reverse cs.reverse).map List.reverse

/-- The part of a text before a tail, when it ends with it. -/
def before? (tail s : String) : Option String :=
  (beforeChars? tail.toList s.toList).map String.ofList

/-- Whether a text begins with a lead. -/
def startsWith (lead s : String) : Bool :=
  (after? lead s).isSome

/-- Characters with every occurrence of a pattern replaced, from the left and without overlap;
`skip` characters of an occurrence already replaced are still to be passed over. -/
def replaceCharsFrom (pattern replacement : List Char) : Nat → List Char → List Char
  | _, [] => []
  | skip + 1, _ :: cs => replaceCharsFrom pattern replacement skip cs
  | 0, c :: cs =>
    if (afterChars? pattern (c :: cs)).isSome then
      replacement ++ replaceCharsFrom pattern replacement (pattern.length - 1) cs
    else c :: replaceCharsFrom pattern replacement 0 cs

/-- A text with every occurrence of a pattern, which is not empty, replaced. -/
def replace (pattern replacement s : String) : String :=
  String.ofList (replaceCharsFrom pattern.toList replacement.toList 0 s.toList)

/-- Whether a pattern occurs in the characters. -/
def containsChars (pattern : List Char) : List Char → Bool
  | [] => pattern.isEmpty
  | c :: cs => (afterChars? pattern (c :: cs)).isSome || containsChars pattern cs

/-- Whether a pattern occurs in a text. -/
def contains (pattern s : String) : Bool :=
  containsChars pattern.toList s.toList

/-- The last piece of a text cut at a separator. -/
def lastPiece (sep : Char) (s : String) : String :=
  (split sep s).getLast?.getD ""

end StubGen.Text
