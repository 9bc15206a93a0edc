import StubGen.Text.Split

/-!
# Patterns

A pattern is a text in which a star stands for any characters, a question mark for one, and
brackets for one of some characters; characters that are quoted stand for themselves.
-/

namespace StubGen.Shell

/-- What one character of a text has to be, or any number of them. -/
inductive Matcher where
  | one (accepts : Char → Bool)
  | many

/-- A pattern, in its order. -/
abbrev Pattern := List Matcher

namespace Pattern

/-- The characters of a named class. -/
def namedClass (name : String) : Char → Bool :=
  match name with
  | "alpha" => Char.isAlpha
  | "digit" => Char.isDigit
  | "alnum" => Char.isAlphanum
  | "upper" => Char.isUpper
  | "lower" => Char.isLower
  | "space" => fun c => " \t\n\x0b\x0c\r".toList.contains c
  | "blank" => fun c => c = ' ' || c = '\t'
  | "punct" => fun c => 32 < c.toNat && c.toNat < 127 && !c.isAlphanum
  | "xdigit" => fun c => c.isDigit || ('a' ≤ c.toLower && c.toLower ≤ 'f')
  | _ => fun _ => false

/-- Reads what stands between brackets up to the closing one: the test for a character and what
follows, if the brackets are closed. -/
def readSet? (isFirst : Bool) (accepts : Char → Bool) : Nat → List (Char × Bool) →
    Option ((Char → Bool) × List (Char × Bool))
  | 0, _ => none
  | steps + 1, cs =>
    match cs with
    | [] => none
    | (']', false) :: rest =>
      if isFirst then readSet? false (fun d => d = ']' || accepts d) steps rest
      else some (accepts, rest)
    | ('[', false) :: (':', false) :: rest =>
      let name := (rest.takeWhile fun c => c.1 ≠ ':').map Prod.fst
      let isClass := namedClass (String.ofList name)
      readSet? false (fun d => isClass d || accepts d) steps (rest.drop (name.length + 2))
    | (low, _) :: ('-', false) :: (high, isQuoted) :: rest =>
      if high = ']' && !isQuoted then
        readSet? false (fun d => d = low || d = '-' || accepts d) steps ((high, isQuoted) :: rest)
      else readSet? false (fun d => (low ≤ d && d ≤ high) || accepts d) steps rest
    | (c, _) :: rest => readSet? false (fun d => d = c || accepts d) steps rest

/-- The pattern that characters make up, of which some are quoted, in at most so many steps. -/
def read : Nat → List (Char × Bool) → Pattern
  | 0, _ => []
  | steps + 1, cs =>
    match cs with
    | [] => []
    | ('*', false) :: rest => .many :: read steps rest
    | ('?', false) :: rest => .one (fun _ => true) :: read steps rest
    | ('[', false) :: rest =>
      let (isNegated, inner) := match rest with
        | ('!', false) :: inner => (true, inner)
        | ('^', false) :: inner => (true, inner)
        | inner => (false, inner)
      match readSet? true (fun _ => false) (inner.length + 1) inner with
      | some (accepts, rest) => .one (fun c => accepts c != isNegated) :: read steps rest
      | none => .one (fun c => c = '[') :: read steps rest
    | (c, _) :: rest => .one (fun d => d = c) :: read steps rest

/-- The pattern that characters make up, of which some are quoted. -/
def ofChars (cs : List (Char × Bool)) : Pattern := read (cs.length + 1) cs

/-- The rests of a text behind each number of its characters, the whole text first. -/
def rests : List Char → List (List Char)
  | [] => [[]]
  | c :: cs => (c :: cs) :: rests cs

/-- Whether a pattern matches a whole text. -/
def accepts : Pattern → List Char → Bool
  | [], cs => cs.isEmpty
  | .many :: rest, cs => (rests cs).any (accepts rest)
  | .one test :: rest, c :: cs => test c && accepts rest cs
  | .one _ :: _, [] => false

/-- A text without the shortest or longest beginning that a pattern matches. -/
def trimStart (pattern : Pattern) (isLongest : Bool) (cs : List Char) : List Char :=
  let cuts := (rests cs).filter fun rest => pattern.accepts (cs.take (cs.length - rest.length))
  ((if isLongest then cuts.getLast? else cuts.head?)).getD cs

/-- A text without the shortest or longest end that a pattern matches. -/
def trimEnd (pattern : Pattern) (isLongest : Bool) (cs : List Char) : List Char :=
  let cuts := (rests cs).filter pattern.accepts
  match if isLongest then cuts.head? else cuts.getLast? with
  | some tail => cs.take (cs.length - tail.length)
  | none => cs

end Pattern

end StubGen.Shell
