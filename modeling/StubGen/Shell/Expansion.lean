import StubGen.Shell.Arithmetic
import StubGen.Shell.Pattern
import StubGen.Shell.Session

/-!
# The words of a command

Before a command runs, parameters, commands and expressions in its words are replaced by their
values. A value outside quotes is cut where it has separators, so that a word can make any number
of fields.
-/

namespace StubGen.Shell

/-- A piece of a word after its parts have been replaced. -/
inductive Piece where
  | char (c : Char) (isQuoted isReplaced : Bool)
  /-- Quotes, which make a field even with nothing between them. -/
  | quotes
  /-- The end of one of several values, which stand in fields of their own. -/
  | cut
deriving DecidableEq, Repr

namespace Piece

def ofText (isQuoted isReplaced : Bool) (text : String) : List Piece :=
  (if isQuoted then [.quotes] else []) ++ text.toList.map fun c => .char c isQuoted isReplaced

/-- The characters of pieces that are not to be cut. -/
def textOf (pieces : List Piece) : String :=
  String.ofList <| pieces.filterMap fun
    | .char c _ _ => some c
    | .cut => some ' '
    | .quotes => none

/-- The characters of pieces and whether they are quoted. -/
def marked (pieces : List Piece) : List (Char × Bool) :=
  pieces.filterMap fun
    | .char c isQuoted _ => some (c, isQuoted)
    | .cut => some (' ', true)
    | .quotes => none

/-- Cuts pieces into fields. `field` is the field that has begun, the last character first, and
`afterBlank` says that a blank has ended the field before. -/
def cutFields (separators : List Char) (field : Option (List Char)) (afterBlank : Bool) :
    List Piece → List String
  | [] => (field.map fun cs => String.ofList cs.reverse).toList
  | .quotes :: rest => cutFields separators (some (field.getD [])) false rest
  | .cut :: rest =>
    (field.map fun cs => String.ofList cs.reverse).toList ++ cutFields separators none false rest
  | .char c isQuoted isReplaced :: rest =>
    if isReplaced && !isQuoted && separators.contains c then
      let isBlank : Bool := c = ' ' || c = '\t' || c = '\n'
      match field with
      | some cs => String.ofList cs.reverse :: cutFields separators none isBlank rest
      | none =>
        if isBlank then cutFields separators none afterBlank rest
        else if afterBlank then cutFields separators none false rest
        else "" :: cutFields separators none false rest
    else cutFields separators (some (c :: field.getD [])) false rest

end Piece

/-- A text without the line ends behind it. -/
def trimLineEnds (text : String) : String :=
  String.ofList (text.toList.reverse.dropWhile fun c => c = '\n').reverse

/-- A text without double quotes, those behind a backslash aside. -/
def dropQuotes : List Char → List Char
  | '\\' :: c :: cs => '\\' :: c :: dropQuotes cs
  | c :: cs => if c = '"' then dropQuotes cs else c :: dropQuotes cs
  | [] => []

namespace Running

/-- The characters that separate fields. -/
def separators : Running (List Char) := do
  return (((← get).valueOf? "IFS").getD " \t\n").toList

/-- The value of a parameter. -/
def parameter? (name : String) : Running (Option String) := do
  let s ← get
  match name with
  | "?" => return some s.status.repr
  | "#" => return some s.args.length.repr
  | "$" => return some "1"
  | "!" => return none
  | "-" => return some (String.ofList s.options)
  | "0" => return some s.name
  | "@" => return if s.args.isEmpty then none else some (Text.join " " s.args)
  | "*" =>
    let gap := match (← separators) with
      | [] => ""
      | c :: _ => String.singleton c
    return if s.args.isEmpty then none else some (Text.join gap s.args)
  | _ =>
    match name.toNat? with
    | some n => return s.args[n - 1]?
    | none => return s.valueOf? name

/-- The pieces of several values, each of which makes fields of its own. -/
def valuesApart (isQuoted : Bool) (values : List String) : List Piece :=
  (values.map (Piece.ofText isQuoted true)).intersperse [.cut] |>.flatten

/-- The value of an expression in which all has been replaced. -/
def calculated (expression : String) : Running String := do
  match calculate expression (← get).bindings with
  | .ok (value, bindings) =>
    modify fun s => { s with bindings := bindings }
    return toString value
  | .error message => abort none message

/-- The word that belongs to an operator. -/
def innerWord (isQuoted : Bool) (text : String) : Running Word := do
  match openWord isQuoted text with
  | .ok word => return word
  | .error fault => abort none ("Syntax error: " ++ fault.text)

/-- The pieces of a word, with at most so many words inside one another. `substitute` runs a script
with its closing text and gives what it writes; `isReplaced` says whether all of the word stands for a value. -/
def piecesOf (substitute : String → String → Running String) : Nat → Bool → Word → Running (List Piece)
  | 0, _, _ => return []
  | depth + 1, isReplaced, word => do
    let pieces ← word.mapM fun part => do
      match part with
      | .text text isQuoted => return Piece.ofText isQuoted isReplaced text
      | .size name isQuoted =>
        let value ← parameter? name
        if value.isNone && (← get).options.contains 'u' then
          abort none (name ++ ": parameter not set")
        let value := value.getD ""
        return Piece.ofText isQuoted true value.length.repr
      | .output script closing isQuoted =>
        let text ← substitute script closing
        return Piece.ofText isQuoted true (trimLineEnds text)
      | .number expression isQuoted =>
        let inner ← piecesOf substitute depth false (← innerWord true expression)
        return Piece.ofText isQuoted true (← calculated (Piece.textOf inner))
      | .value name operator text isQuoted =>
        let value ← parameter? name
        let kept (value : String) : Running (List Piece) := return Piece.ofText isQuoted true value
        let inner : Running (List Piece) := do
          let text := if isQuoted then String.ofList (dropQuotes text.toList) else text
          piecesOf substitute depth true (← innerWord isQuoted text)
        let present := if Text.startsWith ":" operator then value.filter fun v => v != "" else value
        let trimmed (trim : Pattern → Bool → List Char → List Char) (isLongest : Bool) :
            Running (List Piece) := do
          let pieces ← piecesOf substitute depth true (← innerWord false text)
          let pattern := Pattern.ofChars (Piece.marked pieces)
          kept (String.ofList (trim pattern isLongest (value.getD "").toList))
        if value.isNone && (← get).options.contains 'u' && name ≠ "@" && name ≠ "*" &&
            ["", "#", "##", "%", "%%"].contains operator then
          abort none (name ++ ": parameter not set")
        match operator with
        | "" =>
          if name = "@" || (name = "*" && !isQuoted) then
            return valuesApart isQuoted (← get).args
          else if name = "" then abort none "Bad substitution"
          else kept (value.getD "")
        | "-" | ":-" =>
          match present with
          | some value => kept value
          | none => inner
        | "+" | ":+" => if present.isSome then inner else kept ""
        | "=" | ":=" =>
          match present with
          | some value => kept value
          | none =>
            let value := Piece.textOf (← inner)
            assign name value
            kept value
        | "?" | ":?" =>
          match present with
          | some value => kept value
          | none =>
            let said := Piece.textOf (← inner)
            let standard := "parameter not set" ++ if operator = ":?" then " or null" else ""
            abort none (name ++ ": " ++ if said.isEmpty then standard else said)
        | "#" => trimmed Pattern.trimStart false
        | "##" => trimmed Pattern.trimStart true
        | "%" => trimmed Pattern.trimEnd false
        | "%%" => trimmed Pattern.trimEnd true
        | _ => abort none "Bad substitution"
    return pieces.flatten

/-- How many words can be inside one another. -/
def wordDepth : Nat := 64

/-- Whether a word is nothing but values of which there are none. -/
def vanishes (word : Word) : Running Bool := do
  let s ← get
  return s.args.isEmpty && word.any (fun part => part == .value "@" "" "" true) &&
    word.all fun part => part == .value "@" "" "" true || part == .text "" true

/-- The fields that a word makes. -/
def fieldsOf (substitute : String → String → Running String) (word : Word) : Running (List String) := do
  if ← vanishes word then return []
  let pieces ← piecesOf substitute wordDepth false word
  return Piece.cutFields (← separators) none false pieces

/-- The text that a word makes where it is not cut. -/
def textOf (substitute : String → String → Running String) (word : Word) : Running String := do
  return Piece.textOf (← piecesOf substitute wordDepth false word)

/-- The pattern that a word makes. -/
def patternOf (substitute : String → String → Running String) (word : Word) : Running Pattern := do
  return Pattern.ofChars (Piece.marked (← piecesOf substitute wordDepth false word))

end Running

end StubGen.Shell
