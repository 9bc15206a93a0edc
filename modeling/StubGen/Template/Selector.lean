import StubGen.Json.Number
import StubGen.Json.Basic
import StubGen.Template.Basic
import StubGen.Text.Split

/-!
# Selectors

A selector leads from a value to one inside it, by the keys of objects and the indices of arrays:
`user.name`, `items.0`, `items/[a key]`. Both separators mean the same, and `this` stands for the
value that has been reached. The gaps of a template are filled by the selectors that are their
names, except for a few names of helpers, which stand for a text of their own or for none.
-/

namespace StubGen.Template

structure Selector where
  /-- Whether a variable of the template is wanted and not a part of the value. -/
  isLocal : Bool
  keys : List String
deriving DecidableEq, Repr

namespace Selector

/-- Whether a character may stand in a key that is not in brackets. -/
def isKeyChar (c : Char) : Bool :=
  c.isAlphanum || c == '_' || c == '-' || c == '$' || 128 ≤ c.toNat

def isSeparator (c : Char) : Bool := c == '.' || c == '/'

/-- What follows a word and a separator, if they stand in front. -/
def afterWord? (word : String) (cs : List Char) : Option (List Char) :=
  match Text.afterChars? word.toList cs with
  | some (c :: rest) => if isSeparator c then some rest else none
  | _ => none

/-- Characters without a word and a separator in front. -/
def dropWord (word : String) (cs : List Char) : List Char := (afterWord? word cs).getD cs

/-- Characters without the steps back in front, at most so many. -/
def dropStepsBack : Nat → List Char → List Char
  | 0, cs => cs
  | count + 1, cs =>
    match afterWord? ".." cs with
    | some rest => dropStepsBack count rest
    | none => cs

/-- A key, which may be any text in brackets, and what follows. -/
def readKey? (cs : List Char) : Option (String × List Char) :=
  match cs with
  | '[' :: rest =>
    match rest.span (fun c => c != ']') with
    | (key, _ :: rest) => some (String.ofList key, rest)
    | _ => none
  | _ =>
    match cs.span isKeyChar with
    | ([], _) => none
    | (key, rest) => some (String.ofList key, rest)

/-- Keys with separators between them, at most so many, and what follows. -/
def readKeys? : Nat → List Char → Option (List String × List Char)
  | 0, _ => none
  | count + 1, cs => do
    let (key, rest) ← readKey? cs
    match rest with
    | c :: more =>
      match if isSeparator c then readKeys? count more else none with
      | some (keys, rest) => return (key :: keys, rest)
      | none => return ([key], rest)
    | [] => return ([key], [])

/-- A selector at the beginning of some characters, and what follows. Steps back from the whole
value lead nowhere else. -/
def read? (cs : List Char) : Option (Selector × List Char) := do
  let rest := match Text.afterChars? ['.', '/'] cs with
    | some rest => rest
    | none => dropWord "this" cs
  let rest := dropWord "@root" rest
  let (isLocal, rest) := match rest with
    | '@' :: rest => (true, rest)
    | rest => (false, rest)
  let rest := dropStepsBack rest.length rest
  let (keys, rest) ← readKeys? (rest.length + 1) rest
  return (⟨isLocal, keys.filter fun key => key != "this"⟩, rest)

/-- The selector that is spelled by a text. -/
def ofText? (text : String) : Option Selector :=
  match read? text.toList with
  | some (selector, []) => some selector
  | _ => none

/-- The index that a key stands for. -/
def index? (key : String) : Option Nat :=
  let digits := match key.toList with
    | '+' :: digits => digits
    | digits => digits
  if digits.isEmpty || !digits.all Char.isDigit then none else some (Json.readDigits digits)

/-- What is under a key of a value. -/
def member? (value : Json) (key : String) : Option Json :=
  match value with
  | .arr items => (index? key).bind fun index => items[index]?
  | value => value.get? key

/-- What a selector leads to. No template has variables. -/
def select? (selector : Selector) (value : Json) : Option Json :=
  if selector.isLocal then none else selector.keys.foldlM member? value

end Selector

mutual

/-- A JSON value in a gap: text as it is, lists item by item, and objects by a mere mark. -/
def valueText : Json → String
  | .null => ""
  | .bool true => "true"
  | .bool false => "false"
  | .int n => String.ofList (Json.intDigits n)
  | .float x => String.ofList (Json.floatChars x)
  | .str text => text
  | .arr items => "[" ++ Text.join ", " (valueTexts items) ++ "]"
  | .obj _ => "[object]"

def valueTexts : List Json → List String
  | [] => []
  | item :: items => valueText item :: valueTexts items

end

/-- The names of helpers, with the text of those that need nothing to work on. -/
def helpers : List (String × Option String) :=
  [("and", some "true"), ("or", some "false"), ("log", some ""), ("raw", some ""), ("not", none),
   ("eq", none), ("ne", none), ("gt", none), ("gte", none), ("lt", none), ("lte", none),
   ("len", none), ("lookup", none), ("if", none), ("unless", none), ("each", none),
   ("with", none)]

/-- The text of the gap of a name for a value. -/
def gapText? (value : Json) (name : String) : Option String :=
  match helpers.lookup name with
  | some text? => text?
  | none => do
    let selector ← Selector.ofText? name
    let selected ← selector.select? value
    return valueText selected

/-- The text of a template for a value. -/
def render? (template : Template) (value : Json) : Option String :=
  template.fill? (gapText? value)

end StubGen.Template
