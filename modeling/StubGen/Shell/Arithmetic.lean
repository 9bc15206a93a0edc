import StubGen.Shell.Formatting
import StubGen.Shell.Word

/-!
# Arithmetic

Expressions of whole numbers with 64 bits and of variables, which they can also set. A variable that
has no value counts as zero.
-/

namespace StubGen.Shell

/-- An expression while it is worked out: what is left of it, and the variables. -/
structure Calculation where
  rest : List Char
  bindings : List (String × String)

abbrev Calculating := StateT Calculation (Except String)

namespace Calculating

/-- A number as 64 bits hold it. -/
def wrap (n : Int) : Int := Int.bmod n 0x10000000000000000

/-- Operators between two operands with how tightly they bind; longer ones come first. -/
def binaryOperators : List (String × Nat) :=
  [("||", 1), ("&&", 2), ("<<", 8), (">>", 8), ("<=", 7), (">=", 7), ("==", 6), ("!=", 6),
   ("|", 3), ("^", 4), ("&", 5), ("<", 7), (">", 7), ("+", 9), ("-", 9), ("*", 10), ("/", 10),
   ("%", 10)]

/-- Operators that set a variable, with what they do to its value before. -/
def assignmentOperators : List (String × String) :=
  [("<<=", "<<"), (">>=", ">>"), ("+=", "+"), ("-=", "-"), ("*=", "*"), ("/=", "/"), ("%=", "%"),
   ("&=", "&"), ("|=", "|"), ("^=", "^")]

def ofTruth (b : Bool) : Int := if b then 1 else 0

/-- The bits of two numbers put together. -/
def onBits (f : UInt64 → UInt64 → UInt64) (a b : Int) : Int :=
  let bits (n : Int) : UInt64 := UInt64.ofNat (n % 0x10000000000000000).toNat
  wrap (f (bits a) (bits b)).toNat

/-- The value of an operator. -/
def apply (operator : String) (a b : Int) : Except String Int :=
  match operator with
  | "||" => .ok (ofTruth (a != 0 || b != 0))
  | "&&" => .ok (ofTruth (a != 0 && b != 0))
  | "|" => .ok (onBits (· ||| ·) a b)
  | "^" => .ok (onBits (· ^^^ ·) a b)
  | "&" => .ok (onBits (· &&& ·) a b)
  | "==" => .ok (ofTruth (a == b))
  | "!=" => .ok (ofTruth (a != b))
  | "<" => .ok (ofTruth (a < b))
  | ">" => .ok (ofTruth (b < a))
  | "<=" => .ok (ofTruth (a ≤ b))
  | ">=" => .ok (ofTruth (b ≤ a))
  | "<<" => .ok (wrap (a * Int.ofNat (1 <<< (b % 64).toNat)))
  | ">>" => .ok (a.fdiv (Int.ofNat (1 <<< (b % 64).toNat)))
  | "+" => .ok (wrap (a + b))
  | "-" => .ok (wrap (a - b))
  | "*" => .ok (wrap (a * b))
  | "/" => if b = 0 then .error "division by zero" else .ok (wrap (a.tdiv b))
  | _ => if b = 0 then .error "division by zero" else .ok (a.tmod b)

def skipBlanks : Calculating Unit :=
  modify fun s => { s with rest := s.rest.dropWhile fun c => c = ' ' || c = '\t' || c = '\n' }

/-- Passes over a text if it comes next. -/
def accept (text : String) : Calculating Bool := do
  skipBlanks
  let s ← get
  match Text.afterChars? text.toList s.rest with
  | some rest =>
    set { s with rest := rest }
    return true
  | none => return false

/-- The first of some operators that comes next, without passing over it. -/
def upcoming? {α : Type} (operators : List (String × α)) : Calculating (Option (String × α)) := do
  skipBlanks
  let s ← get
  return operators.find? fun o => (Text.afterChars? o.1.toList s.rest).isSome

/-- The value of a variable. -/
def valueOf (name : String) : Calculating Int := do
  let text := ((← get).bindings.lookup name).getD ""
  match readInteger text with
  | (n, none) => return n
  | _ => throw ("Illegal number: " ++ text)

def assign (name : String) (n : Int) : Calculating Int := do
  modify fun s => { s with bindings := (name, toString n) :: s.bindings }
  return n

/-- An operator that sets a variable, if one comes next: what it does to the value before. -/
def assignment? : Calculating (Option String) := do
  match ← upcoming? assignmentOperators with
  | some (text, operator) =>
    let _ ← accept text
    return some operator
  | none =>
    let s ← get
    match s.rest with
    | '=' :: '=' :: _ => return none
    | '=' :: rest =>
      set { s with rest := rest }
      return some ""
    | _ => return none

mutual

/-- A whole expression. -/
def expression : Nat → Calculating Int
  | 0 => throw "expecting primary"
  | depth + 1 => do
    let value ← binary depth 1
    if ← accept "?" then
      let first ← expression depth
      if !(← accept ":") then throw "expecting ':'"
      let second ← expression depth
      return if value ≠ 0 then first else second
    else return value

/-- Operands with operators between them that bind at least so tightly. -/
def binary : Nat → Nat → Calculating Int
  | 0, _ => throw "expecting primary"
  | depth + 1, least => do
    let left ← unary depth
    moreOperands depth least left

def moreOperands : Nat → Nat → Int → Calculating Int
  | 0, _, left => return left
  | depth + 1, least, left => do
    match ← upcoming? binaryOperators with
    | some (operator, strength) =>
      if strength < least then return left
      else
        let _ ← accept operator
        let right ← binary depth (strength + 1)
        moreOperands depth least (← apply operator left right)
    | none => return left

/-- An operand. -/
def unary : Nat → Calculating Int
  | 0 => throw "expecting primary"
  | depth + 1 => do
    skipBlanks
    let s ← get
    match s.rest with
    | '+' :: rest =>
      set { s with rest := rest }
      unary depth
    | '-' :: rest =>
      set { s with rest := rest }
      return wrap (-(← unary depth))
    | '!' :: rest =>
      set { s with rest := rest }
      return ofTruth ((← unary depth) == 0)
    | '~' :: rest =>
      set { s with rest := rest }
      return -(← unary depth) - 1
    | '(' :: rest =>
      set { s with rest := rest }
      let value ← expression depth
      if ← accept ")" then return value else throw "expecting ')'"
    | c :: _ =>
      if c.isDigit then
        let (value, _, rest) := readNatural s.rest
        set { s with rest := rest }
        return if value < 0x8000000000000000 then value else 0x7fffffffffffffff
      else if isNameStart c then
        let (name, rest) := s.rest.span isNameChar
        let name := String.ofList name
        set { s with rest := rest }
        match ← assignment? with
        | some "" => assign name (← expression depth)
        | some operator =>
          let before ← valueOf name
          assign name (← apply operator before (← expression depth))
        | none => valueOf name
      else throw "expecting primary"
    | [] => throw "expecting primary"

end

/-- A whole expression with nothing behind it. -/
def whole (depth : Nat) : Calculating Int := do
  let value ← expression depth
  skipBlanks
  if (← get).rest.isEmpty then return value else throw "expecting EOF"

end Calculating

/-- The value of an expression and the variables after it, or what is wrong with it. -/
def calculate (text : String) (bindings : List (String × String)) :
    Except String (Int × List (String × String)) :=
  match (Calculating.whole (8 * text.length + 16)).run ⟨text.toList, bindings⟩ with
  | .ok (value, after) => .ok (value, after.bindings)
  | .error message =>
    .error (if Text.startsWith "Illegal number" message then message
      else "arithmetic expression: " ++ message ++ ": \"" ++ text ++ "\"")

end StubGen.Shell
