import StubGen.Text.Split

/-!
# Texts with escapes and directives

A backslash and a letter or digits stand for a character. In a pattern, a percent sign begins a
directive, which is filled in from an argument; the pattern is used again and again until no
argument is left.
-/

namespace StubGen.Shell

/-- The value of digits in base eight, at most so many, and what follows. -/
def readOctal : Nat → Nat → List Char → Nat × List Char
  | 0, value, cs => (value, cs)
  | _, value, [] => (value, [])
  | count + 1, value, c :: cs =>
    if '0' ≤ c && c ≤ '7' then readOctal count (8 * value + (c.toNat - '0'.toNat)) cs
    else (value, c :: cs)

/-- The character that stands behind a backslash, and what follows; a backslash stands for itself
in front of anything that it does not change. -/
def readEscape (cs : List Char) : Char × List Char :=
  match cs with
  | 'a' :: rest => ('\x07', rest)
  | 'b' :: rest => ('\x08', rest)
  | 'e' :: rest => ('\x1b', rest)
  | 'f' :: rest => ('\x0c', rest)
  | 'n' :: rest => ('\n', rest)
  | 'r' :: rest => ('\r', rest)
  | 't' :: rest => ('\t', rest)
  | 'v' :: rest => ('\x0b', rest)
  | '\\' :: rest => ('\\', rest)
  | c :: _ =>
    if '0' ≤ c && c ≤ '7' then
      let (value, rest) := readOctal 3 0 cs
      (Char.ofNat (value % 256), rest)
    else ('\\', cs)
  | [] => ('\\', [])

/-- A text with its escapes replaced, in at most so many steps, and whether it ends all output. -/
def unescape : Nat → List Char → List Char × Bool
  | 0, _ => ([], false)
  | steps + 1, cs =>
    match cs with
    | [] => ([], false)
    | '\\' :: 'c' :: _ => ([], true)
    | '\\' :: '0' :: rest =>
      let (value, rest) := readOctal 3 0 rest
      let (after, ends) := unescape steps rest
      (Char.ofNat (value % 256) :: after, ends)
    | '\\' :: rest =>
      let (c, rest) := readEscape rest
      let (after, ends) := unescape steps rest
      (c :: after, ends)
    | c :: rest =>
      let (after, ends) := unescape steps rest
      (c :: after, ends)

/-- A text with its escapes replaced, and whether it ends all output. -/
def unescaped (text : String) : String × Bool :=
  let (cs, ends) := unescape (text.length + 1) text.toList
  (String.ofList cs, ends)

/-- What `echo` writes. -/
def echoed (args : List String) : String :=
  let (isLine, args) := match args with
    | "-n" :: rest => (false, rest)
    | args => (true, args)
  let (text, ends) := unescaped (Text.join " " args)
  if isLine && !ends then text ++ "\n" else text

/-! ## Directives -/

/-- How the text of a directive is laid out. -/
structure Layout where
  isLeft : Bool
  showsPlus : Bool
  showsBlank : Bool
  showsBase : Bool
  padsWithZeros : Bool
  width : Nat
  precision : Option Nat

namespace Layout

def ofFlags (flags : List Char) : Layout :=
  ⟨flags.contains '-', flags.contains '+', flags.contains ' ', flags.contains '#',
    flags.contains '0', 0, none⟩

/-- A text with blanks up to the width. -/
def pad (layout : Layout) (text : String) : String :=
  let blanks := String.ofList (List.replicate (layout.width - text.length) ' ')
  if layout.isLeft then text ++ blanks else blanks ++ text

/-- The beginning of a text that the precision lets through, with blanks up to the width. -/
def fitText (layout : Layout) (text : String) : String :=
  layout.pad <|
    match layout.precision with
    | some count => String.ofList (text.toList.take count)
    | none => text

/-- The digits of a number behind what stands in front of them, with zeros as the layout says. -/
def fitDigits (layout : Layout) (sign digits : String) : String :=
  let fill := match layout.precision with
    | some count => count - digits.length
    | none =>
      if layout.padsWithZeros && !layout.isLeft then
        layout.width - sign.length - digits.length
      else 0
  let digits := if layout.precision = some 0 && digits == "0" then "" else digits
  layout.pad (sign ++ String.ofList (List.replicate fill '0') ++ digits)

end Layout

/-- The digits of a number in a base. -/
def digitsIn (base : Nat) (isUpper : Bool) (n : Nat) : String :=
  let digits := String.ofList (Nat.toDigits base n)
  if isUpper then digits.map Char.toUpper else digits

/-- A number as a directive writes it; numbers that have no sign are those below zero counted from
the end of the range of 64 bits. -/
def showNumber (layout : Layout) (directive : Char) (n : Int) : String :=
  let natural := (n % 0x10000000000000000).toNat
  match directive with
  | 'u' => layout.fitDigits "" (digitsIn 10 false natural)
  | 'o' => layout.fitDigits "" ((if layout.showsBase then "0" else "") ++ digitsIn 8 false natural)
  | 'x' => layout.fitDigits (if layout.showsBase && natural ≠ 0 then "0x" else "")
      (digitsIn 16 false natural)
  | 'X' => layout.fitDigits (if layout.showsBase && natural ≠ 0 then "0X" else "")
      (digitsIn 16 true natural)
  | _ =>
    let sign := if n < 0 then "-" else if layout.showsPlus then "+"
      else if layout.showsBlank then " " else ""
    layout.fitDigits sign (digitsIn 10 false n.natAbs)

/-! ## Numbers as arguments -/

/-- The value of a digit. -/
def digitValue? (c : Char) : Option Nat :=
  if c.isDigit then some (c.toNat - '0'.toNat)
  else if 'a' ≤ c.toLower && c.toLower ≤ 'f' then some (c.toLower.toNat - 'a'.toNat + 10)
  else none

/-- The value of digits in a base, whether there are any, and what follows. -/
def readDigits (base : Nat) (value : Nat) (isAny : Bool) : List Char → Nat × Bool × List Char
  | [] => (value, isAny, [])
  | c :: cs =>
    match (digitValue? c).filter fun d => d < base with
    | some d => readDigits base (base * value + d) true cs
    | none => (value, isAny, c :: cs)

/-- A natural number whose first digits say its base, whether there is one, and what follows. -/
def readNatural (cs : List Char) : Nat × Bool × List Char :=
  match cs with
  | '0' :: x :: d :: rest =>
    if (x = 'x' || x = 'X') && (digitValue? d).isSome then readDigits 16 0 false (d :: rest)
    else readDigits 8 0 false cs
  | '0' :: _ => readDigits 8 0 false cs
  | _ => readDigits 10 0 false cs

/-- An argument as a number, and what is wrong with it. -/
def readInteger (text : String) : Int × Option String :=
  match text.toList with
  | '\'' :: rest | '"' :: rest => ((rest.headD '\x00').toNat, none)
  | cs =>
    let cs := cs.dropWhile fun c => " \t\n\x0b\x0c\r".toList.contains c
    let (isNegative, digits) := match cs with
      | '-' :: rest => (true, rest)
      | '+' :: rest => (false, rest)
      | rest => (false, rest)
    let (value, isAny, rest) := readNatural digits
    let n : Int := if isNegative then -value else value
    let bounded : Int :=
      if n < -0x8000000000000000 then -0x8000000000000000
      else if 0x7fffffffffffffff < n then 0x7fffffffffffffff
      else n
    if text.isEmpty then (0, none)
    else if !isAny then (0, some "expected numeric value")
    else if !rest.isEmpty then (bounded, some "not completely converted")
    else if bounded ≠ n then (bounded, some "Numerical result out of range")
    else (n, none)

/-! ## Patterns -/

/-- How far a pattern has been written. -/
structure Printing where
  written : String
  args : List String
  /-- What is wrong with arguments. -/
  complaints : List String
  /-- Whether nothing more is written. -/
  ends : Bool
  /-- What ends the writing as a failure. -/
  failure : Option String

namespace Printing

def put (p : Printing) (text : String) : Printing := { p with written := p.written ++ text }

/-- Takes the next argument as a number. -/
def takeNumber (p : Printing) : Int × Printing :=
  match p.args with
  | [] => (0, p)
  | arg :: rest =>
    let (n, problem) := readInteger arg
    (n, { p with
          args := rest
          complaints := p.complaints ++ (problem.map fun text => arg ++ ": " ++ text).toList })

/-- Reads a number or a star in a directive. -/
def readSize (p : Printing) (cs : List Char) : Option Int × Printing × List Char :=
  match cs with
  | '*' :: rest =>
    let (n, p) := p.takeNumber
    (some n, p, rest)
  | _ =>
    let digits := cs.takeWhile Char.isDigit
    (if digits.isEmpty then none else some (readDigits 10 0 false digits).1, p,
      cs.drop digits.length)

/-- Writes one directive, which begins behind its percent sign. -/
def directive (p : Printing) (cs : List Char) : Printing × List Char :=
  let flags := cs.takeWhile fun c => "#-+ 0".toList.contains c
  let (width, p, rest) := p.readSize (cs.drop flags.length)
  let (precision, p, rest) := match rest with
    | '.' :: rest =>
      let (size, p, rest) := p.readSize rest
      (some (size.getD 0), p, rest)
    | rest => (none, p, rest)
  let layout := { Layout.ofFlags flags with
    isLeft := flags.contains '-' || (width.getD 0) < 0
    width := (width.getD 0).natAbs
    precision := (precision.filter fun n => 0 ≤ n).map Int.toNat }
  match rest with
  | [] => ({ p with failure := some "missing format character" }, [])
  | c :: rest =>
    if c = 's' then
      (({ p with args := p.args.tail }).put (layout.fitText (p.args.headD "")), rest)
    else if c = 'b' then
      let (text, ends) := unescaped (p.args.headD "")
      ({ ({ p with args := p.args.tail }).put (layout.fitText text) with ends := ends }, rest)
    else if c = 'c' then
      let text := String.singleton ((p.args.headD "").toList.headD '\x00')
      (({ p with args := p.args.tail }).put (layout.pad text), rest)
    else if "diouxX".toList.contains c then
      let (n, p) := p.takeNumber
      (p.put (showNumber layout c n), rest)
    else
      let read := cs.take (cs.length - rest.length)
      ({ p with failure := some ("%" ++ String.ofList read ++ ": invalid directive") }, [])

/-- Writes a pattern once, in at most so many steps. -/
def once : Nat → Printing → List Char → Printing
  | 0, p, _ => p
  | steps + 1, p, cs =>
    if p.ends || p.failure.isSome then p
    else
      match cs with
      | [] => p
      | '\\' :: rest =>
        let (c, rest) := readEscape rest
        once steps (p.put (String.singleton c)) rest
      | '%' :: '%' :: rest => once steps (p.put "%") rest
      | '%' :: rest =>
        let (p, rest) := p.directive rest
        once steps p rest
      | c :: rest => once steps (p.put (String.singleton c)) rest

/-- Writes a pattern until the arguments are used up, at most so many times. -/
def rounds (pattern : List Char) : Nat → Printing → Printing
  | 0, p => p
  | count + 1, p =>
    let after := once (pattern.length + 1) p pattern
    if after.ends || after.failure.isSome || after.args.isEmpty ||
        after.args.length = p.args.length then after
    else rounds pattern count after

end Printing

/-- What `printf` writes for a pattern and arguments. -/
def printed (pattern : String) (args : List String) : Printing :=
  Printing.rounds pattern.toList (args.length + 1) ⟨"", args, [], false, none⟩

end StubGen.Shell
