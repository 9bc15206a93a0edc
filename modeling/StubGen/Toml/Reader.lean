import StubGen.Toml.Basic
import StubGen.Toml.Text

/-!
# Reading TOML

A document is read line by line: headers, and keys with their values. Values may run over several
lines inside brackets. Reading keeps the table that the last header has begun.
-/

namespace StubGen.Toml

def skipBlanks (cs : List Char) : List Char := cs.dropWhile isBlank

/-- What follows a comment, if one begins here; its characters may not be control characters. -/
def skipComment? (cs : List Char) : Option (List Char) :=
  match cs with
  | '#' :: rest =>
    let (comment, rest) := rest.span (fun c => c ≠ '\n')
    let comment := if rest.isEmpty then comment else Text.dropReturn comment
    if comment.any isControl then none else some rest
  | _ => some cs

/-- What follows a line end, nothing if none stands here. -/
def lineEnd? : List Char → Option (List Char)
  | '\n' :: cs => some cs
  | '\r' :: '\n' :: cs => some cs
  | _ => none

/-- What follows the end of a line: blanks, a comment and the line end itself. -/
def endLine? (cs : List Char) : Option (List Char) :=
  match skipComment? (skipBlanks cs) with
  | none => none
  | some [] => some []
  | some rest => lineEnd? rest

/-- What follows blanks, comments and line ends, over at most `lines` of them. -/
def skipSpace? : Nat → List Char → Option (List Char)
  | 0, cs => some cs
  | lines + 1, cs =>
    match skipComment? (skipBlanks cs) with
    | none => none
    | some rest =>
      match lineEnd? rest with
      | some rest => skipSpace? lines rest
      | none => some rest

/-! ## Keys -/

def isBareKeyChar (c : Char) : Bool := c.isAlphanum || c = '_' || c = '-'

/-- One part of a key, and what follows. -/
def readKeyPart? (cs : List Char) : Option (String × List Char) :=
  match cs with
  | '"' :: _ => readText? false cs
  | '\'' :: _ => readText? false cs
  | _ =>
    let (key, rest) := cs.span isBareKeyChar
    if key.isEmpty then none else some (String.ofList key, rest)

/-- How many parts a key may have, and how deep brackets and braces may be nested. -/
def depthLimit : Nat := 80

/-- The parts of a dotted key, at most `parts` of them, and what follows with no blanks in
front. -/
def readKey? : Nat → List Char → Option (List String × List Char)
  | 0, _ => none
  | parts + 1, cs =>
    match readKeyPart? (skipBlanks cs) with
    | none => none
    | some (key, rest) =>
      match skipBlanks rest with
      | '.' :: rest => (readKey? parts rest).map fun (keys, rest) => (key :: keys, rest)
      | rest => some ([key], rest)

/-! ## Numbers and dates -/

/-- Digits in groups that single underscores keep apart. -/
def areDigits (isDigit : Char → Bool) : List Char → Bool
  | [] => false
  | [c] => isDigit c
  | c :: '_' :: cs => isDigit c && areDigits isDigit cs
  | c :: cs => isDigit c && areDigits isDigit cs

/-- Digits that do not begin with a needless zero. -/
def areWholeDigits (cs : List Char) : Bool :=
  areDigits Char.isDigit cs && (cs.head? ≠ some '0' || cs.length = 1)

def dropSign : List Char → List Char
  | '+' :: cs => cs
  | '-' :: cs => cs
  | cs => cs

/-- The number that some digits spell in a base; characters that are no digits do not count. -/
def numberIn (base : Nat) (cs : List Char) : Nat :=
  (cs.filterMap hexValue?).foldl (fun n digit => n * base + digit) 0

def numberOf (cs : List Char) : Nat := numberIn 10 cs

/-- Whether an integer fits into 128 bits, those below zero with a sign and others without. -/
def isInteger (cs : List Char) : Bool :=
  let fits (base : Nat) (digits : List Char) : Bool := numberIn base digits < Nat.pow 2 128
  match cs with
  | '0' :: 'x' :: digits => areDigits (fun c => (hexValue? c).isSome) digits && fits 16 digits
  | '0' :: 'o' :: digits => areDigits (fun c => '0' ≤ c && c ≤ '7') digits && fits 8 digits
  | '0' :: 'b' :: digits => areDigits (fun c => c = '0' || c = '1') digits && fits 2 digits
  | '-' :: digits => areWholeDigits digits && numberOf digits ≤ Nat.pow 2 127
  | _ => areWholeDigits (dropSign cs) && fits 10 (dropSign cs)

/-- Whether an exponent, if there is one, is well written. -/
def isExponent : List Char → Bool
  | [] => true
  | _ :: digits => areDigits Char.isDigit (dropSign digits)

/-- Whether `significand * 10 ^ exponent` rounds to a finite floating-point number of 64 bits: it
is below the middle between the largest of them and `2 ^ 1024`. No power of ten is taken when the
number of digits settles it. -/
def isFinite (significand : Nat) (exponent : Int) : Bool :=
  let place := (Nat.toDigits 10 significand).length + exponent
  let limit := Nat.pow 2 1024 - Nat.pow 2 970
  if significand = 0 || place < 309 then true
  else if 309 < place then false
  else if exponent < 0 then significand < limit * Nat.pow 10 exponent.natAbs
  else significand * Nat.pow 10 exponent.natAbs < limit

/-- Whether a number with a point or an exponent is well written and finite. -/
def isFloat (cs : List Char) : Bool :=
  let unsigned := dropSign cs
  if unsigned = "inf".toList || unsigned = "nan".toList then true
  else
    let (mantissa, exponent) := unsigned.span fun c => c ≠ 'e' && c ≠ 'E'
    let (whole, fraction) := mantissa.span (fun c => c ≠ '.')
    let power : Int := numberOf (exponent.drop 1)
    let power := if exponent[1]? = some '-' then -power else power
    areWholeDigits whole && isExponent exponent && !(fraction.isEmpty && exponent.isEmpty) &&
      (fraction.isEmpty || areDigits Char.isDigit (fraction.drop 1)) &&
      isFinite (numberOf mantissa) (power - (fraction.filter Char.isDigit).length)

/-- Whether a number of exactly so many digits lies in a range. -/
def isNumberIn (digits low high : Nat) (cs : List Char) : Bool :=
  cs.length = digits && cs.all Char.isDigit && low ≤ numberOf cs && numberOf cs ≤ high

/-- How many days a month of a year has. -/
def daysIn (year month : Nat) : Nat :=
  if month = 2 then if year % 4 = 0 && (year % 100 ≠ 0 || year % 400 = 0) then 29 else 28
  else if month = 4 || month = 6 || month = 9 || month = 11 then 30
  else 31

def isDate (cs : List Char) : Bool :=
  match Text.splitChars '-' cs with
  | [year, month, day] =>
    isNumberIn 4 0 9999 year && isNumberIn 2 1 12 month &&
      isNumberIn 2 1 (daysIn (numberOf year) (numberOf month)) day
  | _ => false

/-- Whether some characters are a time of day; the seconds may be left out. -/
def isTime (cs : List Char) : Bool :=
  match Text.splitChars ':' cs with
  | [hour, minute] => isNumberIn 2 0 23 hour && isNumberIn 2 0 59 minute
  | [hour, minute, second] =>
    let (whole, fraction) := second.span (fun c => c ≠ '.')
    isNumberIn 2 0 23 hour && isNumberIn 2 0 59 minute && isNumberIn 2 0 60 whole &&
      (fraction.isEmpty || (1 < fraction.length && (fraction.drop 1).all Char.isDigit))
  | _ => false

def isOffset : List Char → Bool
  | [] => true
  | [c] => c = 'Z' || c = 'z'
  | sign :: cs =>
    (sign = '+' || sign = '-') &&
      match Text.splitChars ':' cs with
      | [hour, minute] => isNumberIn 2 0 23 hour && isNumberIn 2 0 59 minute
      | _ => false

def isMoment (cs : List Char) : Bool :=
  isDate cs || isTime cs ||
    (isDate (cs.take 10) &&
      match cs.drop 10 with
      | mark :: rest =>
        let (time, offset) := rest.span fun c => c.isDigit || c = ':' || c = '.'
        (mark = 'T' || mark = 't' || mark = ' ') && isTime time && isOffset offset
      | [] => false)

def isLiteralChar (c : Char) : Bool :=
  c.isAlphanum || c = '_' || c = '+' || c = '-' || c = '.' || c = ':'

/-- The characters of a bare value, and what follows. A date and a time may have a space between
them. -/
def spanLiteral (cs : List Char) : List Char × List Char :=
  let (word, rest) := cs.span isLiteralChar
  match rest with
  | ' ' :: c :: rest' =>
    if isDate word && c.isDigit then
      let (time, rest) := (c :: rest').span isLiteralChar
      (word ++ ' ' :: time, rest)
    else (word, rest)
  | _ => (word, rest)

/-- A bare value: a truth value, a number or a date. -/
def literal? (cs : List Char) : Option Value :=
  if cs = "true".toList then some (.boolean true)
  else if cs = "false".toList then some (.boolean false)
  else if isInteger cs || isFloat cs || isMoment cs then some (.literal (String.ofList cs))
  else none

/-! ## Values -/

/-- Items up to the closing bracket; `read` reads one value. -/
def readItems? (read : List Char → Option (Value × List Char)) (items : List Value) :
    Nat → List Char → Option (List Value × List Char)
  | 0, _ => none
  | count + 1, cs =>
    match skipSpace? cs.length cs with
    | none => none
    | some (']' :: rest) => some (items, rest)
    | some rest =>
      match read rest with
      | none => none
      | some (item, rest) =>
        match skipSpace? rest.length rest with
        | some (',' :: rest) => readItems? read (items ++ [item]) count rest
        | some (']' :: rest) => some (items ++ [item], rest)
        | _ => none

/-- A key and its value, and what follows; `read` reads the value. -/
def readMember? (read : List Char → Option (Value × List Char)) (cs : List Char) :
    Option ((List String × Value) × List Char) := do
  let (keys, rest) ← readKey? depthLimit cs
  match ← skipSpace? rest.length rest with
  | '=' :: rest =>
    let (value, rest) ← read (← skipSpace? rest.length rest)
    return ((keys, value), rest)
  | _ => none

/-- Keys and values up to the closing brace, before which a comma may stand; `read` reads one
value. -/
def readMembers? (read : List Char → Option (Value × List Char)) (entries : Entries) :
    Nat → List Char → Option (Entries × List Char)
  | 0, _ => none
  | count + 1, cs =>
    match skipSpace? cs.length cs with
    | none => none
    | some ('\x7d' :: rest) => some (entries, rest)
    | some rest =>
      match readMember? read rest with
      | none => none
      | some ((keys, value), rest) =>
        match entries.addAt? keys value, skipSpace? rest.length rest with
        | some entries, some (',' :: rest) => readMembers? read entries count rest
        | some entries, some ('\x7d' :: rest) => some (entries, rest)
        | _, _ => none

/-- A value without brackets and braces, and what follows. -/
def readScalar? (cs : List Char) : Option (Value × List Char) :=
  match cs with
  | '"' :: _ => (readText? true cs).map fun (text, rest) => (.text text, rest)
  | '\'' :: _ => (readText? true cs).map fun (text, rest) => (.text text, rest)
  | _ =>
    let (word, rest) := spanLiteral cs
    (literal? word).map fun value => (value, rest)

/-- A value, in which brackets and braces are nested at most `depth` deep, and what follows. -/
def readValue? : Nat → List Char → Option (Value × List Char)
  | 0, cs => readScalar? cs
  | depth + 1, cs =>
    match cs with
    | '[' :: rest =>
      (readItems? (readValue? depth) [] (rest.length + 1) rest).map fun (items, rest) =>
        (.array items, rest)
    | '\x7b' :: rest =>
      (readMembers? (readValue? depth) [] (rest.length + 1) rest).map fun (entries, rest) =>
        (.table .braces entries, rest)
    | _ => readScalar? cs

/-! ## Documents -/

/-- A document as far as it has been read: its table, and the keys of the last header. -/
structure Reading where
  root : Entries
  keys : List String

/-- The document after a header. -/
def Reading.header? (r : Reading) (isElement : Bool) (keys : List String) : Option Reading :=
  let start := if isElement then Entries.beginElement? else Entries.begin?
  (r.root.atHeader? keys start).map fun root => ⟨root, keys⟩

/-- The document after a key and its value. -/
def Reading.entry? (r : Reading) (keys : List String) (value : Value) : Option Reading :=
  (r.root.descend? false .header r.keys fun _ table => table.addAt? keys value).map fun root =>
    { r with root := root }

/-- One header or entry at the beginning of some characters, and what follows on its line. -/
def readStatement? (r : Reading) (cs : List Char) : Option (Reading × List Char) :=
  match cs with
  | '[' :: '[' :: rest =>
    match readKey? depthLimit rest with
    | some (keys, ']' :: ']' :: rest) => (r.header? true keys).map (·, rest)
    | _ => none
  | '[' :: rest =>
    match readKey? depthLimit rest with
    | some (keys, ']' :: rest) => (r.header? false keys).map (·, rest)
    | _ => none
  | _ =>
    match readKey? depthLimit cs with
    | some (keys, '=' :: rest) =>
      match readValue? depthLimit (skipBlanks rest) with
      | some (value, rest) => (r.entry? keys value).map (·, rest)
      | none => none
    | _ => none

/-- The document after at most so many statements. -/
def readLines? : Nat → Reading → List Char → Option Entries
  | 0, _, _ => none
  | count + 1, r, cs =>
    match skipSpace? cs.length cs with
    | none => none
    | some [] => some r.root
    | some rest =>
      match readStatement? r rest with
      | none => none
      | some (r, rest) =>
        match endLine? rest with
        | none => none
        | some rest => readLines? count r rest

/-- The table that a document spells. -/
def parse? (text : String) : Option Entries :=
  let cs := match text.toList with
    | '\ufeff' :: cs => cs
    | cs => cs
  readLines? (cs.length + 1) ⟨[], []⟩ cs

end StubGen.Toml
