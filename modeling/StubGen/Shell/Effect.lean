import StubGen.Disk.Basic
import StubGen.Text.Blank

/-!
# What programs do

A program is called with arguments, with a text that it can read, and with a disk. It writes to two
channels, ends with a status, and leaves a disk.
-/

namespace StubGen.Shell

/-- How a program is called. -/
structure Call where
  args : List String
  input : String
  /-- Whether the text that it can read is in a file. -/
  readsFile : Bool
  disk : Disk
  /-- The file that what it writes goes to, if it goes to one. -/
  outputPlace : Option Disk.Place

/-- What a program has done by the time it ends. What it writes is kept in order, with the channels
that it writes to. -/
structure Effect where
  writes : List (Nat × String)
  status : Nat
  disk : Disk
  /-- What is left of the text that it can read. -/
  input : String

namespace Effect

/-- A program that does nothing but end with a status. -/
def silent (call : Call) (status : Nat) : Effect := ⟨[], status, call.disk, call.input⟩

/-- A program that writes a text and succeeds, having read all there is to read. -/
def writing (call : Call) (text : String) : Effect := ⟨[(1, text)], 0, call.disk, ""⟩

/-- The same after one more line about an error. -/
def complain (effect : Effect) (line : String) : Effect :=
  { effect with writes := effect.writes ++ [(2, line ++ "\n")], status := 1 }

/-- The same after one more text. -/
def write (effect : Effect) (text : String) : Effect :=
  { effect with writes := effect.writes ++ [(1, text)] }

/-- A program that refuses what it is called with, and says where help is. -/
def misuse (call : Call) (program : String) (lines : List String) : Effect :=
  (lines ++ ["Try '" ++ program ++ " --help' for more information."]).foldl complain (silent call 1)

end Effect

/-! ## Names in messages -/

/-- Three digits in base eight. -/
def octalDigits (n : Nat) : List Char :=
  [n / 64, n / 8 % 8, n % 8].map Nat.digitChar

/-- How a character shows that is written with a backslash. -/
def escapedChar? (c : Char) : Option (List Char) :=
  match c with
  | '\x07' => some ['\\', 'a']
  | '\x08' => some ['\\', 'b']
  | '\x0c' => some ['\\', 'f']
  | '\n' => some ['\\', 'n']
  | '\r' => some ['\\', 'r']
  | '\t' => some ['\\', 't']
  | '\x0b' => some ['\\', 'v']
  | _ => if c.toNat < 32 || 126 < c.toNat then some ('\\' :: octalDigits c.toNat) else none

/-- Whether a character in double quotes stands for itself wherever it is. -/
def isPlainChar (c : Char) : Bool := c.isAlphanum || "%+,-./:]_@ ".toList.contains c

/-- A name in single quotes; characters that do not show stand in quotes of their own. -/
def singleQuoted (isEscaping : Bool) : List Char → List Char
  | [] => ['\'']
  | c :: cs =>
    match escapedChar? c with
    | some shown =>
      (if isEscaping then shown else ['\'', '$', '\''] ++ shown) ++ singleQuoted true cs
    | none =>
      (if isEscaping then ['\'', '\''] else []) ++
        (if c = '\'' then ['\'', '\\', '\'', '\''] else [c]) ++ singleQuoted false cs

/-- A name in quotes, as it could stand in a script. -/
def quoted (name : String) : String :=
  let cs := name.toList
  if cs.contains '\'' && cs.all fun c => isPlainChar c || c = '\'' then "\"" ++ name ++ "\""
  else String.ofList ('\'' :: singleQuoted false cs)

/-- Whether a name has to be quoted to stand in a script. -/
def needsQuotes (name : String) : Bool :=
  name.isEmpty || name == "\x7b" || name == "\x7d" ||
    (name.toList.head?.any fun c => c = '#' || c = '~') ||
    name.toList.any fun c =>
      " !\"$&()*;<=>?[^\x60|'\\:".toList.contains c || (escapedChar? c).isSome

/-- A name, in quotes if it needs them. -/
def shown (name : String) : String := if needsQuotes name then quoted name else name

end StubGen.Shell
