import StubGen.Text.Split

/-!
# Targets of requests

A target is the path of a request and its parameters. Characters that may not stand in it are
written as percent signs and the bytes of their UTF-8 form; segments that are one dot or two are
carried out.
-/

namespace StubGen.Url

/-- A byte after a percent sign. -/
def encodeByte (b : UInt8) : List Char :=
  let digit (n : Nat) : Char := (Nat.digitChar (n % 16)).toUpper
  ['%', digit (b.toNat / 16), digit b.toNat]

/-- The bytes of a character after percent signs. -/
def encodeChar (c : Char) : List Char := (String.singleton c).toUTF8.toList.flatMap encodeByte

/-- A text in which the characters that need it are written as bytes. -/
def encode (needsBytes : Char → Bool) (cs : List Char) : List Char :=
  cs.flatMap fun c => if needsBytes c then encodeChar c else [c]

/-- Whether a character has no place in any part of a target. -/
def isOutside (c : Char) : Bool := c.toNat ≤ 32 || 126 < c.toNat

/-- Whether a character of a path is written as bytes. -/
def isEncodedInPath (c : Char) : Bool := isOutside c || "\"<>\x60#?\x7b\x7d".toList.contains c

/-- Whether a character of the text behind a question mark is written as bytes. -/
def isEncodedInQuery (c : Char) : Bool := isOutside c || "\"<>#'".toList.contains c

/-- Whether a segment stands for the directory it is in. -/
def isDot (segment : List Char) : Bool :=
  [".", "%2e"].contains (String.ofList (segment.map Char.toLower))

/-- Whether a segment stands for the directory around. -/
def isDoubleDot (segment : List Char) : Bool :=
  ["..", ".%2e", "%2e.", "%2e%2e"].contains (String.ofList (segment.map Char.toLower))

/-- Segments with dots carried out, after those in `done`. -/
def resolveDots (done : List (List Char)) : List (List Char) → List (List Char)
  | [] => done
  | [segment] =>
    if isDoubleDot segment then done.dropLast ++ [[]]
    else if isDot segment then done ++ [[]]
    else done ++ [segment]
  | segment :: rest =>
    if isDoubleDot segment then resolveDots done.dropLast rest
    else if isDot segment then resolveDots done rest
    else resolveDots (done ++ [segment]) rest

/-- The segments of a path; a backslash is as good as a slash. -/
def segments (path : List Char) : List (List Char) :=
  let slashed := path.map fun c => if c = '\\' then '/' else c
  resolveDots [] ((Text.splitChars '/' (slashed.drop 1)).map (encode isEncodedInPath))

/-- The target for what follows the host in an address. Line ends and tabs do not count, a
question mark ends the path, and a hash ends the target. -/
def target (text : String) : String :=
  let cs := text.toList.filter fun c => c ≠ '\t' && c ≠ '\n' && c ≠ '\r'
  let sent := cs.takeWhile (· ≠ '#')
  let (path, query) := sent.span (fun c => c ≠ '?')
  let question := match query with
    | [] => []
    | _ :: rest => '?' :: encode isEncodedInQuery rest
  String.ofList ('/' :: Text.joinChars ['/'] (segments path) ++ question)

/-- Whether a character of a parameter is written as it is. -/
def isFormChar (c : Char) : Bool := c.isAlphanum || "*-._".toList.contains c

/-- A key or value of a parameter. -/
def formText (text : String) : List Char :=
  text.toList.flatMap fun c =>
    if c = ' ' then ['+'] else if isFormChar c then [c] else encodeChar c

/-- Parameters as they follow a question mark. -/
def formPairs (pairs : List (String × String)) : String :=
  String.ofList (Text.joinChars ['&']
    (pairs.map fun (key, value) => formText key ++ '=' :: formText value))

end StubGen.Url
