import StubGen.Shell.Word

/-!
# Tokens of a script

A script is cut into words, operators, redirections and line ends. The text that a redirection
takes from the script itself begins on the line after it; such texts are kept apart, in order.
-/

namespace StubGen.Shell

/-- What a redirection makes of a channel. -/
inductive Direction where
  /-- It reads from a file. -/
  | input
  /-- It writes to a file, which is emptied. -/
  | output
  /-- It writes behind what is in a file. -/
  | append
  /-- It reads from a file, which is made if it is missing. -/
  | inputOutput
  /-- It leads where another channel leads. -/
  | duplicate
deriving DecidableEq, Repr

inductive Token where
  | word (word : Word)
  | operator (text : String)
  | newline
  /-- A redirection; what it leads to is the next word. -/
  | redirection (channel : Nat) (direction : Direction)
  /-- A redirection that reads the next of the texts in the script. -/
  | hereText (channel : Nat)
  /-- The end of the script. -/
  | finish
  /-- Where the script can be read no further, and why. -/
  | wrong (fault : Fault)
deriving DecidableEq, Repr

/-- The tokens of a script with their lines, and the texts that redirections read. -/
structure Tokens where
  tokens : List (Token × Nat)
  texts : List Word

/-- A text that is still to be read: the line that ends it, whether that was quoted, and whether
tabs in front of the lines do not count. -/
structure Pending where
  lastLine : String
  isQuoted : Bool
  dropsTabs : Bool

/-- What has been read of a script, the last token first. -/
structure Lexing where
  tokens : List (Token × Nat)
  texts : List Word
  pending : List Pending
  line : Nat

namespace Lexing

def push (s : Lexing) (token : Token) : Lexing := { s with tokens := (token, s.line) :: s.tokens }

def result (s : Lexing) : Tokens := ⟨s.tokens.reverse, s.texts⟩

/-- The lexing after characters, of which the line ends count. -/
def pass (s : Lexing) (before after : List Char) : Lexing :=
  let read := before.take (before.length - after.length)
  { s with line := s.line + read.countP fun c => c = '\n' }

end Lexing

/-- The word without its quotes, when it ends a text in the script. -/
def unquoted (word : Word) : String :=
  String.join <| word.map fun
    | .text text _ => text
    | .value name _ _ _ => "$" ++ name
    | _ => ""

def hasQuotes (word : Word) : Bool :=
  word.any fun
    | .text _ isQuoted => isQuoted
    | _ => false

/-- The lines up to one that ends them, and what follows it; at most so many. A line behind a
backslash, which goes on from the one before, ends nothing. -/
def readText (pending : Pending) (goesOn : Bool) : Nat → List Char → List Char × List Char
  | 0, cs => ([], cs)
  | count + 1, cs =>
    let (line, rest) := cs.span (fun c => c ≠ '\n')
    let line := if pending.dropsTabs then line.dropWhile (fun c => c = '\t') else line
    if cs.isEmpty || (!goesOn && String.ofList line = pending.lastLine) then ([], rest.drop 1)
    else
      let isOpen := (line.reverse.takeWhile fun c => c = '\\').length % 2 = 1
      let goesOn := isOpen && !pending.isQuoted && (goesOn || line ≠ ['\\'])
      let (lines, rest') := readText pending goesOn count (rest.drop 1)
      (line ++ rest.take 1 ++ lines, rest')

/-- Reads the texts that begin on a new line. -/
def Lexing.readTexts (s : Lexing) (cs : List Char) : Lexing × List Char :=
  s.pending.foldl (fun (s, cs) pending =>
    let (text, rest) := readText pending false (cs.length + 1) cs
    let text := String.ofList text
    let s := s.pass cs rest
    match if pending.isQuoted then .ok [.text text true] else openWord true text with
    | .ok word => ({ s with texts := s.texts ++ [word] }, rest)
    | .error (.message "Unterminated quoted string") =>
      (s.push (.wrong (.message "Missing '\x7d'")), rest)
    | .error fault => (s.push (.wrong fault), rest)) ({ s with pending := [] }, cs)

/-- The operator or redirection at the beginning of some characters, and what follows. -/
def readOperator? (channel : Option Nat) (cs : List Char) : Option (Token × List Char) :=
  match cs with
  | '<' :: '<' :: rest => some (.hereText (channel.getD 0), rest)
  | '<' :: '&' :: rest => some (.redirection (channel.getD 0) .duplicate, rest)
  | '<' :: '>' :: rest => some (.redirection (channel.getD 0) .inputOutput, rest)
  | '<' :: rest => some (.redirection (channel.getD 0) .input, rest)
  | '>' :: '>' :: rest => some (.redirection (channel.getD 1) .append, rest)
  | '>' :: '&' :: rest => some (.redirection (channel.getD 1) .duplicate, rest)
  | '>' :: '|' :: rest => some (.redirection (channel.getD 1) .output, rest)
  | '>' :: rest => some (.redirection (channel.getD 1) .output, rest)
  | '&' :: '&' :: rest => some (.operator "&&", rest)
  | '|' :: '|' :: rest => some (.operator "||", rest)
  | ';' :: ';' :: rest => some (.operator ";;", rest)
  | c :: rest => if "&|;()".toList.contains c then some (.operator (String.singleton c), rest) else none
  | [] => none

/-- The channel that is written as a digit before a redirection, and what follows it. -/
def readChannel (cs : List Char) : Option Nat × List Char :=
  match cs with
  | c :: d :: rest =>
    if c.isDigit && (d = '<' || d = '>') then (some (c.toNat - '0'.toNat), d :: rest) else (none, cs)
  | _ => (none, cs)

/-- Reads a script in at most so many steps. -/
def lex : Nat → Lexing → List Char → Lexing
  | 0, s, _ => s.push .finish
  | steps + 1, s, cs =>
    match cs with
    | [] => s.push .finish
    | '\\' :: '\n' :: rest => lex steps { s with line := s.line + 1 } rest
    | '\n' :: rest =>
      let (s, rest) := ({ s with line := s.line + 1 }.push .newline).readTexts rest
      lex steps s rest
    | '#' :: rest => lex steps s (rest.dropWhile fun c => c ≠ '\n')
    | c :: more =>
      if isBlank c then lex steps s more
      else
        let (channel, start) := readChannel cs
        match readOperator? channel start with
        | some (.hereText channel, rest) =>
          let (dropsTabs, rest) := match rest with
            | '-' :: rest => (true, rest)
            | rest => (false, rest)
          match readWord (rest.dropWhile isBlank) with
          | .ok ([], rest) => lex steps (s.push (.redirection channel .input)) rest
          | .ok (word, rest) =>
            let pending := ⟨unquoted word, hasQuotes word, dropsTabs⟩
            lex steps { s.push (.hereText channel) with pending := s.pending ++ [pending] } rest
          | .error fault => s.push (.wrong fault)
        | some (token, rest) => lex steps (s.push token) rest
        | none =>
          match readWord cs with
          | .ok (word, rest) => lex steps ((s.push (.word word)).pass cs rest) rest
          | .error (.unclosed script) => s.push (.wrong (.unclosed script))
          | .error fault => (s.pass cs []).push (.wrong fault)

/-- The tokens of a script that begins on a line. -/
def Tokens.ofScript (line : Nat) (script : String) : Tokens :=
  let cs := script.toList
  let s := lex (cs.length + 1) ⟨[], [], [], line⟩ cs
  (s.readTexts []).1.result

end StubGen.Shell
