import StubGen.Text.Split

/-!
# Words of a script

A word is what stands between blanks and operators. Quotes and backslashes keep characters
together, and a dollar sign or a backquote begins a part that is replaced when the word is used.
-/

namespace StubGen.Shell

/-- A part of a word. -/
inductive Part where
  | text (text : String) (isQuoted : Bool)
  /-- The value of a parameter, changed by an operator with a word of its own. -/
  | value (name operator word : String) (isQuoted : Bool)
  /-- How many bytes the value of a parameter has. -/
  | size (name : String) (isQuoted : Bool)
  /-- What a script writes, which ends with a closing text. -/
  | output (script closing : String) (isQuoted : Bool)
  /-- The value of an arithmetic expression. -/
  | number (expression : String) (isQuoted : Bool)
deriving DecidableEq, Repr

abbrev Word := List Part

/-- A word in which nothing is replaced. -/
def plainWord (text : String) : Word := [.text text false]

/-- The text of a word in which nothing is quoted or replaced. -/
def plainText? (word : Word) : Option String :=
  match word with
  | [.text text false] => some text
  | _ => none

/-- Why a text cannot end where it does. -/
inductive Fault where
  | message (text : String)
  /-- A script inside a word has no end. -/
  | unclosed (script : String)
deriving DecidableEq, Repr

/-- What has been read and what follows. -/
abbrev Reading (α : Type) := Except Fault (α × List Char)

/-- Adds text to the parts of a word, the last one first. -/
def addText (text : String) (isQuoted : Bool) (parts : List Part) : List Part :=
  match parts with
  | .text before wasQuoted :: rest =>
    if wasQuoted = isQuoted then .text (before ++ text) isQuoted :: rest
    else .text text isQuoted :: parts
  | _ => .text text isQuoted :: parts

def addChar (c : Char) (isQuoted : Bool) (parts : List Part) : List Part :=
  addText (String.singleton c) isQuoted parts

/-- Whether a character separates words. -/
def isBlank (c : Char) : Bool := c = ' ' || c = '\t'

/-- Whether a character that is not quoted ends a word. -/
def endsWord (c : Char) : Bool := isBlank c || "\n;&|<>()".toList.contains c

def isNameStart (c : Char) : Bool := c.isAlpha || c = '_'

def isNameChar (c : Char) : Bool := c.isAlphanum || c = '_'

/-- Whether a text can be the name of a variable. -/
def isName (text : String) : Bool :=
  match text.toList with
  | [] => false
  | c :: cs => isNameStart c && cs.all isNameChar

/-- Whether a character is the whole name of a parameter. -/
def isSpecial (c : Char) : Bool := c.isDigit || "@*#?-$!".toList.contains c

/-- The characters up to the brace that closes a parameter and what follows; braces in quotes do not
close it, nor do those of parameters inside. `singles` says whether single quotes are quotes, and
`quote` is the quote that is open; if there is no such brace, the quote that is open at the end is
given. -/
def spanBraces (singles : Bool) (depth : Nat) (quote : Option Char) (read : List Char) :
    List Char → Except (Option Char) (List Char × List Char)
  | [] => .error quote
  | '\\' :: c :: cs =>
    if quote = some '\'' then
      spanBraces singles depth (if c = '\'' then none else quote) (c :: '\\' :: read) cs
    else spanBraces singles depth quote (c :: '\\' :: read) cs
  | c :: cs =>
    match quote with
    | some q => spanBraces singles depth (if c = q then none else quote) (c :: read) cs
    | none =>
      if (c = '\'' && singles) || c = '"' then spanBraces singles depth (some c) (c :: read) cs
      else if c = '\x7d' then
        if depth = 0 then .ok (read.reverse, cs)
        else spanBraces singles (depth - 1) none (c :: read) cs
      else
        let opens := c = '\x7b' && read.head? = some '$'
        spanBraces singles (if opens then depth + 1 else depth) none (c :: read) cs

/-- Whether single quotes are quotes in what follows the name of a parameter: they are none between
double quotes, except in patterns. -/
def hasSingles (isQuoted : Bool) (cs : List Char) : Bool :=
  let operator := match cs with
    | c :: rest => if isNameStart c then (rest.dropWhile isNameChar).head? else rest.head?
    | [] => none
  !isQuoted || operator = some '#' || operator = some '%'

/-- What is open around a place in a script. -/
inductive Enclosure where
  | bracket
  /-- A choice, in which brackets that close nothing end patterns. -/
  | choice
deriving DecidableEq, Repr

/-- The words behind which a command can begin. -/
def leadingWords : List String :=
  ["if", "then", "elif", "else", "while", "until", "do", "\x7b", "!"]

/-- The characters of a script up to the bracket that closes it and what follows, in at most so many
steps. Brackets in quotes and in comments close nothing, nor do those that end a pattern.
`isStart` says that a command can begin, and `quote` is the quote that is open. -/
def spanScript? (opened : List Enclosure) (isStart : Bool) (quote : Option Char)
    (read : List Char) : Nat → List Char → Option (List Char × List Char)
  | 0, _ => none
  | steps + 1, cs =>
    match cs with
    | [] => none
    | '\\' :: c :: rest =>
      if quote = some '\'' then
        spanScript? opened false (if c = '\'' then none else quote) (c :: '\\' :: read) steps rest
      else spanScript? opened false quote (c :: '\\' :: read) steps rest
    | c :: rest =>
      match quote with
      | some q => spanScript? opened isStart (if c = q then none else quote) (c :: read) steps rest
      | none =>
        if c = '\'' || c = '"' then spanScript? opened false (some c) (c :: read) steps rest
        else if c = '#' && endsWord (read.headD ' ') then
          spanScript? opened isStart (some '\n') (c :: read) steps rest
        else if c = '(' then spanScript? (.bracket :: opened) true none (c :: read) steps rest
        else if c = ')' then
          match opened with
          | [] => some (read.reverse, rest)
          | .bracket :: outer => spanScript? outer true none (c :: read) steps rest
          | .choice :: _ => spanScript? opened true none (c :: read) steps rest
        else if isBlank c then spanScript? opened isStart none (c :: read) steps rest
        else if endsWord c then spanScript? opened true none (c :: read) steps rest
        else
          let word := cs.takeWhile fun d => !endsWord d && d ≠ '\'' && d ≠ '"' && d ≠ '\\'
          let name := String.ofList word
          let rest := cs.drop word.length
          let read := word.reverse ++ read
          if isStart && name = "case" then
            spanScript? (.choice :: opened) false none read steps rest
          else if isStart && name = "esac" && opened.head? = some .choice then
            spanScript? opened.tail false none read steps rest
          else
            let leads : Bool := (isStart && leadingWords.contains name) ||
              (name = "in" && opened.head? = some .choice)
            spanScript? opened leads none read steps rest

/-- The characters up to two closing brackets and what follows; a closing bracket without an opening
one and without another behind it is a character like any other. -/
def spanNumber? (depth : Nat) (read : List Char) : List Char → Option (List Char × List Char)
  | [] => none
  | '\\' :: c :: cs => spanNumber? depth (c :: '\\' :: read) cs
  | ')' :: ')' :: cs =>
    if depth = 0 then some (read.reverse, cs) else spanNumber? (depth - 1) (')' :: read) (')' :: cs)
  | ')' :: cs => spanNumber? (depth - 1) (')' :: read) cs
  | '(' :: cs => spanNumber? (depth + 1) ('(' :: read) cs
  | c :: cs => spanNumber? depth (c :: read) cs

/-- The operator at the beginning of what follows the name of a parameter, and its word. -/
def splitOperator (cs : List Char) : String × String :=
  match cs with
  | ':' :: c :: word => (String.ofList [':', c], String.ofList word)
  | '#' :: '#' :: word => ("##", String.ofList word)
  | '%' :: '%' :: word => ("%%", String.ofList word)
  | c :: word => (String.singleton c, String.ofList word)
  | [] => ("", "")

/-- The part that stands in braces behind a dollar sign. -/
def bracedPart (isQuoted : Bool) (inner : List Char) : Part :=
  let (name, rest) := match inner with
    | [] => ([], [])
    | c :: cs =>
      if isNameStart c then inner.span isNameChar
      else if c.isDigit then inner.span Char.isDigit
      else ([c], cs)
  match inner with
  | '#' :: c :: cs =>
    if (isNameStart c && cs.all isNameChar) || (isSpecial c && cs.isEmpty) then
      .size (String.ofList (c :: cs)) isQuoted
    else
      let (operator, word) := splitOperator rest
      .value "#" operator word isQuoted
  | _ =>
    let (operator, word) := splitOperator rest
    .value (String.ofList name) operator word isQuoted

/-- The part behind a dollar sign and what follows; nothing if the sign stands for itself. -/
def readDollar (isQuoted : Bool) (cs : List Char) : Reading (Option Part) :=
  match cs with
  | '(' :: '(' :: rest =>
    match spanNumber? 0 [] rest with
    | some (inner, rest) => .ok (some (.number (String.ofList inner) isQuoted), rest)
    | none =>
      .error (.message (if isQuoted then "Unterminated quoted string" else "Missing '))'"))
  | '(' :: rest =>
    match spanScript? [] true none [] (rest.length + 1) rest with
    | some (script, rest) => .ok (some (.output (String.ofList script) ")" isQuoted), rest)
    | none => .error (.unclosed (String.ofList rest))
  | '\x7b' :: rest =>
    match spanBraces (hasSingles isQuoted rest) 0 none [] rest with
    | .ok (inner, rest) => .ok (some (bracedPart isQuoted inner), rest)
    | .error quote =>
      .error (.message (if isQuoted || quote.isSome then "Unterminated quoted string"
        else "Missing '\x7d'"))
  | c :: rest =>
    if isNameStart c then
      let (name, rest) := cs.span isNameChar
      .ok (some (.value (String.ofList name) "" "" isQuoted), rest)
    else if isSpecial c then .ok (some (.value (String.singleton c) "" "" isQuoted), rest)
    else .ok (none, cs)
  | [] => .ok (none, [])

/-- The script up to a backquote and what follows. -/
def readBackquoted (isQuoted : Bool) (read : List Char) : List Char → Reading Part
  | [] => .error (.message "EOF in backquote substitution")
  | '\\' :: c :: cs =>
    if c = '\\' || c = '$' || c = '\x60' || (isQuoted && c = '"') then
      readBackquoted isQuoted (c :: read) cs
    else readBackquoted isQuoted (c :: '\\' :: read) cs
  | c :: cs =>
    if c = '\x60' then .ok (.output (String.ofList read.reverse) "" isQuoted, cs)
    else readBackquoted isQuoted (c :: read) cs

/-- Parts, the last one first, after one that a dollar sign or a backquote begins; nothing if the
character begins none. -/
def readReplaced? (isQuoted : Bool) (parts : List Part) (c : Char) (cs : List Char) :
    Option (Reading (List Part)) :=
  if c = '$' then
    some ((readDollar isQuoted cs).map fun (part, rest) =>
      (match part with
        | some part => part :: parts
        | none => addChar '$' isQuoted parts, rest))
  else if c = '\x60' then
    some ((readBackquoted isQuoted [] cs).map fun (part, rest) => (part :: parts, rest))
  else none

/-- Parts up to a closing quote, or up to the end of the text if there is no such quote, in at most
so many steps. Between quotes a backslash only makes text of what would not be text. -/
def readQuoted (closing : Option Char) : Nat → List Part → List Char → Reading (List Part)
  | 0, parts, cs => .ok (parts, cs)
  | steps + 1, parts, cs =>
    match cs with
    | [] => if closing.isNone then .ok (parts, []) else .error (.message "Unterminated quoted string")
    | '\\' :: '\n' :: rest => readQuoted closing steps parts rest
    | '\\' :: c :: rest =>
      if c = '\\' || c = '$' || c = '\x60' || some c = closing then
        readQuoted closing steps (addChar c true parts) rest
      else readQuoted closing steps (addText (String.ofList ['\\', c]) true parts) rest
    | c :: rest =>
      if some c = closing then .ok (parts, rest)
      else
        match readReplaced? true parts c rest with
        | some (.ok (parts, rest)) => readQuoted closing steps parts rest
        | some (.error fault) => .error fault
        | none => readQuoted closing steps (addChar c true parts) rest

/-- Parts up to the end of a word, in at most so many steps; a word that is open ends only where the
text ends. -/
def readParts (isOpen : Bool) : Nat → List Part → List Char → Reading (List Part)
  | 0, parts, cs => .ok (parts, cs)
  | steps + 1, parts, cs =>
    match cs with
    | [] => .ok (parts, [])
    | '\\' :: '\n' :: rest => readParts isOpen steps parts rest
    | ['\\'] => .ok (addChar '\\' false parts, [])
    | '\\' :: c :: rest => readParts isOpen steps (addChar c true parts) rest
    | '\'' :: rest =>
      match rest.span (fun c => c ≠ '\'') with
      | (text, _ :: rest) => readParts isOpen steps (addText (String.ofList text) true parts) rest
      | _ => .error (.message "Unterminated quoted string")
    | '"' :: rest =>
      match readQuoted (some '"') (rest.length + 1) (addText "" true parts) rest with
      | .ok (parts, rest) => readParts isOpen steps parts rest
      | .error fault => .error fault
    | c :: rest =>
      if !isOpen && endsWord c then .ok (parts, cs)
      else
        match readReplaced? false parts c rest with
        | some (.ok (parts, rest)) => readParts isOpen steps parts rest
        | some (.error fault) => .error fault
        | none => readParts isOpen steps (addChar c false parts) rest

/-- A word at the beginning of some characters, and what follows. -/
def readWord (cs : List Char) : Reading Word :=
  (readParts false (cs.length + 1) [] cs).map fun (parts, rest) => (parts.reverse, rest)

/-- The word that a whole text makes up; between quotes, single quotes mean nothing. -/
def openWord (isQuoted : Bool) (text : String) : Except Fault Word :=
  let read := if isQuoted then readQuoted none else readParts true
  (read (text.length + 1) [] text.toList).map fun (parts, _) => parts.reverse

end StubGen.Shell
