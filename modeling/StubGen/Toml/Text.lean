import StubGen.Text.Split

/-!
# Text in TOML

Text stands between double quotes, where a backslash begins an escape, or between single quotes,
where every character stands for itself. Three quotes in place of one let the text run over
several lines. Of the forms that can hold a text, the plainest one is written.
-/

namespace StubGen.Toml

/-- Whether a character may not stand in a document as it is. -/
def isControl (c : Char) : Bool := (c.toNat < 32 && c ≠ '\t') || c.toNat = 127

def isBlank (c : Char) : Bool := c = ' ' || c = '\t'

def hexValue? (c : Char) : Option Nat :=
  if c.isDigit then some (c.toNat - '0'.toNat)
  else if 'a' ≤ c && c ≤ 'f' then some (c.toNat - 'a'.toNat + 10)
  else if 'A' ≤ c && c ≤ 'F' then some (c.toNat - 'A'.toNat + 10)
  else none

/-- The character that an escape of one letter stands for. -/
def simpleEscape? (c : Char) : Option Char :=
  if c = 'b' then some '\x08'
  else if c = 't' then some '\t'
  else if c = 'n' then some '\n'
  else if c = 'f' then some '\x0c'
  else if c = 'r' then some '\r'
  else if c = 'e' then some '\x1b'
  else if c = '"' then some '"'
  else if c = '\\' then some '\\'
  else none

/-- The character of a code point, if it is one. -/
def charOf? (code : Nat) : Option Char :=
  if code.isValidChar then some (Char.ofNat code) else none

/-- How a text in quotes is written. -/
structure QuoteForm where
  quote : Char
  /-- Whether three quotes are used. -/
  isLong : Bool
deriving DecidableEq, Repr

/-- Whether a backslash begins an escape. -/
def QuoteForm.hasEscapes (form : QuoteForm) : Bool := form.quote = '"'

/-- What the characters being read are part of. -/
inductive Scanning where
  | plain
  /-- So many quotes have been read, which may end the text. -/
  | quotes (count : Nat)
  /-- Hexadecimal digits are missing from an escape. -/
  | hex (missing value : Nat)
  /-- Blanks and line ends after a backslash do not count. -/
  | gap (sawLineEnd : Bool)
deriving DecidableEq, Repr

/-- Some quotes in front of what has been read, in reverse. -/
def withQuotes (quote : Char) (count : Nat) (read : List Char) : List Char :=
  List.replicate count quote ++ read

/-- Reads a text up to its closing quotes, and gives it with what follows. `read` is what has been
read, in reverse. -/
def scan? (form : QuoteForm) (mode : Scanning) (read : List Char) :
    List Char → Option (List Char × List Char)
  | [] =>
    match mode with
    | .quotes count =>
      if 3 ≤ count then some ((withQuotes form.quote (count - 3) read).reverse, []) else none
    | _ => none
  | c :: cs =>
    let plainly (read : List Char) : Option (List Char × List Char) :=
      if c = form.quote then
        if form.isLong then scan? form (.quotes 1) read cs else some (read.reverse, cs)
      else if c = '\\' && form.hasEscapes then
        match cs with
        | [] => none
        | e :: rest =>
          if e = 'x' then scan? form (.hex 2 0) read rest
          else if e = 'u' then scan? form (.hex 4 0) read rest
          else if e = 'U' then scan? form (.hex 8 0) read rest
          else if form.isLong && isBlank e then scan? form (.gap false) read rest
          else if form.isLong && (e = '\n' || e = '\r') then scan? form (.gap true) read rest
          else
            match simpleEscape? e with
            | some d => scan? form .plain (d :: read) rest
            | none => none
      else if c = '\n' then if form.isLong then scan? form .plain (c :: read) cs else none
      else if c = '\r' then
        if form.isLong && cs.head? = some '\n' then scan? form .plain (c :: read) cs else none
      else if isControl c then none
      else scan? form .plain (c :: read) cs
    match mode with
    | .plain => plainly read
    | .quotes count =>
      if c = form.quote && count < 5 then scan? form (.quotes (count + 1)) read cs
      else if 3 ≤ count then some ((withQuotes form.quote (count - 3) read).reverse, c :: cs)
      else plainly (withQuotes form.quote count read)
    | .hex missing value =>
      match hexValue? c with
      | none => none
      | some digit =>
        let value := value * 16 + digit
        if missing ≤ 1 then
          match charOf? value with
          | some d => scan? form .plain (d :: read) cs
          | none => none
        else scan? form (.hex (missing - 1) value) read cs
    | .gap sawLineEnd =>
      if isBlank c then scan? form (.gap sawLineEnd) read cs
      else if c = '\n' || (c = '\r' && cs.head? = some '\n') then scan? form (.gap true) read cs
      else if sawLineEnd then plainly read
      else none

/-- Characters without a line end in front. -/
def dropLineEnd : List Char → List Char
  | '\n' :: cs => cs
  | '\r' :: '\n' :: cs => cs
  | cs => cs

/-- A text in quotes at the beginning of some characters, and what follows. With `mayBeLong`, it
may run over several lines. -/
def readText? (mayBeLong : Bool) (cs : List Char) : Option (String × List Char) :=
  let result :=
    match cs with
    | '"' :: '"' :: '"' :: rest =>
      if mayBeLong then scan? ⟨'"', true⟩ .plain [] (dropLineEnd rest)
      else scan? ⟨'"', false⟩ .plain [] ('"' :: '"' :: rest)
    | '"' :: rest => scan? ⟨'"', false⟩ .plain [] rest
    | '\'' :: '\'' :: '\'' :: rest =>
      if mayBeLong then scan? ⟨'\'', true⟩ .plain [] (dropLineEnd rest)
      else scan? ⟨'\'', false⟩ .plain [] ('\'' :: '\'' :: rest)
    | '\'' :: rest => scan? ⟨'\'', false⟩ .plain [] rest
    | _ => none
  result.map fun (text, rest) => (String.ofList text, rest)

/-! ## Writing -/

/-- Whether a character needs an escape wherever it stands. -/
def needsEscape (c : Char) : Bool := isControl c && c ≠ '\n'

/-- The length of the longest run of a character. -/
def longestRunFrom (c : Char) (run longest : Nat) : List Char → Nat
  | [] => max run longest
  | d :: ds =>
    if d = c then longestRunFrom c (run + 1) longest ds
    else longestRunFrom c 0 (max run longest) ds

def longestRun (c : Char) (cs : List Char) : Nat := longestRunFrom c 0 0 cs

/-- Four hexadecimal digits, in capitals. -/
def hexDigits4 (n : Nat) : List Char :=
  [n / 4096, n / 256, n / 16, n].map fun d => (Nat.digitChar (d % 16)).toUpper

/-- A character between double quotes, the quote aside. -/
def escapeChar (isLong : Bool) (c : Char) : List Char :=
  if c = '\\' then ['\\', '\\']
  else if c = '\t' then ['\\', 't']
  else if c = '\n' then if isLong then ['\n'] else ['\\', 'n']
  else if c = '\x08' then ['\\', 'b']
  else if c = '\x0c' then ['\\', 'f']
  else if c = '\r' then ['\\', 'r']
  else if isControl c then '\\' :: 'u' :: hexDigits4 c.toNat
  else [c]

/-- Characters between double quotes, in runs of at most `allowed` quotes; `run` quotes have just
been written. -/
def escapeChars (isLong : Bool) (allowed run : Nat) : List Char → List Char
  | [] => []
  | c :: cs =>
    if c = '"' then
      if allowed ≤ run then '\\' :: '"' :: escapeChars isLong allowed 0 cs
      else '"' :: escapeChars isLong allowed (run + 1) cs
    else escapeChar isLong c ++ escapeChars isLong allowed 0 cs

/-- A text with the quotes of a form around it. -/
def quotedChars (form : QuoteForm) (cs : List Char) : List Char :=
  let quotes := List.replicate (if form.isLong then 3 else 1) form.quote
  let opening := if form.isLong && cs.contains '\n' then quotes ++ ['\n'] else quotes
  let body :=
    if form.hasEscapes then escapeChars form.isLong (if form.isLong then 2 else 0) 0 cs else cs
  opening ++ body ++ quotes

/-- The plainest form in which a text can be written. -/
def formFor (cs : List Char) : QuoteForm :=
  let escaped := cs.any needsEscape
  let hasBackslash := cs.contains '\\'
  let hasLineEnd := cs.contains '\n'
  if !escaped && !hasBackslash && !hasLineEnd && !cs.contains '"' then ⟨'"', false⟩
  else if !escaped && !hasLineEnd && !cs.contains '\'' then ⟨'\'', false⟩
  else if !escaped && !hasBackslash && longestRun '"' cs ≤ 2 then ⟨'"', true⟩
  else if !escaped && longestRun '\'' cs ≤ 2 then ⟨'\'', true⟩
  else ⟨'"', hasLineEnd⟩

/-- A text as it is written. -/
def renderText (text : String) : String :=
  String.ofList (quotedChars (formFor text.toList) text.toList)

end StubGen.Toml
