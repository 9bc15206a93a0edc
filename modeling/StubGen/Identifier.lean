import StubGen.Text.Blank
import StubGen.Text.CaseMapping
import StubGen.Text.Numeric
import StubGen.Text.Split

/-!
# Identifiers of the generated code

Which words are taken, how free text is turned into an identifier, and the casing conventions of
arguments, classes and titles.
-/

namespace StubGen.Identifier

open Text

/-- The keywords of the generated language. -/
def keywords : List String :=
  ["False", "None", "True", "and", "as", "assert", "async", "await", "break", "class",
   "continue", "def", "del", "elif", "else", "except", "finally", "for", "from", "global", "if",
   "import", "in", "is", "lambda", "nonlocal", "not", "or", "pass", "raise", "return", "try",
   "while", "with", "yield"]

/-- The typing names that every generated module imports. -/
def preambleNames : List String := ["List", "Dict", "Any", "Optional", "Callable"]

def isKeyword (name : String) : Bool := keywords.contains name

/-- Whether a name is a keyword or would hide an imported typing name. -/
def isReserved (name : String) : Bool := isKeyword name || preambleNames.contains name

/-- A name that is taken gets an underscore in front. -/
def avoidReserved (name : String) : String :=
  if isReserved name then "_" ++ name else name

/-- Characters in title case; `inWord` tells that the character before was a letter. -/
def titleFrom (inWord : Bool) : List Char → List Char
  | [] => []
  | c :: cs =>
    if isAlphabetic c then (if inWord then toLower c else toUpper c) ++ titleFrom true cs
    else c :: titleFrom false cs

/-- A letter behind a letter is lowered and every other letter raised. -/
def title (s : String) : String :=
  String.ofList (titleFrom false s.toList)

/-- Characters with every run of underscores and hyphens turned into one space; `inRun` tells
that the character before belonged to such a run. -/
def spaceRunsFrom (inRun : Bool) : List Char → List Char
  | [] => []
  | c :: cs =>
    if c = '_' || c = '-' then
      if inRun then spaceRunsFrom true cs else ' ' :: spaceRunsFrom true cs
    else c :: spaceRunsFrom false cs

/-- Characters with the first one lowered. -/
def lowerFirst : List Char → List Char
  | [] => []
  | c :: cs => toLower c ++ cs

/-- Characters with the first one raised. -/
def upperFirstChars : List Char → List Char
  | [] => []
  | c :: cs => toUpper c ++ cs

/-- A text with its first character raised. -/
def upperFirst (s : String) : String := String.ofList (upperFirstChars s.toList)

/-- A name of several words, set apart by blanks or hyphens, in camel case. A name of one word
stands for itself, without the white space around it. -/
def camelCase (name : String) : String :=
  let trimmed := trimChars name.toList
  if trimmed.any fun c => c = ' ' || c = '-' then
    let titled := titleFrom false (spaceRunsFrom false trimmed)
    String.ofList (lowerFirst (wordsFrom [] titled).flatten)
  else String.ofList trimmed

/-- Characters in Pascal case: a small ASCII letter is raised at the start and behind an
underscore, which then goes. -/
def pascalFrom (atStart : Bool) : List Char → List Char
  | [] => []
  | [c] => if atStart && c.isLower then [c.toUpper] else [c]
  | c :: d :: cs =>
    if atStart && c.isLower then c.toUpper :: pascalFrom false (d :: cs)
    else if c = '_' && d.isLower then d.toUpper :: pascalFrom false cs
    else c :: pascalFrom false (d :: cs)

/-- A name written with underscores, in Pascal case. -/
def pascalCase (name : String) : String :=
  String.ofList (pascalFrom true name.toList)

/-- Whether a character may stand in an identifier. -/
def isIdentifierChar (c : Char) : Bool := isAlphanumeric c || c == '_'

/-- Trimmed characters with those that cannot stand in an identifier turned into underscores, an
underscore before a leading ASCII digit, and `arg` for nothing. -/
def sanitizeChars (cs : List Char) : List Char :=
  match (trimChars cs).map fun c => if isIdentifierChar c then c else '_' with
  | [] => "arg".toList
  | c :: rest => if c.isDigit then '_' :: c :: rest else c :: rest

/-- A text made into an identifier. -/
def sanitize (name : String) : String :=
  String.ofList (sanitizeChars name.toList)

/-- The local variable that takes a remote argument. -/
def argumentName (name : String) : String :=
  avoidReserved (sanitize (camelCase name))

/-- The module beside a declaration that holds the types it names. -/
def typeModule (leaf : String) : String := "_" ++ leaf

/-- A text without its spaces. -/
def dropSpaces (s : String) : String :=
  String.ofList (s.toList.filter (· ≠ ' '))

/-- A schema title as a class name: without spaces, and with an underscore behind a taken
name. -/
def className (title : String) : String :=
  let stripped := dropSpaces title
  if isReserved stripped then stripped ++ "_" else stripped

/-- Whether a name can be written as a field of a class: an ASCII identifier that is no
keyword. -/
def isFieldName (name : String) : Bool :=
  match name.toList with
  | [] => false
  | c :: cs =>
    (c.isAlpha || c == '_') && cs.all (fun d => d.isAlphanum || d == '_') && !isKeyword name

end StubGen.Identifier
