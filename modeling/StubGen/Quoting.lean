import StubGen.Text.Blank
import StubGen.Text.Split

/-!
# Text inside generated code

Free text reaches the generated code in four places: inside a docstring, behind a comment sign,
and as a string literal in either quote. Each has an encoding that free text cannot break out of.
-/

namespace StubGen.Quoting

open Text

/-- Text for a docstring: backslashes are doubled and double quotes become single ones, so that
no run of quotes can close it. -/
def docstring (text : String) : String :=
  String.ofList <| text.toList.flatMap fun c =>
    if c = '\\' then ['\\', '\\'] else if c = '"' then ['\''] else [c]

/-- Text for a comment: one line, in which line ends, their escaped spelling and every other
stretch of white space count as one space. -/
def comment (text : String) : String :=
  String.ofList (trimChars (foldBlanks (replaceCharsFrom ['\\', 'n'] [' '] 0 text.toList)))

/-- One character inside a literal. -/
def escapeChar (quote c : Char) : List Char :=
  if c = '\\' then ['\\', '\\']
  else if c = '\n' then ['\\', 'n']
  else if c = '\r' then ['\\', 'r']
  else if c = '\t' then ['\\', 't']
  else if c = quote then ['\\', c]
  else [c]

/-- A string literal between two quotes of the given kind. -/
def quoted (quote : Char) (text : String) : String :=
  String.ofList (quote :: text.toList.flatMap (escapeChar quote) ++ [quote])

/-- A string literal in double quotes. -/
def literal (text : String) : String := quoted '"' text

/-- A string literal in single quotes. -/
def singleQuoted (text : String) : String := quoted '\'' text

/-- Every line after the first, indented. -/
def indentContinuation (indent text : String) : String :=
  join ("\n" ++ indent) (split '\n' text)

end StubGen.Quoting
