import StubGen.Error
import StubGen.Text.Blank
import StubGen.Text.Split

/-!
# Function paths

How a user names a function: its dotted context and its name, with or without the section in
front.
-/

namespace StubGen

structure FunctionPath where
  context : String
  name : String
deriving DecidableEq, Repr

namespace FunctionPath

/-- Why a text names no function. -/
inductive Refusal where
  | empty
  | invalidCharacters (text : String)
  | emptySegment (text : String)
deriving DecidableEq, Repr

def Refusal.reason : Refusal → String
  | .empty => "function path cannot be empty"
  | .invalidCharacters text => "function path '" ++ text ++ "' contains invalid characters"
  | .emptySegment text => "function path '" ++ text ++ "' contains an empty segment"

/-- A refusal as an error of the library. -/
def Refusal.toError (refusal : Refusal) : Error := .invalidArgument refusal.reason

def isPathChar (c : Char) : Bool := c.isAlphanum || c == '_' || c == '-' || c == '.'

/-- The path that a text names. -/
def parse (text : String) : Except Refusal FunctionPath :=
  let trimmed := Text.trim text
  let path := (Text.after? "poly." trimmed).getD trimmed
  let segments := Text.split '.' path
  if path.isEmpty then .error .empty
  else if !path.toList.all isPathChar then .error (.invalidCharacters text)
  else if segments.any String.isEmpty then .error (.emptySegment text)
  else .ok ⟨Text.join "." segments.dropLast, segments.getLast?.getD ""⟩

/-- A path in text. -/
def render (path : FunctionPath) : String :=
  if path.context.isEmpty then path.name else path.context ++ "." ++ path.name

end FunctionPath

end StubGen
