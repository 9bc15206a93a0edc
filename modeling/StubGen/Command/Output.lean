import StubGen.Error
import StubGen.Json.Printer
import StubGen.Package.Transaction
import StubGen.Text.CaseMapping

/-!
# What commands give back

A command ends with a report, which is printed as JSON or described to a human, or with a failure,
which is a chain of messages from the command down to the cause; either way with an exit code.
-/

namespace StubGen

/-! ## Exit codes -/

/-- What a command tells the program that has called it. -/
structure ExitCode where
  value : Int
deriving DecidableEq, Repr

namespace ExitCode

def success : ExitCode := ⟨0⟩

def failure : ExitCode := ⟨1⟩

/-- Input, arguments or settings are not valid. -/
def invalidInput : ExitCode := ⟨2⟩

/-- The service, or the way to it, has failed. -/
def serverError : ExitCode := ⟨3⟩

def isSuccess (code : ExitCode) : Bool := code.value == 0

/-- A code in text. -/
def render (code : ExitCode) : String := toString code.value

/-- The code for an error. -/
def ofError (e : Error) : ExitCode :=
  if e.isRemote then serverError else if e.isInvalidInput then invalidInput else failure

end ExitCode

/-! ## Output formats -/

/-- How reports are printed. -/
inductive OutputFormat where
  /-- JSON over several lines. -/
  | json
  /-- JSON on one line. -/
  | text
  /-- A description for humans. -/
  | pretty
deriving DecidableEq, Repr

namespace OutputFormat

def all : List OutputFormat := [.json, .text, .pretty]

def name : OutputFormat → String
  | .json => "json"
  | .text => "text"
  | .pretty => "pretty"

/-- The format of a name, in capital or small letters. -/
def parse (text : String) : Except Error OutputFormat :=
  let lowered := String.ofList (text.toList.flatMap Text.toLower)
  match all.find? fun format => format.name == lowered with
  | some format => .ok format
  | none =>
    .error (.invalidArgument
      ("invalid output format: '" ++ text ++ "' (expected: json, text, or pretty)"))

end OutputFormat

/-! ## Reports -/

/-- Whether descriptions have colours. -/
structure Style where
  hasColors : Bool
deriving DecidableEq, Repr

namespace Style

/-- What ends every look. -/
def plain : String := "\x1b[0m"

/-- A text in the look that some codes stand for, which goes on where the text itself ends one. -/
def paint (style : Style) (codes text : String) : String :=
  let look := "\x1b[" ++ codes ++ "m"
  if style.hasColors then look ++ Text.replace plain (plain ++ look) text ++ plain else text

def bold (style : Style) (text : String) : String := style.paint "1" text

def cyan (style : Style) (text : String) : String := style.paint "36" text

/-- A line that tells of success. -/
def success (style : Style) (message : String) : String := style.paint "1;32" "✓" ++ " " ++ message

def warning (style : Style) (message : String) : String := style.paint "1;33" "!" ++ " " ++ message

def failure (style : Style) (message : String) : String := style.paint "1;31" "✗" ++ " " ++ message

end Style

/-- The result of a command: as JSON, and as a description for humans. -/
structure Report where
  value : Json
  description : Style → String

/-- A report as it is printed. -/
def Report.render (report : Report) (format : OutputFormat) (style : Style) : String :=
  match format with
  | .json => report.value.pretty
  | .text => report.value.compact
  | .pretty => report.description style

/-! ## Failures -/

/-- What lies at the bottom of a failure. -/
inductive Cause where
  | error (error : Error)
  | package (error : PackageError)
  | reason (text : String)
  /-- The file system has refused an operation that the message above names. -/
  | refusal (cause : IoCause)
  /-- A text is not JSON. -/
  | notJson
deriving DecidableEq, Repr

/-- Why a command has failed: messages from the command down to the cause. -/
structure Failure where
  contexts : List String
  cause : Cause
deriving DecidableEq, Repr

namespace Failure

/-- A failure for a reason of its own. -/
def because (reason : String) : Failure := ⟨[], .reason reason⟩

def ofError (e : Error) : Failure := ⟨[], .error e⟩

/-- A failure seen from further up. -/
def within (failure : Failure) (context : String) : Failure :=
  { failure with contexts := context :: failure.contexts }

/-- The messages of a cause and of what lies behind it. -/
def causeMessages : Cause → List String
  | .error e => e.message :: e.causes
  | .package (.io f) => [(PackageError.io f).message, f.detail]
  | .package e => [e.message]
  | .reason text => [text]
  | .refusal cause => [cause.message]
  | .notJson => ["invalid JSON"]

/-- All messages, from the command down. -/
def messages (failure : Failure) : List String := failure.contexts ++ causeMessages failure.cause

/-- The failure on one line. -/
def message (failure : Failure) : String := Text.join ": " failure.messages

def exitCode (failure : Failure) : ExitCode :=
  match failure.cause with
  | .error e => .ofError e
  | _ => .failure

end Failure

end StubGen
