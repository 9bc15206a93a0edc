/-!
# Errors

The ways in which reading, rendering and writing can fail, and the text that reports each.
-/

namespace StubGen

/-- Why the file system refuses an operation. -/
inductive IoCause where
  | notFound
  | alreadyExists
  | isADirectory
  | notADirectory
  | directoryNotEmpty
  | resourceBusy
  | nameTooLong
  | nulInPath
  | permissionDenied
deriving DecidableEq, Repr

/-- A cause in words. -/
def IoCause.text : IoCause → String
  | .notFound => "No such file or directory"
  | .alreadyExists => "File exists"
  | .isADirectory => "Is a directory"
  | .notADirectory => "Not a directory"
  | .directoryNotEmpty => "Directory not empty"
  | .resourceBusy => "Device or resource busy"
  | .nameTooLong => "File name too long"
  | .nulInPath => "file name contained an unexpected NUL byte"
  | .permissionDenied => "Permission denied"

/-- The number of a cause; a name that no file can have has none. -/
def IoCause.number? : IoCause → Option Nat
  | .notFound => some 2
  | .alreadyExists => some 17
  | .isADirectory => some 21
  | .notADirectory => some 20
  | .directoryNotEmpty => some 39
  | .resourceBusy => some 16
  | .nameTooLong => some 36
  | .nulInPath => none
  | .permissionDenied => some 13

/-- A cause as the operating system words it. -/
def IoCause.message (cause : IoCause) : String :=
  match cause.number? with
  | some number => cause.text ++ " (os error " ++ number.repr ++ ")"
  | none => cause.text

/-- A refused operation, and the text that reports why. -/
structure IoFailure where
  path : String
  cause : IoCause
  detail : String
deriving DecidableEq, Repr

/-- A refusal in the operating system's words. -/
def IoFailure.of (path : String) (cause : IoCause) : IoFailure := ⟨path, cause, cause.message⟩

inductive Error where
  /-- The service cannot be reached at an address; the causes say why. -/
  | sourceUnavailable (endpoint : String) (causes : List String)
  /-- The service answered with an error. -/
  | remote (status : Nat) (body : String)
  | missingCredentials (field : String)
  | resourceNotFound (resource : String)
  | config (message : String)
  | serialization (message : String)
  | invalidArgument (message : String)
  | validation (field reason : String)
  | unresolvedReference (path : String)
  | render (spec message : String)
  | io (failure : IoFailure)
deriving DecidableEq, Repr

namespace Error

/-- An error as it is shown. -/
def message : Error → String
  | .sourceUnavailable endpoint _ => "Spec source unreachable: " ++ endpoint
  | .remote status body =>
    "Remote request failed with status " ++ toString status ++ ": " ++ body
  | .missingCredentials field =>
    "Missing credentials: " ++ field ++
      " is not configured (run \x60polygen setup\x60 or set the environment variable)"
  | .resourceNotFound resource => "Resource not found: " ++ resource
  | .config message => "Configuration error: " ++ message
  | .serialization message => "Serialization error: " ++ message
  | .invalidArgument message => "Invalid argument: " ++ message
  | .validation field reason => "Validation error in " ++ field ++ ": " ++ reason
  | .unresolvedReference path => "Unresolved schema reference: " ++ path
  | .render spec message => "Rendering failed for '" ++ spec ++ "': " ++ message
  | .io failure => "I/O error at " ++ failure.path ++ ": " ++ failure.detail

/-- What lies behind an error, each reason after the one it explains. -/
def causes : Error → List String
  | .sourceUnavailable _ causes => causes
  | .io failure => [failure.detail]
  | _ => []

/-- Whether an error comes from the service or the way to it. -/
def isRemote : Error → Bool
  | .sourceUnavailable _ _ | .remote _ _ => true
  | _ => false

/-- Whether the user can mend an error by other input or settings. -/
def isInvalidInput : Error → Bool
  | .missingCredentials _ | .config _ | .validation _ _ | .invalidArgument _ => true
  | _ => false

end Error

end StubGen
