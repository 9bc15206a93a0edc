import StubGen.Error
import StubGen.Text.Blank
import StubGen.Text.Split

/-!
# Namespace paths

A generated declaration lives at a dotted path: the section of the package, the namespaces below
it, and the leaf. Each segment but the leaf is a directory, so none may be empty, a relative
directory, or hold a path separator.
-/

namespace StubGen

/-- A top directory of the generated package. -/
inductive Section where
  | functions
  | variables
  | schemas
  | tables
deriving DecidableEq, Repr

namespace Section

/-- The sections in the order of their directories. -/
def all : List Section := [.functions, .variables, .schemas, .tables]

def directory : Section → String
  | .functions => "poly"
  | .variables => "vari"
  | .schemas => "schemas"
  | .tables => "tabi"

def ofDirectory? (name : String) : Option Section :=
  all.find? fun s => s.directory == name

end Section

/-- A section, the namespaces below it and the leaf. -/
structure NamespacePath where
  root : Section
  namespaces : List String
  leaf : String
deriving DecidableEq, Repr

namespace NamespacePath

/-- Why segments make no path. -/
inductive Refusal where
  | noLeaf
  | invalidSegment (segment : String)
  | unknownSection (dotted : String)
deriving DecidableEq, Repr

def Refusal.reason : Refusal → String
  | .noLeaf => "path has no leaf name"
  | .invalidSegment segment => "invalid path segment '" ++ segment ++ "'"
  | .unknownSection dotted => "'" ++ dotted ++ "' does not start with a known section"

/-- A refusal as an error of the library. -/
def Refusal.toError (refusal : Refusal) : Error := .validation "namespace_path" refusal.reason

/-- Whether a segment can name a directory or a declaration. -/
def isSegment (segment : String) : Bool :=
  !segment.isEmpty && segment != "." && segment != ".." &&
    segment.toList.all fun c => c ≠ '/' && c ≠ '\\'

/-- A path from the segments below its section. -/
def ofSegments (root : Section) (segments : List String) : Except Refusal NamespacePath :=
  match segments.getLast? with
  | none => .error .noLeaf
  | some leaf =>
    if leaf.isEmpty then .error .noLeaf
    else
      match segments.find? fun segment => !isSegment segment with
      | some segment => .error (.invalidSegment segment)
      | none => .ok ⟨root, segments.dropLast, leaf⟩

/-- A path from a dotted context and a name. White space around segments does not count, nor do
empty segments of the context. -/
def ofContext (root : Section) (context name : String) : Except Refusal NamespacePath :=
  let namespaces := ((Text.split '.' context).map Text.trim).filter fun s => !s.isEmpty
  ofSegments root (namespaces ++ [Text.trim name])

/-- A path from its dotted text. -/
def parse (dotted : String) : Except Refusal NamespacePath :=
  match Text.split '.' dotted with
  | [] => .error (.unknownSection dotted)
  | head :: segments =>
    match Section.ofDirectory? head with
    | none => .error (.unknownSection dotted)
    | some root => ofSegments root segments

/-- The segments below the section. -/
def segments (path : NamespacePath) : List String := path.namespaces ++ [path.leaf]

/-- A path in text, dotted. -/
def render (path : NamespacePath) : String :=
  Text.join "." (path.root.directory :: path.segments)

/-- The dotted namespaces between the section and the leaf. -/
def context (path : NamespacePath) : String := Text.join "." path.namespaces

/-- The directories from the package down to the leaf. -/
def directories (path : NamespacePath) : List String := path.root.directory :: path.namespaces

end NamespacePath

end StubGen
