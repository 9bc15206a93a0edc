import StubGen.Schema.Declarations

/-!
# Rendering schemas

A schema is rendered by an engine, any function from a schema and a root name to a module that
declares the root. Whatever the engine does, the caller gets a type expression: the root's name
with the module behind it, or the caller's own fallback when the engine fails.
-/

namespace StubGen

/-- A type expression and the declarations it depends on, which may be blank. -/
structure Resolution where
  expr : String
  definition : String
deriving DecidableEq, Repr

namespace Resolution

/-- A type expression that needs no declaration. -/
def plain (expr : String) : Resolution := ⟨expr, ""⟩

def hasDefinition (r : Resolution) : Bool := !Text.isBlankText r.definition

end Resolution

namespace Schema

/-- A way to declare a schema under a root name. -/
abbrev Engine := Json → String → Except SchemaError String

/-- The engine of this library. -/
def builtinEngine : Engine := generate defaultMaxDepth

/-- The key of a marker that stands for a schema kept elsewhere. -/
def markerKey : String := "x-poly-ref"

/-- The path that a marker names. -/
def markerPath? (schema : Json) : Option String :=
  ((schema.get? markerKey).bind (Json.get? · "path")).bind Json.str?

/-- The name wanted for a schema: the given one, else one made from a marker's path, else a
standard one for a list or a mapping. -/
def wantedName (schema : Json) (root fallback : String) : String :=
  if Text.isBlankText root then
    let base := if fallback == "List" then "List" else "Dict"
    match markerPath? schema with
    | some path => base ++ String.join ((Text.split '.' path).map Identifier.pascalCase)
    | none => "My" ++ base
  else root

/-- The name under which a schema is declared. -/
def rootName (schema : Json) (root fallback : String) : String :=
  let name := Identifier.className (wantedName schema root fallback)
  if name.toList.all Identifier.isIdentifierChar then name else Identifier.sanitize name

/-- A text with single quotes in place of double ones. -/
def singleQuotes (text : String) : String :=
  String.ofList (text.toList.map fun c => if c = '\x22' then '\x27' else c)

/-- A member of an enumeration with single quotes in place of double ones. -/
def normalizeMember : Json → Json
  | .str text => .str (singleQuotes text)
  | value => value

mutual

/-- A value in which the texts of every enumeration have single quotes in place of double
ones. -/
def normalizeEnums : Json → Json
  | .obj members => .obj (normalizeMembers members)
  | .arr items => .arr (normalizeItems items)
  | value => value

def normalizeItems : List Json → List Json
  | [] => []
  | item :: items => normalizeEnums item :: normalizeItems items

def normalizeMembers : List (String × Json) → List (String × Json)
  | [] => []
  | (key, .arr items) :: rest =>
    (key, .arr (if key = "enum" then items.map normalizeMember else normalizeItems items)) ::
      normalizeMembers rest
  | (key, value) :: rest => (key, normalizeEnums value) :: normalizeMembers rest

end

/-- What opens an example. -/
def exampleOpening : List Char := "# example: \x7b\n".toList

/-- The text behind the first line that is a lone closing brace; `atLineStart` tells whether a
line begins here. -/
def afterExample? (atLineStart : Bool) : List Char → Option (List Char)
  | [] => none
  | [c] => if atLineStart && c = '\x7d' then some [] else none
  | c :: d :: rest =>
    if atLineStart && c = '\x7d' && d = '\n' then some (d :: rest)
    else afterExample? (c = '\n') (d :: rest)

theorem length_afterExample? {start : Bool} {cs rest : List Char}
    (h : afterExample? start cs = some rest) : rest.length < cs.length := by
  fun_induction afterExample? start cs <;> grind

/-- Characters without the examples whose object was written out as code. -/
def cleanExamplesChars : List Char → List Char
  | [] => []
  | c :: cs =>
    match _h : Text.afterChars? exampleOpening (c :: cs) with
    | none => c :: cleanExamplesChars cs
    | some body =>
      match _h' : afterExample? true body with
      | none => c :: cleanExamplesChars cs
      | some rest => cleanExamplesChars rest
termination_by cs => cs.length
decreasing_by
  · simp
  · simp
  · have h1 := congrArg List.length (Text.afterChars?_eq_some_iff.1 _h)
    have h2 := length_afterExample? _h'
    simp at h1
    simp
    omega

/-- A text without the examples whose object was written out as code: from the opening mark to
the first line that is a lone closing brace. -/
def cleanExamples (source : String) : String :=
  String.ofList (cleanExamplesChars source.toList)

/-- Renders a schema with an engine; never fails. -/
def render (engine : Engine) (schema : Json) (root fallback : String) : Resolution :=
  let name := rootName schema root fallback
  match engine (normalizeEnums schema) name with
  | .ok source => ⟨name, cleanExamples source⟩
  | .error _ => .plain fallback

end Schema

end StubGen
