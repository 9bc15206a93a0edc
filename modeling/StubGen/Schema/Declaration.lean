import StubGen.Quoting
import StubGen.Identifier
import StubGen.Schema.TypeExpr

/-!
# Declarations

A declaration gives a name either to a record with fields or to a type expression. A record is
written as a class when each of its fields can be named in one, and as a call that lists its keys
as strings otherwise.
-/

namespace StubGen.Schema

/-- A field of a record, and the text that documents it. -/
structure Field where
  name : String
  type : TypeExpr
  required : Bool
  doc : Option String
deriving Inhabited

/-- A field's type in text; a required field says so. -/
def Field.typeText (field : Field) : String :=
  if field.required then "Required[" ++ field.type.render ++ "]" else field.type.render

inductive Declaration where
  | record (name : String) (doc : Option String) (fields : List Field)
  | alias (name : String) (type : TypeExpr)
deriving Inhabited

namespace Declaration

/-- The name that a declaration declares. -/
def name : Declaration → String
  | .record name _ _ => name
  | .alias name _ => name

/-- The names that a declaration refers to by a forward reference. An alias of a declared name
needs that name at once, so it is no forward reference. -/
def forwardReferences : Declaration → List String
  | .record _ _ fields => fields.flatMap fun field => field.type.references
  | .alias _ (.ref _) => []
  | .alias _ type => type.references

/-- A documentation line under a class or a field. -/
def docLine (doc : String) : String :=
  "    \"\"\" " ++ Quoting.indentContinuation "    " (Quoting.docstring (Text.trim doc)) ++ " \"\"\""

/-- The lines of a field in a class, and the empty line behind them. -/
def classField (field : Field) : List String :=
  ["    " ++ field.name ++ ": " ++ field.typeText] ++
    (field.doc.map docLine).toList ++ [""]

/-- Lines without the empty ones at the end. -/
def dropTrailingEmpty (lines : List String) : List String :=
  (lines.reverse.dropWhile fun line => line.isEmpty).reverse

/-- A record written as a class. -/
def classLines (name : String) (doc : Option String) (fields : List Field) : List String :=
  dropTrailingEmpty <|
    ["class " ++ name ++ "(TypedDict, total=False):"] ++
      (match doc with
        | some text => [docLine text, ""]
        | none => []) ++
      fields.flatMap classField

/-- The lines of a field that is listed by its key. -/
def keyedField (field : Field) : List String :=
  (field.doc.map fun doc => "    # " ++ Quoting.comment doc).toList ++
    ["    " ++ Quoting.literal field.name ++ ": " ++ field.typeText ++ ","]

/-- A record written with its keys as strings. -/
def keyedLines (name : String) (doc : Option String) (fields : List Field) : List String :=
  (doc.map fun text => "# " ++ Quoting.comment text).toList ++
    [name ++ " = TypedDict(" ++ Quoting.literal name ++ ", \x7b"] ++
    fields.flatMap keyedField ++ ["\x7d, total=False)"]

/-- Whether a record can be written as a class. -/
def fitsClass (fields : List Field) : Bool :=
  fields.all fun field => Identifier.isFieldName field.name

/-- A declaration in text, without a line end behind it. -/
def render : Declaration → String
  | .alias name type => name ++ " = " ++ type.renderAlias
  | .record name doc fields =>
    Text.join "\n" (if fitsClass fields then classLines name doc fields
      else keyedLines name doc fields)

/-- The imports that every set of declarations needs. -/
def header : String :=
  "from typing import Any, Dict, List, Literal, Tuple, Union\n" ++
    "from typing_extensions import Required, TypedDict\n\n\n"

/-- Declarations as a module: the imports, then the declarations two empty lines apart. -/
def renderModule (declarations : List Declaration) : String :=
  header ++ Text.join "\n\n\n" (declarations.map render) ++ "\n"

end Declaration

end StubGen.Schema
