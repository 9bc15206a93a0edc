import StubGen.Stub.Basic
import StubGen.Stub.ColumnType

/-!
# Stubs of tables

A table becomes the declarations of its rows, the type of any part of a row, the filters on its
columns, the shapes of its queries, and a class with the operations. The names of the classes for
nested objects are read off the declarations of the row.
-/

namespace StubGen

/-- The most rows that one query selects or inserts. -/
def maxRows : Nat := 1000

/-- A record type by its keys, each with its type in text. -/
structure RecordType where
  name : String
  fields : List (String × String)
deriving DecidableEq, Repr

namespace RecordType

/-- Whether a column can be written as a field of a class. -/
def isColumnName (column : String) : Bool :=
  match column.toList with
  | [] => false
  | c :: cs =>
    !Identifier.isKeyword column && (Text.isAlphabetic c || c == '_') &&
      (c :: cs).all Identifier.isIdentifierChar

/-- A record type in text: a class when every column can be a field of one, else a list of its
keys. -/
def render (record : RecordType) : String :=
  if record.fields.all fun field => isColumnName field.1 then
    Text.join "\n" <| ("class " ++ record.name ++ "(TypedDict):") ::
      record.fields.map fun field => "    " ++ field.1 ++ ": " ++ field.2
  else
    Text.join "\n" <|
      [record.name ++ " = TypedDict(" ++ Quoting.literal record.name ++ ", \x7b"] ++
        (record.fields.map fun field =>
          "    " ++ Quoting.literal field.1 ++ ": " ++ field.2 ++ ",") ++ ["\x7d)"]

end RecordType

namespace Row

/-- The declarations of a row without the imports in front of them. -/
def declarations (engine : Schema.Engine) (schema : Json) (row : String) : String :=
  let type := Schema.render engine schema row "Dict"
  if type.hasDefinition then
    Text.trim <| Text.join "\n" <|
      (Text.lines type.definition).filter fun line => !DefinitionSet.isImport line
  else row ++ " = Dict[str, Any]"

/-- A text cut at the first `: `. -/
def cutAtColon : List Char → Option (List Char × List Char)
  | [] => none
  | ':' :: ' ' :: rest => some ([], rest)
  | c :: cs => (cutAtColon cs).map fun (key, value) => (c :: key, value)

/-- Characters without the double quotes at either end. -/
def unquote (cs : List Char) : List Char :=
  ((cs.dropWhile (· = '\x22')).reverse.dropWhile (· = '\x22')).reverse

/-- The type inside `Required[...]`, or the whole expression. -/
def withoutRequired (expr : List Char) : List Char :=
  (((Text.afterChars? "Required[".toList expr).bind
    (Text.beforeChars? [']']))).getD expr

/-- The column and its annotation on a line of a declaration; `keyed` tells that columns are
listed as strings. -/
def field? (keyed : Bool) (line : List Char) : Option (String × String) :=
  let body := Text.trimChars line
  if (Text.afterChars? "\"\"\"".toList body).isSome || (Text.afterChars? ['#'] body).isSome then
    none
  else
    let cut :=
      if keyed then
        ((Text.beforeChars? [','] body).bind cutAtColon).map fun (key, type) => (unquote key, type)
      else cutAtColon body
    cut.map fun (key, type) => (String.ofList key, String.ofList (withoutRequired type))

/-- Stores a field, in the place of an older one for its column. -/
def put (fields : List (String × String)) (column type : String) : List (String × String) :=
  match fields with
  | [] => [(column, type)]
  | (c, t) :: rest => if c = column then (c, type) :: rest else (c, t) :: put rest column type

/-- The fields on the lines of a declaration, up to the first line that is neither indented nor
blank. -/
def fieldsFrom (keyed : Bool) (fields : List (String × String)) :
    List String → List (String × String)
  | [] => fields
  | line :: lines =>
    if Text.startsWith "    " line then
      match field? keyed line.toList with
      | some (column, type) => fieldsFrom keyed (put fields column type) lines
      | none => fieldsFrom keyed fields lines
    else if Text.isBlankText line then fieldsFrom keyed fields lines
    else fields

/-- The columns that the declaration of a row lists, each with its annotation. -/
def fields (source row : String) : List (String × String) :=
  let classHeader := "class " ++ row ++ "("
  let keyedHeader := row ++ " = TypedDict("
  let isHeader (line : String) : Bool :=
    Text.startsWith classHeader line || Text.startsWith keyedHeader line
  match (Text.lines source).dropWhile fun line => !isHeader line with
  | [] => []
  | header :: lines => fieldsFrom (Text.startsWith keyedHeader header) [] lines

/-- What stands between the first two double quotes. -/
def firstQuoted? (cs : List Char) : Option (List Char) :=
  match cs.dropWhile (· ≠ '\x22') with
  | [] => none
  | _ :: rest =>
    if rest.contains '\x22' then some (rest.takeWhile (· ≠ '\x22')) else none

/-- The first class that an annotation names. -/
def declaredClass? (expr : String) : Option String :=
  match firstQuoted? expr.toList with
  | some (c :: cs) =>
    if (c :: cs).all Identifier.isIdentifierChar then some (String.ofList (c :: cs)) else none
  | _ => none

end Row

/-- The columns of a table. -/
structure Columns where
  row : String
  /-- The row's columns as they are declared, each with its annotation. -/
  declared : List (String × String)
  properties : Members
  required : List String

namespace Columns

def ofSchema (engine : Schema.Engine) (schema : Json) (properties : Members) (row : String) :
    Columns :=
  { row := row
    declared := Row.fields (Row.declarations engine schema row) row
    properties := properties
    required := (((schema.get? "required").bind Json.arr?).getD []).filterMap Json.str? }

/-- Whether a schema describes an object itself, and not a list or a mapping of objects. -/
def isDirectObject (schema : Json) : Bool :=
  let isList := match schema.get? "type" with
    | some (.arr types) => types.any fun type => type.isText "array"
    | some type => type.isText "array"
    | none => (schema.get? "items").isSome
  !isList && (schema.get? "patternProperties").isNone &&
    ColumnType.hasProperties (schema.obj?.getD [])

/-- The name of the class for an object in a column. -/
def classHint (columns : Columns) (column : String) (schema : Json) : String :=
  let declared? :=
    if isDirectObject schema then (columns.declared.lookup column).bind Row.declaredClass?
    else none
  declared?.getD (Schema.nestedName columns.row column)

/-- The type of a column. -/
def typeOf (columns : Columns) (column : String) (schema : Json) : String :=
  ColumnType.ofSchema (columns.classHint column schema) schema

/-- Any part of a row: every column, none of them required. -/
def subset (columns : Columns) (name : String) : RecordType :=
  { name := name
    fields := columns.properties.map fun (column, schema) =>
      let type := columns.typeOf column schema
      let type := if columns.required.contains column then type else "Optional[" ++ type ++ "]"
      (column, "NotRequired[" ++ type ++ "]") }

/-- The filter on a column of a type. Required columns of other than simple types have none. -/
def filterOf (type : String) (required : Bool) : Option (String × String) :=
  if type = "bool" then some (type, if required then "BooleanFilter" else "NullableBooleanFilter")
  else if type = "str" then some (type, if required then "StringFilter" else "NullableStringFilter")
  else if type = "int" || type = "float" then
    some (type, if required then "NumberFilter" else "NullableNumberFilter")
  else if required then none
  else some ("None", "NullableObjectFilter")

/-- The keys that join filters. -/
def combinators (name : String) : List (String × String) :=
  let quoted := "\"" ++ name ++ "\""
  [("AND", "NotRequired[Union[" ++ quoted ++ ", List[" ++ quoted ++ "]]]"),
   ("OR", "NotRequired[List[" ++ quoted ++ "]]"),
   ("NOT", "NotRequired[Union[" ++ quoted ++ ", List[" ++ quoted ++ "]]]")]

/-- The filters on the columns. -/
def filters (columns : Columns) : List (String × String) :=
  columns.properties.filterMap fun (column, schema) =>
    (filterOf (columns.typeOf column schema) (columns.required.contains column)).map
      fun (type, filter) => (column, "NotRequired[Union[" ++ type ++ ", " ++ filter ++ "]]")

/-- What rows can be selected by. -/
def whereFilter (columns : Columns) (name : String) : RecordType :=
  { name := name, fields := columns.filters ++ combinators name }

end Columns

namespace Renderer

/-- The columns of a table, of which there must be one. -/
def tableProperties (spec : Spec) (schema : Json) : Except Error Members :=
  match (schema.get? "properties").bind Json.obj? with
  | some (property :: properties) => .ok (property :: properties)
  | _ =>
    .error (.validation "schema.properties" ("table " ++ spec.qualifiedName ++ " has no columns"))

/-- The stub of a table. -/
def tableStub (r : Renderer) (spec : Spec) : Except Error Stub := do
  let entry ← spec.tableEntry
  let name := leafOf entry.name
  let path ← pathOf .tables entry.context name
  let properties ← tableProperties spec entry.rowSchema
  let row := name ++ "Row"
  let columns := Columns.ofSchema r.engine entry.rowSchema properties row
  return {
    path := path
    source := Template.tableClass.fill <|
      [("name", name),
        ("columns", Text.join "," (properties.map fun p => Quoting.literal p.1)),
        ("row_classes", Row.declarations r.engine entry.rowSchema row),
        ("subset_class", (columns.subset (name ++ "Subset")).render),
        ("where_class", (columns.whereFilter (name ++ "WhereFilter")).render),
        ("max_rows", toString maxRows)] ++ docValues entry.description entry.id
    typeDefs := "" }

end Renderer

end StubGen
