import StubGen.Json.Number
import StubGen.Spec.Basic
import StubGen.Text.Split
import StubGen.Text.Visible

/-!
# Reading specs

A record is given as an object, or as an array of its fields in order. Fields are read in the
order in which they are given and the first that does not fit is reported; unknown ones are
passed over. Most fields have a default, for which null stands too. A required one that is
missing is reported when all others have been read.

Inside a declared type a kind may also be given by its number, and an array that is too long is
reported with the number of elements that were wanted.
-/

namespace StubGen.Spec

/-- Why a value is not a spec. -/
inductive DecodeError where
  | invalidType (found : Json) (expected : String)
  | invalidValue (found expected : String)
  | unknownVariant (name : String) (known : List String)
  | missingField (name : String)
  | invalidLength (length : Nat) (expected : String)

/-- A result of reading. -/
abbrev Decoded := Except DecodeError

/-- A value as an error names it. -/
def found : Json → String
  | .null => "null"
  | .bool b => "boolean \x60" ++ (if b then "true" else "false") ++ "\x60"
  | .int n => "integer \x60" ++ String.ofList (Json.intDigits n) ++ "\x60"
  | .float x => "floating point \x60" ++ String.ofList (Json.floatChars x) ++ "\x60"
  | .str text => "string " ++ Text.shown text
  | .arr _ => "sequence"
  | .obj _ => "map"

namespace DecodeError

def message : DecodeError → String
  | .invalidType value expected => "invalid type: " ++ found value ++ ", expected " ++ expected
  | .invalidValue found expected => "invalid value: " ++ found ++ ", expected " ++ expected
  | .unknownVariant name known =>
    "unknown variant \x60" ++ name ++ "\x60, expected one of " ++
      Text.join ", " (known.map fun k => "\x60" ++ k ++ "\x60")
  | .missingField name => "missing field \x60" ++ name ++ "\x60"
  | .invalidLength length expected =>
    "invalid length " ++ toString length ++ ", expected " ++ expected

end DecodeError

def text : Json → Decoded String
  | .str text => .ok text
  | value => .error (.invalidType value "a string")

def boolean : Json → Decoded Bool
  | .bool b => .ok b
  | value => .error (.invalidType value "a boolean")

/-- Null stands for the default. -/
def orDefault {α : Type} (default : α) (read : Json → Decoded α) : Json → Decoded α
  | .null => .ok default
  | value => read value

/-- Null stands for absence. -/
def optional {α : Type} (read : Json → Decoded α) : Json → Decoded (Option α)
  | .null => .ok none
  | value => some <$> read value

/-- The value itself, null standing for absence. -/
def rawValue : Json → Option Json
  | .null => none
  | value => some value

/-- Where a value stands: by itself, or inside a declared type. -/
inductive Place where
  | outside
  | inside
deriving DecidableEq

/-- Reports an array with more elements than the `wanted` fields. -/
def tooLong (place : Place) (length wanted : Nat) : DecodeError :=
  match place with
  | .outside => .invalidLength length "fewer elements in array"
  | .inside =>
    .invalidLength length (toString wanted ++
      if wanted = 1 then " element in sequence" else " elements in sequence")

/-- Checks that an array has no more elements than a record has fields. -/
def checkLength (place : Place) (length wanted : Nat) : Decoded Unit :=
  if wanted < length then .error (tooLong place length wanted) else .ok ()

/-- The kind that a tag names. -/
def decodeKind (place : Place) : Json → Decoded Kind
  | .str name =>
    match Kind.all.find? fun kind => kind.name == name with
    | some kind => .ok kind
    | none => .error (.unknownVariant name (Kind.all.map Kind.name))
  | .int n =>
    if place = .inside ∧ 0 ≤ n then
      match Kind.all[n.toNat]? with
      | some kind => .ok kind
      | none => .error (.invalidValue (found (.int n)) "variant index 0 <= i < 7")
    else .error (.invalidType (.int n) "variant identifier")
  | value => .error (.invalidType value "variant identifier")

/-- The fields that a type of each kind has besides its tag. -/
def Kind.fields : Kind → List String
  | .void => []
  | .primitive => ["type"]
  | .array => ["items"]
  | .object => ["schema", "properties", "typeName"]
  | .function => ["spec"]
  | .plain => ["value"]
  | .any => []

def parameterFields : List String := ["name", "description", "required", "nullable", "type"]

def signatureFields : List String := ["arguments", "returnType", "synchronous"]

/-- How a value is read as each of the types that nest in each other. -/
structure Readings where
  type : Unit → Decoded DeclaredType
  parameters : Unit → Decoded (List Parameter)
  signature : Unit → Decoded Signature

/-- A declared type with one more field read. -/
def setTypeField (type : DeclaredType) (key : String) (value : Json) (read : Readings) :
    Decoded DeclaredType :=
  match type with
  | .primitive old => if key = "type" then .primitive <$> text value else .ok (.primitive old)
  | .array old =>
    if key = "items" then
      if value.isNull then .ok (.array none)
      else
        match read.type () with
        | .ok item => .ok (.array (some (.type item)))
        | .error _ => .ok (.array (some (.schema value)))
    else .ok (.array old)
  | .object schema properties typeName =>
    if key = "schema" then .ok (.object (rawValue value) properties typeName)
    else if key = "properties" then do
      let properties ← optional (fun _ => read.parameters ()) value
      return .object schema properties typeName
    else if key = "typeName" then do
      let typeName ← optional text value
      return .object schema properties typeName
    else .ok (.object schema properties typeName)
  | .function old =>
    if key = "spec" then .function <$> optional (fun _ => read.signature ()) value
    else .ok (.function old)
  | .plain old => if key = "value" then .plain <$> text value else .ok (.plain old)
  | .void => .ok .void
  | .any => .ok .any

/-- A parameter with one more field read. -/
def setParameterField (p : Parameter) (key : String) (value : Json) (read : Readings) :
    Decoded Parameter :=
  match p with
  | .mk name description required nullable type =>
    if key = "name" then do
      let name ← orDefault "" text value
      return .mk name description required nullable type
    else if key = "description" then do
      let description ← orDefault "" text value
      return .mk name description required nullable type
    else if key = "required" then do
      let required ← boolean value
      return .mk name description required nullable type
    else if key = "nullable" then do
      let nullable ← optional boolean value
      return .mk name description required nullable type
    else if key = "type" then do
      let type ← orDefault .any (fun _ => read.type ()) value
      return .mk name description required nullable type
    else .ok p

/-- A signature with one more field read. -/
def setSignatureField (s : Signature) (key : String) (value : Json) (read : Readings) :
    Decoded Signature :=
  match s with
  | .mk parameters returnType synchronous =>
    if key = "arguments" then do
      let parameters ← orDefault [] (fun _ => read.parameters ()) value
      return .mk parameters returnType synchronous
    else if key = "returnType" then do
      let returnType ← orDefault .any (fun _ => read.type ()) value
      return .mk parameters returnType synchronous
    else if key = "synchronous" then do
      let synchronous ← optional boolean value
      return .mk parameters returnType synchronous
    else .ok s

/-- The tag of a type that is given as an object. -/
def tagOf (place : Place) (members : Members) : Decoded Kind :=
  match members.get? "kind" with
  | some tag => decodeKind place tag
  | none => .error (.missingField "kind")

mutual

/-- A declared type. Its tag decides which fields it has. -/
def decodeType (place : Place) : Json → Decoded DeclaredType
  | .obj members => do
    let kind ← tagOf place members
    typeMembers kind.bare members
  | .arr [] => .error (.missingField "kind")
  | .arr (tag :: items) => do
    let kind ← decodeKind place tag
    let type ← typeItems kind.bare (Kind.fields kind) items
    checkLength .inside items.length (Kind.fields kind).length
    return type
  | value => .error (.invalidType value "internally tagged enum PropertyType")

def typeMembers (type : DeclaredType) : List (String × Json) → Decoded DeclaredType
  | [] => .ok type
  | (key, value) :: rest => do
    let type ← setTypeField type key value
      ⟨fun _ => decodeType .inside value, fun _ => decodeParameters .inside value,
        fun _ => decodeSignature .inside value⟩
    typeMembers type rest

def typeItems (type : DeclaredType) (keys : List String) : List Json → Decoded DeclaredType
  | [] => .ok type
  | value :: rest =>
    match keys with
    | [] => .ok type
    | key :: keys => do
      let type ← setTypeField type key value
        ⟨fun _ => decodeType .inside value, fun _ => decodeParameters .inside value,
          fun _ => decodeSignature .inside value⟩
      typeItems type keys rest

/-- A list of parameters. -/
def decodeParameters (place : Place) : Json → Decoded (List Parameter)
  | .arr items => decodeEach place items
  | value => .error (.invalidType value "a sequence")

def decodeEach (place : Place) : List Json → Decoded (List Parameter)
  | [] => .ok []
  | item :: items => do
    let parameter ← decodeParameter place item
    let parameters ← decodeEach place items
    return parameter :: parameters

def decodeParameter (place : Place) : Json → Decoded Parameter
  | .obj members => parameterMembers place default members
  | .arr items => do
    let parameter ← parameterItems place default parameterFields items
    checkLength place items.length parameterFields.length
    return parameter
  | value => .error (.invalidType value "struct PropertySpecification")

def parameterMembers (place : Place) (p : Parameter) :
    List (String × Json) → Decoded Parameter
  | [] => .ok p
  | (key, value) :: rest => do
    let p ← setParameterField p key value
      ⟨fun _ => decodeType place value, fun _ => decodeParameters place value,
        fun _ => decodeSignature place value⟩
    parameterMembers place p rest

def parameterItems (place : Place) (p : Parameter) (keys : List String) :
    List Json → Decoded Parameter
  | [] => .ok p
  | value :: rest =>
    match keys with
    | [] => .ok p
    | key :: keys => do
      let p ← setParameterField p key value
        ⟨fun _ => decodeType place value, fun _ => decodeParameters place value,
          fun _ => decodeSignature place value⟩
      parameterItems place p keys rest

def decodeSignature (place : Place) : Json → Decoded Signature
  | .obj members => signatureMembers place default members
  | .arr items => do
    let signature ← signatureItems place default signatureFields items
    checkLength place items.length signatureFields.length
    return signature
  | value => .error (.invalidType value "struct FunctionSpecification")

def signatureMembers (place : Place) (s : Signature) :
    List (String × Json) → Decoded Signature
  | [] => .ok s
  | (key, value) :: rest => do
    let s ← setSignatureField s key value
      ⟨fun _ => decodeType place value, fun _ => decodeParameters place value,
        fun _ => decodeSignature place value⟩
    signatureMembers place s rest

def signatureItems (place : Place) (s : Signature) (keys : List String) :
    List Json → Decoded Signature
  | [] => .ok s
  | value :: rest =>
    match keys with
    | [] => .ok s
    | key :: keys => do
      let s ← setSignatureField s key value
        ⟨fun _ => decodeType place value, fun _ => decodeParameters place value,
          fun _ => decodeSignature place value⟩
      signatureItems place s keys rest

end

/-- The category that a value names: by a text, or by an object with one key and null. -/
def decodeCategory (value : Json) : Decoded Category := do
  let (name, content) ←
    match value with
    | .str name => .ok (name, none)
    | .obj [(name, content)] => .ok (name, some content)
    | .obj _ => .error (.invalidValue "map" "map with a single key")
    | other => .error (.invalidType other "string or map")
  match Category.all.find? fun category => category.name == name with
  | none => .error (.unknownVariant name (Category.all.map Category.name))
  | some category =>
    match content with
    | none | some .null => .ok category
    | some other => .error (.invalidType other "unit")

/-- The members of a record, whichever way it is given: an array's elements stand for the fields
in order. -/
def recordMembers (fields : List String) (expected : String) : Json → Decoded Members
  | .obj members => .ok members
  | .arr items => .ok (fields.zip items)
  | value => .error (.invalidType value expected)

/-- Checks the length of a record that is given as an array. -/
def checkRecordLength (fields : List String) : Json → Decoded Unit
  | .arr items => checkLength .outside items.length fields.length
  | _ => .ok ()

/-- Reports a required field that is missing: by its name in an object, by its place in an
array. -/
def missing (fields : List String) (expected : String) (source : Json) (field : String) :
    DecodeError :=
  match source with
  | .arr _ =>
    .invalidLength (fields.idxOf field)
      (expected ++ " with " ++ toString fields.length ++ " elements")
  | _ => .missingField field

/-- A required field of a record. -/
def require {α : Type} (fields : List String) (expected : String) (source : Json)
    (field : String) : Option α → Decoded α
  | some value => .ok value
  | none => .error (missing fields expected source field)

def variableFields : List String := ["secret", "valueType", "value"]

def setVariableField (v : Variable) (key : String) (value : Json) : Decoded Variable :=
  if key = "secret" then do
    let secret ← boolean value
    return { v with secret := secret }
  else if key = "valueType" then do
    let valueType ← orDefault .any (decodeType .outside) value
    return { v with valueType := valueType }
  else if key = "value" then .ok { v with value := rawValue value }
  else .ok v

def decodeVariable (source : Json) : Decoded Variable := do
  let members ← recordMembers variableFields "struct VariableSpecification" source
  let result ← members.foldlM (fun v m => setVariableField v m.1 m.2) default
  checkRecordLength variableFields source
  return result

/-- A spec while it is read: the required fields may still be missing. -/
structure Draft where
  id : Option String
  name : Option String
  category : Option Category
  spec : Spec

def fieldNames : List String :=
  ["id", "context", "name", "description", "type", "function", "code", "language", "variable",
   "definition", "schema", "contextName"]

/-- A draft with one more field read. -/
def setField (d : Draft) (key : String) (value : Json) : Decoded Draft :=
  if key = "id" then do
    let id ← text value
    return { d with id := some id }
  else if key = "context" then do
    let context ← orDefault "" text value
    return { d with spec.context := context }
  else if key = "name" then do
    let name ← text value
    return { d with name := some name }
  else if key = "description" then do
    let description ← orDefault "" text value
    return { d with spec.description := description }
  else if key = "type" then do
    let category ← decodeCategory value
    return { d with category := some category }
  else if key = "function" then do
    let signature ← optional (decodeSignature .outside) value
    return { d with spec.signature := signature }
  else if key = "code" then do
    let code ← optional text value
    return { d with spec.code := code }
  else if key = "language" then do
    let language ← optional text value
    return { d with spec.language := language }
  else if key = "variable" then do
    let stored ← optional decodeVariable value
    return { d with spec.storedVariable := stored }
  else if key = "definition" then .ok { d with spec.definition := rawValue value }
  else if key = "schema" then .ok { d with spec.schema := rawValue value }
  else if key = "contextName" then do
    let contextName ← optional text value
    return { d with spec.contextName := contextName }
  else .ok d

/-- A spec from JSON. -/
def decode (source : Json) : Decoded Spec := do
  let members ← recordMembers fieldNames "struct SpecificationDto" source
  let draft ← members.foldlM (fun d m => setField d m.1 m.2) ⟨none, none, none, blank⟩
  let required {α : Type} (field : String) (value : Option α) : Decoded α :=
    require fieldNames "struct SpecificationDto" source field value
  let id ← required "id" draft.id
  let name ← required "name" draft.name
  let category ← required "type" draft.category
  checkRecordLength fieldNames source
  return { draft.spec with id := id, name := name, category := category }

/-- The identity of a value that may be no spec. -/
def describe (value : Json) : String :=
  let field (key : String) := (value.getStr? key).getD "?"
  field "context" ++ "." ++ field "name" ++ " (" ++ field "id" ++ ")"

/-- The specs among some values, and for each other value its identity and what is wrong with
it. -/
def parseMany (values : List Json) : List Spec × List String :=
  values.foldr (fun value acc =>
    match decode value with
    | .ok spec => (spec :: acc.1, acc.2)
    | .error e => (acc.1, (describe value ++ ": " ++ e.message) :: acc.2)) ([], [])

end StubGen.Spec
