import StubGen.Spec.Basic

/-!
# Writing specs

A record is written as an object with its fields in order, a type's tag first. A field that may
be absent is left out when it is.
-/

namespace StubGen.Spec

/-- A member that is there only if its value is. -/
def member? (key : String) (value : Option Json) : Members :=
  match value with
  | some v => [(key, v)]
  | none => []

mutual

def encodeType : DeclaredType → Json
  | .void => .obj [("kind", .str "void")]
  | .primitive typeName => .obj [("kind", .str "primitive"), ("type", .str typeName)]
  | .array none => .obj [("kind", .str "array")]
  | .array (some items) => .obj [("kind", .str "array"), ("items", encodeItems items)]
  | .object schema properties typeName =>
    .obj (("kind", .str "object") :: member? "schema" schema ++
      member? "properties"
        (match properties with
          | some parameters => some (.arr (encodeParameters parameters))
          | none => none) ++
      member? "typeName" (typeName.map .str))
  | .function none => .obj [("kind", .str "function")]
  | .function (some signature) =>
    .obj [("kind", .str "function"), ("spec", encodeSignature signature)]
  | .plain value => .obj [("kind", .str "plain"), ("value", .str value)]
  | .any => .obj [("kind", .str "any")]

def encodeItems : ArrayItems → Json
  | .type type => encodeType type
  | .schema value => value

def encodeParameters : List Parameter → List Json
  | [] => []
  | parameter :: parameters => encodeParameter parameter :: encodeParameters parameters

def encodeParameter : Parameter → Json
  | .mk name description required nullable type =>
    .obj ([("name", .str name), ("description", .str description), ("required", .bool required)] ++
      member? "nullable" (nullable.map .bool) ++ [("type", encodeType type)])

def encodeSignature : Signature → Json
  | .mk parameters returnType synchronous =>
    .obj ([("arguments", .arr (encodeParameters parameters)),
      ("returnType", encodeType returnType)] ++
      member? "synchronous" (synchronous.map .bool))

end

def encodeVariable (v : Variable) : Json :=
  .obj ([("secret", .bool v.secret), ("valueType", encodeType v.valueType)] ++
    member? "value" v.value)

/-- A spec as JSON. -/
def encode (spec : Spec) : Json :=
  .obj ([("id", .str spec.id), ("context", .str spec.context), ("name", .str spec.name),
      ("description", .str spec.description), ("type", .str spec.category.name)] ++
    member? "function" (spec.signature.map encodeSignature) ++
    member? "code" (spec.code.map .str) ++
    member? "language" (spec.language.map .str) ++
    member? "variable" (spec.storedVariable.map encodeVariable) ++
    member? "definition" spec.definition ++
    member? "schema" spec.schema ++
    member? "contextName" (spec.contextName.map .str))

end StubGen.Spec
