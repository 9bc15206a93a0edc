import StubGen.Json.Basic

/-!
# Specs

A spec describes one thing that a client can use: a remote function, a variable, a schema or a
table. The catalog gives it as JSON; here it has types of its own.
-/

namespace StubGen

mutual

/-- The declared type of a parameter, a result or a variable. -/
inductive DeclaredType where
  | void
  | primitive (typeName : String)
  | array (items : Option ArrayItems)
  | object (schema : Option Json) (properties : Option (List Parameter))
      (typeName : Option String)
  | function (signature : Option Signature)
  | plain (value : String)
  | any

/-- The items of an array: a declared type, or a piece of a schema. -/
inductive ArrayItems where
  | type (type : DeclaredType)
  | schema (value : Json)

/-- A parameter of a function, or a property of an object. -/
inductive Parameter where
  | mk (name description : String) (required : Bool) (nullable : Option Bool)
      (type : DeclaredType)

/-- What a function takes and gives. -/
inductive Signature where
  | mk (parameters : List Parameter) (returnType : DeclaredType) (synchronous : Option Bool)

end

instance : Inhabited DeclaredType := ⟨.any⟩

namespace Parameter

/-- The name that the remote side knows the parameter by. -/
def name : Parameter → String
  | .mk name _ _ _ _ => name

def description : Parameter → String
  | .mk _ description _ _ _ => description

def required : Parameter → Bool
  | .mk _ _ required _ _ => required

def nullable : Parameter → Option Bool
  | .mk _ _ _ nullable _ => nullable

def type : Parameter → DeclaredType
  | .mk _ _ _ _ type => type

end Parameter

instance : Inhabited Parameter := ⟨.mk "" "" true none .any⟩

namespace Signature

def parameters : Signature → List Parameter
  | .mk parameters _ _ => parameters

def returnType : Signature → DeclaredType
  | .mk _ returnType _ => returnType

def synchronous : Signature → Option Bool
  | .mk _ _ synchronous => synchronous

end Signature

instance : Inhabited Signature := ⟨.mk [] .any none⟩

/-- The kinds of declared type. -/
inductive Kind where
  | void
  | primitive
  | array
  | object
  | function
  | plain
  | any
deriving DecidableEq, Repr

namespace Kind

def all : List Kind := [.void, .primitive, .array, .object, .function, .plain, .any]

def name : Kind → String
  | .void => "void"
  | .primitive => "primitive"
  | .array => "array"
  | .object => "object"
  | .function => "function"
  | .plain => "plain"
  | .any => "any"

/-- The type of a kind with nothing else said about it. -/
def bare : Kind → DeclaredType
  | .void => .void
  | .primitive => .primitive "any"
  | .array => .array none
  | .object => .object none none none
  | .function => .function none
  | .plain => .plain ""
  | .any => .any

end Kind

namespace DeclaredType

def kind : DeclaredType → Kind
  | .void => .void
  | .primitive _ => .primitive
  | .array _ => .array
  | .object _ _ _ => .object
  | .function _ => .function
  | .plain _ => .plain
  | .any => .any

end DeclaredType

/-- The categories of specs. -/
inductive Category where
  | apiFunction
  | customFunction
  | serverFunction
  | authFunction
  | webhookHandle
  | serverVariable
  | schema
  | table
deriving DecidableEq, Repr

namespace Category

def all : List Category :=
  [.apiFunction, .customFunction, .serverFunction, .authFunction, .webhookHandle,
   .serverVariable, .schema, .table]

def name : Category → String
  | .apiFunction => "apiFunction"
  | .customFunction => "customFunction"
  | .serverFunction => "serverFunction"
  | .authFunction => "authFunction"
  | .webhookHandle => "webhookHandle"
  | .serverVariable => "serverVariable"
  | .schema => "schema"
  | .table => "table"

def isFunction : Category → Bool
  | .apiFunction | .customFunction | .serverFunction | .authFunction | .webhookHandle => true
  | .serverVariable | .schema | .table => false

end Category

/-- What is said about a variable. A secret one cannot be read by a client. -/
structure Variable where
  secret : Bool
  valueType : DeclaredType
  value : Option Json

instance : Inhabited Variable := ⟨⟨false, .any, none⟩⟩

/-- One entry of the catalog. -/
structure Spec where
  id : String
  /-- A dotted path of namespaces, which may be empty. -/
  context : String
  name : String
  description : String
  category : Category
  signature : Option Signature
  code : Option String
  language : Option String
  storedVariable : Option Variable
  definition : Option Json
  schema : Option Json
  /-- The name that markers refer to a schema by. -/
  contextName : Option String

namespace Spec

/-- The spec of which nothing has been said. -/
def blank : Spec :=
  { id := "", context := "", name := "", description := "", category := .apiFunction
    signature := none, code := none, language := none, storedVariable := none
    definition := none, schema := none, contextName := none }

instance : Inhabited Spec := ⟨blank⟩

/-- The context and the name, dotted. -/
def qualifiedName (spec : Spec) : String :=
  if spec.context.isEmpty then spec.name else spec.context ++ "." ++ spec.name

/-- The qualified name and the id. -/
def identity (spec : Spec) : String := spec.qualifiedName ++ " (" ++ spec.id ++ ")"

end Spec

end StubGen
