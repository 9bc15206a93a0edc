/-!
# JSON values

Objects keep the order of their members, and no two members of an object that was read share a
key. Whole numbers and floating-point numbers are told apart.
-/

namespace StubGen

inductive Json where
  | null
  | bool (value : Bool)
  | int (value : Int)
  | float (value : Float)
  | str (text : String)
  | arr (items : List Json)
  | obj (members : List (String × Json))
deriving Inhabited

/-- The members of an object, in order. -/
abbrev Members := List (String × Json)

namespace Members

/-- The value stored under a key. -/
def get? (members : Members) (key : String) : Option Json := members.lookup key

def hasKey (members : Members) (key : String) : Bool := (members.get? key).isSome

def keys (members : Members) : List String := members.map Prod.fst

/-- Stores a value: in the place of the key's old value, else behind all members. -/
def insert (members : Members) (key : String) (value : Json) : Members :=
  match members with
  | [] => [(key, value)]
  | (k, v) :: rest => if k = key then (k, value) :: rest else (k, v) :: insert rest key value

/-- Stores several values, one after another. -/
def insertAll (members added : Members) : Members :=
  added.foldl (fun ms m => ms.insert m.1 m.2) members

end Members

namespace Json

/-- The value under a key of an object; no other value has keys. -/
def get? (value : Json) (key : String) : Option Json :=
  match value with
  | .obj members => Members.get? members key
  | _ => none

def str? : Json → Option String
  | .str text => some text
  | _ => none

def bool? : Json → Option Bool
  | .bool b => some b
  | _ => none

def arr? : Json → Option (List Json)
  | .arr items => some items
  | _ => none

def obj? : Json → Option Members
  | .obj members => some members
  | _ => none

def isNull : Json → Bool
  | .null => true
  | _ => false

def isObject (value : Json) : Bool := value.obj?.isSome

/-- The text under a key of an object. -/
def getStr? (value : Json) (key : String) : Option String := (value.get? key).bind str?

/-- Whether a value is the given text. -/
def isText (value : Json) (text : String) : Bool :=
  match value with
  | .str t => t == text
  | _ => false

/-- An optional text, absence being null. -/
def ofText? : Option String → Json
  | some text => .str text
  | none => .null

end Json

end StubGen
