import StubGen.Json.Basic
import StubGen.TypeName

/-!
# Types of columns

The type of a table's column as it is used in queries. A nested object goes by the name of the
class that the row declares for it, and the items of a list by that name with their place in it.
-/

namespace StubGen.ColumnType

/-- Whether an object lists properties. -/
def hasProperties (members : Members) : Bool :=
  match members.get? "properties" with
  | some (.obj (_ :: _)) => true
  | _ => false

mutual

/-- The type that a `type` key stands for: several types are a union, and what a list or an
object is made of is worked out by the caller. -/
def ofType (list object : Unit → String) : Json → String
  | .arr types => "Union[" ++ Text.join ", " (ofTypes list object types) ++ "]"
  | .str type =>
    if type = "array" then list ()
    else if type = "object" then object ()
    else if type = "null" then "None"
    else TypeName.ofPrimitive type
  | _ => "Any"

def ofTypes (list object : Unit → String) : List Json → List String
  | [] => []
  | type :: types => ofType list object type :: ofTypes list object types

end

mutual

/-- The type of a column; `hint` is the name of the class for an object in this place. -/
def ofSchema (hint : String) : Json → String
  | .obj members =>
    let object := fun _ => objectType hint (hasProperties members) members
    match Members.get? members "type" with
    | none => object ()
    | some type => ofType (fun _ => listType hint members) object type
  | _ => "Dict[str, Any]"

/-- The type of a list, by what its members say about items. -/
def listType (hint : String) : List (String × Json) → String
  | [] => "List[Any]"
  | (key, items) :: rest =>
    if key = "items" then
      match items with
      | .arr schemas => "Tuple[" ++ Text.join ", " (tupleTypes hint 0 schemas) ++ "]"
      | .obj members => "List[" ++ ofSchema (hint ++ "Item") (.obj members) ++ "]"
      | _ => "List[Any]"
    else listType hint rest

def tupleTypes (hint : String) (index : Nat) : List Json → List String
  | [] => []
  | schema :: schemas =>
    ofSchema (hint ++ "Item" ++ toString index) schema :: tupleTypes hint (index + 1) schemas

/-- The type of an object: a mapping when a pattern describes its values, else the class that is
declared for its properties. -/
def objectType (hint : String) (declared : Bool) : List (String × Json) → String
  | [] => if declared then "\"" ++ hint ++ "\"" else "Dict[str, Any]"
  | (key, value) :: rest =>
    if key = "patternProperties" then
      match value with
      | .obj ((_, schema) :: _) => "Dict[str, " ++ ofSchema (hint ++ "Value") schema ++ "]"
      | _ => objectType hint declared rest
    else objectType hint declared rest

end

end StubGen.ColumnType
