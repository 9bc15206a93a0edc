import StubGen.Json.Basic
import StubGen.Json.Token

/-!
# Reading JSON

A value is read from its tokens with a stack of the arrays and objects that are still open. A
member whose key was there before takes the old one's place. Nesting beyond 127 levels is
refused.
-/

namespace StubGen.Json

/-- An array or object that is open around the value being read. -/
inductive Frame where
  /-- An array and its items so far, the last one first. -/
  | item (items : List Json)
  /-- An object, its members so far and the key of the value being read. -/
  | member (members : Members) (key : String)

/-- What has been read and what may follow. -/
inductive Reading where
  /-- A value follows, or the end of the array that has just been opened. -/
  | expectValue (mayClose : Bool) (stack : List Frame)
  /-- A key follows, or the end of the object that has just been opened. -/
  | expectKey (mayClose : Bool) (members : Members) (stack : List Frame)
  | expectColon (members : Members) (key : String) (stack : List Frame)
  /-- A value has been read. -/
  | complete (value : Json) (stack : List Frame)

/-- How many arrays and objects may be open at once. -/
def depthLimit : Nat := 127

/-- The reading after one more token, if that may stand there. -/
def Reading.step : Reading → Token → Option Reading
  | .expectValue mayClose stack, token =>
    match token with
    | .null => some (.complete .null stack)
    | .bool b => some (.complete (.bool b) stack)
    | .int n => some (.complete (.int n) stack)
    | .float x => some (.complete (.float x) stack)
    | .str text => some (.complete (.str text) stack)
    | .openArray =>
      if stack.length < depthLimit then some (.expectValue true (.item [] :: stack)) else none
    | .openObject => if stack.length < depthLimit then some (.expectKey true [] stack) else none
    | .closeArray =>
      match mayClose, stack with
      | true, .item items :: outer => some (.complete (.arr items.reverse) outer)
      | _, _ => none
    | _ => none
  | .expectKey mayClose members stack, token =>
    match token with
    | .str text => some (.expectColon members text stack)
    | .closeObject => if mayClose then some (.complete (.obj members) stack) else none
    | _ => none
  | .expectColon members key stack, .colon => some (.expectValue false (.member members key :: stack))
  | .complete value (.item items :: outer), .comma => some (.expectValue false (.item (value :: items) :: outer))
  | .complete value (.item items :: outer), .closeArray =>
    some (.complete (.arr (value :: items).reverse) outer)
  | .complete value (.member members key :: outer), .comma =>
    some (.expectKey false (members.insert key value) outer)
  | .complete value (.member members key :: outer), .closeObject =>
    some (.complete (.obj (members.insert key value)) outer)
  | _, _ => none

/-- The value that tokens spell from a reading on. -/
def Reading.run : Reading → List Token → Option Json
  | .complete value [], [] => some value
  | _, [] => none
  | reading, token :: tokens => (reading.step token).bind fun next => next.run tokens

/-- The value that a text spells. -/
def parse? (text : String) : Option Json :=
  (tokens? text.toList).bind (Reading.run (.expectValue false []))

end StubGen.Json
