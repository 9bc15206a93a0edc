import StubGen.Identifier

/-!
# Type names

The types that need no import, the table from primitive type names to them, and the
qualification that leads from an annotation to the module holding its types.
-/

namespace StubGen.TypeName

open Text

/-- The types that need no import path. -/
def basicTypes : List String :=
  ["Any", "List", "Dict", "int", "float", "str", "bool", "None", "Callable"]

def isBasic (expr : String) : Bool := basicTypes.contains expr

/-- The annotation for each primitive type name. -/
def primitives : List (String × String) :=
  [("integer", "int"), ("number", "float"), ("string", "str"), ("boolean", "bool"),
   ("array", "List"), ("object", "Dict")]

def isPrimitive (typeName : String) : Bool := (primitives.lookup typeName).isSome

/-- The annotation for a primitive type name; any other name may be anything. -/
def ofPrimitive (typeName : String) : String := (primitives.lookup typeName).getD "Any"

/-- What stands inside `List[...]`. -/
def listElement? (expr : List Char) : Option (List Char) :=
  (afterChars? "List[".toList expr).bind (beforeChars? [']'])

/-- What stands inside double quotes. -/
def quotedName? (expr : List Char) : Option (List Char) :=
  (afterChars? ['"'] expr).bind (beforeChars? ['"'])

theorem length_listElement? {expr inner : List Char} (h : listElement? expr = some inner) :
    inner.length < expr.length := by
  simp only [listElement?, beforeChars?, Option.bind_eq_some_iff, Option.map_eq_some_iff] at h
  obtain ⟨rest, h1, back, h2, rfl⟩ := h
  have e1 := afterChars?_eq_some_iff.1 h1
  have e2 := congrArg List.length (afterChars?_eq_some_iff.1 h2)
  subst e1
  simp at e2 ⊢
  omega

theorem length_trimStartChars_le (cs : List Char) : (trimStartChars cs).length ≤ cs.length :=
  (List.dropWhile_sublist _).length_le

theorem length_trimChars_le (cs : List Char) : (trimChars cs).length ≤ cs.length := by
  have h1 : (trimEndChars (trimStartChars cs)).length ≤ (trimStartChars cs).length := by
    simpa [trimEndChars] using
      (List.dropWhile_sublist isBlank (l := (trimStartChars cs).reverse)).length_le
  exact Nat.le_trans h1 (length_trimStartChars_le cs)

/-- A type expression as seen from outside the module of its owner's types. Basic types and
callables need no path, the element of a list is qualified in place, and a quoted name stays
quoted. -/
def qualifyChars (owner : String) (expr : List Char) : List Char :=
  let trimmed := trimChars expr
  let name := String.ofList trimmed
  if trimmed.isEmpty || (afterChars? "Callable".toList trimmed).isSome || isBasic name then trimmed
  else
    match _h : listElement? trimmed with
    | some inner => "List[".toList ++ qualifyChars owner inner ++ [']']
    | none =>
      let path := (Identifier.typeModule owner ++ ".").toList
      match quotedName? trimmed with
      | some quoted =>
        ['"'] ++ path ++ (Identifier.camelCase (String.ofList quoted)).toList ++ ['"']
      | none => path ++ (Identifier.camelCase name).toList
termination_by expr.length
decreasing_by
  exact Nat.lt_of_lt_of_le (length_listElement? _h) (length_trimChars_le expr)

/-- A type expression as seen from outside the module of its owner's types. -/
def qualify (owner expr : String) : String :=
  String.ofList (qualifyChars owner expr.toList)

end StubGen.TypeName
