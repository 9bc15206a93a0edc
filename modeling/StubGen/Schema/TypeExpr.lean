import StubGen.Text.Split

/-!
# Type expressions

The right-hand sides of generated declarations. A class that is declared elsewhere is named by a
quoted forward reference, so that a declaration may refer to a later one.
-/

namespace StubGen.Schema

inductive TypeExpr where
  | any
  | none
  | str
  | int
  | float
  | bool
  /-- One of some values, each in its written form. -/
  | literal (values : List String)
  /-- A forward reference to a declared name. -/
  | ref (name : String)
  | list (item : TypeExpr)
  | tuple (items : List TypeExpr)
  /-- A mapping from strings. -/
  | dict (value : TypeExpr)
  | union (members : List TypeExpr)
deriving Inhabited

namespace TypeExpr

mutual

/-- A type expression in text. -/
def render : TypeExpr → String
  | .any => "Any"
  | .none => "None"
  | .str => "str"
  | .int => "int"
  | .float => "float"
  | .bool => "bool"
  | .literal values => "Literal[" ++ Text.join ", " values ++ "]"
  | .ref name => "\"" ++ name ++ "\""
  | .list item => "List[" ++ item.render ++ "]"
  | .tuple items => "Tuple[" ++ Text.join ", " (renderAll items) ++ "]"
  | .dict value => "Dict[str, " ++ value.render ++ "]"
  | .union members => "Union[" ++ Text.join ", " (renderAll members) ++ "]"

def renderAll : List TypeExpr → List String
  | [] => []
  | expr :: exprs => expr.render :: renderAll exprs

end

mutual

/-- The names that an expression refers to. -/
def references : TypeExpr → List String
  | .ref name => [name]
  | .list item => item.references
  | .tuple items => referencesAll items
  | .dict value => value.references
  | .union members => referencesAll members
  | _ => []

def referencesAll : List TypeExpr → List String
  | [] => []
  | expr :: exprs => expr.references ++ referencesAll exprs

end

/-- An expression as the right-hand side of an alias: a reference to a declared name stands
without its quotes. -/
def renderAlias : TypeExpr → String
  | .ref name => name
  | expr => expr.render

/-- Expressions without those whose text has occurred before. -/
def distinct : List TypeExpr → List TypeExpr
  | [] => []
  | expr :: exprs =>
    expr :: (distinct exprs).filter fun other => other.render != expr.render

/-- One of several types: repeated ones count once, no type is any type, and one type stands for
itself. -/
def oneOf (exprs : List TypeExpr) : TypeExpr :=
  match distinct exprs with
  | [] => .any
  | [expr] => expr
  | members => .union members

/-- One of some values, or nothing: without values only nothing is left. -/
def oneOfValues (values : List String) (orNone : Bool) : TypeExpr :=
  match values, orNone with
  | [], _ => .none
  | values, false => .literal values
  | values, true => .union [.literal values, .none]

end TypeExpr

end StubGen.Schema
