
/-!
# Templates

A template is text with named gaps. Filling it puts a value into every gap, as it is, and changes
nothing else; a gap without a value is an error.
-/

namespace StubGen

/-- A piece of a template. -/
inductive Piece where
  | text (text : String)
  | gap (name : String)
deriving DecidableEq, Repr

/-- Text with named gaps. -/
abbrev Template := List Piece

namespace Template

/-- The pieces of a text in which gaps stand between guillemets; `word` is what has been read of
the current piece, in reverse, and `inGap` tells whether that is a gap. -/
def piecesFrom (word : List Char) (inGap : Bool) : List Char → Template
  | [] => if word.isEmpty then [] else [.text (String.ofList word.reverse)]
  | c :: cs =>
    if !inGap && c = '«' then
      (if word.isEmpty then [] else [.text (String.ofList word.reverse)]) ++ piecesFrom [] true cs
    else if inGap && c = '»' then .gap (String.ofList word.reverse) :: piecesFrom [] false cs
    else piecesFrom (c :: word) inGap cs

/-- A template from its lines, in which gaps stand between guillemets. -/
def ofLines (lines : List String) : Template :=
  lines.flatMap fun line => piecesFrom [] false (line ++ "\n").toList

/-- The text of a template for the values of its gaps; nothing when one is missing. -/
def fill? (value? : String → Option String) : Template → Option String
  | [] => some ""
  | .text text :: pieces => (fill? value? pieces).map (text ++ ·)
  | .gap name :: pieces => do
    let value ← value? name
    let rest ← fill? value? pieces
    return value ++ rest

/-- The names of a template's gaps. -/
def gaps (template : Template) : List String :=
  template.filterMap fun
    | .gap name => some name
    | .text _ => none

/-- The text of a template whose gaps all have values; any other gap is left empty. -/
def fill (values : List (String × String)) (template : Template) : String :=
  String.join <| template.map fun
    | .text text => text
    | .gap name => (values.lookup name).getD ""

end Template

end StubGen
