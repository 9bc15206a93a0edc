import StubGen.Text.Blank
import StubGen.Text.Split
import StubGen.Text.Word

/-!
# Sets of definitions

Declarations from several sources are collected in one module. A source is cut into its import
lines and the blocks that its declarations begin; each import line and each declared name is kept
once, the first time it occurs.
-/

namespace StubGen

/-- A declaration in text, and the name it declares. -/
structure Definition where
  name : String
  block : String
deriving DecidableEq, Repr

/-- Import lines and definitions, each once and in order of their first occurrence. -/
structure DefinitionSet where
  imports : List String
  definitions : List Definition
deriving DecidableEq, Repr

namespace DefinitionSet

def empty : DefinitionSet := ⟨[], []⟩

/-- The leading word of some characters, and what follows it. -/
def leadingWord (cs : List Char) : List Char × List Char :=
  (cs.takeWhile Text.isWord, cs.dropWhile Text.isWord)

/-- The name of a class that a line begins to declare. -/
def className? (line : List Char) : Option (List Char) :=
  match Text.afterChars? "class".toList line with
  | none => none
  | some rest =>
    let (name, after) := leadingWord (Text.trimStartChars rest)
    if (Text.trimStartChars rest).length = rest.length || name.isEmpty then none
    else
      match Text.trimStartChars after with
      | c :: _ => if c = '(' || c = ':' then some name else none
      | [] => none

/-- The name that a line begins to assign to. -/
def assignedName? (line : List Char) : Option (List Char) :=
  let (name, after) := leadingWord line
  if name.isEmpty then none
  else
    match Text.trimStartChars after with
    | '=' :: _ => some name
    | _ => none

/-- The name that a line begins to declare. -/
def declaredName? (line : String) : Option String :=
  ((className? line.toList).orElse fun _ => assignedName? line.toList).map String.ofList

def isImport (line : String) : Bool :=
  Text.startsWith "from " line || Text.startsWith "import " line

/-- Lines without the blank ones at either end. -/
def trimLines (lines : List String) : List String :=
  ((lines.dropWhile Text.isBlankText).reverse.dropWhile Text.isBlankText).reverse

def declares (set : DefinitionSet) (name : String) : Bool :=
  set.definitions.any fun d => d.name == name

/-- Adds an import line unless it is there. -/
def addImport (set : DefinitionSet) (line : String) : DefinitionSet :=
  if set.imports.contains line then set else { set with imports := set.imports ++ [line] }

/-- Adds a definition unless its name is declared. -/
def add (set : DefinitionSet) (definition : Definition) : DefinitionSet :=
  if set.declares definition.name then set
  else { set with definitions := set.definitions ++ [definition] }

/-- Where the cutting of a source stands: the lines that will belong to the next declaration, and
the declaration being read with its lines so far. -/
structure Cutting where
  set : DefinitionSet
  pending : List String
  current : Option (String × List String)

namespace Cutting

/-- Adds the declaration being read to the set. -/
def close (c : Cutting) : DefinitionSet :=
  match c.current with
  | some (name, lines) => c.set.add ⟨name, Text.join "\n" (trimLines lines)⟩
  | none => c.set

/-- Whether a line belongs to a declaration by its indentation or by being empty. -/
def isInner (line : String) : Bool :=
  match line.toList with
  | [] => true
  | c :: _ => Text.isBlank c

/-- Takes up one more line. A comment at the margin belongs to the declaration after it. -/
def step (c : Cutting) (line : String) : Cutting :=
  if isImport line then { c with set := c.set.addImport line }
  else
    match declaredName? line with
    | some name => { set := c.close, pending := [], current := some (name, c.pending ++ [line]) }
    | none =>
      match c.current with
      | none => { c with pending := c.pending ++ [line] }
      | some (name, lines) =>
        if !isInner line && Text.startsWith "#" line then
          { c with pending := c.pending ++ [line] }
        else { c with current := some (name, lines ++ [line]) }

end Cutting

/-- Adds the declarations of a source. -/
def push (set : DefinitionSet) (source : String) : DefinitionSet :=
  ((Text.lines source).foldl Cutting.step ⟨set, [], none⟩).close

/-- Adds what another set holds. -/
def extend (set other : DefinitionSet) : DefinitionSet :=
  other.definitions.foldl add (other.imports.foldl addImport set)

def isEmpty (set : DefinitionSet) : Bool := set.definitions.isEmpty

/-- The import lines in text. -/
def importText (set : DefinitionSet) : String := Text.join "\n" set.imports

/-- The definitions in text, two empty lines apart. -/
def body (set : DefinitionSet) : String :=
  Text.join "\n\n\n" (set.definitions.map Definition.block)

/-- The whole set as a module. -/
def render (set : DefinitionSet) : String :=
  if set.imports.isEmpty then set.body else set.importText ++ "\n\n\n" ++ set.body

end DefinitionSet

end StubGen
