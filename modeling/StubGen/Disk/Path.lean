import StubGen.Text.Split

/-!
# File paths

A path is a text with slashes. Two texts are the same path when they have the same parts: empty
parts do not count, nor does a dot except at the very beginning. Where a path leads is another
matter, for a dot can only follow a directory (`Disk.walk`).
-/

namespace StubGen.Disk.Path

def isAbsolute (path : String) : Bool := Text.startsWith "/" path

/-- Whether a part of a path stands for nothing. -/
def isSilent (part : String) : Bool := part == "" || part == "."

/-- The parts that count, from the pieces between the slashes. -/
def partsOf : List String → List String
  | [] => []
  | "" :: rest => "/" :: rest.filter fun part => !isSilent part
  | first :: rest => first :: rest.filter fun part => !isSilent part

/-- The parts of a path that count; an absolute path begins with the part `/`. -/
def parts (path : String) : List String :=
  if path.isEmpty then [] else partsOf (Text.split '/' path)

/-- Whether two texts are the same path. -/
def same (p q : String) : Bool := parts p == parts q

/-- Pieces without the silent ones at the end, the first piece aside. -/
def dropSilent (pieces : List String) : List String :=
  match pieces with
  | [] => []
  | first :: rest => first :: (rest.reverse.dropWhile isSilent).reverse

/-- The directory that a path is in. -/
def parent? (path : String) : Option String :=
  if path.isEmpty then none
  else
    match dropSilent (Text.split '/' path) with
    | [] => none
    | [first] => if first.isEmpty then none else some ""
    | pieces =>
      match dropSilent pieces.dropLast with
      | [""] => some "/"
      | above => some (Text.join "/" above)

/-- A path and the directories around it, at most `steps` of them. -/
def ancestorsFrom : Nat → String → List String
  | 0, path => [path]
  | steps + 1, path =>
    path ::
      match parent? path with
      | some above => ancestorsFrom steps above
      | none => []

/-- A path and all directories around it, the innermost first. -/
def ancestors (path : String) : List String := ancestorsFrom (parts path).length path

/-- A path seen from a directory; an absolute path stands for itself. -/
def join (directory path : String) : String :=
  if isAbsolute path || directory.isEmpty then path
  else if Text.before? "/" directory |>.isSome then directory ++ path
  else directory ++ "/" ++ path

/-- How many bytes a path has to stay below. -/
def sizeLimit : Nat := 4096

/-- The names on the way that a path leads. -/
def names (path : String) : List String := (Text.split '/' path).filter fun name => name != ""

/-- Whether a path says that it is a directory. -/
def saysDirectory (path : String) : Bool := (Text.before? "/" path).isSome

/-- A path with a leading `~` replaced by the home directory. -/
def expandHome (home : Option String) (path : String) : String :=
  match Text.split '/' path, home with
  | "~" :: rest, some directory =>
    join directory (Text.join "/" ((rest.dropWhile isSilent).reverse.dropWhile isSilent).reverse)
  | _, _ => path

/-- Whether a path stays inside the directory that it is seen from. -/
def isInside (path : String) : Bool :=
  !path.isEmpty && !isAbsolute path && !(parts path).contains ".."

end StubGen.Disk.Path
