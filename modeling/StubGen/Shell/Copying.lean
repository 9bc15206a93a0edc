import StubGen.Shell.Effect
import StubGen.Shell.Options

/-!
# Copying and moving files

`cp` and `mv` bring files to a place or into a directory. A file that cannot be brought there is
reported, and those after it are brought all the same.
-/

namespace StubGen.Shell

/-- The options of `cp`. -/
def cpOptions : OptionTable where
  letters := "abdfHilLnprsuvxPRTZ"
  lettersWithValue := "tS"
  names := [("archive", 'a'), ("attributes-only", 'A'), ("backup", 'b'), ("copy-contents", 'C'),
    ("dereference", 'L'), ("force", 'f'), ("help", '?'), ("interactive", 'i'), ("link", 'l'),
    ("no-clobber", 'n'), ("no-dereference", 'P'), ("no-preserve", 'N'),
    ("no-target-directory", 'T'), ("one-file-system", 'x'), ("parents", 'D'), ("preserve", 'p'),
    ("recursive", 'R'), ("reflink", 'F'), ("remove-destination", 'M'), ("sparse", 'E'),
    ("strip-trailing-slashes", 'G'), ("suffix", 'S'), ("symbolic-link", 's'),
    ("target-directory", 't'), ("update", 'u'), ("verbose", 'v'), ("version", '!')]

/-- The options of `mv`. -/
def mvOptions : OptionTable where
  letters := "bfinuvTZ"
  lettersWithValue := "tS"
  names := [("backup", 'b'), ("force", 'f'), ("help", '?'), ("interactive", 'i'),
    ("no-clobber", 'n'), ("no-target-directory", 'T'), ("strip-trailing-slashes", 'G'),
    ("suffix", 'S'), ("target-directory", 't'), ("update", 'u'), ("verbose", 'v'),
    ("version", '!')]

/-- The last name of a path. -/
def lastName (path : String) : String := (Disk.Path.names path).getLast?.getD "/"

/-- What is to be done with one file. -/
structure Errand where
  program : String
  options : Options
  source : String
  target : String

namespace Errand

def fails (errand : Errand) (effect : Effect) (message : String) : Effect :=
  effect.complain (errand.program ++ ": " ++ message)

/-- The same after the file has been brought to its place. -/
def succeeds (errand : Errand) (effect : Effect) (disk : Disk) : Effect :=
  let effect := { effect with disk := disk }
  let moved := if errand.program = "mv" then "renamed " else ""
  if errand.options.has 'v' then
    effect.write (moved ++ quoted errand.source ++ " -> " ++ quoted errand.target ++ "\n")
  else effect

/-- Whether a file that is at the target stays there. -/
def keepsTarget (options : Options) : Bool :=
  options.has 'n' || options.has 'i' || options.has 'u' || options.has 'A'

/-- Copies a directory with all that is in it. -/
def copyTree (tree : Disk.Tree) (source target : Disk.Place) : Disk.Tree :=
  let below := tree.entries.filter fun e => source.isPrefixOf e.1
  below.foldl (fun tree e => tree.put (target ++ e.1.drop source.length) e.2)
    (tree.put target .directory)

/-- The message for a file that cannot be made. -/
def creationFailure (errand : Errand) (cause : IoCause) : String :=
  if errand.program = "mv" then
    "cannot move " ++ quoted errand.source ++ " to " ++ quoted errand.target ++ ": " ++ cause.text
  else "cannot create regular file " ++ quoted errand.target ++ ": " ++ cause.text

/-- Brings a text to the target. -/
def bringFile (errand : Errand) (effect : Effect) (place : Disk.Place) (content : String) :
    Effect :=
  match effect.disk.walk errand.target with
  | .error .notADirectory =>
    errand.fails effect ("cannot stat " ++ quoted errand.target ++ ": " ++ IoCause.notADirectory.text)
  | .error cause => errand.fails effect (errand.creationFailure cause)
  | .ok (_, some .directory) =>
    errand.fails effect
      ("cannot overwrite directory " ++ quoted errand.target ++ " with non-directory" ++
        if errand.program = "mv" then " " ++ quoted errand.source else "")
  | .ok (other, node) =>
    if other = place then
      errand.fails effect (quoted errand.source ++ " and " ++ quoted errand.target ++
        " are the same file")
    else if node.isSome && keepsTarget errand.options then
      if errand.options.has 'i' then
        errand.fails effect ("overwrite " ++ quoted errand.target ++ "? ")
      else if errand.options.has 'n' && errand.program = "mv" then
        errand.fails effect ("not replacing " ++ quoted errand.target)
      else effect
    else if node.isSome && (errand.options.has 'l' || errand.options.has 's') &&
        !errand.options.has 'f' then
      errand.fails effect ("cannot create " ++
        (if errand.options.has 's' then "symbolic" else "hard") ++ " link " ++
        quoted errand.target ++ " to " ++ quoted errand.source ++ ": File exists")
    else
      match effect.disk.writeFile errand.target content with
      | .error .isADirectory => errand.fails effect (errand.creationFailure .notADirectory)
      | .error cause => errand.fails effect (errand.creationFailure cause)
      | .ok disk =>
        errand.succeeds effect
          (if errand.program = "mv" then disk.withTree (disk.tree.erase place) else disk)

/-- Brings a directory to the target. -/
def bringDirectory (errand : Errand) (effect : Effect) (place : Disk.Place) : Effect :=
  match effect.disk.walk errand.target with
  | .error cause =>
    errand.fails effect ("cannot create directory " ++ quoted errand.target ++ ": " ++ cause.text)
  | .ok (_, some (.file _)) =>
    errand.fails effect
      ("cannot overwrite non-directory " ++ quoted errand.target ++ " with directory " ++
        quoted errand.source)
  | .ok (other, _) =>
    if place.isPrefixOf other then
      errand.fails effect
        (if errand.program = "mv" then
          "cannot move " ++ quoted errand.source ++ " to a subdirectory of itself, " ++
            quoted errand.target
        else
          "cannot copy a directory, " ++ quoted errand.source ++ ", into itself, " ++
            quoted errand.target)
    else
      let tree := copyTree effect.disk.tree place other
      errand.succeeds effect
        (effect.disk.withTree (if errand.program = "mv" then tree.eraseBelow place else tree))

/-- Does what is to be done. -/
def perform (effect : Effect) (errand : Errand) : Effect :=
  let isRecursive := errand.program = "mv" ||
    errand.options.has 'r' || errand.options.has 'R' || errand.options.has 'a'
  match effect.disk.walk errand.source with
  | .error cause => errand.fails effect ("cannot stat " ++ quoted errand.source ++ ": " ++ cause.text)
  | .ok (_, none) =>
    errand.fails effect
      ("cannot stat " ++ quoted errand.source ++ ": " ++ IoCause.notFound.text)
  | .ok (place, some .directory) =>
    if isRecursive then bringDirectory errand effect place
    else errand.fails effect ("-r not specified; omitting directory " ++ quoted errand.source)
  | .ok (place, some (.file content)) => bringFile errand effect place content

end Errand

/-- Why files cannot be brought into what should be a directory, if it is so. -/
def targetFailure? (disk : Disk) (target : String) : Option IoCause :=
  match disk.find target with
  | .ok (some .directory) => none
  | .ok (some (.file _)) => some .notADirectory
  | .ok none => some .notFound
  | .error cause => some cause

/-- What `cp` and `mv` do with arguments that they understand. -/
def bring (program : String) (options : Options) (call : Call) : Effect :=
  let into (directory source : String) : Errand :=
    ⟨program, options, source, Disk.Path.join directory (lastName source)⟩
  let start := Effect.silent call 0
  let intoAll (label directory : String) (sources : List String) : Effect :=
    match targetFailure? call.disk directory with
    | some cause => start.complain (program ++ ": " ++ label ++ quoted directory ++ ": " ++ cause.text)
    | none => (sources.map (into directory)).foldl Errand.perform start
  match options.value? 't', options.operands with
  | some _, [] | none, [] => Effect.misuse call program [program ++ ": missing file operand"]
  | some directory, sources => intoAll "target directory " directory sources
  | none, [source] =>
    Effect.misuse call program
      [program ++ ": missing destination file operand after " ++ quoted source]
  | none, [source, target] =>
    if !options.has 'T' && call.disk.isDirectory target then
      Errand.perform start (into target source)
    else Errand.perform start ⟨program, options, source, target⟩
  | none, operands =>
    if options.has 'T' then
      Effect.misuse call program
        [program ++ ": extra operand " ++ quoted (operands.getD 2 "")]
    else intoAll "target " (operands.getLast?.getD "") operands.dropLast

/-- What `cp` and `mv` do. -/
def copyOrMove (program : String) (call : Call) : Effect :=
  match (if program = "mv" then mvOptions else cpOptions).read call.args with
  | .error message => Effect.misuse call program [program ++ ": " ++ message]
  | .ok options =>
    if options.has '?' || options.has '!' then Effect.silent call 0 else bring program options call

end StubGen.Shell
