import StubGen.Command.Function
import StubGen.Command.Setup
import StubGen.Query

/-!
# The command line

A command line is read level by level: options and arguments of the program itself, then of a
command, then of a command below it. Options that all levels share may stand at any of them, and
the innermost one counts. Anything that fits nowhere is a misuse.
-/

namespace StubGen.Command

/-- What follows an option. -/
inductive OptionKind where
  /-- Nothing. -/
  | flag
  /-- A text. -/
  | text
  /-- A path, which may not be empty. -/
  | path
  /-- Texts with commas between them; the option may be given several times. -/
  | list
deriving DecidableEq, Repr

structure OptionSpec where
  name : String
  letter : Option Char
  kind : OptionKind
deriving DecidableEq, Repr

/-- What one level of a command line takes. -/
structure LevelSpec where
  options : List OptionSpec
  /-- The commands below; a level with such commands takes no arguments. -/
  commands : List String
  /-- The words that may follow `help`, the word that stands beside the commands. -/
  topics : List (List String)
  /-- How many arguments there may be. -/
  capacity : Nat
  /-- Whether the level tells the version. -/
  tellsVersion : Bool

/-- What one level of a command line holds. -/
structure Level where
  /-- The options that were given, with the texts that followed. -/
  given : List (String × List String)
  arguments : List String
deriving DecidableEq, Repr

/-- Why a command line is not carried out. -/
inductive Stop where
  | misuse
  | help
  | version
deriving DecidableEq, Repr

namespace Level

def empty : Level := ⟨[], []⟩

def has (level : Level) (name : String) : Bool := (level.given.lookup name).isSome

/-- The text that followed an option. -/
def text? (level : Level) (name : String) : Option String :=
  (level.given.lookup name).bind List.head?

/-- All texts that followed an option. -/
def texts (level : Level) (name : String) : List String := (level.given.lookup name).getD []

/-- The level with one more option, unless it must not be given again. -/
def give (level : Level) (option : OptionSpec) (values : List String) : Except Stop Level :=
  if !level.has option.name then
    .ok { level with given := level.given ++ [(option.name, values)] }
  else if option.kind = .list then
    .ok { level with
      given := level.given.map fun (name, old) =>
        if name = option.name then (name, old ++ values) else (name, old) }
  else .error .misuse

/-- The level with a text that follows an option. -/
def giveText (level : Level) (option : OptionSpec) (text : String) : Except Stop Level :=
  match option.kind with
  | .flag => .error .misuse
  | .text => level.give option [text]
  | .path => if text.isEmpty then .error .misuse else level.give option [text]
  | .list => level.give option (Text.split ',' text)

/-- The level with one more argument, if there may be one. -/
def addArgument (level : Level) (capacity : Nat) (text : String) : Except Stop Level :=
  if level.arguments.length < capacity then
    .ok { level with arguments := level.arguments ++ [text] }
  else .error .misuse

end Level

/-- Whether a word can stand for itself: not an option, though a lone dash may be one. -/
def isPlainWord (word : String) : Bool := !Text.startsWith "-" word || word = "-"

/-- The option whose text is still missing after some words, and the level so far. -/
structure Scan where
  level : Level
  pending : Option OptionSpec

/-- What a word of short options says; each letter but the last one is a flag, and a letter that
takes a text takes the rest of the word. -/
def scanLetters (spec : LevelSpec) (level : Level) : List Char → Except Stop Scan
  | [] => .ok ⟨level, none⟩
  | letter :: rest =>
    match spec.options.find? fun option => option.letter = some letter with
    | some option =>
      if option.kind = .flag then
        match level.give option [] with
        | .ok level => scanLetters spec level rest
        | .error stop => .error stop
      else if rest.isEmpty then .ok ⟨level, some option⟩
      else
        let text := if rest.head? = some '=' then rest.drop 1 else rest
        (level.giveText option (String.ofList text)).map fun level => ⟨level, none⟩
    | none =>
      if letter = 'h' then .error .help
      else if letter = 'V' && spec.tellsVersion then .error .version
      else .error .misuse

/-- What a long option says. -/
def scanLong (spec : LevelSpec) (level : Level) (word : String) : Except Stop Scan :=
  let (name, after) := word.toList.span (fun c => c ≠ '=')
  match spec.options.find? fun option => option.name.toList = name with
  | some option =>
    match after with
    | _ :: text => (level.giveText option (String.ofList text)).map fun level => ⟨level, none⟩
    | [] =>
      if option.kind = .flag then (level.give option []).map fun level => ⟨level, none⟩
      else .ok ⟨level, some option⟩
  | none =>
    if !after.isEmpty then .error .misuse
    else if name = "help".toList then .error .help
    else if name = "version".toList && spec.tellsVersion then .error .version
    else .error .misuse

/-- What a level holds, with the command below it and the words behind that command. -/
def scanLevel (spec : LevelSpec) (scan : Scan) :
    List String → Except Stop (Level × Option (String × List String))
  | [] => if scan.pending.isSome then .error .misuse else .ok (scan.level, none)
  | word :: words =>
    match scan.pending with
    | some option =>
      if isPlainWord word then
        match scan.level.giveText option word with
        | .ok level => scanLevel spec ⟨level, none⟩ words
        | .error stop => .error stop
      else .error .misuse
    | none =>
      if word = "--" then
        (words.foldlM (fun (level : Level) w => level.addArgument spec.capacity w) scan.level).map
          fun level => (level, none)
      else if Text.startsWith "--" word then
        match scanLong spec scan.level (String.ofList (word.toList.drop 2)) with
        | .ok scan => scanLevel spec scan words
        | .error stop => .error stop
      else if !isPlainWord word then
        match scanLetters spec scan.level (word.toList.drop 1) with
        | .ok scan => scanLevel spec scan words
        | .error stop => .error stop
      else if !spec.commands.isEmpty then
        if spec.commands.contains word then .ok (scan.level, some (word, words))
        else if word = "help" && spec.topics.contains words then .error .help
        else .error .misuse
      else
        match scan.level.addArgument spec.capacity word with
        | .ok level => scanLevel spec ⟨level, none⟩ words
        | .error stop => .error stop

/-! ## The levels of this program -/

def flag (name : String) : OptionSpec := ⟨name, none, .flag⟩

def textOption (name : String) : OptionSpec := ⟨name, none, .text⟩

def listOption (name : String) : OptionSpec := ⟨name, none, .list⟩

/-- The options that all levels share. -/
def sharedOptions : List OptionSpec :=
  [⟨"verbose", some 'v', .flag⟩, ⟨"format", none, .text⟩, ⟨"config", none, .path⟩,
   ⟨"output", some 'o', .path⟩]

/-- A level without commands below, with options of its own. -/
def lastLevel (options : List OptionSpec) (capacity : Nat) : LevelSpec :=
  ⟨sharedOptions ++ options, [], [], capacity, false⟩

/-- A level with commands below. Help can be asked for on the level itself, on each command and on
the word `help`. -/
def outerLevel (commands : List String) : LevelSpec :=
  ⟨sharedOptions, commands, [] :: (commands ++ ["help"]).map fun command => [command], 0, false⟩

def functionLevel : LevelSpec := outerLevel ["add", "execute"]

/-- The level of the program itself. -/
def programLevel : LevelSpec :=
  let outer := outerLevel ["generate", "clear", "setup", "function", "update-rendered-spec"]
  { outer with
    topics := outer.topics ++ functionLevel.topics.map fun topic => "function" :: topic
    tellsVersion := true }

def generateLevel : LevelSpec :=
  lastLevel [listOption "contexts", listOption "names", listOption "function-ids", flag "no-types"]
    0

def clearLevel : LevelSpec := lastLevel [] 0

def setupLevel : LevelSpec :=
  lastLevel [textOption "api-key", textOption "api-base-url", flag "skip-generate"] 0

def addLevel : LevelSpec :=
  lastLevel [textOption "context", textOption "description", flag "server", flag "logs"] 2

def executeLevel : LevelSpec := lastLevel [] 2

def updateLevel : LevelSpec := lastLevel [listOption "contexts"] 0

/-- What the user wants done. -/
inductive Task where
  | generate (query : Query)
  | clear
  | setup (args : SetupArguments)
  | addFunction (args : AddArguments)
  | executeFunction (reference : String) (arguments : Option String)
  | updateRenderedSpecs (contexts : List String)
deriving DecidableEq, Repr

/-- A command line that can be carried out. -/
structure Line where
  task : Task
  format : String
  config : Option String
  output : Option String
deriving DecidableEq, Repr

/-- The text of a shared option, from the innermost level at which it is given. -/
def shared? (levels : List Level) (name : String) : Option String :=
  levels.reverse.findSome? fun level => level.text? name

/-- A task with the shared options of the levels that led to it. -/
def lineOf (levels : List Level) (task : Task) : Line :=
  { task := task, format := (shared? levels "format").getD "pretty"
    config := shared? levels "config", output := shared? levels "output" }

/-- The last level of a command line. -/
def scanLast (spec : LevelSpec) (words : List String) : Except Stop Level := do
  let (level, _) ← scanLevel spec ⟨.empty, none⟩ words
  return level

def generateTask (level : Level) : Task :=
  .generate { contexts := level.texts "contexts", names := level.texts "names"
              functionIds := level.texts "function-ids", noTypes := level.has "no-types" }

def setupTask (level : Level) : Task :=
  .setup { apiKey := level.text? "api-key", baseUrl := level.text? "api-base-url"
           skipsGenerating := level.has "skip-generate" }

def addTask (level : Level) : Except Stop Task :=
  match level.arguments with
  | [name, file] =>
    if file.isEmpty then .error .misuse
    else
      .ok <| .addFunction
        { name := name, file := file, context := (level.text? "context").getD ""
          description := (level.text? "description").getD "", onServer := level.has "server"
          keepsLogs := level.has "logs" }
  | _ => .error .misuse

def executeTask (level : Level) : Except Stop Task :=
  match level.arguments with
  | [reference] => .ok (.executeFunction reference none)
  | [reference, arguments] => .ok (.executeFunction reference (some arguments))
  | _ => .error .misuse

/-- The line for a command below `function`. -/
def parseFunction (program : Level) (words : List String) : Except Stop Line := do
  let (outer, command) ← scanLevel functionLevel ⟨.empty, none⟩ words
  match command with
  | some ("add", words) =>
    let level ← scanLast addLevel words
    return lineOf [program, outer, level] (← addTask level)
  | some ("execute", words) =>
    let level ← scanLast executeLevel words
    return lineOf [program, outer, level] (← executeTask level)
  | _ => throw .misuse

/-- What the words of a command line ask for. -/
def parseLine (words : List String) : Except Stop Line := do
  let (program, command) ← scanLevel programLevel ⟨.empty, none⟩ words
  match command with
  | some ("generate", words) =>
    let level ← scanLast generateLevel words
    return lineOf [program, level] (generateTask level)
  | some ("clear", words) =>
    let level ← scanLast clearLevel words
    return lineOf [program, level] .clear
  | some ("setup", words) =>
    let level ← scanLast setupLevel words
    return lineOf [program, level] (setupTask level)
  | some ("function", words) => parseFunction program words
  | some ("update-rendered-spec", words) =>
    let level ← scanLast updateLevel words
    return lineOf [program, level] (.updateRenderedSpecs (level.texts "contexts"))
  | _ => throw .misuse

end StubGen.Command
