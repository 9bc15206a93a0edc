import StubGen.Text.Split

/-!
# Options of a command line

Options begin with a dash: letters behind one dash, or a name behind two, which may be cut short as
long as only one name begins like that. Some take a value. They may stand between the other
arguments; two dashes alone end them.
-/

namespace StubGen.Shell

/-- The options that a program knows: letters, letters that take a value, and names with the letters
that they stand for. -/
structure OptionTable where
  letters : String
  lettersWithValue : String
  names : List (String × Char)

/-- The options and the other arguments of a command line. -/
structure Options where
  given : List (Char × String)
  operands : List String

namespace Options

def has (options : Options) (letter : Char) : Bool := options.given.any fun o => o.1 = letter

/-- The last value that an option has been given. -/
def value? (options : Options) (letter : Char) : Option String := options.given.reverse.lookup letter

def addOption (letter : Char) (value : String) (options : Options) : Options :=
  { options with given := (letter, value) :: options.given }

def addOperand (operand : String) (options : Options) : Options :=
  { options with operands := operand :: options.operands }

end Options

namespace OptionTable

/-- The letter that the beginning of a name stands for. -/
def letterOf? (table : OptionTable) (name : String) : Except String Char :=
  match table.names.lookup name, table.names.filter fun n => Text.startsWith name n.1 with
  | some letter, _ => .ok letter
  | none, [(_, letter)] => .ok letter
  | none, [] => .error ("unrecognized option '--" ++ name ++ "'")
  | none, candidates =>
    .error ("option '--" ++ name ++ "' is ambiguous; possibilities:" ++
      String.join (candidates.map fun n => " '--" ++ n.1 ++ "'"))

/-- Reads letters behind a dash: the options, and whether the last one takes its value from the next
argument. -/
def readLetters (table : OptionTable) : List Char → Except String (List (Char × String) × Option Char)
  | [] => .ok ([], none)
  | c :: cs =>
    if table.lettersWithValue.toList.contains c then
      if cs.isEmpty then .ok ([], some c) else .ok ([(c, String.ofList cs)], none)
    else if table.letters.toList.contains c then
      (readLetters table cs).map fun (given, last) => ((c, "") :: given, last)
    else .error ("invalid option -- '" ++ String.singleton c ++ "'")

/-- Reads arguments in order. `atFront` says that the first operand ends the options. -/
def readWith (table : OptionTable) (atFront : Bool) : List String → Except String Options
  | [] => .ok ⟨[], []⟩
  | [arg] => last arg
  | arg :: next :: rest =>
    if arg = "--" then .ok ⟨[], next :: rest⟩
    else
      match arg.toList with
      | '-' :: '-' :: name =>
        let (name, value) := name.span (fun c => c ≠ '=')
        match table.letterOf? (String.ofList name) with
        | .error message => .error message
        | .ok letter =>
          if table.lettersWithValue.toList.contains letter && value.isEmpty then
            (readWith table atFront rest).map (Options.addOption letter next)
          else
            (readWith table atFront (next :: rest)).map
              (Options.addOption letter (String.ofList (value.drop 1)))
      | '-' :: c :: cs =>
        match table.readLetters (c :: cs) with
        | .error message => .error message
        | .ok (given, some letter) =>
          (readWith table atFront rest).map fun options =>
            { options with given := given ++ (letter, next) :: options.given }
        | .ok (given, none) =>
          (readWith table atFront (next :: rest)).map fun options =>
            { options with given := given ++ options.given }
      | _ =>
        if atFront then .ok ⟨[], arg :: next :: rest⟩
        else (readWith table atFront (next :: rest)).map (Options.addOperand arg)
where
  /-- Reads the last argument. -/
  last (arg : String) : Except String Options :=
    if arg = "--" then .ok ⟨[], []⟩
    else
      match arg.toList with
      | '-' :: '-' :: name =>
        let (name, value) := name.span (fun c => c ≠ '=')
        match table.letterOf? (String.ofList name) with
        | .error message => .error message
        | .ok letter =>
          if table.lettersWithValue.toList.contains letter && value.isEmpty then
            .error ("option '--" ++ String.ofList name ++ "' requires an argument")
          else .ok ⟨[(letter, String.ofList (value.drop 1))], []⟩
      | '-' :: c :: cs =>
        match table.readLetters (c :: cs) with
        | .error message => .error message
        | .ok (_, some letter) =>
          .error ("option requires an argument -- '" ++ String.singleton letter ++ "'")
        | .ok (given, none) => .ok ⟨given, []⟩
      | _ => .ok ⟨[], [arg]⟩

/-- Reads arguments, the options among which may stand anywhere. -/
def read (table : OptionTable) (args : List String) : Except String Options :=
  readWith table false args

end OptionTable

end StubGen.Shell
