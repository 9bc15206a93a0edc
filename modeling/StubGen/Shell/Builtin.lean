import StubGen.Shell.Condition
import StubGen.Shell.Expansion

/-!
# Commands of the shell itself

These commands look at the shell that runs them or change it. After a mistake in one of the special
ones the shell ends; the others only fail.
-/

namespace StubGen.Shell

/-- The commands that end the shell by their mistakes and that keep the variables set before them. -/
def specialNames : List String :=
  [":", ".", "break", "continue", "eval", "exec", "exit", "export", "readonly", "return", "set",
   "shift", "times", "trap", "unset"]

/-- The commands that do nothing and succeed. -/
def idleNames : List String :=
  [":", "true", "wait", "trap", "ulimit", "times", "alias", "unalias", "hash", "jobs", "bg",
   "fg", "getopts"]

/-- The letters of options of the shell. -/
def optionLetters : List Char := "abCefIimnpsuvVxE".toList

/-- The letter of an option of the shell by its name. -/
def optionNamed? (name : String) : Option Char :=
  [("allexport", 'a'), ("noclobber", 'C'), ("errexit", 'e'), ("noglob", 'f'), ("noexec", 'n'),
   ("nounset", 'u'), ("verbose", 'v'), ("xtrace", 'x'), ("monitor", 'm'), ("ignoreeof", 'I'),
   ("interactive", 'i'), ("stdin", 's'), ("vi", 'V'), ("emacs", 'E'), ("notify", 'b'),
   ("nolog", 'a'), ("debug", 'a')].lookup name

/-- What options at the beginning of some words turn on and off, and the words behind them. -/
structure Switches where
  on : List Char
  off : List Char
  /-- Whether a script comes as a word. -/
  takesScript : Bool
  rest : List String
  /-- Whether the words behind are there even if they are none, because dashes ended the options. -/
  isEnded : Bool

/-- Reads options at the beginning of some words. -/
def readSwitches (s : Switches) : List String → Except String Switches
  | [] => .ok s
  | [word] => single s word []
  | word :: next :: rest =>
    let isNamed : Bool := word == "-o" || word == "+o"
    if isNamed then
      match optionNamed? next with
      | some letter =>
        readSwitches (if word = "-o" then { s with on := letter :: s.on }
          else { s with off := letter :: s.off }) rest
      | none => .error ("Illegal option " ++ word ++ " " ++ next)
    else
      match word.toList with
      | sign :: c :: cs =>
        if (sign = '-' && (c :: cs) ≠ ['-']) || sign = '+' then
          match switch s sign (c :: cs) with
          | .ok s => readSwitches s (next :: rest)
          | .error message => .error message
        else single s word (next :: rest)
      | _ => single s word (next :: rest)
where
  /-- Turns letters on or off. -/
  switch (s : Switches) (sign : Char) (cs : List Char) : Except String Switches :=
    match cs.find? fun c => c ≠ 'c' && !optionLetters.contains c with
    | some c => .error ("Illegal option -" ++ String.singleton c)
    | none =>
      let letters := cs.filter fun c => c ≠ 'c'
      if sign = '-' then
        .ok { s with on := letters ++ s.on, takesScript := s.takesScript || cs.contains 'c' }
      else .ok { s with off := letters ++ s.off }
  /-- Reads a word after which no options follow. -/
  single (s : Switches) (word : String) (rest : List String) : Except String Switches :=
    match word.toList with
    | ['-'] => .ok { s with rest := rest, isEnded := true }
    | ['-', '-'] => .ok { s with rest := rest, isEnded := true }
    | sign :: c :: cs =>
      if sign = '-' || sign = '+' then switch s sign (c :: cs)
      else .ok { s with rest := word :: rest }
    | _ => .ok { s with rest := word :: rest }

/-- The options after some have been turned on and off. -/
def Switches.applyTo (s : Switches) (options : List Char) : List Char :=
  (s.on.reverse ++ options).eraseDups.filter fun c => !s.off.contains c

/-- A line of a text: without backslashes unless they are kept, whether it has an end, and what
follows. Characters behind a backslash separate nothing. -/
def readLine (keeps : Bool) (read : List (Char × Bool)) :
    List Char → List (Char × Bool) × Bool × List Char
  | [] => (read.reverse, false, [])
  | '\\' :: c :: cs =>
    if keeps then
      if c = '\n' then ((('\\', false) :: read).reverse, true, cs)
      else if c = '\\' then readLine keeps (('\\', false) :: ('\\', false) :: read) cs
      else readLine keeps ((c, false) :: ('\\', false) :: read) cs
    else if c = '\n' then readLine keeps read cs
    else readLine keeps ((c, true) :: read) cs
  | c :: cs =>
    if c = '\n' then (read.reverse, true, cs) else readLine keeps ((c, false) :: read) cs

/-- Distributes the fields of a line over names; the last name takes what is left. -/
def distribute (separators : List Char) : List String → List (Char × Bool) → List (String × String)
  | [], _ => []
  | [name], line =>
    let isBlank (c : Char × Bool) : Bool :=
      !c.2 && separators.contains c.1 && (c.1 = ' ' || c.1 = '\t' || c.1 = '\n')
    let line := ((line.dropWhile isBlank).reverse.dropWhile isBlank).reverse
    [(name, String.ofList (line.map Prod.fst))]
  | name :: names, line =>
    let separates (c : Char × Bool) : Bool := !c.2 && separators.contains c.1
    let isBlank (c : Char × Bool) : Bool :=
      separates c && (c.1 = ' ' || c.1 = '\t' || c.1 = '\n')
    let line := line.dropWhile isBlank
    let field := line.takeWhile fun c => !separates c
    let rest := (line.drop field.length).dropWhile isBlank
    let rest := match rest with
      | c :: cs =>
        if separates c && (line.drop field.length).head? ≠ none then
          if isBlank c then rest else cs
        else rest
      | [] => []
    (name, String.ofList (field.map Prod.fst)) :: distribute separators names rest

namespace Running

/-- Fails on behalf of a command that is not special. -/
def fails (command message : String) : Running Unit := do
  warn (some command) message
  finish 2

/-- An argument that is a number without a sign, or the end of the shell. -/
def numberArgument (command text : String) : Running Nat := do
  let cs := text.toList
  if cs.isEmpty || !cs.all Char.isDigit then abort (some command) ("Illegal number: " ++ text)
  let n := (readDigits 10 0 false cs).1
  if 0x80000000 ≤ n then abort (some command) ("Illegal number: " ++ text)
  return n

/-- Sets a variable to what stands behind its name in a word. -/
def declare (command word : String) : Running String := do
  let (name, value) := word.toList.span (fun c => c ≠ '=')
  let name := String.ofList name
  if !isName name then abort (some command) (name ++ ": bad variable name")
  match value with
  | _ :: value => assign name (String.ofList value)
  | [] => pure ()
  return name

/-- What `test` does under one of its names. -/
def decide (command : String) (words : List String) : Running Unit := do
  match decideTest (← get).disk words with
  | .ok holds => finish (if holds then 0 else 1)
  | .error message => fails command message

/-- What `printf` does. -/
def printPattern (args : List String) : Running Unit := do
  match if args.head? = some "--" then args.drop 1 else args with
  | [] => fails "printf" "usage: printf format [arg ...]"
  | pattern :: rest =>
    match args.head?.map String.toList with
    | some ('-' :: c :: _) =>
      if c ≠ '-' then return ← fails "printf" ("Illegal option -" ++ String.singleton c)
    | _ => pure ()
    let p := printed pattern rest
    p.complaints.forM (warn (some "printf"))
    write 1 p.written
    match p.failure with
    | some message => fails "printf" message
    | none => finish (if p.complaints.isEmpty then 0 else 1)

/-- What `read` does. -/
def readVariables (args : List String) : Running Unit := do
  let keeps := args.contains "-r"
  let names := args.filter fun arg => !Text.startsWith "-" arg
  if names.isEmpty then fails "read" "arg count"
  else
    let (line, isWhole, rest) := readLine keeps [] (← get).input.toList
    modify fun s => { s with input := String.ofList rest }
    (distribute (← separators) names line).forM fun (name, value) => do
      if !isName name then abort (some "read") (name ++ ": bad variable name")
      assign name value
    finish (if isWhole then 0 else 1)

/-- What `set` does. -/
def setOptions (args : List String) : Running Unit := do
  match readSwitches ⟨[], [], false, [], false⟩ args with
  | .error message => abort (some "set") message
  | .ok switches =>
    modify fun s =>
      { s with
        options := switches.applyTo s.options
        args := if switches.isEnded || !switches.rest.isEmpty then switches.rest else s.args }
    finish 0

/-- What `cd` does. -/
def changeDirectory (args : List String) : Running Unit := do
  let path := args.headD "/"
  let s ← get
  match s.disk.walk (if path.isEmpty then "." else path) with
  | .ok (place, some .directory) =>
    set { s with disk := { s.disk with workingDirectory := place } }
    finish 0
  | _ => fails "cd" ("can't cd to " ++ path)

/-- Ends loops or rounds of loops. -/
def jump (command : String) (args : List String) (jumpOf : Nat → Jump) : Running Unit := do
  let levels ← match args with
    | [] => pure 1
    | text :: _ => numberArgument command text
  if levels = 0 then abort (some command) "Illegal number: 0"
  let depth := (← get).loopDepth
  finish 0
  if depth ≠ 0 then throw (jumpOf (min levels depth))

/-- Runs a command of the shell that runs no other command; nothing if there is no such one. -/
def builtin? (name : String) (args : List String) : Option (Running Unit) :=
  match name with
  | "false" => some (finish 1)
  | "echo" => some do
    write 1 (echoed args)
    finish 0
  | "printf" => some (printPattern args)
  | "test" => some (decide "test" args)
  | "[" => some do
    if Text.startsWith "]" (args.getLast?.getD "") then decide "[" args.dropLast else fails "[" "missing ]"
  | "exit" => some do
    match args with
    | text :: _ => finish ((← numberArgument "exit" text) % 256)
    | [] => pure ()
    throw .exit
  | "return" => some do
    match args with
    | text :: _ => finish ((← numberArgument "return" text) % 256)
    | [] => pure ()
    throw .leaveFunction
  | "break" => some (jump "break" args .breakLoop)
  | "continue" => some (jump "continue" args .nextRound)
  | "kill" => some do
    finish 137
    throw .exit
  | "shift" => some do
    let count ← match args with
      | [] => pure 1
      | text :: _ => numberArgument "shift" text
    if (← get).args.length < count then abort (some "shift") "can't shift that many"
    modify fun s => { s with args := s.args.drop count }
    finish 0
  | "export" => some do
    (args.filter fun arg => arg != "-p").forM fun arg => do
      let name ← declare "export" arg
      modify fun s => { s with exported := name :: s.exported }
    finish 0
  | "readonly" => some do
    (args.filter fun arg => arg != "-p").forM fun arg => do
      let name ← declare "readonly" arg
      modify fun s => { s with readOnly := name :: s.readOnly }
    finish 0
  | "local" => some do
    if (← get).functionDepth = 0 then abort (some "local") "not in a function"
    args.forM fun arg => do
      let name := String.ofList (arg.toList.takeWhile fun c => c ≠ '=')
      modify fun s => { s with hidden := (name, s.valueOf? name) :: s.hidden }
      let _ ← declare "local" arg
    finish 0
  | "unset" => some do
    args.forM fun arg => do
      if (← get).readOnly.contains arg then abort (some "unset") (arg ++ ": is read only")
      modify fun s =>
        if args.contains "-f" then { s with functions := s.functions.filter fun f => f.1 ≠ arg }
        else s.dropVariable arg
    finish 0
  | "umask" => some do
    write 1 (if args.isEmpty then "0022\n" else "")
    finish 0
  | "set" => some (setOptions args)
  | "read" => some (readVariables args)
  | "cd" | "chdir" => some (changeDirectory args)
  | "pwd" => some do
    write 1 ("/" ++ Text.join "/" (← get).disk.workingDirectory ++ "\n")
    finish 0
  | _ => if idleNames.contains name then some (finish 0) else none

end Running

end StubGen.Shell
