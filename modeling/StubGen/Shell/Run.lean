import StubGen.Shell.Builtin

/-!
# Running scripts

A script is run line by line: a line that cannot be read ends the shell, but the lines before it have
been run. How deep commands can be inside one another, and how often loops can run, is bounded by a
number that every step makes smaller.
-/

namespace StubGen.Shell

/-- What follows the name of the variable in a word that sets one. -/
def assignedWord (word : Word) : Word :=
  match word with
  | .text text isQuoted :: rest =>
    .text (String.ofList (text.toList.dropWhile (fun c => c ≠ '=')).tail) isQuoted :: rest
  | word => word

/-- The name of a program without the directories in which programs are. -/
def programName (name : String) : String :=
  let directories := ["/bin/", "/usr/bin/", "/usr/local/bin/"]
  ((directories.filterMap fun directory => Text.after? directory name).head?).getD name

namespace Running

/-- Why a file cannot be opened, in the words of the shell. -/
def openFailure (missing : String) (cause : IoCause) : String :=
  match cause with
  | .notFound | .notADirectory => missing
  | cause => cause.text

/-- Reports a redirection that cannot be carried out. -/
def refuse (message : String) : Running Bool := do
  warn none message
  finish 2
  return false

/-- Carries out one redirection, unless it cannot be carried out. -/
def redirect (target : String) (r : Redirection) : Running Bool := do
  let s ← get
  match r.direction with
  | .duplicate =>
    if target = "-" then
      set (s.disconnect r.channel)
      return true
    match target.toList with
    | [c] =>
      if !c.isDigit then abort none "Syntax error: Bad fd number"
      let source := c.toNat - '0'.toNat
      match s.channels.lookup source with
      | some destination =>
        set (s.connect r.channel destination)
        return true
      | none => if source = 0 then return true else refuse (target ++ ": Bad file descriptor")
    | _ => abort none "Syntax error: Bad fd number"
  | .input =>
    let content := if r.isText then .ok target else s.disk.read target
    match content with
    | .ok text =>
      if r.channel = 0 then set { s with input := text, readsFile := !r.isText }
      return true
    | .error .isADirectory =>
      if r.channel = 0 then set { s with input := "" }
      return true
    | .error cause => refuse ("cannot open " ++ target ++ ": " ++ openFailure "No such file" cause)
  | .inputOutput =>
    match s.disk.find target with
    | .ok (some (.file text)) =>
      if r.channel = 0 then set { s with input := text, readsFile := true }
      return true
    | _ =>
      match s.disk.writeFile target "" with
      | .ok disk =>
        set { s with disk := disk, input := if r.channel = 0 then "" else s.input }
        return true
      | .error cause =>
        refuse ("cannot create " ++ target ++ ": " ++ openFailure "Directory nonexistent" cause)
  | direction =>
    let special : List (String × Destination) :=
      [("/dev/null", .nowhere), ("/dev/stdout", s.destination 1), ("/dev/fd/1", s.destination 1),
       ("/dev/stderr", s.destination 2), ("/dev/fd/2", s.destination 2)]
    match special.lookup target with
    | some destination =>
      set (s.connect r.channel destination)
      return true
    | none =>
      let before := if direction = .append then (s.disk.read target).toOption.getD "" else ""
      match s.disk.writeFile target before, s.disk.walk target with
      | .ok disk, .ok (place, _) =>
        set ({ s with disk := disk }.openFile r.channel place (direction == Direction.append))
        return true
      | .error cause, _ | _, .error cause =>
        refuse ("cannot create " ++ target ++ ": " ++ openFailure "Directory nonexistent" cause)

/-- Carries out redirections in order, up to one that cannot be carried out. -/
def redirectAll (substitute : String → String → Running String) : List Redirection → Running Bool
  | [] => return true
  | r :: rest => do
    let target ← textOf substitute r.target
    if ← redirect target r then redirectAll substitute rest else return false

/-- Does something with redirections carried out, which end with it. -/
def redirected (substitute : String → String → Running String) (rs : List Redirection) (isSpecial : Bool)
    (action : Running Unit) : Running Unit := do
  if rs.isEmpty then action
  else
    let before ← get
    let readsElsewhere := rs.any fun r => r.channel = 0
    try
      if ← redirectAll substitute rs then action else if isSpecial then throw .exit
    finally
      modify fun s =>
        { s with
          channels := before.channels
          input := if readsElsewhere then before.input else s.input
          readsFile := before.readsFile }

/-- Runs commands whose failure is looked at. -/
def tested (action : Running Unit) : Running Unit := do
  let before := (← get).isTested
  modify fun s => { s with isTested := true }
  try action
  finally modify fun s => { s with isTested := before }

/-- Ends the shell after a failure that nothing looks at, if it is to end then. -/
def endOnFailure : Running Unit := do
  let s ← get
  if s.status ≠ 0 && s.options.contains 'e' && !s.isTested then throw .exit

/-- Runs the body of a loop once, and says whether the loop goes on. -/
def round (body : Running Unit) : Running Bool := do
  modify fun s => { s with loopDepth := s.loopDepth + 1 }
  try
    body
    return true
  catch
    | .breakLoop levels => if levels ≤ 1 then return false else throw (.breakLoop (levels - 1))
    | .nextRound levels => if levels ≤ 1 then return true else throw (.nextRound (levels - 1))
    | other => throw other
  finally modify fun s => { s with loopDepth := s.loopDepth - 1 }

/-- Runs commands up to one that leaves the function around it. -/
def untilReturn (action : Running Unit) : Running Unit := do
  try action
  catch
    | .leaveFunction => pure ()
    | other => throw other

/-- Sets variables for the time of an action. -/
def withVariables (values : List (String × String)) (action : Running Unit) : Running Unit := do
  let before ← get
  values.forM fun (name, value) => assign name value
  modify fun s => { s with exported := values.map Prod.fst ++ s.exported }
  try action
  finally
    modify fun s => { s with exported := before.exported }
    values.forM fun (name, _) => modify fun s => s.restoreVariable name (before.valueOf? name)

/-- Shows a command before it runs, if commands are to be shown. -/
def trace (fields : List String) : Running Unit := do
  if (← get).options.contains 'x' then write 2 ("+ " ++ Text.join " " fields ++ "\n")

/-- Runs a program that the shell does not know itself. -/
def external (name : String) (args : List String) : Running Unit := do
  let s ← get
  match tool? (programName name) ⟨args, s.input, false, s.disk, none⟩ with
  | some _ => apply (fun call => (tool? (programName name) call).getD (.silent call 127)) args
  | none =>
    if ["", ".", ".."].contains name then
      warn none (name ++ ": Permission denied")
      finish 127
    else if name.toList.contains '/' && s.disk.isThere name then
      warn none (name ++ ": Permission denied")
      finish 126
    else
      warn none (name ++ ": not found")
      finish 127

/-- Whether a name is that of a program. -/
def isProgram (name : String) : Bool :=
  name = "sh" || name = "env" || (tool? name ⟨[], "", false, ⟨.empty, [], none, []⟩, none⟩).isSome &&
    (builtin? name []).isNone

/-- Whether a word names something that can be run. -/
def isKnown (s : Session) (word : String) : Bool :=
  isProgram word || reservedWords.contains word || specialNames.contains word ||
    (builtin? word []).isSome || (s.functions.lookup word).isSome ||
    ["command", "type"].contains word

/-- The variables that every shell has. -/
def firstVariables : List String := ["IFS", "OPTIND", "PS4"]

/-- How many calls of functions can be inside one another. -/
def functionLimit : Nat := 1000

/-- The session in which a new shell begins inside another. -/
def freshSession (s : Session) (name : String) (switches : Switches) (args : List String) :
    Session :=
  { s with
    bindings := s.bindings.filter fun v => s.exported.contains v.1 || firstVariables.contains v.1
    functions := [], hidden := [], name := name, args := args, speaker := none
    options := switches.applyTo [], isTested := false, loopDepth := 0, line := 0
    functionDepth := 0 }

mutual

/-- Runs a command. -/
def perform : Nat → Command → Running Unit
  | 0, _ => abort none "Maximum depth exceeded"
  | depth + 1, command => do
    if (← get).options.contains 'n' then return
    match command with
    | .nothing => finish 0
    | .simple line words rs =>
      simple depth line words rs
      endOnFailure
    | .pipeline commands =>
      let before ← get
      let rest ← parallel (stages depth commands)
      modify fun s => { s with input := rest.getD before.input, readsFile := before.readsFile }
      endOnFailure
    | .negated inner =>
      tested (perform depth inner)
      modify fun s => { s with status := if s.status = 0 then 1 else 0 }
    | .andThen first second =>
      tested (perform depth first)
      if (← get).status = 0 then perform depth second
    | .orElse first second =>
      tested (perform depth first)
      if (← get).status ≠ 0 then perform depth second
    | .sequence first second =>
      perform depth first
      perform depth second
    | .aside inner =>
      let before ← get
      aside (perform depth inner)
      modify fun s => { s with input := before.input }
    | .enclosed inner =>
      enclosed (perform depth inner)
      endOnFailure
    | .redirected line inner rs =>
      modify fun s => { s with line := line }
      redirected (substitute depth) rs false (perform depth inner)
    | .branch condition body otherwise =>
      tested (perform depth condition)
      if (← get).status = 0 then perform depth body else perform depth otherwise
    | .loop untilSuccess condition body =>
      loop depth untilSuccess condition body 0
    | .forEach line name words body =>
      modify fun s => { s with line := line }
      let values ← match words with
        | none => pure (← get).args
        | some words => pure (← words.mapM (fieldsOf (substitute depth))).flatten
      if values.isEmpty then finish 0 else rounds depth name body values
    | .choose line word choices =>
      modify fun s => { s with line := line }
      let text ← textOf (substitute depth) word
      choose depth text choices
    | .function name body =>
      modify fun s =>
        { s with functions := (name, body) :: s.functions.filter fun f => f.1 ≠ name }
      finish 0

/-- Runs commands of which each reads what the one before it writes, each in a shell of its own.
Gives what the first one has left of what it could read. -/
def stages : Nat → List Command → Running (Option String)
  | 0, _ => return none
  | _, [] => return none
  | depth + 1, [last] => do
    enclosed (perform depth last)
    return none
  | depth + 1, first :: rest => do
    let before := (← get).status
    let text ← captured (perform depth first)
    let left := (← get).input
    modify fun s => { s with input := text, readsFile := false, status := before }
    let _ ← stages depth rest
    return some left

/-- Runs a body again and again; `status` is that of the round before. -/
def loop : Nat → Bool → Command → Command → Nat → Running Unit
  | 0, _, _, _, _ => abort none "Maximum depth exceeded"
  | depth + 1, untilSuccess, condition, body, status => do
    tested (perform depth condition)
    if ((← get).status == 0) != untilSuccess then
      if ← round (perform depth body) then
        loop depth untilSuccess condition body (← get).status
    else finish status

/-- Runs a body for each value of a variable. -/
def rounds : Nat → String → Command → List String → Running Unit
  | 0, _, _, _ => abort none "Maximum depth exceeded"
  | _, _, _, [] => return
  | depth + 1, name, body, value :: values => do
    assign name value
    if ← round (perform depth body) then rounds depth name body values

/-- Runs the first command one of whose patterns matches a text. -/
def choose : Nat → String → List (List Word × Command) → Running Unit
  | 0, _, _ => abort none "Maximum depth exceeded"
  | _, _, [] => finish 0
  | depth + 1, text, (patterns, body) :: rest => do
    let patterns ← patterns.mapM (patternOf (substitute depth))
    if patterns.any fun pattern => pattern.accepts text.toList then perform depth body
    else choose depth text rest

/-- What a script in a word writes. -/
def substitute : Nat → String → String → Running String
  | 0, _, _ => return ""
  | depth + 1, script, closing => do
    let before ← get
    let text ← captured do
      match Parsing.inWord before.line script closing with
      | .error e => abort none ("Syntax error: " ++ e.fault.text)
      | .ok inner => perform depth inner
    modify fun s => { s with wordStatus := s.status, status := before.status }
    return String.ofList (text.toList.filter fun c => c ≠ '\x00')

/-- Runs words that name a command or set variables. -/
def simple : Nat → Nat → List Word → List Redirection → Running Unit
  | 0, _, _, _ => abort none "Maximum depth exceeded"
  | depth + 1, line, words, rs => do
    modify fun s => { s with line := line, wordStatus := 0 }
    let (settings, words) := words.span fun word => (assigned? word).isSome
    let fields := (← words.mapM (fieldsOf (substitute depth))).flatten
    let values : Running (List (String × String)) := settings.mapM fun word => do
      return ((assigned? word).getD "", ← textOf (substitute depth) (assignedWord word))
    match fields with
    | [] =>
      redirected (substitute depth) rs false do
        (← values).forM fun (name, value) => assign name value
        finish (← get).wordStatus
    | "exec" :: args =>
      trace fields
      if ← redirectAll (substitute depth) rs then
        match args with
        | [] => finish 0
        | name :: args =>
          speaking "exec" (runOutside depth name args)
          throw .exit
      else throw .exit
    | name :: args =>
      let isSpecial := specialNames.contains name
      redirected (substitute depth) rs isSpecial do
        let values ← values
        trace fields
        if isSpecial then
          values.forM fun (name, value) => assign name value
          call depth true name args
        else withVariables values (call depth true name args)

/-- Runs a command by its name: a function, if functions count, a command of the shell, or a
program. -/
def call : Nat → Bool → String → List String → Running Unit
  | 0, _, _, _ => abort none "Maximum depth exceeded"
  | depth + 1, withFunctions, name, args => do
    match ((← get).functions.lookup name).filter fun _ => withFunctions with
    | some body =>
      let before ← get
      if functionLimit ≤ before.functionDepth then
        abort none ("Maximum function recursion depth (" ++ functionLimit.repr ++ ") reached")
      set { before with
        args := args, hidden := [], loopDepth := 0, functionDepth := before.functionDepth + 1 }
      try untilReturn (perform depth body)
      finally
        modify fun s =>
          let s := s.hidden.foldl (fun s (name, value) => s.restoreVariable name value) s
          { s with
            args := before.args, hidden := before.hidden, loopDepth := before.loopDepth
            functionDepth := before.functionDepth }
    | none =>
      match name with
      | "eval" =>
        if args.all (· == "") then finish 0
        else speaking "eval" (runText depth (Text.join " " args))
      | "." =>
        match args with
        | [] => finish 0
        | path :: _ =>
          match (← get).disk.read path with
          | .ok text =>
            if text.isEmpty then finish 0
            speaking path (untilReturn (runText depth text))
          | .error cause =>
            abort (some ".") ("cannot open " ++ path ++ ": " ++ openFailure "No such file" cause)
      | "type" =>
        finish 0
        args.forM fun word => do
          let s ← get
          write 1 <|
            if reservedWords.contains word then word ++ " is a shell keyword\n"
            else if (s.functions.lookup word).isSome then word ++ " is a shell function\n"
            else if specialNames.contains word then word ++ " is a special shell builtin\n"
            else if (builtin? word []).isSome then word ++ " is a shell builtin\n"
            else if isProgram word then word ++ " is /usr/bin/" ++ word ++ "\n"
            else word ++ ": not found\n"
          if !isKnown s word then finish 127
      | "command" =>
        match args with
        | [] => finish 0
        | "-v" :: word :: _ | "-V" :: word :: _ =>
          if isKnown (← get) word then
            write 1 ((if isProgram word then "/usr/bin/" ++ word else word) ++ "\n")
            finish 0
          else finish 127
        | word :: rest => call depth false word rest
      | "exec" =>
        match args with
        | [] => finish 0
        | word :: rest =>
          runOutside depth word rest
          throw .exit
      | "env" =>
        let (settings, rest) := args.span fun arg => arg.toList.contains '='
        match rest with
        | [] => finish 0
        | word :: rest =>
          withVariables (settings.map fun arg =>
            let (name, value) := arg.toList.span (fun c => c ≠ '=')
            (String.ofList name, String.ofList value.tail)) (runOutside depth word rest)
      | _ =>
        match builtin? name args with
        | some action => action
        | none =>
          if programName name = "sh" || programName name = "dash" then shell depth args
          else external name args

/-- Runs a program rather than a command of the shell, if there is such a program. -/
def runOutside : Nat → String → List String → Running Unit
  | 0, _, _ => abort none "Maximum depth exceeded"
  | depth + 1, name, args => do
    if (tool? (programName name) ⟨[], "", false, (← get).disk, none⟩).isSome then external name args
    else call depth false name args

/-- Runs a shell inside a shell. -/
def shell : Nat → List String → Running Unit
  | 0, _ => abort none "Maximum depth exceeded"
  | depth + 1, args => enclosed do
    modify fun s => { s with name := "sh", line := 0 }
    match readSwitches ⟨[], [], false, [], false⟩ args with
    | .error message => abort none message
    | .ok switches =>
      match switches.takesScript, switches.rest with
      | true, [] => abort none "-c requires an argument"
      | true, script :: rest =>
        modify fun s => freshSession s (rest.headD "sh") switches rest.tail
        runText depth script
      | false, [] =>
        let s ← get
        set { freshSession s "sh" switches [] with input := "" }
        runText depth s.input
      | false, path :: rest =>
        match (← get).disk.read path with
        | .ok text =>
          modify fun s => freshSession s path switches rest
          runText depth text
        | .error .isADirectory => finish 0
        | .error cause => abort none ("cannot open " ++ path ++ ": " ++ openFailure "No such file" cause)

/-- Runs a script line by line. -/
def runText : Nat → String → Running Unit
  | 0, _ => abort none "Maximum depth exceeded"
  | depth + 1, script => runLines depth (Tokens.ofScript 1 script)

/-- Runs the lines of a script. -/
def runLines : Nat → Tokens → Running Unit
  | 0, _ => abort none "Maximum depth exceeded"
  | depth + 1, tokens => do
    match Parsing.nextLine? tokens with
    | .error e =>
      modify fun s => { s with line := e.line }
      abort none ("Syntax error: " ++ e.fault.text)
    | .ok (none, _) => return
    | .ok (some command, rest) =>
      perform depth command
      runLines depth rest

end

end Running

end StubGen.Shell
