import StubGen.Shell.Script
import StubGen.Shell.Tools

/-!
# A shell at work

A shell has variables, channels and a disk. What is written is collected in buffers, of which the
first two are what the shell itself writes; a channel leads to a buffer or a file.
-/

namespace StubGen.Shell

/-- Where a channel leads. -/
inductive Destination where
  | buffer (index : Nat)
  /-- A file that has been opened, by its number. -/
  | file (index : Nat)
  | nowhere
deriving DecidableEq, Repr

/-- A file that has been opened to be written. -/
structure OpenedFile where
  place : Disk.Place
  /-- Whether all is written behind what is there. -/
  isAppending : Bool
  /-- Where the next text is written otherwise. -/
  offset : Nat
deriving DecidableEq, Repr

/-- The content of a file after a text has been written over it from an offset on. -/
def overwritten (content : String) (offset : Nat) (text : String) : String :=
  let cs := content.toList
  let gap := List.replicate (offset - cs.length) '\x00'
  String.ofList (cs.take offset ++ gap) ++ text ++ String.ofList (cs.drop (offset + text.length))

/-- A shell that is running a script. -/
structure Session where
  disk : Disk
  /-- What has been written, by the buffers that it has been written to. -/
  buffers : List String
  channels : List (Nat × Destination)
  opened : List OpenedFile
  /-- What is left of the text that commands read. -/
  input : String
  /-- Whether that text is in a file. -/
  readsFile : Bool
  bindings : List (String × String)
  readOnly : List String
  /-- The names of the variables that programs see. -/
  exported : List String
  functions : List (String × Command)
  /-- The variables of the function that is running, with their values outside it. -/
  hidden : List (String × Option String)
  name : String
  /-- The command that speaks for the commands inside it. -/
  speaker : Option String
  args : List String
  status : Nat
  /-- How the last command in a word has ended. -/
  wordStatus : Nat
  /-- What commands that are not waited for write about errors, which shows at the end. -/
  late : String
  /-- Whether several commands run side by side, and what programs among them write about errors:
  starting a program takes longer than what the shell does itself, so that it comes later. -/
  isParallel : Bool
  slow : String
  /-- The letters of the options that are on. -/
  options : List Char
  /-- Whether failures are looked at by what is around a command. -/
  isTested : Bool
  loopDepth : Nat
  /-- How many calls of functions are inside one another. -/
  functionDepth : Nat
  line : Nat

/-- How the running of commands is cut off. -/
inductive Jump where
  | exit
  | leaveFunction
  /-- The end of some loops around a command. -/
  | breakLoop (levels : Nat)
  /-- The next round of a loop, after the end of some loops in it. -/
  | nextRound (levels : Nat)
deriving DecidableEq, Repr

abbrev Running := ExceptT Jump (StateM Session)

namespace Session

/-- Adds a text to what a destination holds. -/
def send (s : Session) (destination : Destination) (text : String) : Session :=
  if text.isEmpty then s
  else match destination with
  | .buffer index => { s with buffers := s.buffers.modify index fun before => before ++ text }
  | .file index =>
    match s.opened[index]? with
    | none => s
    | some file =>
      match s.disk.tree.get? file.place with
      | some (.file before) =>
        let offset := if file.isAppending then before.length else file.offset
        let node := Disk.Node.file (overwritten before offset text)
        { s with
          disk := s.disk.withTree (s.disk.tree.put file.place node)
          opened := s.opened.set index { file with offset := offset + text.length } }
      | _ => s
  | .nowhere => s

def destination (s : Session) (channel : Nat) : Destination :=
  (s.channels.lookup channel).getD .nowhere

def write (s : Session) (channel : Nat) (text : String) : Session :=
  s.send (s.destination channel) text

def connect (s : Session) (channel : Nat) (destination : Destination) : Session :=
  { s with channels := (channel, destination) :: s.channels }

/-- Opens a file and connects a channel to it. -/
def openFile (s : Session) (channel : Nat) (place : Disk.Place) (isAppending : Bool) : Session :=
  let file : OpenedFile := ⟨place, isAppending, 0⟩
  let s := s.connect channel (.file s.opened.length)
  { s with opened := s.opened ++ [file] }

/-- The file that a channel leads to. -/
def placeOf? (s : Session) (channel : Nat) : Option Disk.Place :=
  match s.destination channel with
  | .file index => s.opened[index]?.map OpenedFile.place
  | _ => none

def disconnect (s : Session) (channel : Nat) : Session :=
  { s with channels := s.channels.filter fun c => c.1 ≠ channel }

def valueOf? (s : Session) (name : String) : Option String := s.bindings.lookup name

def setVariable (s : Session) (name value : String) : Session :=
  { s with bindings := (name, value) :: s.bindings.filter fun v => v.1 ≠ name }

def dropVariable (s : Session) (name : String) : Session :=
  { s with bindings := s.bindings.filter fun v => v.1 ≠ name }

def restoreVariable (s : Session) (name : String) (value : Option String) : Session :=
  match value with
  | some value => s.setVariable name value
  | none => s.dropVariable name

end Session

namespace Running

def write (channel : Nat) (text : String) : Running Unit := modify fun s => s.write channel text

def finish (status : Nat) : Running Unit := modify fun s => { s with status := status }

/-- Writes what the shell has to say, on behalf of one of its commands. -/
def warn (command : Option String) (message : String) : Running Unit := do
  let s ← get
  let speaker := match command.or s.speaker with
    | some command => command ++ ": "
    | none => ""
  write 2 (s.name ++ ": " ++ s.line.repr ++ ": " ++ speaker ++ message ++ "\n")

/-- Says what is wrong and ends the shell. -/
def abort {α : Type} (command : Option String) (message : String) : Running α := do
  warn command message
  finish 2
  throw .exit

def assign (name value : String) : Running Unit := do
  if (← get).readOnly.contains name then abort none (name ++ ": is read only")
  modify fun s => s.setVariable name value

/-- Runs commands in a shell of their own: what they write and what they do to files stays, and so
does their status. -/
def enclosed (action : Running Unit) : Running Unit := do
  let before ← get
  try
    modify fun s => { s with loopDepth := 0 }
    action
  catch _ => pure ()
  modify fun s =>
    { before with
      disk := s.disk, buffers := s.buffers, input := s.input, status := s.status, late := s.late
      slow := s.slow, opened := s.opened }

/-- Runs commands that are not waited for. -/
def aside (action : Running Unit) : Running Unit := do
  let before := (← get).buffers.getD 1 ""
  modify fun s => { s with input := "" }
  enclosed action
  modify fun s =>
    let written := (s.buffers.getD 1 "").toList.drop before.length
    { s with
      buffers := s.buffers.set 1 before, late := s.late ++ String.ofList written, status := 0 }

/-- What commands in a shell of their own write. -/
def captured (action : Running Unit) : Running String := do
  let before ← get
  let index := before.buffers.length
  set ({ before with buffers := before.buffers ++ [""] }.connect 1 (.buffer index))
  enclosed action
  let text := (← get).buffers.getD index ""
  modify fun s =>
    { s with buffers := s.buffers.take index, channels := before.channels }
  return text

/-- Runs commands on whose behalf one command speaks. -/
def speaking (command : String) (action : Running Unit) : Running Unit := do
  let before := (← get).speaker
  modify fun s => { s with speaker := some command }
  try action
  finally modify fun s => { s with speaker := before }

/-- Runs a program of which nothing is known to the shell but what it does. -/
def apply (work : Call → Effect) (args : List String) : Running Unit := do
  let s ← get
  let effect := work ⟨args, s.input, s.readsFile, s.disk, s.placeOf? 1⟩
  set { s with disk := effect.disk, input := effect.input }
  effect.writes.forM fun (channel, text) => do
    let s ← get
    if channel = 2 && s.isParallel && s.destination 2 = .buffer 1 then
      set { s with slow := s.slow ++ text }
    else write channel text
  finish effect.status

/-- Runs commands side by side. -/
def parallel {α : Type} (action : Running α) : Running α := do
  let before := (← get).isParallel
  modify fun s => { s with isParallel := true }
  try action
  finally
    modify fun s =>
      if before then s
      else { s with
        isParallel := false, slow := "", buffers := s.buffers.modify 1 fun text => text ++ s.slow }

end Running

end StubGen.Shell
