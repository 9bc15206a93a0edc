import StubGen.Shell.Token

/-!
# Scripts

A script is read line by line, each line being a list of commands. A command is made of words and
redirections, or of other commands between words that are reserved.
-/

namespace StubGen.Shell

/-- A redirection of a command. -/
structure Redirection where
  channel : Nat
  direction : Direction
  target : Word
  /-- Whether the target is the text that is read and not the name of a file. -/
  isText : Bool
deriving DecidableEq, Repr

/-- A command. -/
inductive Command where
  | nothing
  /-- Words on a line, of which the first ones may set variables. -/
  | simple (line : Nat) (words : List Word) (redirections : List Redirection)
  /-- Commands of which each reads what the one before it writes. -/
  | pipeline (commands : List Command)
  | negated (command : Command)
  | andThen (first second : Command)
  | orElse (first second : Command)
  | sequence (first second : Command)
  /-- A command that is not waited for. -/
  | aside (command : Command)
  /-- A command that changes nothing in the shell around it. -/
  | enclosed (command : Command)
  | redirected (line : Nat) (command : Command) (redirections : List Redirection)
  | branch (condition body otherwise : Command)
  /-- A command that is repeated as long as a condition succeeds, or fails. -/
  | loop (untilSuccess : Bool) (condition body : Command)
  | forEach (line : Nat) (name : String) (words : Option (List Word)) (body : Command)
  /-- The first of some commands one of whose patterns a word matches. -/
  | choose (line : Nat) (word : Word) (choices : List (List Word × Command))
  | function (name : String) (body : Command)
deriving Inhabited

/-- A list of commands of which the last one is not waited for. -/
def Command.asideLast : Command → Command
  | .sequence first second => .sequence first (.aside second)
  | command => .aside command

/-- The words that stand for themselves at the beginning of a command only. -/
def reservedWords : List String :=
  ["if", "then", "elif", "else", "fi", "while", "until", "for", "do", "done", "case", "esac", "in",
   "!", "\x7b", "\x7d"]

/-- The reserved words that end a list of commands. -/
def closingWords : List String := ["then", "elif", "else", "fi", "do", "done", "esac", "\x7d"]

/-- The name of the variable that a word sets, if it sets one. -/
def assigned? (word : Word) : Option String :=
  match word with
  | .text text false :: _ =>
    match text.toList.span (fun c => c ≠ '=') with
    | (name, _ :: _) => some (String.ofList name) |>.filter isName
    | _ => none
  | _ => none

/-- What is wrong with a script, and the line where it shows. -/
structure ScriptError where
  line : Nat
  fault : Fault
deriving DecidableEq, Repr

/-- A step of reading from tokens. -/
abbrev Parsing := ExceptT ScriptError (StateM Tokens)

namespace Parsing

/-- The next token, and its line. -/
def peek : Parsing (Token × Nat) := do
  match (← get).tokens with
  | (.wrong fault, line) :: _ => throw ⟨line, fault⟩
  | token :: _ => return token
  | [] => return (.finish, 1)

/-- Passes over a token; the end of a script stays. -/
def advance : Parsing Unit :=
  modify fun s =>
    match s.tokens with
    | (.finish, _) :: _ => s
    | _ :: rest => { s with tokens := rest }
    | [] => s

/-- The reserved word that a token is. -/
def reserved? (token : Token) : Option String :=
  match token with
  | .word word => (plainText? word).filter reservedWords.contains
  | _ => none

/-- What a token is called in a message; reserved words count where a command begins. -/
def nameOf (atStart : Bool) (token : Token) : String :=
  match token, (reserved? token).filter fun _ => atStart with
  | _, some word => "\"" ++ word ++ "\""
  | .operator text, none => "\"" ++ text ++ "\""
  | .newline, none => "newline"
  | .redirection _ _, none => "redirection"
  | .hereText _, none => "redirection"
  | .finish, none => "end of file"
  | .word _, none => "word"
  | .wrong _, none => "text"

/-- Refuses the next token. -/
def unexpected {α : Type} (atStart : Bool) (wanted : Option String) : Parsing α := do
  let (token, line) ← peek
  let expecting := match wanted with
    | some word => " (expecting \"" ++ word ++ "\")"
    | none => ""
  throw ⟨line, .message (nameOf atStart token ++ " unexpected" ++ expecting)⟩

/-- Whether a token is an operator. -/
def isOperator (text : String) (token : Token) : Bool := token = .operator text

/-- Whether a token ends a list of commands. -/
def closes (token : Token) : Bool :=
  (reserved? token).any closingWords.contains || isOperator ")" token || isOperator ";;" token ||
    token = .finish

/-- Passes over line ends. -/
def skipLines : Nat → Parsing Unit
  | 0 => return ()
  | count + 1 => do
    if (← peek).1 = .newline then
      advance
      skipLines count

/-- Passes over all line ends. -/
def skipAllLines : Parsing Unit := do skipLines (← get).tokens.length

/-- Passes over a reserved word that has to stand here. -/
def close (word : String) : Parsing Unit := do
  if reserved? (← peek).1 = some word then advance else unexpected true (some word)

/-- Passes over an operator that has to stand here. -/
def closeOperator (atStart : Bool) (text : String) : Parsing Unit := do
  if isOperator text (← peek).1 then advance else unexpected atStart (some text)

/-- The redirection that a token begins, if it begins one. -/
def redirection? : Parsing (Option Redirection) := do
  match (← peek).1 with
  | .redirection channel direction =>
    advance
    match (← peek).1 with
    | .word word =>
      advance
      return some ⟨channel, direction, word, false⟩
    | _ => unexpected false none
  | .hereText channel =>
    advance
    let s ← get
    set { s with texts := s.texts.tail }
    return some ⟨channel, .input, s.texts.headD [], true⟩
  | _ => return none

/-- Redirections that follow one another, at most so many. -/
def redirections : Nat → Parsing (List Redirection)
  | 0 => return []
  | count + 1 => do
    match ← redirection? with
    | some r => return r :: (← redirections count)
    | none => return []

/-- Words and redirections in any order, at most so many. -/
def simpleParts : Nat → List Word → List Redirection →
    Parsing (List Word × List Redirection)
  | 0, words, rs => return (words, rs)
  | count + 1, words, rs => do
    match (← peek).1 with
    | .word word =>
      advance
      simpleParts count (words ++ [word]) rs
    | _ =>
      match ← redirection? with
      | some r => simpleParts count words (rs ++ [r])
      | none => return (words, rs)

/-- Words up to the end of a line or a semicolon, at most so many. -/
def wordList : Nat → List Word → Parsing (List Word)
  | 0, words => return words
  | count + 1, words => do
    match (← peek).1 with
    | .word word =>
      advance
      wordList count (words ++ [word])
    | token =>
      if token = .newline || isOperator ";" token then
        advance
        return words
      else unexpected false none

/-- The next word, which has to stand here. -/
def oneWord : Parsing Word := do
  match (← peek).1 with
  | .word word =>
    advance
    return word
  | token =>
    throw ⟨(← peek).2, .message (nameOf false token ++ " unexpected (expecting word)")⟩

/-- Words with bars between them, at most so many. Anything else in their place counts as a word that
matches nothing. -/
def alternatives : Nat → Parsing (List Word)
  | 0 => return []
  | count + 1 => do
    let word := match (← peek).1 with
      | .word word => word
      | _ => []
    advance
    if isOperator "|" (← peek).1 then
      advance
      return word :: (← alternatives count)
    else return [word]

mutual

/-- A list of commands inside another command, up to a word or operator that ends it. -/
def body : Nat → Parsing Command
  | 0 => unexpected true none
  | depth + 1 => do
    skipAllLines
    if (← peek).1 = .finish then return .nothing
    let first ← item depth
    moreItems depth first

/-- The commands of a list after the first ones. -/
def moreItems : Nat → Command → Parsing Command
  | 0, before => return before
  | depth + 1, before => do
    let (token, _) ← peek
    if token = .newline || isOperator ";" token || isOperator "&" token then
      advance
      let before := if isOperator "&" token then before.asideLast else before
      skipAllLines
      if closes (← peek).1 then return before
      else
        let next ← item depth
        moreItems depth (.sequence before next)
    else return before

/-- Commands that are joined by conditions. -/
def item : Nat → Parsing Command
  | 0 => unexpected true none
  | depth + 1 => do
    let first ← pipeline depth
    moreConditions depth first

def moreConditions : Nat → Command → Parsing Command
  | 0, before => return before
  | depth + 1, before => do
    let (token, _) ← peek
    if isOperator "&&" token || isOperator "||" token then
      advance
      skipAllLines
      let next ← pipeline depth
      moreConditions depth
        (if isOperator "&&" token then .andThen before next else .orElse before next)
    else return before

/-- Commands with bars between them, which may be negated. -/
def pipeline : Nat → Parsing Command
  | 0 => unexpected true none
  | depth + 1 => do
    let isNegated := reserved? (← peek).1 = some "!"
    if isNegated then advance
    let first ← command depth
    let others ← morePipes depth
    let whole := if others.isEmpty then first else .pipeline (first :: others)
    return if isNegated then .negated whole else whole

def morePipes : Nat → Parsing (List Command)
  | 0 => return []
  | depth + 1 => do
    if isOperator "|" (← peek).1 then
      advance
      skipAllLines
      let next ← command depth
      return next :: (← morePipes depth)
    else return []

/-- One command. -/
def command : Nat → Parsing Command
  | 0 => unexpected true none
  | depth + 1 => do
    let (token, line) ← peek
    let compound ← match reserved? token with
      | some "if" =>
        advance
        pure (some (← condition depth))
      | some "\x7b" => do
        advance
        let inner ← body depth
        close "\x7d"
        pure (some inner)
      | some "for" => do
        advance
        pure (some (← forLoop depth))
      | some "case" => do
        advance
        let word ← oneWord
        skipAllLines
        close "in"
        pure (some (.choose line word (← choices depth)))
      | some word =>
        if word = "while" || word = "until" then
          advance
          let test ← body depth
          close "do"
          let inner ← body depth
          close "done"
          pure (some (.loop (word = "until") test inner))
        else unexpected true none
      | none =>
        if isOperator "(" token then
          advance
          let inner ← body depth
          closeOperator true ")"
          pure (some (.enclosed inner))
        else pure none
    match compound with
    | some compound =>
      let rs ← redirections (← get).tokens.length
      return if rs.isEmpty then compound else .redirected line compound rs
    | none =>
      match token with
      | .word _ | .redirection _ _ | .hereText _ =>
        let (words, rs) ← simpleParts (← get).tokens.length [] []
        match isOperator "(" (← peek).1 && !words.any (fun word => (assigned? word).isSome), words, rs with
        | true, [word], [] =>
          advance
          closeOperator false ")"
          match (plainText? word).filter isName with
          | some name =>
            skipAllLines
            return .function name (← command depth)
          | none => throw ⟨line, .message "Bad function name"⟩
        | _, _, _ => return .simple line words rs
      | _ => unexpected true none

/-- What follows `if` or `elif`. -/
def condition : Nat → Parsing Command
  | 0 => unexpected true none
  | depth + 1 => do
    let test ← body depth
    close "then"
    let inner ← body depth
    match reserved? (← peek).1 with
    | some "elif" =>
      advance
      return .branch test inner (← condition depth)
    | some "else" => do
      advance
      let otherwise ← body depth
      close "fi"
      return .branch test inner otherwise
    | _ =>
      close "fi"
      return .branch test inner .nothing

/-- The choices after `case` and their words, up to the end. -/
def choices : Nat → Parsing (List (List Word × Command))
  | 0 => unexpected true none
  | depth + 1 => do
    skipAllLines
    if reserved? (← peek).1 = some "esac" then
      advance
      return []
    if isOperator "(" (← peek).1 then advance
    let patterns ← alternatives (← get).tokens.length
    closeOperator false ")"
    skipAllLines
    let inner ← if closes (← peek).1 then pure .nothing else body depth
    skipAllLines
    if isOperator ";;" (← peek).1 then
      advance
      return (patterns, inner) :: (← choices depth)
    else
      if reserved? (← peek).1 = some "esac" then advance else unexpected true (some ";;")
      return [(patterns, inner)]

/-- What follows `for`. -/
def forLoop : Nat → Parsing Command
  | 0 => unexpected true none
  | depth + 1 => do
    let (token, line) ← peek
    let name? := match token with
      | .word word => (plainText? word).filter isName
      | _ => none
    match name? with
    | none => throw ⟨line, .message "Bad for loop variable"⟩
    | some name =>
      advance
      skipAllLines
      let words ← if reserved? (← peek).1 = some "in" then do
          advance
          pure (some (← wordList (← get).tokens.length []))
        else do
          if isOperator ";" (← peek).1 then advance
          pure none
      skipAllLines
      close "do"
      let inner ← body depth
      close "done"
      return .forEach line name words inner

end

/-- The next line of a script as a command; nothing at the end. -/
def line? (depth : Nat) : Parsing (Option Command) := do
  skipAllLines
  if (← peek).1 = .finish then return none
  let first ← item depth
  let all ← rest depth first
  return some all
where
  /-- The commands on the line after the first ones. -/
  rest : Nat → Command → Parsing Command
    | 0, before => return before
    | count + 1, before => do
      let (token, _) ← peek
      if token = .newline || token = .finish then
        advance
        return before
      else if isOperator ";" token || isOperator "&" token then
        advance
        let before := if isOperator "&" token then before.asideLast else before
        let (token, _) ← peek
        if token = .newline then
          advance
          return before
        else if closes token then return before
        else
          let next ← item depth
          rest count (.sequence before next)
      else unexpected true none

/-- The commands of a script inside a word, up to its closing operator. What follows them is not
looked at if there is no such operator. -/
def wordScript (closing : String) (depth : Nat) : Parsing Command := do
  skipAllLines
  let inner ← if closes (← peek).1 then pure .nothing else body depth
  if closing != "" then closeOperator true closing
  return inner

/-- How many commands can be inside one another in a script of some tokens. -/
def depthOf (tokens : Tokens) : Nat := 8 * tokens.tokens.length + 16

/-- Reads from tokens, and looks into the scripts inside the words that have been read: the first
one with something wrong comes before what is wrong with the tokens behind it. `check?` says what is
wrong with a word on a line, and `explain` what is wrong with a script that has no end. -/
def checked {α : Type} (check? : Nat → Word → Option ScriptError)
    (explain : Nat → String → ScriptError) (reading : Nat → Parsing α) (tokens : Tokens) :
    Except ScriptError (α × Tokens) :=
  let (result, after) := (reading (depthOf tokens)).run.run tokens
  let isFailure := match result with
    | .error _ => true
    | .ok _ => false
  let count := tokens.tokens.length - after.tokens.length + if isFailure then 1 else 0
  let read := tokens.tokens.take count
  let inWords := read.findSome? fun (token, line) =>
    match token with
    | .word word => check? line word
    | _ => none
  let lastLine := (read.getLast?.map Prod.snd).getD 1
  let inTexts := (tokens.texts.take (tokens.texts.length - after.texts.length)).findSome?
    (check? lastLine)
  match inWords.or inTexts, result with
  | some e, _ => .error e
  | none, .error ⟨line, .unclosed script⟩ => .error (explain line script)
  | none, .error e => .error e
  | none, .ok value => .ok (value, after)

mutual

/-- What is wrong with the scripts inside a word on a line, if anything is. -/
def wordError? : Nat → Nat → Word → Option ScriptError
  | 0, _, _ => none
  | depth + 1, line, word =>
    word.findSome? fun
      | .output script closing _ =>
        match ofWordScript depth line script closing with
        | .error e => some e
        | .ok _ => none
      | _ => none

/-- The command that a script inside a word on a line stands for. -/
def ofWordScript : Nat → Nat → String → String → Except ScriptError Command
  | 0, line, _, _ => .error ⟨line, .message "end of file unexpected"⟩
  | depth + 1, line, script, closing =>
    (checked (wordError? depth) (unclosedError depth) (wordScript closing)
      (Tokens.ofScript line (script ++ closing))).map Prod.fst

/-- What is wrong with a script inside a word that has no end. -/
def unclosedError : Nat → Nat → String → ScriptError
  | 0, line, _ => ⟨line, .message "end of file unexpected (expecting \")\")"⟩
  | depth + 1, line, script =>
    match checked (wordError? depth) (unclosedError depth) (wordScript ")")
        (Tokens.ofScript line script) with
    | .error e => e
    | .ok _ => ⟨line, .message "end of file unexpected (expecting \")\")"⟩

end

/-- How many scripts can be in words of one another. -/
def scriptDepth : Nat := 32

/-- The next line of a script as a command, nothing at the end, and the tokens behind it. -/
def nextLine? (tokens : Tokens) : Except ScriptError (Option Command × Tokens) :=
  checked (wordError? scriptDepth) (unclosedError scriptDepth) line? tokens

/-- The command that a script inside a word on a line stands for. -/
def inWord (line : Nat) (script closing : String) : Except ScriptError Command :=
  ofWordScript scriptDepth line script closing

end Parsing

/-- The text of a fault. -/
def Fault.text : Fault → String
  | .message text => text
  | .unclosed _ => "end of file unexpected (expecting \")\")"

end StubGen.Shell
