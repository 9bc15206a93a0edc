import StubGen.Shell.Effect
import StubGen.Shell.Formatting

/-!
# Conditions

`test` decides conditions on texts, numbers and files, which are given as words. How many words
there are says how they are read.
-/

namespace StubGen.Shell

/-- Decides a condition on one word; nothing if there is no such condition. -/
def unaryTest? (disk : Disk) (operator word : String) : Option Bool :=
  match operator with
  | "-n" => some (word != "")
  | "-z" => some (word == "")
  | "-e" | "-r" | "-w" => some (disk.isThere word)
  | "-f" => some (disk.isFile word)
  | "-d" | "-x" => some (disk.isDirectory word)
  | "-s" => some (disk.isDirectory word || (disk.read word).toOption.any fun text => text != "")
  | "-h" | "-L" | "-p" | "-S" | "-b" | "-c" | "-t" | "-g" | "-u" | "-k" => some false
  | "-O" | "-G" => some (disk.isThere word)
  | _ => none

/-- A word as a number, blanks around it aside. -/
def wholeNumber (word : String) : Except String Int :=
  let cs := word.toList.dropWhile fun c => c = ' ' || c = '\t'
  let cs := (cs.reverse.dropWhile fun c => c = ' ' || c = '\t').reverse
  let (isNegative, digits) := match cs with
    | '-' :: digits => (true, digits)
    | '+' :: digits => (false, digits)
    | digits => (false, digits)
  if digits.isEmpty || !digits.all Char.isDigit then .error ("Illegal number: " ++ word)
  else
    let n : Int := (readDigits 10 0 false digits).1
    .ok (if isNegative then -n else n)

/-- The conditions on two words. -/
def binaryOperators : List String :=
  ["=", "!=", "<", ">", "-eq", "-ne", "-lt", "-le", "-gt", "-ge", "-nt", "-ot", "-ef"]

/-- Decides a condition on two words. -/
def binaryTest (disk : Disk) (left operator right : String) : Except String Bool := do
  match operator with
  | "=" => return left == right
  | "!=" => return left != right
  | "<" => return left < right
  | ">" => return right < left
  | "-eq" => return (← wholeNumber left) == (← wholeNumber right)
  | "-ne" => return (← wholeNumber left) != (← wholeNumber right)
  | "-lt" => return (← wholeNumber left) < (← wholeNumber right)
  | "-le" => return (← wholeNumber left) ≤ (← wholeNumber right)
  | "-gt" => return (← wholeNumber right) < (← wholeNumber left)
  | "-ge" => return (← wholeNumber right) ≤ (← wholeNumber left)
  | "-ef" =>
    match disk.walk left, disk.walk right with
    | .ok (p, some _), .ok (q, some _) => return p == q
    | _, _ => return false
  | "-nt" => return disk.isThere left && !disk.isThere right
  | _ => return !disk.isThere left && disk.isThere right

/-! ## Words as parts of a condition -/

/-- What a word stands for, given the words behind it. -/
inductive TestToken where
  | finish
  | operand
  | unary
  | binary
  | conjunction
  | disjunction
  | negation
  | opening
  | closing
deriving DecidableEq, Repr

/-- What the first of some words stands for. A condition on one word is an operand where nothing
follows, or a condition on two words. -/
def tokenOf (disk : Disk) : List String → TestToken
  | [] => .finish
  | word :: rest =>
    let isOperand : Bool := match rest with
      | [] => true
      | [_] => false
      | next :: _ => binaryOperators.contains next
    if binaryOperators.contains word then .binary
    else if word = "-a" then .conjunction
    else if word = "-o" then .disjunction
    else if word = "!" then .negation
    else if word = "(" then (if rest.isEmpty then .operand else .opening)
    else if word = ")" then .closing
    else if (unaryTest? disk word "").isSome && !isOperand then .unary
    else .operand

/-- A condition has been decided: its truth, and the words from the last one that it has. -/
abbrev Deciding := Except String (Bool × List String)

mutual

/-- Decides conditions of which one has to hold, the first of which begins with a token. -/
def anyOf (disk : Disk) : Nat → TestToken → List String → Deciding
  | 0, _, words => .ok (false, words)
  | steps + 1, token, words => do
    let (first, words) ← allOf disk steps token words
    if tokenOf disk words.tail = .disjunction then
      let words := words.drop 2
      let (second, words) ← anyOf disk steps (tokenOf disk words) words
      return (first || second, words)
    else return (first, words)

/-- Decides conditions all of which have to hold. -/
def allOf (disk : Disk) : Nat → TestToken → List String → Deciding
  | 0, _, words => .ok (false, words)
  | steps + 1, token, words => do
    let (first, words) ← negatable disk steps token words
    if tokenOf disk words.tail = .conjunction then
      let words := words.drop 2
      let (second, words) ← allOf disk steps (tokenOf disk words) words
      return (first && second, words)
    else return (first, words)

/-- Decides a condition that may be negated. -/
def negatable (disk : Disk) : Nat → TestToken → List String → Deciding
  | 0, _, words => .ok (false, words)
  | steps + 1, token, words => do
    if token ≠ .negation then simpleTest disk steps token words
    else
      let next := tokenOf disk words.tail
      let (holds, words) ← negatable disk steps next (if next = .finish then words else words.tail)
      return (!holds, words)

/-- Decides a condition without connectives, or one in brackets. -/
def simpleTest (disk : Disk) : Nat → TestToken → List String → Deciding
  | 0, _, words => .ok (false, words)
  | steps + 1, token, words => do
    if token = .finish then return (false, words)
    else if token = .opening then
      let words := words.tail
      let next := tokenOf disk words
      if next = .closing then return (false, words)
      else
        let (holds, words) ← anyOf disk steps next words
        if tokenOf disk words.tail = .closing then return (holds, words.tail)
        else throw "closing paren expected"
    else
      match token, words with
      | .unary, operator :: rest =>
        match rest with
        | [] => throw (operator ++ ": argument expected")
        | word :: _ => return ((unaryTest? disk operator word).getD false, rest)
      | _, left :: operator :: rest =>
        if binaryOperators.contains operator then
          match rest with
          | [] => throw (operator ++ ": argument expected")
          | right :: _ => return (← binaryTest disk left operator right, rest)
        else return (left != "", words)
      | _, _ => return (words.headD "" != "", words)

end

/-- Decides a condition, or says why it is none. Three words with a condition on two words in the
middle are that condition, whatever the others are. -/
def decideWords (disk : Disk) : Nat → List String → Except String Bool
  | 0, _ => .ok false
  | steps + 1, words => do
    let fuel := 4 * words.length + 8
    let finish (token : TestToken) (words : List String) : Except String Bool := do
      let (holds, left) ← anyOf disk fuel token words
      match left with
      | word :: _ :: _ => throw (if word.isEmpty then "unexpected operator" else word ++ ": unexpected operator")
      | _ => return holds
    let isBracketed : Bool := words.head? == some "(" && words.getLast? == some ")"
    match words with
    | [] => return false
    | [_, operator, _] =>
      if binaryOperators.contains operator then finish .operand words
      else if isBracketed then finish (tokenOf disk [operator]) [operator]
      else if words.head? = some "!" then return !(← decideWords disk steps words.tail)
      else finish (tokenOf disk words) words
    | [_, _, _, _] =>
      if isBracketed then
        let inner := words.tail.dropLast
        finish (tokenOf disk inner) inner
      else if words.head? = some "!" then return !(← decideWords disk steps words.tail)
      else finish (tokenOf disk words) words
    | words => finish (tokenOf disk words) words

/-- Decides a condition, or says why it is none. -/
def decideTest (disk : Disk) (words : List String) : Except String Bool :=
  decideWords disk (words.length + 1) words

end StubGen.Shell
