import StubGen.Template.Selector
import StubGen.Text.Blank

/-!
# The source of a template

In the source of a template a gap is a selector between two or three pairs of braces; `&` may stand
before it. A tilde beside the braces takes away the white space next to them. A backslash makes
text of the braces behind it, and backslashes before braces lose one of their number. What stands
in braces behind an exclamation mark is a comment; one with nothing else on its line takes the
whole line away. A helper with arguments can be spelled as well, but never filled.
-/

namespace StubGen.Template

namespace Source

/-- Whether a character may separate what stands in braces. -/
def isSpace (c : Char) : Bool := c == ' ' || c == '\t' || c == '\n' || c == '\r'

def skipSpace (cs : List Char) : List Char := cs.dropWhile isSpace

/-- What follows a tilde and the space around it, and whether there is one. -/
def readTilde (cs : List Char) : Bool × List Char :=
  match skipSpace cs with
  | '~' :: rest => (true, skipSpace rest)
  | rest => (false, rest)

/-- What follows the braces that close, and whether a tilde stands before them. -/
def readClosing? (cs : List Char) : Option (Bool × List Char) :=
  match readTilde cs with
  | (trims, '\x7d' :: '\x7d' :: rest) => some (trims, rest)
  | _ => none

/-- A name, which may have slashes in it, and what follows. -/
def readName? (cs : List Char) : Option (List Char × List Char) :=
  match cs with
  | c :: _ =>
    if Selector.isKeyChar c then some (cs.span fun c => Selector.isKeyChar c || c == '/') else none
  | [] => none

/-- What follows a text in quotes, in which a backslash goes with the character behind it. -/
def afterQuoted? (quote : Char) : List Char → Option (List Char)
  | [] => none
  | '\\' :: _ :: cs => afterQuoted? quote cs
  | c :: cs => if c = quote then some cs else afterQuoted? quote cs

/-- Whether a word that cannot be an argument stands in front. -/
def hasKeyword (cs : List Char) : Bool :=
  ["as", "else"].any fun word =>
    match Text.afterChars? word.toList cs with
    | some (c :: _) => !Selector.isKeyChar c
    | some [] => true
    | none => false

/-- What follows the value of an argument. -/
def afterValue? (cs : List Char) : Option (List Char) :=
  match cs with
  | '"' :: rest => afterQuoted? '"' rest
  | '\'' :: rest => afterQuoted? '\'' rest
  | _ => if hasKeyword cs then none else (Selector.read? cs).map Prod.snd

/-- What follows an argument, which may have a name. -/
def afterArgument? (cs : List Char) : Option (List Char) :=
  let named := (readName? cs).bind fun (_, rest) =>
    match skipSpace rest with
    | '=' :: rest => afterValue? (skipSpace rest)
    | _ => none
  match named with
  | some rest => some rest
  | none => afterValue? cs

/-- What follows arguments, at most so many. -/
def afterArguments : Nat → List Char → List Char
  | 0, cs => cs
  | count + 1, cs =>
    match afterArgument? (skipSpace cs) with
    | some rest => afterArguments count rest
    | none => cs

/-- The characters in front of others. -/
def upTo (cs rest : List Char) : String := String.ofList (cs.take (cs.length - rest.length))

/-- A selector or a helper with arguments as it is spelled, and what follows. -/
def readExpression? (cs : List Char) : Option (String × List Char) :=
  let call := (readName? cs).bind fun (_, rest) =>
    (afterArgument? (skipSpace rest)).map (afterArguments cs.length)
  match call with
  | some rest => some (upTo cs rest, rest)
  | none => (Selector.read? cs).map fun (_, rest) => (upTo cs rest, rest)

/-- Whether braces, which have been opened, hold the other branch of a condition. There are no
conditions, so it can stand nowhere. -/
def isOtherwise (cs : List Char) : Bool :=
  let (_, cs) := readTilde cs
  let rest? := match cs with
    | '^' :: rest => some rest
    | _ => Text.afterChars? "else".toList cs
  match rest? with
  | none => false
  | some rest =>
    (readClosing? rest).isSome ||
      match readName? (skipSpace rest) with
      | some (_, rest) => (readClosing? (afterArguments rest.length rest)).isSome
      | none => false

/-- A part of a source. -/
inductive Part where
  | text (cs : List Char)
  /-- A gap, and whether the white space before and after it is taken away. -/
  | gap (name : String) (trimsBefore trimsAfter : Bool)
  | comment
deriving DecidableEq, Repr

/-- A gap whose opening braces have been read, and what follows. -/
def readGap? (cs : List Char) : Option (Part × List Char) := do
  let (trimsBefore, inner) := readTilde cs
  match inner with
  | '\x7b' :: inner =>
    let (name, rest) ← readExpression? (skipSpace inner)
    match skipSpace rest with
    | '\x7d' :: rest =>
      let (trimsAfter, rest) ← readClosing? rest
      return (.gap name trimsBefore trimsAfter, rest)
    | _ => none
  | '&' :: inner =>
    let inner := skipSpace inner
    let (_, rest) ← Selector.read? inner
    let (trimsAfter, closed) ← readClosing? rest
    return (.gap (upTo inner rest) trimsBefore trimsAfter, closed)
  | _ =>
    if isOtherwise cs then none
    let (name, rest) ← readExpression? inner
    let (trimsAfter, rest) ← readClosing? rest
    return (.gap name trimsBefore trimsAfter, rest)

/-- What follows the first of a closing text. -/
def afterClosing? (closing : String) : List Char → Option (List Char)
  | [] => none
  | c :: cs =>
    match Text.afterChars? closing.toList (c :: cs) with
    | some rest => some rest
    | none => afterClosing? closing cs

/-- What follows a comment whose opening braces and exclamation mark have been read. One that
begins with two hyphens ends with two of them, if they are there. -/
def afterComment? (cs : List Char) : Option (List Char) :=
  let long := (Text.afterChars? ['-', '-'] (skipSpace cs)).bind (afterClosing? "--\x7d\x7d")
  long.or (afterClosing? "\x7d\x7d" cs)

/-- Text up to the next opening braces, at most so many steps of it, and what follows; `read` is
what has been read, in reverse. -/
def readText : Nat → List Char → List Char → List Char × List Char
  | 0, read, cs => (read.reverse, cs)
  | steps + 1, read, cs =>
    match cs with
    | [] => (read.reverse, [])
    | '\x7b' :: '\x7b' :: _ => (read.reverse, cs)
    | '\\' :: _ =>
      let (slashes, rest) := cs.span fun c => c == '\\'
      match slashes, rest with
      | [_], '\x7b' :: '\x7b' :: '\x7b' :: '\x7b' :: rest =>
        readText steps (List.replicate 4 '\x7b' ++ read) rest
      | [_], '\x7b' :: '\x7b' :: rest => readText steps (List.replicate 2 '\x7b' ++ read) rest
      | _ :: others, '\x7b' :: '\x7b' :: _ => ((others ++ read).reverse, rest)
      | _, _ => readText steps (slashes ++ read) rest
    | c :: cs => readText steps (c :: read) cs

/-- The parts of a source, at most so many, each with what follows it. -/
def readParts? : Nat → List Char → Option (List (Part × List Char))
  | 0, _ => none
  | count + 1, cs =>
    match cs with
    | [] => some []
    | '\x7b' :: '\x7b' :: inner => do
      let (part, rest) ← match readGap? inner, inner with
        | some found, _ => some found
        | none, '!' :: comment => (afterComment? comment).map fun rest => (.comment, rest)
        | none, _ => none
      return (part, rest) :: (← readParts? count rest)
    | _ =>
      let (text, rest) := readText cs.length [] cs
      (readParts? count rest).map ((Part.text text, rest) :: ·)

def isIndent (c : Char) : Bool := c == ' ' || c == '\t'

def isLineEnd (c : Char) : Bool := c == '\n' || c == '\r'

/-- Whether nothing but blanks comes before the end of the line. -/
def isLineRest (cs : List Char) : Bool :=
  match cs.dropWhile isIndent with
  | [] => cs.isEmpty
  | c :: _ => isLineEnd c

/-- Whether nothing but blanks stands on the last line. -/
def endsWithBlankLine (cs : List Char) : Bool :=
  match cs.reverse.dropWhile isIndent with
  | [] => true
  | c :: _ => isLineEnd c

/-- Characters without the end of a line in front. -/
def dropLineEnd : List Char → List Char
  | '\r' :: '\n' :: cs => cs
  | '\n' :: cs => cs
  | cs => cs

/-- Pieces, the last one first, of which the last one loses characters at its end if it is
text. -/
def trimLast (isTrimmed : Char → Bool) : List Piece → List Piece
  | .text text :: pieces =>
    .text (String.ofList (text.toList.reverse.dropWhile isTrimmed).reverse) :: pieces
  | pieces => pieces

/-- What is known of the source read so far. -/
structure Reading where
  /-- The pieces, the last one first. -/
  pieces : List Piece
  /-- Whether white space at the beginning of a text does not count. -/
  trimsSpace : Bool
  /-- Whether the rest of the line does not count. -/
  trimsLine : Bool

/-- Goes over a part, before which and behind which there is more of the source. -/
def Reading.add (r : Reading) (part : Part) (before after : List Char) : Reading :=
  match part with
  | .text cs =>
    let cs :=
      if r.trimsSpace then Text.trimStartChars cs
      else if r.trimsLine then dropLineEnd (cs.dropWhile isIndent)
      else cs
    { r with pieces := .text (String.ofList cs) :: r.pieces, trimsLine := false }
  | .gap name trimsBefore trimsAfter =>
    let pieces := if trimsBefore then trimLast Text.isBlank r.pieces else r.pieces
    { r with pieces := .gap name :: pieces, trimsSpace := trimsAfter }
  | .comment =>
    if isLineRest after then
      let isAlone := endsWithBlankLine before
      { r with
        pieces := if isAlone then trimLast isIndent r.pieces else r.pieces
        trimsLine := isAlone }
    else { r with trimsLine := false }

/-- Goes over the parts of a source, of which so much is left. -/
def Reading.addAll (r : Reading) (source left : List Char) : List (Part × List Char) → Reading
  | [] => r
  | (part, after) :: parts =>
    (r.add part (source.take (source.length - left.length)) after).addAll source after parts

end Source

/-- A template from its source; nothing when the source is not well formed. -/
def parse? (source : String) : Option Template :=
  let cs := source.toList
  (Source.readParts? (cs.length + 1) cs).map fun parts =>
    ((Source.Reading.mk [] false false).addAll cs cs parts).pieces.reverse

end StubGen.Template
