import StubGen.Shell.Copying
import StubGen.Shell.Formatting

/-!
# Programs on files and texts

Programs that read files or the text that they are given and write another text, and programs that
make and remove files.
-/

namespace StubGen.Shell

/-- A program that reports what is wrong with its arguments, or does its work. -/
def withOptions (program : String) (table : OptionTable) (call : Call)
    (work : Options → Effect) : Effect :=
  match table.read call.args with
  | .error message => Effect.misuse call program [program ++ ": " ++ message]
  | .ok options => if options.has '?' then Effect.silent call 0 else work options

/-- What a program can read under a path: a file, or the text that it is given. -/
def Call.source (call : Call) (path : String) : Except IoCause String :=
  if path = "-" || path = "/dev/stdin" then .ok call.input
  else call.disk.read path

/-- What programs that read write for each of the texts they read, of which they know the path and
whether it is the first; a path that cannot be read is reported. Without paths they read the text
that they are given. -/
def forNamedSources (call : Call) (paths : List String) (report : String → IoCause → String)
    (work : String → Bool → String → String) : Effect :=
  let paths := if paths.isEmpty then ["-"] else paths
  let start := { Effect.silent call 0 with input := if paths.contains "-" then "" else call.input }
  paths.foldl (fun effect path =>
    match call.source path with
    | .ok content => effect.write (work path (!effect.writes.any fun w => w.1 = 1) content)
    | .error cause => effect.complain (report path cause)) start

/-- What programs that read write for each of the texts they read. -/
def forSources (call : Call) (paths : List String) (report : String → IoCause → String)
    (work : String → String → String) : Effect :=
  forNamedSources call paths report fun path _ => work path

/-- The report of a program that says no more than what is wrong with a path. -/
def plainReport (program path : String) (cause : IoCause) : String :=
  program ++ ": " ++ shown path ++ ": " ++ cause.text

/-- The report of a program that cannot open a file. -/
def openReport (program path : String) (cause : IoCause) : String :=
  match cause with
  | .isADirectory => program ++ ": error reading " ++ quoted path ++ ": Is a directory"
  | _ => program ++ ": cannot open " ++ quoted path ++ " for reading: " ++ cause.text

/-- The lines of a text with their ends. -/
def fullLines (text : String) : List String :=
  match (Text.split '\n' text).reverse with
  | [] => []
  | last :: before =>
    let lines := before.reverse.map fun line => line ++ "\n"
    if last.isEmpty then lines else lines ++ [last]

/-- A text with blanks in front up to a width. -/
def alignRight (width : Nat) (text : String) : String :=
  String.ofList (List.replicate (width - text.length) ' ') ++ text

/-! ## Reading -/

/-- What `cat` does. -/
def cat (call : Call) : Effect :=
  withOptions "cat" ⟨"AbeEnstTuv", "", [("number", 'n'), ("show-ends", 'E'), ("help", '?'),
    ("version", '?')]⟩ call fun options =>
    let numbered := options.has 'n' || options.has 'b'
    let ends := options.has 'E' || options.has 'e' || options.has 'A'
    let isOutput (path : String) : Bool :=
      match call.disk.walk path, call.outputPlace with
      | .ok (place, some (.file content)), some other => place == other && content != ""
      | _, _ => false
    let sources := options.operands.filter fun path => !isOutput path
    let effect :=
      if sources.isEmpty && !options.operands.isEmpty then Effect.silent call 0
      else forSources call sources (plainReport "cat") fun _ content => content
    let effect := (options.operands.filter isOutput).foldl (fun effect path =>
      effect.complain ("cat: " ++ shown path ++ ": input file is output file")) effect
    if !numbered && !ends then effect
    else
      let text := String.join (effect.writes.filterMap fun w => if w.1 = 1 then some w.2 else none)
      let lines := (fullLines text).mapIdx fun i line =>
        (if numbered then alignRight 6 (i + 1).repr ++ "\t" else "") ++
          if ends then Text.replace "\n" "$\n" line else line
      { effect with writes := effect.writes.filter (fun w => w.1 ≠ 1) ++ [(1, String.join lines)] }

/-- A number of lines or bytes as an argument gives it: a sign, if there is one, and the number. -/
def readCount? (text : String) : Option (Option Char × Nat) :=
  match text.toList with
  | '+' :: digits => (String.ofList digits).toNat?.map fun n => (some '+', n)
  | '-' :: digits => (String.ofList digits).toNat?.map fun n => (some '-', n)
  | _ => text.toNat?.map fun n => (none, n)

/-- The first pieces of a text, or all but the last ones. -/
def takeFirst {α : Type} (count : Option Char × Nat) (pieces : List α) : List α :=
  if count.1 = some '-' then pieces.take (pieces.length - count.2) else pieces.take count.2

/-- The last pieces of a text, or all from one of them on. -/
def takeLast {α : Type} (count : Option Char × Nat) (pieces : List α) : List α :=
  if count.1 = some '+' then pieces.drop (count.2 - 1) else pieces.drop (pieces.length - count.2)

/-- Arguments in which a dash and a number stand for a number of lines. -/
def expandCount (args : List String) : List String :=
  match args with
  | first :: rest =>
    match first.toList with
    | '-' :: c :: cs =>
      if c.isDigit && cs.all Char.isDigit then "-n" :: String.ofList (c :: cs) :: rest else args
    | '+' :: c :: cs =>
      if c.isDigit && cs.all Char.isDigit then "-n" :: first :: rest else args
    | _ => args
  | [] => []

/-- What `head` and `tail` do. -/
def headOrTail (program : String) (call : Call) : Effect :=
  let isHead : Bool := program == "head"
  let call := { call with args := expandCount call.args }
  withOptions program ⟨"qvzfF", "nc", [("lines", 'n'), ("bytes", 'c'), ("quiet", 'q'),
    ("verbose", 'v'), ("help", '?'), ("version", '?')]⟩ call fun options =>
    let counted := (options.value? 'c').isSome
    let given := ((options.value? 'c').or (options.value? 'n')).getD "10"
    match readCount? given with
    | none =>
      (Effect.silent call 0).complain
        (program ++ ": invalid number of " ++ (if counted then "bytes" else "lines") ++ ": " ++
          quoted given)
    | some count =>
      let several := (options.operands.length > 1 && !options.has 'q') || options.has 'v'
      forNamedSources call options.operands (openReport program) fun path isFirst content =>
        let cut := if counted then
            String.ofList (if isHead then takeFirst count content.toList
              else takeLast count content.toList)
          else
            String.join (if isHead then takeFirst count (fullLines content)
              else takeLast count (fullLines content))
        (if several then
          (if isFirst then "" else "\n") ++ "==> " ++
            (if path = "-" then "standard input" else path) ++ " <==\n"
        else "") ++ cut

/-- How many lines, words and bytes a text has. -/
def countsOf (options : Options) (content : String) : List Nat :=
  let cs := content.toList
  let words := (Text.split ' ' (content.map fun c =>
    if "\t\n\x0b\x0c\r".toList.contains c then ' ' else c)).filter fun word => word != ""
  let all := options.given.isEmpty
  (if all || options.has 'l' then [cs.count '\n'] else []) ++
    (if all || options.has 'w' then [words.length] else []) ++
    (if options.has 'm' then [cs.length] else []) ++
    (if all || options.has 'c' then [cs.length] else [])

/-- What `wc` does. -/
def wc (call : Call) : Effect :=
  withOptions "wc" ⟨"lwcmL", "", [("lines", 'l'), ("words", 'w'), ("bytes", 'c'), ("chars", 'm'),
    ("help", '?'), ("version", '?')]⟩ call fun options =>
    let contents := (if options.operands.isEmpty then ["-"] else options.operands).filterMap
      fun path => (call.source path).toOption
    let size := (String.join contents).length
    let isSingle : Bool :=
      options.operands.length ≤ 1 && (countsOf options "").length == 1
    let width := if isSingle then 1
      else if options.operands.isEmpty && !call.readsFile then 7 else size.repr.length
    let line (counts : List Nat) (name : String) : String :=
      Text.join " " (counts.map fun n => alignRight width n.repr) ++ name ++ "\n"
    let effect := forSources call options.operands (plainReport "wc") fun path content =>
      line (countsOf options content)
        (if options.operands.isEmpty then "" else " " ++ path)
    if options.operands.length ≤ 1 then effect
    else effect.write (line (countsOf options (String.join contents)) " total")

/-- What `tac` and `rev` do with a text. -/
def reversed (program content : String) : String :=
  if program = "tac" then String.join (fullLines content).reverse
  else
    String.join <| (fullLines content).map fun line =>
      match line.toList.reverse with
      | '\n' :: cs => String.ofList cs ++ "\n"
      | cs => String.ofList cs

/-- What `sort` does with a text. -/
def sorted (options : Options) (content : String) : String :=
  let lines := (Text.split '\n' content)
  let lines := if lines.getLast? = some "" then lines.dropLast else lines
  let number (line : String) : Int := (readInteger line).1
  let le (a b : String) : Bool :=
    if options.has 'n' && number a ≠ number b then number a < number b else a ≤ b
  let lines := lines.mergeSort fun a b => if options.has 'r' then le b a else le a b
  let lines := if options.has 'u' then lines.eraseDups else lines
  String.join (lines.map fun line => line ++ "\n")

/-- A text without the lines that repeat the one before them. -/
def withoutRepeats (content : String) : String :=
  let lines := (Text.split '\n' content)
  let lines := if lines.getLast? = some "" then lines.dropLast else lines
  let kept := (lines.zip (none :: lines.map some)).filter fun (line, before) => some line ≠ before
  String.join (kept.map fun (line, _) => line ++ "\n")

/-! ## Replacing characters -/

/-- The characters of a set as it is written, in at most so many steps. -/
def readCharacters : Nat → List Char → List Char
  | 0, _ => []
  | steps + 1, cs =>
    match cs with
    | [] => []
    | '[' :: ':' :: rest =>
      let name := rest.takeWhile fun c => c ≠ ':'
      let named (test : Char → Bool) := ((List.range 256).map Char.ofNat).filter test
      let chosen := match String.ofList name with
        | "lower" => named Char.isLower
        | "upper" => named Char.isUpper
        | "digit" => named Char.isDigit
        | "alpha" => named Char.isAlpha
        | "alnum" => named Char.isAlphanum
        | "space" => "\t\n\x0b\x0c\r ".toList
        | "blank" => "\t ".toList
        | "punct" => named fun c => 32 < c.toNat && c.toNat < 127 && !c.isAlphanum
        | _ => []
      chosen ++ readCharacters steps (rest.drop (name.length + 2))
    | c :: rest =>
      let (low, rest) := if c = '\\' then readEscape rest else (c, rest)
      match rest with
      | '-' :: high :: rest =>
        let (high, rest) := if high = '\\' then readEscape rest else (high, rest)
        (List.range (high.toNat + 1 - low.toNat)).map (fun i => Char.ofNat (low.toNat + i)) ++
          readCharacters steps rest
      | _ => low :: readCharacters steps rest

/-- The characters of a set as it is written. -/
def charactersOf (text : String) : List Char := readCharacters (text.length + 1) text.toList

/-- A text in which each run of one of some characters is one of it. -/
def squeeze (chosen : Char → Bool) : List Char → List Char
  | c :: d :: rest =>
    if c = d && chosen c then squeeze chosen (d :: rest) else c :: squeeze chosen (d :: rest)
  | cs => cs

/-- What `tr` does with a text. -/
def translated (options : Options) (first second : String) (text : String) : String :=
  let source := charactersOf first
  let target := charactersOf second
  let inFirst (c : Char) : Bool := source.contains c != (options.has 'c' || options.has 'C')
  let replaced (c : Char) : Char :=
    if !inFirst c then c
    else
      match source.idxOf? c with
      | some i => target.getD i (target.getLastD c)
      | none => target.getLastD c
  if options.has 'd' then
    let kept := text.toList.filter fun c => !inFirst c
    String.ofList (if options.has 's' then squeeze target.contains kept else kept)
  else if second.isEmpty then String.ofList (squeeze inFirst text.toList)
  else
    let cs := text.toList.map replaced
    String.ofList (if options.has 's' then squeeze target.contains cs else cs)

/-- What `tr` does. -/
def tr (call : Call) : Effect :=
  withOptions "tr" ⟨"cCdst", "", [("delete", 'd'), ("squeeze-repeats", 's'), ("complement", 'c'),
    ("help", '?'), ("version", '?')]⟩ call fun options =>
    match options.operands with
    | [] => Effect.misuse call "tr" ["tr: missing operand"]
    | [first] =>
      if options.has 'd' || options.has 's' then
        Effect.writing call (translated options first "" call.input)
      else
        Effect.misuse call "tr" ["tr: missing operand after " ++ quoted first,
          "Two strings must be given when translating."]
    | [first, second] => Effect.writing call (translated options first second call.input)
    | _ :: _ :: third :: _ => Effect.misuse call "tr" ["tr: extra operand " ++ quoted third]

/-- Numbers and ranges of numbers with commas between them. -/
def readRanges (text : String) : List (Nat × Option Nat) :=
  (Text.split ',' text).map fun piece =>
    match Text.split '-' piece with
    | [low, high] => (low.toNat?.getD 1, high.toNat?)
    | _ => (piece.toNat?.getD 0, piece.toNat?)

/-- What `cut` does with a text. -/
def cutLines (options : Options) (content : String) : String :=
  let lines := (Text.split '\n' content)
  let lines := if lines.getLast? = some "" then lines.dropLast else lines
  let byField := (options.value? 'f').isSome
  let ranges := readRanges ((((options.value? 'f').or (options.value? 'c')).or
    (options.value? 'b')).getD "")
  let delimiter := ((options.value? 'd').getD "\t").toList.headD '\t'
  let chosen {α : Type} (pieces : List α) : List α :=
    (pieces.zipIdx 1).filterMap fun (piece, i) =>
      if ranges.any fun (low, high) => low ≤ i && (high.all fun h => i ≤ h) then some piece else none
  String.join <| lines.map fun line =>
    (if !byField then String.ofList (chosen line.toList)
    else if line.toList.contains delimiter then
      Text.join (String.singleton delimiter) (chosen (Text.split delimiter line))
    else line) ++ "\n"

/-! ## Making and removing -/

/-- What `tee` does. -/
def tee (call : Call) : Effect :=
  withOptions "tee" ⟨"aip", "", [("append", 'a'), ("help", '?'), ("version", '?')]⟩ call fun options =>
    options.operands.foldl (fun effect path =>
      let before := if options.has 'a' then (effect.disk.read path).toOption.getD "" else ""
      match effect.disk.writeFile path (before ++ call.input) with
      | .ok disk => { effect with disk := disk }
      | .error cause => effect.complain (plainReport "tee" path cause))
      (Effect.writing call call.input)

/-- Removes one file, or a directory with all that is in it if that is wanted. -/
def removeOne (options : Options) (effect : Effect) (path : String) : Effect :=
  let fails (cause : IoCause) : Effect :=
    if options.has 'f' && (cause = .notFound || cause = .notADirectory) then effect
    else effect.complain ("rm: cannot remove " ++ quoted path ++ ": " ++ cause.text)
  let isRecursive := options.has 'r' || options.has 'R'
  match effect.disk.find path with
  | .ok (some .directory) =>
    if isRecursive then
      match effect.disk.removeAll path with
      | .ok disk => { effect with disk := disk }
      | .error cause => fails cause
    else if options.has 'd' then
      match effect.disk.removeDirectory path with
      | .ok disk => { effect with disk := disk }
      | .error cause => fails cause
    else fails .isADirectory
  | _ =>
    match effect.disk.removeFile path with
    | .ok disk =>
      let effect := { effect with disk := disk }
      if options.has 'v' then effect.write ("removed " ++ quoted path ++ "\n") else effect
    | .error cause => fails cause

/-- A program that does something for each of its arguments, of which it needs one. -/
def forOperands (program : String) (call : Call) (options : Options)
    (work : Effect → String → Effect) : Effect :=
  if options.operands.isEmpty then Effect.misuse call program [program ++ ": missing operand"]
  else options.operands.foldl work (Effect.silent call 0)

/-- What `rm` does. -/
def rm (call : Call) : Effect :=
  withOptions "rm" ⟨"dfiIrRv", "", [("force", 'f'), ("recursive", 'r'), ("dir", 'd'),
    ("verbose", 'v'), ("help", '?'), ("version", '?')]⟩ call fun options =>
    if options.operands.isEmpty && options.has 'f' then Effect.silent call 0
    else if options.has 'i' && !options.has 'f' then
      forOperands "rm" call options fun effect _ => effect
    else forOperands "rm" call options (removeOne options)

/-- What `unlink` does. -/
def unlink (call : Call) : Effect :=
  match call.args with
  | [] => Effect.misuse call "unlink" ["unlink: missing operand"]
  | [path] =>
    match call.disk.removeFile path with
    | .ok disk => { Effect.silent call 0 with disk := disk }
    | .error cause =>
      (Effect.silent call 0).complain ("unlink: cannot unlink " ++ quoted path ++ ": " ++ cause.text)
  | _ :: extra :: _ => Effect.misuse call "unlink" ["unlink: extra operand " ++ quoted extra]

/-- What `rmdir` does. -/
def rmdir (call : Call) : Effect :=
  withOptions "rmdir" ⟨"pv", "", [("help", '?'), ("version", '?')]⟩ call fun options =>
    forOperands "rmdir" call options fun effect path =>
      match effect.disk.removeDirectory path with
      | .ok disk => { effect with disk := disk }
      | .error cause =>
        effect.complain ("rmdir: failed to remove " ++ quoted path ++ ": " ++ cause.text)

/-- What `mkdir` does. -/
def mkdir (call : Call) : Effect :=
  withOptions "mkdir" ⟨"pv", "m", [("parents", 'p'), ("mode", 'm'), ("help", '?'),
    ("version", '?')]⟩ call fun options =>
    forOperands "mkdir" call options fun effect path =>
      let (result, disk) : Except IoCause Unit × Disk :=
        if options.has 'p' then effect.disk.createDirectories path
        else
          match effect.disk.createDirectory path with
          | .ok disk => (.ok (), disk)
          | .error cause => (.error cause, effect.disk)
      match result with
      | .ok () => { effect with disk := disk }
      | .error cause =>
        { effect with disk := disk }.complain
          ("mkdir: cannot create directory " ++ quoted path ++ ": " ++ cause.text)

/-- What `touch` does. -/
def touch (call : Call) : Effect :=
  withOptions "touch" ⟨"acfhm", "drt", [("no-create", 'c'), ("help", '?'), ("version", '?')]⟩ call
    fun options =>
    if options.operands.isEmpty then Effect.misuse call "touch" ["touch: missing file operand"]
    else
      forOperands "touch" call options fun effect path =>
        match effect.disk.find path with
        | .ok (some _) => effect
        | _ =>
          if options.has 'c' then effect
          else
            match effect.disk.writeFile path "" with
            | .ok disk => { effect with disk := disk }
            | .error cause => effect.complain ("touch: cannot touch " ++ quoted path ++ ": " ++ cause.text)

/-! ## Other programs -/

/-- The numbers from one to another in steps, each on a line; at most so many. -/
def numberLines (step last : Int) : Nat → Int → String
  | 0, _ => ""
  | count + 1, n =>
    if (0 < step && last < n) || (step < 0 && n < last) || step = 0 then ""
    else toString n ++ "\n" ++ numberLines step last count (n + step)

/-- What `seq` does with whole numbers. -/
def seq (call : Call) : Effect :=
  match call.args.map readInteger with
  | [(last, none)] => Effect.writing call (numberLines 1 last last.toNat 1)
  | [(first, none), (last, none)] =>
    Effect.writing call (numberLines 1 last (last - first + 1).toNat first)
  | [(first, none), (step, none), (last, none)] =>
    Effect.writing call (numberLines step last ((last - first).natAbs + 1) first)
  | [] => Effect.misuse call "seq" ["seq: missing operand"]
  | _ => Effect.misuse call "seq" ["seq: invalid floating point argument"]

/-- What `basename` does. -/
def basename (call : Call) : Effect :=
  match call.args with
  | [path] => Effect.writing call (lastName path ++ "\n")
  | [path, ending] =>
    let name := lastName path
    Effect.writing call
      ((match Text.before? ending name with
        | some "" => name
        | some before => before
        | none => name) ++ "\n")
  | [] => Effect.misuse call "basename" ["basename: missing operand"]
  | _ :: _ :: extra :: _ => Effect.misuse call "basename" ["basename: extra operand " ++ quoted extra]

/-- What `dirname` does. -/
def dirname (call : Call) : Effect :=
  if call.args.isEmpty then Effect.misuse call "dirname" ["dirname: missing operand"]
  else
    Effect.writing call <| String.join <| call.args.map fun path =>
      let outer := (Disk.Path.parent? path).getD "/"
      (if outer.isEmpty then "." else outer) ++ "\n"

/-- What `echo` writes as a program: only an option makes it replace escapes. -/
def echo (call : Call) : Effect :=
  let isOption (arg : String) : Bool :=
    match arg.toList with
    | '-' :: c :: cs => (c :: cs).all fun d => d = 'n' || d = 'e' || d = 'E'
    | _ => false
  let options := String.join (call.args.takeWhile isOption)
  let text := Text.join " " (call.args.dropWhile isOption)
  let (text, ends) := if options.toList.contains 'e' then unescaped text else (text, false)
  Effect.writing call (if options.toList.contains 'n' || ends then text else text ++ "\n")

/-- A program that writes something else for each text that it reads. -/
def textTool (program : String) (call : Call) (table : OptionTable)
    (work : Options → String → String) : Effect :=
  withOptions program table call fun options =>
    forSources call options.operands (plainReport program) fun _ => work options

/-- What a program outside the shell does; nothing if there is no such program. -/
def tool? (name : String) (call : Call) : Option Effect :=
  match name with
  | "true" => some (.silent call 0)
  | "false" => some (.silent call 1)
  | "echo" => some (echo call)
  | "cp" | "mv" => some (copyOrMove name call)
  | "cat" => some (cat call)
  | "head" | "tail" => some (headOrTail name call)
  | "wc" => some (wc call)
  | "tr" => some (tr call)
  | "tee" => some (tee call)
  | "rm" => some (rm call)
  | "rmdir" => some (rmdir call)
  | "mkdir" => some (mkdir call)
  | "touch" => some (touch call)
  | "unlink" => some (unlink call)
  | "seq" => some (seq call)
  | "basename" => some (basename call)
  | "dirname" => some (dirname call)
  | "tac" | "rev" => some (textTool name call ⟨"", "", []⟩ fun _ => reversed name)
  | "sort" => some (textTool name call ⟨"bdfinru", "kot", []⟩ sorted)
  | "uniq" => some (textTool name call ⟨"", "", []⟩ fun _ => withoutRepeats)
  | "cut" => some (textTool name call ⟨"s", "bcdf", []⟩ cutLines)
  | "sleep" | "sync" | "chmod" => some (.silent call 0)
  | _ => none

end StubGen.Shell
