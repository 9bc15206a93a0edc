/-!
# TOML documents

A document is a table of values. What a table was begun by decides whether more can be put into
it later: a table in braces is complete, a table with a header of its own is not extended by
dotted keys, and a table that was only passed through may still get its header.
-/

namespace StubGen.Toml

/-- What a table was begun by. -/
inductive Origin where
  /-- Braces. -/
  | braces
  /-- Its own header. -/
  | header
  /-- The header of a table inside it. -/
  | innerHeader
  /-- A dotted key. -/
  | dottedKey
deriving DecidableEq, Repr

inductive Value where
  | text (text : String)
  | boolean (value : Bool)
  /-- A number or a date, as it is written. -/
  | literal (spelling : String)
  | array (items : List Value)
  | table (origin : Origin) (entries : List (String × Value))
  /-- The tables that headers in double brackets have begun, in order. -/
  | tables (elements : List (List (String × Value)))
deriving Inhabited

/-- The values of a table by their keys, in order. -/
abbrev Entries := List (String × Value)

namespace Entries

/-- Stores a value under a key that is there, in its place. -/
def replace (key : String) (value : Value) (entries : Entries) : Entries :=
  entries.map fun entry => if entry.1 = key then (key, value) else entry

/-- Stores a value under a new key; a key that is there is not overwritten. -/
def addNew? (key : String) (value : Value) (entries : Entries) : Option Entries :=
  if (entries.lookup key).isSome then none else some (entries ++ [(key, value)])

/-- Changes the table that keys lead to, given what it was begun by, and begins the tables that
are missing on the way. With `dotted`, the keys are those of a dotted key, otherwise of a header.
The way never leads through a table in braces, and that of a dotted key not through a table with
a header of its own; it leads to the last of the tables under a key. -/
def descend? (dotted : Bool) (origin : Origin) :
    List String → (Origin → Entries → Option Entries) → Entries → Option Entries
  | [], change, entries => change origin entries
  | key :: keys, change, entries =>
    match entries.lookup key with
    | none =>
      let origin := if dotted then .dottedKey else .innerHeader
      (descend? dotted origin keys change []).map fun inner =>
        entries ++ [(key, .table origin inner)]
    | some (.table origin inner) =>
      if origin = .braces || (dotted && origin = .header) then none
      else
        (descend? dotted origin keys change inner).map fun inner =>
          entries.replace key (.table origin inner)
    | some (.tables elements) =>
      match elements.getLast? with
      | none => none
      | some inner =>
        (descend? dotted .header keys change inner).map fun inner =>
          entries.replace key (.tables (elements.dropLast ++ [inner]))
    | some _ => none

/-- Begins a table with a header of its own. -/
def begin? (key : String) (entries : Entries) : Option Entries :=
  match entries.lookup key with
  | none => some (entries ++ [(key, .table .header [])])
  | some (.table .innerHeader inner) => some (entries.replace key (.table .header inner))
  | some _ => none

/-- Begins one more of the tables under a key. -/
def beginElement? (key : String) (entries : Entries) : Option Entries :=
  match entries.lookup key with
  | none => some (entries ++ [(key, .tables [[]])])
  | some (.tables elements) => some (entries.replace key (.tables (elements ++ [[]])))
  | some _ => none

/-- Applies the change of a header at the last of its keys, in the table that the others lead
to. -/
def atHeader? (keys : List String) (change : String → Entries → Option Entries)
    (entries : Entries) : Option Entries :=
  match keys.getLast? with
  | none => none
  | some key => descend? false .header keys.dropLast (fun _ => change key) entries

/-- Stores a value under a new key in a table that is neither in braces nor begun by dotted keys.
A dotted key can only extend tables that dotted keys have begun. -/
def addAt? (keys : List String) (value : Value) (entries : Entries) : Option Entries :=
  match keys.getLast? with
  | none => none
  | some key =>
    let add (origin : Origin) (table : Entries) : Option Entries :=
      if keys.length = 1 || origin = .dottedKey then table.addNew? key value else none
    descend? true .header keys.dropLast add entries

end Entries

end StubGen.Toml
