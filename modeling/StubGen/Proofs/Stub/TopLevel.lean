import Mathlib.Data.List.TakeWhile
import StubGen.NamespacePath
import StubGen.Proofs.Text.Lines

/-!
# The names that a module binds

A module binds a name at its top where it declares a function or a class, or imports a module from
its directory, and not in the body of a function or class; modules of schemas and of tables also
bind the names that they assign to. `names` reads these off the lines of a module. A line is in a
body as long as it is indented further than the line that the body belongs to, so the names of some
lines depend on those before them; they are the most where the lines are in no body.
-/

namespace StubGen

open Text (splitChars isBlank trimChars trimStartChars)

namespace Section

/-- Whether what a module of a section assigns to is part of what it is there for. -/
def hasAliases : Section → Bool
  | .functions | .variables => false
  | .schemas | .tables => true

end Section

namespace TopLevel

variable {aliases : Bool} {within within' : Option Nat} {line : List Char}
  {lines more : List (List Char)}

/-! ## Reading lines -/

/-- Whether a character can be part of a name: all that are not ASCII can, but white space. -/
def isNameChar (c : Char) : Bool :=
  if c.toNat < 128 then c.isAlphanum || c == '_' else !isBlank c

/-- The name that some characters begin with. -/
def name? (cs : List Char) : Option (List Char) :=
  let name := cs.takeWhile isNameChar
  if name.isEmpty then none else some name

/-- The name of a function or class that a line begins to declare, whose body is further in. -/
def declared? (line : List Char) : Option (List Char) :=
  ["def ", "async def ", "class "].findSome? fun keyword =>
    (Text.afterChars? keyword.toList line).bind name?

/-- The name that a line assigns to. -/
def assigned? (line : List Char) : Option (List Char) :=
  if (Text.afterChars? " = ".toList (line.dropWhile isNameChar)).isSome then name? line else none

/-- The name that a line binds by itself. -/
def bound? (aliases : Bool) (line : List Char) : Option (List Char) :=
  (Text.afterChars? "from . import ".toList line).orElse fun _ =>
    if aliases then assigned? line else none

/-- Whether a line is blank, a comment, or goes on with what stands in brackets before it. -/
def isSilent : List Char → Bool
  | [] => true
  | c :: _ => c == '#' || c == ')' || c == ']' || c == '}'

/-- What a line binds, and in the body of which function or class the next one may be, which goes by
the column where that begins. -/
def read (aliases : Bool) (within : Option Nat) (line : List Char) :
    Option Nat × List (List Char) :=
  let column := (line.takeWhile isBlank).length
  let body := trimChars line
  if isSilent body || within.any (· < column) then (within, [])
  else
    match declared? body with
    | some name => (some column, [name])
    | none => (none, (bound? aliases body).toList)

/-- How a line reads of which something stands behind its indentation. -/
theorem read_eq {indent cs : List Char} {c : Char} (hindent : ∀ b ∈ indent, isBlank b = true)
    (hc : isBlank c = false) (aliases : Bool) (within : Option Nat) :
    read aliases within (indent ++ c :: cs) =
      if isSilent [c] || within.any (· < indent.length) then (within, [])
      else
        match declared? (c :: Text.trimEndChars cs) with
        | some name => (some indent.length, [name])
        | none => (none, (bound? aliases (c :: Text.trimEndChars cs)).toList) := by
  have hcolumn : (indent ++ c :: cs).takeWhile isBlank = indent := by
    rw [List.takeWhile_append_of_pos hindent, List.takeWhile_cons_of_neg (by simp [hc]),
      List.append_nil]
  unfold read
  dsimp only
  rw [hcolumn, Text.trimChars_append hindent hc]
  rfl

/-- A line at the margin is in no body. -/
theorem read_margin {c : Char} (hc : isBlank c = false) (hloud : isSilent [c] = false)
    (aliases : Bool) (within : Option Nat) (cs : List Char) :
    read aliases within (c :: cs) =
      match declared? (c :: Text.trimEndChars cs) with
      | some name => (some 0, [name])
      | none => (none, (bound? aliases (c :: Text.trimEndChars cs)).toList) := by
  have hany : within.any (fun column => column < ([] : List Char).length) = false := by
    rw [Option.any_eq_false]
    intro column _
    simp
  have hread := @read_eq [] cs c nofun hc aliases within
  rw [hloud, hany] at hread
  exact hread

/-- The names that lines bind, the first one of which may be in a body. -/
def namesFrom (aliases : Bool) (within : Option Nat) : List (List Char) → List (List Char)
  | [] => []
  | line :: lines =>
    (read aliases within line).2 ++ namesFrom aliases (read aliases within line).1 lines

/-- The body that lines end in. -/
def bodyAfter (aliases : Bool) (within : Option Nat) (lines : List (List Char)) : Option Nat :=
  lines.foldl (fun within line => (read aliases within line).1) within

theorem namesFrom_append (lines more : List (List Char)) :
    namesFrom aliases within (lines ++ more) =
      namesFrom aliases within lines ++
        namesFrom aliases (bodyAfter aliases within lines) more := by
  induction lines generalizing within with
  | nil => rfl
  | cons line lines ih =>
      rw [List.cons_append, namesFrom, namesFrom, ih, List.append_assoc]
      rfl

/-- A line that binds nothing and leaves no body. -/
def Quiet (aliases : Bool) (within : Option Nat) (line : List Char) : Prop :=
  read aliases within line = (within, [])

theorem namesFrom_quiet (h : ∀ line ∈ lines, Quiet aliases within line) :
    namesFrom aliases within lines = [] := by
  induction lines with
  | nil => rfl
  | cons line lines ih =>
      have hline : read aliases within line = (within, []) := h line List.mem_cons_self
      rw [namesFrom, hline]
      exact ih fun other hm => h other (List.mem_cons_of_mem _ hm)

theorem quiet_blank (h : ∀ c ∈ line, isBlank c = true) : Quiet aliases within line := by
  unfold Quiet read trimChars trimStartChars
  dsimp only
  rw [List.dropWhile_eq_nil_iff.mpr h]
  rfl

theorem quiet_silent {indent cs : List Char} {c : Char} (hindent : ∀ b ∈ indent, isBlank b = true)
    (hc : isBlank c = false) (hsilent : isSilent [c] = true) :
    Quiet aliases within (indent ++ c :: cs) := by
  unfold Quiet
  rw [read_eq hindent hc, hsilent, Bool.true_or, if_pos rfl]

/-- What is indented is in a body that began at the margin. -/
theorem quiet_inner (cs : List Char) : Quiet aliases (some 0) (' ' :: cs) := by
  have hcolumn : 0 < ((' ' :: cs).takeWhile isBlank).length := by
    rw [List.takeWhile_cons_of_pos (by decide)]
    exact Nat.succ_pos _
  unfold Quiet read
  dsimp only
  rw [Option.any_some, decide_eq_true hcolumn, Bool.or_true, if_pos rfl]

/-- White space at the end of a line does not matter. -/
theorem read_append_blank {blank : List Char} (h : ∀ c ∈ blank, isBlank c = true)
    (aliases : Bool) (within : Option Nat) (line : List Char) :
    read aliases within (line ++ blank) = read aliases within line := by
  have hbody : trimChars (line ++ blank) = trimChars line := by
    unfold trimChars trimStartChars
    by_cases hall : line.dropWhile isBlank = []
    · rw [List.dropWhile_append_of_pos (List.dropWhile_eq_nil_iff.mp hall), hall,
        List.dropWhile_eq_nil_iff.mpr h]
    · rw [List.dropWhile_append, if_neg (by simpa using hall), Text.trimEndChars_append_blank h]
  unfold read
  dsimp only
  rw [hbody]
  cases hsilent : isSilent (trimChars line) with
  | true => rfl
  | false =>
      -- a line with something on it begins in the same column
      have hcolumn : (line ++ blank).takeWhile isBlank = line.takeWhile isBlank := by
        rw [List.takeWhile_append, if_neg]
        intro hlength
        have hall := (List.takeWhile_sublist isBlank).eq_of_length hlength
        unfold trimChars trimStartChars at hsilent
        rw [List.dropWhile_eq_nil_iff.mpr (List.takeWhile_eq_self_iff.mp hall)] at hsilent
        exact Bool.noConfusion hsilent
      rw [hcolumn]

/-! ## Bodies -/

/-- A body is the same as another one or further in. -/
def Further (within within' : Option Nat) : Prop :=
  within' = within ∨ ∃ column, within = some column ∧ ∀ inner, within' = some inner → column < inner

/-- **In a body less is bound.** A line that leaves a body leaves those further in as well, and from
there on both readings are the same. -/
theorem read_further (h : Further within within') (line : List Char) :
    (read aliases within line).2.Sublist (read aliases within' line).2 ∧
      Further (read aliases within line).1 (read aliases within' line).1 := by
  rcases h with rfl | ⟨column, rfl, hinner⟩
  · exact ⟨List.Sublist.refl _, .inl rfl⟩
  unfold read
  dsimp only
  cases hsilent : isSilent (trimChars line) with
  | true => exact ⟨List.Sublist.refl _, .inr ⟨column, rfl, hinner⟩⟩
  | false =>
      rw [Bool.false_or, Bool.false_or, Option.any_some]
      by_cases hin : column < (line.takeWhile isBlank).length
      · -- a line in the body may well begin another one further in
        rw [if_pos (decide_eq_true hin)]
        refine ⟨List.nil_sublist _, .inr ⟨column, rfl, ?_⟩⟩
        split
        · exact hinner
        · split
          · intro inner heq
            rwa [← Option.some.inj heq]
          · nofun
      · have hout : within'.any (fun inner => inner < (line.takeWhile isBlank).length) = false := by
          rw [Option.any_eq_false]
          intro inner heq
          have hfurther := hinner inner heq
          rw [decide_eq_false_iff_not]
          omega
        rw [if_neg (by simpa using hin), hout, if_neg Bool.false_ne_true]
        exact ⟨List.Sublist.refl _, .inl rfl⟩

theorem namesFrom_sublist (h : Further within within') :
    (namesFrom aliases within lines).Sublist (namesFrom aliases within' lines) := by
  induction lines generalizing within within' with
  | nil => exact List.Sublist.refl _
  | cons line lines ih =>
      obtain ⟨hbound, hnext⟩ := read_further h line
      exact hbound.append (ih hnext)

/-- Lines add at most the names that they bind by themselves. -/
theorem namesFrom_append_sublist (lines more : List (List Char)) :
    (namesFrom aliases none (lines ++ more)).Sublist
      (namesFrom aliases none lines ++ namesFrom aliases none more) := by
  have hfurther : Further (bodyAfter aliases none lines) none := by
    cases bodyAfter aliases none lines with
    | none => exact .inl rfl
    | some column => exact .inr ⟨column, rfl, nofun⟩
  rw [namesFrom_append]
  exact (namesFrom_sublist hfurther).append_left _

/-! ## Lines that read the same everywhere -/

/-- Lines bind the same names whatever body they come behind. -/
def Reads (aliases : Bool) (lines names : List (List Char)) : Prop :=
  ∀ within, namesFrom aliases within lines = names

theorem Reads.append {names names' : List (List Char)} (h : Reads aliases lines names)
    (h' : Reads aliases more names') : Reads aliases (lines ++ more) (names ++ names') := by
  intro within
  rw [namesFrom_append, h, h']

/-- An empty line binds nothing. -/
theorem reads_empty : Reads aliases [[]] [] := fun _ => rfl

/-- A text that begins at the margin reads the same everywhere. -/
theorem reads_of_margin {c : Char} (hc : isBlank c = false) (hloud : isSilent [c] = false)
    (cs : List Char) : Reads aliases (splitChars '\n' (c :: cs))
      (namesFrom aliases none (splitChars '\n' (c :: cs))) := by
  have hne : c ≠ '\n' := fun heq => absurd hc (by rw [heq]; decide)
  obtain ⟨first, rest, hlines⟩ := List.exists_cons_of_ne_nil (Text.splitChars_ne_nil '\n' cs)
  intro within
  rw [Text.splitChars_cons_of_ne hne hlines, namesFrom, namesFrom, read_margin hc hloud,
    read_margin hc hloud]

/-- Texts with two empty lines between them bind what each of them binds. -/
theorem reads_join {α : Type} {items : List α} {text : α → String} {own : α → List (List Char)}
    (h : ∀ item ∈ items, Reads aliases (splitChars '\n' (text item).toList) (own item)) :
    Reads aliases (splitChars '\n' (Text.join "\n\n\n" (items.map text)).toList)
      (items.flatMap own) := by
  induction items with
  | nil => exact reads_empty
  | cons item items ih =>
      have hitem := h item List.mem_cons_self
      have hrest := ih fun other hm => h other (List.mem_cons_of_mem _ hm)
      cases items with
      | nil => simpa [Text.join, Text.joinChars] using hitem
      | cons next items =>
          have htext : (Text.join "\n\n\n" ((item :: next :: items).map text)).toList =
              (text item).toList ++ '\n' :: ('\n' :: ('\n' ::
                (Text.join "\n\n\n" ((next :: items).map text)).toList)) := by
            rw [List.map_cons, List.map_cons, Text.join_cons_cons]
            simp
          rw [htext, Text.splitChars_append_sep, splitChars, if_pos rfl, splitChars, if_pos rfl]
          exact hitem.append (reads_empty.append (reads_empty.append hrest))

/-! ## Modules -/

/-- The names that a module of a section binds at its top, as often as it binds them. -/
def names (sec : Section) (content : String) : List String :=
  (namesFrom sec.hasAliases none (splitChars '\n' content.toList)).map String.ofList

/-- **White space at the end binds nothing.** -/
theorem names_append_blank {blank : String} (h : ∀ c ∈ blank.toList, isBlank c = true)
    (sec : Section) (content : String) : names sec (content ++ blank) = names sec content := by
  obtain ⟨init, last, first, rest, hcontent, hblank, hboth⟩ :=
    Text.splitChars_append '\n' content.toList blank.toList
  have hfirst : ∀ c ∈ first, isBlank c = true := fun c hm =>
    h c (Text.subset_of_mem_splitChars (hblank ▸ List.mem_cons_self) hm)
  have hquiet : ∀ within, namesFrom sec.hasAliases within rest = [] := by
    refine fun within => namesFrom_quiet fun line hm => quiet_blank fun c hc => ?_
    exact h c (Text.subset_of_mem_splitChars (hblank ▸ List.mem_cons_of_mem _ hm) hc)
  have hlast : ∀ within, namesFrom sec.hasAliases within ((last ++ first) :: rest) =
      namesFrom sec.hasAliases within [last] := by
    intro within
    rw [namesFrom, namesFrom, read_append_blank hfirst, hquiet]
    rfl
  unfold names
  rw [String.toList_append, hboth, hcontent, namesFrom_append, namesFrom_append, hlast]

theorem names_newline (sec : Section) (content : String) :
    names sec (content ++ "\n") = names sec content :=
  names_append_blank (List.all_eq_true.mp (by decide)) sec content

theorem names_trimEnd (sec : Section) (content : String) :
    names sec (Text.trimEnd content) = names sec content := by
  obtain ⟨blank, hblank, hcontent⟩ := Text.exists_blank_of_trimEndChars content.toList
  have htext : content = Text.trimEnd content ++ String.ofList blank :=
    String.toList_inj.mp (by simpa [Text.trimEnd] using hcontent)
  have hsame := @names_append_blank (String.ofList blank) (by simpa using hblank) sec
    (Text.trimEnd content)
  rw [← htext] at hsame
  exact hsame.symm

end TopLevel

end StubGen
