import StubGen.Proofs.Text.Characters
import StubGen.Proofs.Text.Lines
import StubGen.TypeName

/-!
# The names in a type expression

Type expressions are read as text here, the way they stand in a generated module: a name is a
longest run of characters other than brackets, commas, spaces and quotes. The expressions that
declared types resolve to are names, lists and callables (`Written`), and qualifying one leaves
its basic names alone, leaves a callable alone, and puts the path of the module of types in front
of every other name: `mem_namesIn_qualify`.
-/

namespace StubGen.TypeName

open Text
open Identifier (isIdentifierChar dropSpaces camelCase)

/-! ## Names -/

/-- Whether a character stands between the names of a type expression. -/
def isSeparator (c : Char) : Bool := ['[', ']', ',', ' ', '"'].contains c

/-- The longest runs of characters that are no separators. -/
def runs (cs : List Char) : List (List Char) :=
  (cs.splitOnP isSeparator).filter (!·.isEmpty)

/-- The names that occur in a type expression, at any depth. -/
def namesIn (expr : String) : List String := (runs expr.toList).map String.ofList

variable {cs ds seps : List Char} {sep : Char}

theorem runs_append_cons (h : isSeparator sep = true) (cs ds : List Char) :
    runs (cs ++ sep :: ds) = runs cs ++ runs ds := by
  unfold runs
  rw [List.splitOnP_append_cons cs ds h, List.filter_append]

@[simp] theorem runs_nil : runs [] = [] := rfl

theorem runs_cons (h : isSeparator sep = true) (cs : List Char) : runs (sep :: cs) = runs cs :=
  runs_append_cons h [] cs

/-- Separators hold no names, so they may be joined to a text or left out. -/
theorem runs_append_append (hne : seps ≠ []) (h : ∀ c ∈ seps, isSeparator c = true)
    (cs ds : List Char) : runs (cs ++ seps ++ ds) = runs cs ++ runs ds := by
  have hlead : ∀ seps : List Char, (∀ c ∈ seps, isSeparator c = true) →
      runs (seps ++ ds) = runs ds := by
    intro seps
    induction seps with
    | nil => intro _; rfl
    | cons c seps ih =>
        intro h
        rw [List.cons_append, runs_cons (h c List.mem_cons_self)]
        exact ih fun d hd => h d (List.mem_cons_of_mem _ hd)
  obtain ⟨sep, rest, rfl⟩ := List.exists_cons_of_ne_nil hne
  rw [List.append_assoc, List.cons_append, runs_append_cons (h sep List.mem_cons_self),
    hlead rest fun d hd => h d (List.mem_cons_of_mem _ hd)]

theorem runs_eq_singleton (hne : cs ≠ []) (h : ∀ c ∈ cs, isSeparator c = false) :
    runs cs = [cs] := by
  unfold runs
  rw [List.splitOnP_eq_singleton h]
  simp [hne]

theorem namesIn_append_append {sep : String} (hne : sep ≠ "")
    (h : sep.toList.all isSeparator = true) (text more : String) :
    namesIn (text ++ sep ++ more) = namesIn text ++ namesIn more := by
  have hne : sep.toList ≠ [] := fun heq => hne (String.toList_inj.mp heq)
  unfold namesIn
  rw [String.toList_append, String.toList_append, runs_append_append hne (List.all_eq_true.mp h),
    List.map_append]

theorem namesIn_eq_singleton {name : String} (hne : name ≠ "")
    (h : ∀ c ∈ name.toList, isSeparator c = false) : namesIn name = [name] := by
  have hne : name.toList ≠ [] := fun heq => hne (String.toList_inj.mp heq)
  unfold namesIn
  rw [runs_eq_singleton hne h]
  simp

theorem isSeparator_of_isIdentifierChar {c : Char} (h : isIdentifierChar c = true) :
    isSeparator c = false := by
  have hall : (['[', ']', ',', ' ', '"'].all fun c => !isIdentifierChar c) = true := by decide
  refine Bool.eq_false_iff.mpr fun hsep => ?_
  have hc := List.all_eq_true.mp hall c (List.contains_iff_mem.mp hsep)
  simp [h] at hc

/-- An identifier is one name. -/
theorem namesIn_identifier {name : String} (hne : name ≠ "")
    (h : name.toList.all isIdentifierChar = true) : namesIn name = [name] :=
  namesIn_eq_singleton hne fun _ hc =>
    isSeparator_of_isIdentifierChar (List.all_eq_true.mp h _ hc)

/-- What stands in brackets behind a name. -/
theorem namesIn_brackets {head : String} (hne : head ≠ "")
    (h : head.toList.all isIdentifierChar = true) (expr : String) :
    namesIn (head ++ "[" ++ expr ++ "]") = head :: namesIn expr := by
  have htext : head ++ "[" ++ expr ++ "]" = head ++ "[" ++ (expr ++ "]" ++ "") := by
    rw [String.append_empty, ← String.append_assoc]
  rw [htext, namesIn_append_append (by decide) (by decide), namesIn_append_append (by decide)
    (by decide), namesIn_identifier hne h]
  simp [namesIn]

theorem namesIn_list (expr : String) :
    namesIn ("List[" ++ expr ++ "]") = "List" :: namesIn expr := by
  rw [show "List[" = "List" ++ "[" by decide]
  exact namesIn_brackets (by decide) (by decide) expr

theorem namesIn_callable (text : String) :
    namesIn ("Callable[" ++ text ++ "]") = "Callable" :: namesIn text := by
  rw [show "Callable[" = "Callable" ++ "[" by decide]
  exact namesIn_brackets (by decide) (by decide) text

theorem namesIn_join {sep : String} (hne : sep ≠ "") (h : sep.toList.all isSeparator = true)
    (exprs : List String) : namesIn (join sep exprs) = exprs.flatMap namesIn := by
  induction exprs with
  | nil => rfl
  | cons expr exprs ih =>
      cases exprs with
      | nil => simp [join, joinChars]
      | cons next exprs =>
          rw [join_cons_cons, namesIn_append_append hne h, ih, ← List.flatMap_cons]

/-! ## Spaces -/

theorem dropSpaces_append (text more : String) :
    dropSpaces (text ++ more) = dropSpaces text ++ dropSpaces more := by
  simp [dropSpaces]

theorem dropSpaces_join (sep : String) (texts : List String) :
    dropSpaces (join sep texts) = join (dropSpaces sep) (texts.map dropSpaces) := by
  induction texts with
  | nil => rfl
  | cons text texts ih =>
      cases texts with
      | nil => simp [join, joinChars]
      | cons next texts =>
          rw [join_cons_cons, dropSpaces_append, dropSpaces_append, ih]
          exact (join_cons_cons _ _ _ _).symm

theorem dropSpaces_dropSpaces (text : String) : dropSpaces (dropSpaces text) = dropSpaces text := by
  simp [dropSpaces, List.filter_filter]

theorem dropSpaces_identifier {name : String} (h : name.toList.all isIdentifierChar = true) :
    dropSpaces name = name := by
  unfold dropSpaces
  rw [List.filter_eq_self.mpr, String.ofList_toList]
  intro c hc
  have hc := List.all_eq_true.mp h c hc
  exact decide_eq_true fun heq => absurd (heq ▸ hc) (by decide)

/-! ## Expressions -/

/-- The type expressions that declared types resolve to. -/
inductive Written : String → Prop where
  | name {name : String} (hne : name ≠ "") (h : name.toList.all isIdentifierChar = true) :
      Written name
  | list {expr : String} (h : Written expr) : Written ("List[" ++ expr ++ "]")
  | callable {text : String} (h : namesIn (dropSpaces text) = namesIn text) :
      Written ("Callable[" ++ text ++ "]")

/-- No name of an expression is broken or joined to another when its spaces go. -/
theorem Written.withoutSpaces {expr : String} (h : Written expr) :
    Written (dropSpaces expr) ∧ namesIn (dropSpaces expr) = namesIn expr := by
  induction h with
  | name hne h =>
      rw [dropSpaces_identifier h]
      exact ⟨.name hne h, rfl⟩
  | @list element _ ih =>
      have htext : dropSpaces ("List[" ++ element ++ "]") =
          "List[" ++ dropSpaces element ++ "]" := by
        rw [dropSpaces_append, dropSpaces_append]
        rfl
      rw [htext, namesIn_list, namesIn_list, ih.2]
      exact ⟨ih.1.list, rfl⟩
  | @callable text h =>
      have htext : dropSpaces ("Callable[" ++ text ++ "]") =
          "Callable[" ++ dropSpaces text ++ "]" := by
        rw [dropSpaces_append, dropSpaces_append]
        rfl
      rw [htext, namesIn_callable, namesIn_callable, h]
      exact ⟨.callable (by rw [dropSpaces_dropSpaces]), rfl⟩

/-! ## Qualifying -/

theorem trimChars_eq_self {c : Char} {mid : List Char} {d : Char} (hc : isBlank c = false)
    (hd : isBlank d = false) : trimChars (c :: mid ++ [d]) = c :: mid ++ [d] := by
  unfold trimChars trimStartChars
  rw [List.cons_append, List.dropWhile_cons_of_neg (by simp [hc])]
  exact trimEndChars_append_of_self (List.cons_ne_nil d [])
    ((trimEndChars_eq_self_iff (List.cons_ne_nil d [])).mpr hd) (c :: mid)

theorem trimChars_of_not_blank (h : ∀ c ∈ cs, isBlank c = false) : trimChars cs = cs := by
  cases cs with
  | nil => rfl
  | cons c cs =>
      unfold trimChars trimStartChars
      rw [List.dropWhile_cons_of_neg (by simp [h c List.mem_cons_self]),
        trimEndChars_eq_self_iff (List.cons_ne_nil c cs)]
      exact h _ (List.getLast_mem _)

/-- The qualification of characters without white space at either end. -/
theorem qualifyChars_of_trimmed (owner : String) (h : trimChars cs = cs) :
    qualifyChars owner cs =
      if cs.isEmpty || (afterChars? "Callable".toList cs).isSome || isBasic (String.ofList cs) then
        cs
      else
        match listElement? cs with
        | some inner => "List[".toList ++ qualifyChars owner inner ++ [']']
        | none =>
          let path := (Identifier.typeModule owner ++ ".").toList
          match quotedName? cs with
          | some quoted =>
            ['"'] ++ path ++ (camelCase (String.ofList quoted)).toList ++ ['"']
          | none => path ++ (camelCase (String.ofList cs)).toList := by
  rw [qualifyChars]
  simp only [h]
  split
  · rfl
  · split
    · rename_i inner hinner
      rw [h] at hinner
      rw [hinner]
    · rename_i hinner
      rw [h] at hinner
      -- the goal matches on what is not found, for any results of the two branches
      have hnone : ∀ {α : Type} (found : List Char → α) (missing : α),
          missing = match listElement? cs with | some inner => found inner | none => missing := by
        rw [hinner]
        exact fun _ _ => rfl
      exact hnone _ _

/-- A list is qualified in its element. -/
theorem qualify_list (owner expr : String) :
    qualify owner ("List[" ++ expr ++ "]") = "List[" ++ qualify owner expr ++ "]" := by
  have htext : ("List[" ++ expr ++ "]").toList = "List[".toList ++ (expr.toList ++ [']']) := by simp
  have htrim : trimChars ("List[" ++ expr ++ "]").toList = ("List[" ++ expr ++ "]").toList := by
    rw [show ("List[" ++ expr ++ "]").toList = 'L' :: ("ist[".toList ++ expr.toList) ++ [']'] by
      simp]
    exact trimChars_eq_self (by decide) (by decide)
  -- no basic type has a bracket
  have hbasic : isBasic ("List[" ++ expr ++ "]") = false := by
    refine Bool.eq_false_iff.mpr fun h => ?_
    have hall : (basicTypes.all fun name => !name.toList.contains '[') = true := by decide
    unfold isBasic at h
    have hname := List.all_eq_true.mp hall _ (List.contains_iff_mem.mp h)
    simp at hname
  have hinner : listElement? ("List[" ++ expr ++ "]").toList = some expr.toList := by
    unfold listElement?
    rw [afterChars?_eq_some_iff.mpr htext]
    simp [beforeChars?, afterChars?]
  have hcallable :
      (afterChars? "Callable".toList ("List[" ++ expr ++ "]").toList).isSome = false := by
    simp [afterChars?]
  unfold qualify
  rw [qualifyChars_of_trimmed owner htrim, hinner, hcallable, String.ofList_toList, hbasic,
    if_neg (by simp)]
  simp only [String.ofList_append]
  rfl

/-- A callable is left alone. -/
theorem qualify_callable (owner text : String) :
    qualify owner ("Callable[" ++ text ++ "]") = "Callable[" ++ text ++ "]" := by
  have htrim : trimChars ("Callable[" ++ text ++ "]").toList =
      ("Callable[" ++ text ++ "]").toList := by
    rw [show ("Callable[" ++ text ++ "]").toList =
      'C' :: ("allable[".toList ++ text.toList) ++ [']'] by simp]
    exact trimChars_eq_self (by decide) (by decide)
  have hcallable : (afterChars? "Callable".toList ("Callable[" ++ text ++ "]").toList).isSome =
      true := by
    rw [afterChars?_eq_some_iff.mpr (show ("Callable[" ++ text ++ "]").toList =
      "Callable".toList ++ ('[' :: text.toList ++ [']']) by simp)]
    rfl
  unfold qualify
  rw [qualifyChars_of_trimmed owner htrim, hcallable, if_pos (by simp), String.ofList_toList]

/-- There is nothing to trim of an identifier. -/
theorem trimChars_identifier {name : String} (h : name.toList.all isIdentifierChar = true) :
    trimChars name.toList = name.toList :=
  trimChars_of_not_blank fun c hm => isBlank_of_isIdentifierChar (List.all_eq_true.mp h c hm)

theorem camelCase_identifier {name : String} (h : name.toList.all isIdentifierChar = true) :
    camelCase name = name := by
  have hchars := List.all_eq_true.mp h
  have htrim := trimChars_identifier h
  have hapart : (name.toList.any fun c => c = ' ' || c = '-') = false := by
    rw [List.any_eq_false]
    intro c hc hor
    have hc := hchars c hc
    rcases Bool.or_eq_true _ _ ▸ hor with heq | heq <;>
    · rw [of_decide_eq_true heq] at hc
      exact absurd hc (by decide)
  unfold camelCase
  simp only [htrim, hapart]
  simp

/-- A name that is neither basic nor begins like a callable is put behind the path of the module
of types. -/
theorem qualify_identifier (owner : String) {name : String} (hne : name ≠ "")
    (h : name.toList.all isIdentifierChar = true) :
    qualify owner name = if startsWith "Callable" name || isBasic name then name
      else Identifier.typeModule owner ++ "." ++ name := by
  have hchars := List.all_eq_true.mp h
  have htrim := trimChars_identifier h
  have hempty : name.toList.isEmpty = false := by
    simpa using fun heq => hne (String.toList_inj.mp heq)
  -- an identifier has neither brackets nor quotes
  have hlist : listElement? name.toList = none := by
    unfold listElement?
    cases hafter : afterChars? "List[".toList name.toList with
    | none => rfl
    | some rest =>
        have hbracket := hchars '[' (by rw [afterChars?_eq_some_iff.mp hafter]; simp)
        exact absurd hbracket (by decide)
  have hquoted : quotedName? name.toList = none := by
    unfold quotedName?
    cases hafter : afterChars? ['"'] name.toList with
    | none => rfl
    | some rest =>
        have hquote := hchars '"' (by rw [afterChars?_eq_some_iff.mp hafter]; simp)
        exact absurd hquote (by decide)
  have hstart :
      (afterChars? "Callable".toList name.toList).isSome = startsWith "Callable" name := by
    simp [startsWith, after?]
  unfold qualify
  rw [qualifyChars_of_trimmed owner htrim, hlist, hquoted, hempty, hstart, String.ofList_toList,
    Bool.false_or, camelCase_identifier h]
  split
  · exact String.ofList_toList
  · simp only [String.ofList_append, String.ofList_toList]

/-- **What becomes of the names of an expression when it is qualified.** A basic name stays, a
name beside a callable may stay too, and every other name gets the path of the module of types,
unless it begins like a callable. -/
theorem mem_namesIn_qualify {owner expr name : String}
    (howner : owner.toList.all isIdentifierChar = true) (h : Written expr)
    (hplain : ∀ m ∈ namesIn expr, startsWith "Callable" m = true → m = "Callable")
    (hm : name ∈ namesIn (qualify owner expr)) :
    isBasic name = true ∨
      (∃ m ∈ namesIn expr, isBasic m = false ∧ name = Identifier.typeModule owner ++ "." ++ m) ∨
      "Callable" ∈ namesIn (qualify owner expr) ∧ name ∈ namesIn expr := by
  -- a list hands its element on and a callable is not looked into, so names alone change
  induction h with
  | @name text hne hchars =>
      have hnames := namesIn_identifier hne hchars
      rw [qualify_identifier owner hne hchars] at hm
      by_cases hbasic : isBasic text = true
      · rw [if_pos (by simp [hbasic]), hnames, List.mem_singleton] at hm
        exact .inl (hm ▸ hbasic)
      · have hstart : startsWith "Callable" text = false := by
          refine Bool.eq_false_iff.mpr fun hstart => hbasic ?_
          rw [hplain text (by simp [hnames]) hstart]
          decide
        rw [if_neg (by simp [hbasic, hstart])] at hm
        have hpath : namesIn (Identifier.typeModule owner ++ "." ++ text) =
            [Identifier.typeModule owner ++ "." ++ text] := by
          refine namesIn_eq_singleton (fun heq => ?_) fun c hc => ?_
          · exact absurd (congrArg String.toList heq) (by simp)
          · simp only [Identifier.typeModule, String.toList_append, List.mem_append] at hc
            rcases hc with ((hc | hc) | hc) | hc
            · rw [List.mem_singleton.mp (show c ∈ ['_'] from hc)]
              decide
            · exact isSeparator_of_isIdentifierChar (List.all_eq_true.mp howner c hc)
            · rw [List.mem_singleton.mp (show c ∈ ['.'] from hc)]
              decide
            · exact isSeparator_of_isIdentifierChar (List.all_eq_true.mp hchars c hc)
        rw [hpath, List.mem_singleton] at hm
        exact .inr (.inl ⟨text, by simp [hnames], Bool.eq_false_iff.mpr hbasic, hm⟩)
  | @list element _ ih =>
      rw [namesIn_list] at hplain
      rw [qualify_list, namesIn_list] at hm ⊢
      rw [namesIn_list]
      rcases List.mem_cons.mp hm with rfl | hm
      · exact .inl (by decide)
      · rcases ih (fun m hm => hplain m (List.mem_cons_of_mem _ hm)) hm with
          hbasic | ⟨m, hmem, hm⟩ | ⟨hcallable, hmem⟩
        · exact .inl hbasic
        · exact .inr (.inl ⟨m, List.mem_cons_of_mem _ hmem, hm⟩)
        · exact .inr (.inr ⟨List.mem_cons_of_mem _ hcallable, List.mem_cons_of_mem _ hmem⟩)
  | @callable text _ =>
      rw [qualify_callable] at hm ⊢
      rw [namesIn_callable] at hm ⊢
      exact .inr (.inr ⟨List.mem_cons_self, hm⟩)

end StubGen.TypeName
