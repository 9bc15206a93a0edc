import StubGen.Proofs.Text.Lines
import StubGen.Schema.Declarations

/-!
# Names in declarations

A free name is found however many are taken, since there are more numbers than taken
names: `freshName_not_mem`. What an expression refers to is not changed by putting it into
a union, but that what is repeated is there once: `references_oneOf`. And the text of a
declaration opens with the name that it declares: `Declaration.opens_render`.
-/

namespace StubGen.Schema

/-! ## Free names -/

theorem toString_inj {m n : Nat} (h : toString m = toString n) : m = n := by
  have hdigits : Nat.toDigits 10 m = Nat.toDigits 10 n := String.ofList_injective h
  rw [← Nat.ofDigitChars_toDigits (n := m) (by decide) (Nat.le_refl 10), hdigits,
    Nat.ofDigitChars_toDigits (by decide) (Nat.le_refl 10)]

/-- If even the last candidate is taken, all of them are. -/
theorem mem_taken_of_freshFrom {taken : List String} {name : String} {steps counter : Nat}
    (h : freshFrom taken name steps counter ∈ taken) :
    ∀ i ≤ steps, name ++ toString (counter + i) ∈ taken := by
  induction steps generalizing counter with
  | zero =>
      intro i hi
      rwa [Nat.le_zero.mp hi]
  | succ steps ih =>
      unfold freshFrom at h
      dsimp only at h
      by_cases hc : taken.contains (name ++ toString counter) = true
      · rw [if_pos hc] at h
        intro i hi
        rcases Nat.eq_zero_or_pos i with rfl | hpos
        · exact List.contains_iff_mem.mp hc
        · have := ih h (i - 1) (by omega)
          rwa [show counter + 1 + (i - 1) = counter + i by omega] at this
      · rw [if_neg hc] at h
        exact absurd (List.contains_iff_mem.mpr h) hc

theorem exists_of_freshFrom (taken : List String) (name : String) (steps counter : Nat) :
    ∃ n : Nat, freshFrom taken name steps counter = name ++ toString n := by
  induction steps generalizing counter with
  | zero => exact ⟨counter, rfl⟩
  | succ steps ih =>
      unfold freshFrom
      dsimp only
      split
      · exact ih (counter + 1)
      · exact ⟨counter, rfl⟩

/-- A fresh name is the name itself, or the name with a number behind it. -/
theorem freshName_cases (taken : List String) (name : String) :
    freshName taken name = name ∨ ∃ n : Nat, freshName taken name = name ++ toString n := by
  unfold freshName
  split
  · exact .inr (exists_of_freshFrom taken name _ _)
  · exact .inl rfl

/-- **A fresh name is free.** -/
theorem freshName_not_mem (taken : List String) (name : String) : freshName taken name ∉ taken := by
  unfold freshName
  by_cases hc : taken.contains name = true
  · rw [if_pos hc]
    intro h
    -- there would be more candidates among the taken names than there are taken names
    let candidates := (List.range (taken.length + 1)).map fun i => name ++ toString (2 + i)
    have hsub : candidates ⊆ taken := by
      intro candidate hm
      obtain ⟨i, hi, rfl⟩ := List.mem_map.mp hm
      exact mem_taken_of_freshFrom h i (Nat.lt_succ_iff.mp (List.mem_range.mp hi))
    have hnodup : candidates.Nodup := by
      refine List.Pairwise.map _ (fun i j hne heq => hne ?_) List.nodup_range
      have := toString_inj ((String.append_right_inj name).mp heq)
      omega
    have := hnodup.length_le_of_subset hsub
    simp only [candidates, List.length_map, List.length_range] at this
    omega
  · rw [if_neg hc]
    exact fun h => hc (List.contains_iff_mem.mpr h)

/-! ## What expressions refer to -/

namespace TypeExpr

theorem referencesAll_eq_flatMap (exprs : List TypeExpr) :
    referencesAll exprs = exprs.flatMap references := by
  induction exprs with
  | nil => rfl
  | cons expr exprs ih => rw [referencesAll, ih, List.flatMap_cons]

theorem distinct_subset (exprs : List TypeExpr) : distinct exprs ⊆ exprs := by
  induction exprs with
  | nil => exact fun _ h => h
  | cons expr exprs ih =>
      intro other h
      rcases List.mem_cons.mp h with rfl | h
      · exact List.mem_cons_self
      · exact List.mem_cons_of_mem _ (ih (List.mem_filter.mp h).1)

/-- A union refers to what its members refer to. -/
theorem references_oneOf (exprs : List TypeExpr) :
    (oneOf exprs).references ⊆ exprs.flatMap references := by
  have hsub : (distinct exprs).flatMap references ⊆ exprs.flatMap references := by
    intro name h
    obtain ⟨expr, hm, hn⟩ := List.mem_flatMap.mp h
    exact List.mem_flatMap.mpr ⟨expr, distinct_subset exprs hm, hn⟩
  unfold oneOf
  split
  · exact List.nil_subset _
  · rename_i expr heq
    rwa [heq, List.flatMap_singleton] at hsub
  · rwa [references, referencesAll_eq_flatMap]

@[simp] theorem references_oneOfValues (values : List String) (orNone : Bool) :
    (oneOfValues values orNone).references = [] := by
  unfold oneOfValues
  split <;> rfl

end TypeExpr

@[simp] theorem references_constantType (value : Json) : (constantType value).references = [] := by
  unfold constantType
  split <;> rfl

@[simp] theorem references_enumType (values : List Json) : (enumType values).references = [] :=
  TypeExpr.references_oneOfValues _ _

/-! ## The text of a declaration -/

namespace Declaration

/-- The names that a declaration refers to, whether they stand in quotes or not. -/
def references : Declaration → List String
  | .record _ _ fields => fields.flatMap fun field => field.type.references
  | .alias _ type => type.references

/-- The names in quotes are among them. -/
theorem forwardReferences_subset (d : Declaration) : d.forwardReferences ⊆ d.references := by
  unfold forwardReferences
  split
  · exact fun _ h => h
  · exact List.nil_subset _
  · exact fun _ h => h

/-- How a text that declares a name may begin. -/
def openings (name : String) : List String :=
  ["class " ++ name ++ "(TypedDict, total=False):", name ++ " = "]

/-- A text declares a name: it begins with that, behind one line of comment at most. -/
def Opens (name text : String) : Prop :=
  ∃ comment opening rest, text = comment ++ opening ++ rest ∧ opening ∈ openings name ∧
    (comment = "" ∨ ∃ line, comment = "# " ++ line ++ "\n" ∧ '\n' ∉ line.toList)

/-- A docstring has the characters of its text, but for double quotes, and two that it may get. -/
theorem mem_docstring {c : Char} {text : String} (hm : c ∈ (Quoting.docstring text).toList) :
    c ∈ ['\\', '\x27'] ∨ c ∈ text.toList ∧ c ≠ '"' := by
  rw [Quoting.docstring, String.toList_ofList] at hm
  obtain ⟨d, hd, hm⟩ := List.mem_flatMap.mp hm
  split at hm
  · exact .inl (List.mem_cons.mpr (.inl (by simpa using hm)))
  · split at hm
    · exact .inl (List.mem_cons_of_mem _ hm)
    · rename_i hquote
      obtain rfl := List.mem_singleton.mp hm
      exact .inr ⟨hd, hquote⟩

/-- Trimmed text only lacks some of what it had. -/
theorem mem_docstring_trim {c : Char} {doc : String}
    (hm : c ∈ (Quoting.docstring (Text.trim doc)).toList) :
    c ∈ ['\\', '\x27'] ∨ c ∈ doc.toList := by
  refine (mem_docstring hm).imp_right fun ⟨hc, _⟩ => ?_
  rw [Text.trim, String.toList_ofList] at hc
  exact Text.trimChars_subset _ hc

/-- Folded white space is spaces only. -/
theorem not_mem_foldBlanksFrom {c : Char} (hb : Text.isBlank c = true) (hc : c ≠ ' ')
    (cs : List Char) : ∀ inGap, c ∉ Text.foldBlanksFrom inGap cs := by
  induction cs with
  | nil => exact fun _ => List.not_mem_nil
  | cons d cs ih =>
      intro inGap
      unfold Text.foldBlanksFrom
      split
      · split
        · exact ih true
        · exact List.not_mem_cons_of_ne_of_not_mem hc (ih true)
      · rename_i hd
        exact List.not_mem_cons_of_ne_of_not_mem (fun h => hd (h ▸ hb)) (ih false)

/-- No white space but spaces stands in a comment. -/
theorem not_mem_comment_of_isBlank {c : Char} (hb : Text.isBlank c = true) (hc : c ≠ ' ')
    (text : String) : c ∉ (Quoting.comment text).toList := by
  unfold Quoting.comment Text.trimChars Text.trimEndChars Text.trimStartChars Text.foldBlanks
  rw [String.toList_ofList]
  intro h
  have h := (List.dropWhile_sublist _).subset (List.mem_reverse.mp h)
  have h := (List.dropWhile_sublist _).subset (List.mem_reverse.mp h)
  exact not_mem_foldBlanksFrom hb hc _ false h

/-- A comment is one line. -/
theorem not_mem_comment (text : String) : '\n' ∉ (Quoting.comment text).toList :=
  not_mem_comment_of_isBlank (by decide) (by decide) text

/-- Only lines behind the first one are dropped if the first one is not empty. -/
theorem dropTrailingEmpty_cons {line : String} (h : line.isEmpty = false) (lines : List String) :
    ∃ rest, dropTrailingEmpty (line :: lines) = line :: rest := by
  unfold dropTrailingEmpty
  rw [List.reverse_cons, List.dropWhile_append]
  split
  · exact ⟨[], by simp [h]⟩
  · exact ⟨_, by rw [List.reverse_append]; rfl⟩

theorem opens_classLines (name : String) (doc : Option String) (fields : List Field) :
    Opens name (Text.join "\n" (classLines name doc fields)) := by
  have hopen : ("class " ++ name ++ "(TypedDict, total=False):").isEmpty = false := by simp
  obtain ⟨lines, hlines⟩ := dropTrailingEmpty_cons hopen _
  unfold classLines
  rw [List.append_assoc, List.singleton_append, hlines]
  obtain ⟨rest, hrest⟩ :=
    Text.join_cons "\n" ("class " ++ name ++ "(TypedDict, total=False):") lines
  exact ⟨"", _, rest, by rw [hrest, String.empty_append], List.mem_cons_self, .inl rfl⟩

theorem opens_keyedLines (name : String) (doc : Option String) (fields : List Field) :
    Opens name (Text.join "\n" (keyedLines name doc fields)) := by
  let behind := "TypedDict(" ++ Quoting.literal name ++ ", \x7b"
  let call := name ++ " = TypedDict(" ++ Quoting.literal name ++ ", \x7b"
  let entries := fields.flatMap keyedField ++ ["\x7d, total=False)"]
  obtain ⟨rest, hrest⟩ := Text.join_cons "\n" call entries
  have htext : Text.join "\n" (call :: entries) = name ++ " = " ++ (behind ++ rest) := by
    rw [hrest, ← String.toList_inj]
    simp [call, behind]
  have hmem : name ++ " = " ∈ openings name := by simp [openings]
  cases doc with
  | none =>
      refine ⟨"", name ++ " = ", behind ++ rest, ?_, hmem, .inl rfl⟩
      rw [String.empty_append, ← htext]
      simp [keyedLines, call, entries]
  | some text =>
      refine ⟨"# " ++ Quoting.comment text ++ "\n", name ++ " = ", behind ++ rest, ?_, hmem,
        .inr ⟨Quoting.comment text, rfl, not_mem_comment text⟩⟩
      rw [String.append_assoc, ← htext, ← Text.join_cons_cons]
      simp [keyedLines, call, entries]

/-- **The text of a declaration opens with the name that it declares.** -/
theorem opens_render (d : Declaration) : Opens d.name d.render := by
  cases d with
  | «alias» name type =>
      exact ⟨"", _, type.renderAlias, by rw [String.empty_append]; rfl, by
        simp [openings, Declaration.name], .inl rfl⟩
  | record name doc fields =>
      show Opens name (Text.join "\n" (if fitsClass fields then _ else _))
      split
      · exact opens_classLines name doc fields
      · exact opens_keyedLines name doc fields

end Declaration

end StubGen.Schema
