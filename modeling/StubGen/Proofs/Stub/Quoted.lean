import StubGen.Proofs.Schema.Order
import StubGen.Proofs.Text.Lines
import StubGen.Stub.Table

/-!
# Names in quotes

A class that is declared elsewhere stands in quotes in an annotation, so the quoted names of a text
are every second piece between its quotes. Where quotes come in pairs, texts that are set one behind
the other quote what each of them does: `quotedNames_append`. The first one of them is what the
reader of a row takes from an annotation.
-/

namespace StubGen

open Text (splitChars)

variable {α : Type} {text more name : String}

/-- Every second one of some pieces, beginning with the second. -/
def everySecond : List α → List α
  | _ :: piece :: pieces => piece :: everySecond pieces
  | _ => []

/-- The names that stand in quotes in a text. -/
def quotedNames (text : String) : List String := everySecond (Text.split '"' text)

/-- The quotes of a text come in pairs. -/
def Paired (text : String) : Prop := ∃ k, (splitChars '"' text.toList).length = 2 * k + 1

/-! ## Texts one behind the other -/

/-- Behind an even number of pieces the count begins anew. -/
theorem everySecond_append {init : List α} {k : Nat} (hinit : init.length = 2 * k) (a b c : α)
    (rest : List α) :
    everySecond (init ++ a :: rest) = everySecond (init ++ [b]) ++ everySecond (c :: rest) := by
  induction k generalizing init with
  | zero =>
      obtain rfl := List.length_eq_zero_iff.mp hinit
      cases rest <;> rfl
  | succ k ih =>
      obtain ⟨first, second, init, rfl⟩ : ∃ first second others,
          init = first :: second :: others := by
        match init, hinit with
        | first :: second :: others, _ => exact ⟨first, second, others, rfl⟩
      have hlength : init.length = 2 * k := by
        simp only [List.length_cons] at hinit
        omega
      have hrest := ih hlength
      simp only [List.cons_append, everySecond, hrest]

theorem split_append_of_paired (h : Paired text) (more : String) :
    ∃ init last first rest k, init.length = 2 * k ∧
      splitChars '"' text.toList = init ++ [last] ∧ splitChars '"' more.toList = first :: rest ∧
      splitChars '"' (text ++ more).toList = init ++ (last ++ first) :: rest := by
  obtain ⟨k, hk⟩ := h
  obtain ⟨init, last, first, rest, hinit, hrest, happend⟩ :=
    Text.splitChars_append '"' text.toList more.toList
  refine ⟨init, last, first, rest, k, ?_, hinit, hrest, String.toList_append ▸ happend⟩
  rw [hinit, List.length_append, List.length_singleton] at hk
  omega

/-- **Behind paired quotes a text quotes what it quotes by itself.** -/
theorem quotedNames_append (h : Paired text) (more : String) :
    quotedNames (text ++ more) = quotedNames text ++ quotedNames more := by
  obtain ⟨init, last, first, rest, k, hk, hinit, hrest, happend⟩ := split_append_of_paired h more
  unfold quotedNames Text.split
  rw [hinit, hrest, happend, List.map_append, List.map_append]
  exact everySecond_append (by simpa using hk) _ _ _ _

theorem Paired.append (h : Paired text) (h' : Paired more) : Paired (text ++ more) := by
  obtain ⟨init, last, first, rest, k, hk, hinit, hrest, happend⟩ := split_append_of_paired h more
  obtain ⟨j, hj⟩ := h'
  rw [hrest, List.length_cons] at hj
  refine ⟨k + j, ?_⟩
  rw [happend, List.length_append, List.length_cons]
  omega

theorem paired_of_not_mem (h : '"' ∉ text.toList) : Paired text :=
  ⟨0, by rw [Text.splitChars_of_not_mem h]; rfl⟩

theorem quotedNames_of_not_mem (h : '"' ∉ text.toList) : quotedNames text = [] := by
  rw [quotedNames, Text.split, Text.splitChars_of_not_mem h]
  rfl

/-- The pieces of a name in quotes: it, and nothing on either side. -/
theorem splitChars_quoted (h : '"' ∉ name.toList) :
    splitChars '"' ("\"" ++ name ++ "\"").toList = [[], name.toList, []] := by
  have htext : ("\"" ++ name ++ "\"").toList = [] ++ '"' :: (name.toList ++ '"' :: []) := by simp
  rw [htext, Text.splitChars_append_sep, Text.splitChars_append_sep, Text.splitChars_of_not_mem h]
  rfl

theorem paired_quoted (h : '"' ∉ name.toList) : Paired ("\"" ++ name ++ "\"") :=
  ⟨1, by rw [splitChars_quoted h]; rfl⟩

theorem quotedNames_quoted (h : '"' ∉ name.toList) :
    quotedNames ("\"" ++ name ++ "\"") = [name] := by
  rw [quotedNames, Text.split, splitChars_quoted h]
  simp [everySecond]

/-- Text without quotes on either side quotes nothing else. -/
theorem quotedNames_between (h : Paired text) {lead tail : String} (hlead : '"' ∉ lead.toList)
    (htail : '"' ∉ tail.toList) : quotedNames (lead ++ text ++ tail) = quotedNames text := by
  rw [quotedNames_append ((paired_of_not_mem hlead).append h),
    quotedNames_append (paired_of_not_mem hlead), quotedNames_of_not_mem hlead,
    quotedNames_of_not_mem htail, List.nil_append, List.append_nil]

theorem Paired.between (h : Paired text) {lead tail : String} (hlead : '"' ∉ lead.toList)
    (htail : '"' ∉ tail.toList) : Paired (lead ++ text ++ tail) :=
  ((paired_of_not_mem hlead).append h).append (paired_of_not_mem htail)

theorem paired_join {sep : String} (hsep : '"' ∉ sep.toList) {texts : List String}
    (h : ∀ text ∈ texts, Paired text) : Paired (Text.join sep texts) := by
  induction texts with
  | nil => exact paired_of_not_mem (by simp [Text.join, Text.joinChars])
  | cons text texts ih =>
      cases texts with
      | nil => simpa [Text.join, Text.joinChars] using h text List.mem_cons_self
      | cons next texts =>
          rw [Text.join_cons_cons]
          exact ((h text List.mem_cons_self).append (paired_of_not_mem hsep)).append
            (ih fun other hm => h other (List.mem_cons_of_mem _ hm))

theorem quotedNames_join {sep : String} (hsep : '"' ∉ sep.toList) {texts : List String}
    (h : ∀ text ∈ texts, Paired text) :
    quotedNames (Text.join sep texts) = texts.flatMap quotedNames := by
  induction texts with
  | nil => exact quotedNames_of_not_mem (by simp [Text.join, Text.joinChars])
  | cons text texts ih =>
      cases texts with
      | nil => simp [Text.join, Text.joinChars]
      | cons next texts =>
          have hfirst := h text List.mem_cons_self
          rw [Text.join_cons_cons, quotedNames_append (hfirst.append (paired_of_not_mem hsep)),
            quotedNames_append hfirst, quotedNames_of_not_mem hsep, List.append_nil,
            ih fun other hm => h other (List.mem_cons_of_mem _ hm), ← List.flatMap_cons]

/-! ## Simple types -/

namespace Schema.TypeExpr

/-- A class or a basic type. -/
def isAtom : TypeExpr → Bool
  | .any | .none | .str | .int | .float | .bool | .ref _ => true
  | _ => false

/-- A class, a basic type or a union of such. -/
def Simple (expr : TypeExpr) : Prop :=
  expr.isAtom = true ∨ ∃ members, expr = .union members ∧ ∀ m ∈ members, m.isAtom = true

/-- An atom quotes the class that it refers to. -/
theorem quotes_atom {expr : TypeExpr} (h : expr.isAtom = true)
    (hnames : ∀ name ∈ expr.references, '"' ∉ name.toList) :
    Paired expr.render ∧ quotedNames expr.render = expr.references := by
  cases expr with
  | ref name =>
      have hname := hnames name (by simp [references])
      rw [render, references]
      exact ⟨paired_quoted hname, quotedNames_quoted hname⟩
  | literal _ | list _ | tuple _ | dict _ | union _ => exact Bool.noConfusion h
  | _ =>
      simp only [render, references]
      exact ⟨paired_of_not_mem (by decide), quotedNames_of_not_mem (by decide)⟩

/-- **A simple type quotes the classes that it refers to.** -/
theorem Simple.quotes {expr : TypeExpr} (h : expr.Simple)
    (hnames : ∀ name ∈ expr.references, '"' ∉ name.toList) :
    Paired expr.render ∧ quotedNames expr.render = expr.references := by
  obtain hatom | ⟨members, rfl, hatoms⟩ := h
  · exact quotes_atom hatom hnames
  · rw [references, referencesAll_eq_flatMap] at hnames ⊢
    have hmembers : ∀ m ∈ members, Paired m.render ∧ quotedNames m.render = m.references :=
      fun m hm => quotes_atom (hatoms m hm) fun name hname =>
        hnames name (List.mem_flatMap.mpr ⟨m, hm, hname⟩)
    have hpaired : ∀ text ∈ members.map render, Paired text := by
      intro text hm
      obtain ⟨m, hmem, rfl⟩ := List.mem_map.mp hm
      exact (hmembers m hmem).1
    have hjoin := paired_join (show '"' ∉ ", ".toList by decide) hpaired
    rw [render, renderAll_eq_map]
    refine ⟨hjoin.between (by decide) (by decide), ?_⟩
    rw [quotedNames_between hjoin (by decide) (by decide), quotedNames_join (by decide) hpaired,
      List.flatMap_map, List.flatMap_def, List.flatMap_def,
      List.map_congr_left fun m hm => (hmembers m hm).2]

theorem simple_oneOf {exprs : List TypeExpr} (h : ∀ expr ∈ exprs, expr.isAtom = true) :
    (oneOf exprs).Simple := by
  have hdistinct : ∀ expr ∈ distinct exprs, expr.isAtom = true :=
    fun expr hm => h expr (distinct_subset exprs hm)
  unfold oneOf
  split
  · exact .inl rfl
  · rename_i expr heq
    exact .inl (hdistinct expr (heq ▸ List.mem_cons_self))
  · exact .inr ⟨_, rfl, hdistinct⟩

/-- A union refers to what its members refer to, each of them once. -/
theorem references_oneOf_eq (exprs : List TypeExpr) :
    (oneOf exprs).references = (distinct exprs).flatMap references := by
  unfold oneOf
  split
  · rename_i heq
    rw [heq]
    rfl
  · rename_i expr heq
    rw [heq, List.flatMap_singleton]
  · rw [references, referencesAll_eq_flatMap]

/-- A union of atoms refers to each class among them. -/
theorem mem_references_oneOf {exprs : List TypeExpr} {expr : TypeExpr} {name : String}
    (hatoms : ∀ expr ∈ exprs, expr.isAtom = true)
    (hnames : ∀ expr ∈ exprs, ∀ name ∈ expr.references, '"' ∉ name.toList)
    (hm : expr ∈ exprs) (hname : name ∈ expr.references) : name ∈ (oneOf exprs).references := by
  obtain ⟨kept, hkept, htext⟩ := exists_distinct hm
  have hmem := distinct_subset exprs hkept
  have hsame : kept.references = expr.references := by
    rw [← (quotes_atom (hatoms kept hmem) (hnames kept hmem)).2, htext,
      (quotes_atom (hatoms expr hm) (hnames expr hm)).2]
  rw [references_oneOf_eq]
  exact List.mem_flatMap.mpr ⟨kept, hkept, hsame ▸ hname⟩

end Schema.TypeExpr

/-! ## What is read of an annotation -/

namespace Row

/-- Between the first two quotes stands the first quoted name. -/
theorem firstQuoted?_of_quotedNames {names : List String} (h : Paired text)
    (hnames : quotedNames text = name :: names) :
    firstQuoted? text.toList = some name.toList := by
  -- there are three pieces at least: one before the name, it, and one behind it
  obtain ⟨before, piece, behind, more, hpieces⟩ : ∃ before piece behind more,
      splitChars '"' text.toList = before :: piece :: behind :: more := by
    obtain ⟨k, hk⟩ := h
    rw [quotedNames, Text.split] at hnames
    match hpieces : splitChars '"' text.toList with
    | [] | [_] => simp [hpieces, everySecond] at hnames
    | [_, _] =>
        rw [hpieces] at hk
        simp only [List.length_cons, List.length_nil] at hk
        omega
    | before :: piece :: behind :: more => exact ⟨before, piece, behind, more, rfl⟩
  obtain rfl : String.ofList piece = name := by
    simp only [quotedNames, Text.split, hpieces, List.map_cons, everySecond] at hnames
    exact (List.cons.inj hnames).1
  have hflat : ∀ part ∈ before :: [piece], '"' ∉ part := by
    intro part hm
    have hpiece : part ∈ splitChars '"' text.toList :=
      hpieces ▸ List.mem_append_left (behind :: more) hm
    exact Text.not_mem_of_mem_splitChars hpiece
  have htext : text.toList = before ++ '"' :: (piece ++ '"' ::
      Text.joinChars ['"'] (behind :: more)) := by
    rw [← Text.joinChars_splitChars '"' text.toList, hpieces]
    simp [Text.joinChars]
  have hbefore := Text.span_append_sep (hflat before (by simp))
    (piece ++ '"' :: Text.joinChars ['"'] (behind :: more))
  have hpiece := Text.span_append_sep (hflat piece (by simp))
    (Text.joinChars ['"'] (behind :: more))
  unfold firstQuoted?
  rw [htext, hbefore.2]
  dsimp only
  rw [hpiece.1, if_pos (by simp), String.toList_ofList]

/-- **The first quoted name of an annotation is the class that is read of it,** if it is an
identifier. -/
theorem declaredClass?_of_quotedNames {names : List String} (h : Paired text)
    (hnames : quotedNames text = name :: names) (hne : name ≠ "")
    (hchars : ∀ c ∈ name.toList, Identifier.isIdentifierChar c = true) :
    declaredClass? text = some name := by
  unfold declaredClass?
  rw [firstQuoted?_of_quotedNames h hnames]
  cases hname : name.toList with
  | nil => exact absurd (String.toList_eq_nil_iff.mp hname) hne
  | cons c cs =>
      rw [hname] at hchars
      dsimp only
      rw [if_pos (List.all_eq_true.mpr hchars), ← hname, String.ofList_toList]

end Row

end StubGen
