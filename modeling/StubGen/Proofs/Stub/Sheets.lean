import StubGen.Proofs.Stub.Definitions

/-!
# Sources that are read back

A source that consists of declarations, two empty lines apart, is cut into just these. A
declaration is given by its lines: comments at the margin, the line that introduces its name, and
lines that go on with it (`Sheet`). Reading one from whatever has been read before closes what was
being read and leaves the new declaration being read: `foldl_step_sheet`. From this a run over
several ones follows by induction: `close_foldl_spread`.
-/

namespace StubGen

open Text (isBlankText)

namespace DefinitionSet

variable {name line : String} {lines : List String}

/-! ## Lines of a declaration -/

/-- A comment at the margin. -/
def IsComment (line : String) : Prop := ∃ rest, line.toList = '#' :: rest

/-- A line that goes on with a declaration: an empty one, one further in, or one that begins with
a closing brace. -/
def Continues (line : String) : Prop :=
  line = "" ∨ ∃ rest, line.toList = ' ' :: rest ∨ line.toList = '}' :: rest

/-- The lines of a declaration of a name. -/
structure Sheet (name : String) (lines : List String) : Prop where
  parts : ∃ comments header inner, lines = comments ++ header :: inner ∧
    (∀ line ∈ comments, IsComment line) ∧ Introduces header name ∧ ∀ line ∈ inner, Continues line
  ends : ∀ line ∈ lines.getLast?, isBlankText line = false

theorem isBlankText_of_isComment (h : IsComment line) : isBlankText line = false := by
  obtain ⟨rest, hline⟩ := h
  rw [isBlankText, hline]
  rfl

/-- The first line of a declaration is not blank. -/
theorem Sheet.begins (h : Sheet name lines) :
    ∃ first rest, lines = first :: rest ∧ isBlankText first = false := by
  obtain ⟨comments, header, inner, rfl, hcomments, hheader, -⟩ := h.parts
  cases comments with
  | nil => exact ⟨header, inner, rfl, not_isBlankText_of_declaredName? hheader.declared⟩
  | cons comment comments =>
      have hcomment := isBlankText_of_isComment (hcomments comment List.mem_cons_self)
      exact ⟨comment, comments ++ header :: inner, rfl, hcomment⟩

/-! ## Steps over the lines of a declaration -/

/-- A line that begins with another character than those of words is no import. -/
theorem isImport_of_not_word {c : Char} {rest : List Char} (hline : line.toList = c :: rest)
    (hc : Text.isWord c = false) : isImport line = false := by
  have hfrom : 'f' ≠ c := fun heq => absurd (heq ▸ hc) (by decide)
  have himport : 'i' ≠ c := fun heq => absurd (heq ▸ hc) (by decide)
  simp [isImport, Text.startsWith, Text.after?, Text.afterChars?, hline, hfrom, himport]

/-- A line that begins with another character than those of words declares nothing. -/
theorem declaredName?_of_not_word {c : Char} {rest : List Char} (hline : line.toList = c :: rest)
    (hc : Text.isWord c = false) : declaredName? line = none := by
  have hclass : 'c' ≠ c := fun heq => absurd (heq ▸ hc) (by decide)
  simp [declaredName?, className?, assignedName?, leadingWord, Text.afterChars?, hline, hclass, hc]

theorem Continues.reads (h : Continues line) :
    isImport line = false ∧ declaredName? line = none ∧
      (!Cutting.isInner line && Text.startsWith "#" line) = false := by
  rcases h with rfl | ⟨rest, hline | hline⟩
  · exact ⟨by decide, by decide, by decide⟩
  · have hspace : Text.isWord ' ' = false := by decide
    refine ⟨isImport_of_not_word hline hspace, declaredName?_of_not_word hline hspace, ?_⟩
    simp [Cutting.isInner, hline, show Text.isBlank ' ' = true by decide]
  · have hbrace : Text.isWord '}' = false := by decide
    refine ⟨isImport_of_not_word hline hbrace, declaredName?_of_not_word hline hbrace, ?_⟩
    simp [Text.startsWith, Text.after?, Text.afterChars?, hline]

namespace Cutting

variable (c : Cutting)

/-- A comment at the margin waits for the declaration after it. -/
theorem step_comment (h : IsComment line) :
    c.step line = { c with pending := c.pending ++ [line] } := by
  obtain ⟨rest, hline⟩ := h
  have hmark : Text.isWord '#' = false := by decide
  have hmargin : (!isInner line && Text.startsWith "#" line) = true := by
    simp [isInner, Text.startsWith, Text.after?, Text.afterChars?, hline,
      show Text.isBlank '#' = false by decide]
  unfold step
  rw [if_neg (Bool.eq_false_iff.mp (isImport_of_not_word hline hmark)),
    declaredName?_of_not_word hline hmark]
  dsimp only
  split
  · rfl
  · rw [if_pos hmargin]

theorem step_header (h : Introduces line name) :
    c.step line = ⟨c.close, [], some (name, c.pending ++ [line])⟩ := by
  unfold step
  rw [if_neg (Bool.eq_false_iff.mp h.notImport), h.declared]

theorem step_continues (h : Continues line) (hcurrent : c.current = some (name, lines)) :
    c.step line = { c with current := some (name, lines ++ [line]) } := by
  obtain ⟨himport, hdeclared, hmargin⟩ := h.reads
  unfold step
  rw [if_neg (Bool.eq_false_iff.mp himport), hdeclared, hcurrent]
  dsimp only
  rw [if_neg (Bool.eq_false_iff.mp hmargin)]

theorem close_of_current (hcurrent : c.current = some (name, lines)) :
    c.close = c.set.add ⟨name, Text.join "\n" (trimLines lines)⟩ := by
  rw [close, hcurrent]

theorem foldl_step_comments {comments : List String} (h : ∀ line ∈ comments, IsComment line) :
    comments.foldl step c = { c with pending := c.pending ++ comments } := by
  induction comments generalizing c with
  | nil => rw [List.foldl_nil, List.append_nil]
  | cons comment comments ih =>
      rw [List.foldl_cons, step_comment c (h comment List.mem_cons_self),
        ih _ fun other hm => h other (List.mem_cons_of_mem _ hm)]
      simp

theorem foldl_step_continues {inner : List String} (h : ∀ line ∈ inner, Continues line)
    (hcurrent : c.current = some (name, lines)) :
    inner.foldl step c = { c with current := some (name, lines ++ inner) } := by
  induction inner generalizing c lines with
  | nil => rw [List.foldl_nil, List.append_nil, ← hcurrent]
  | cons line inner ih =>
      rw [List.foldl_cons, step_continues c (h line List.mem_cons_self) hcurrent,
        ih _ (fun other hm => h other (List.mem_cons_of_mem _ hm)) rfl]
      simp

/-- **Reading a declaration** closes what was being read; what was pending stands in front of the
new declaration's lines. -/
theorem foldl_step_sheet (h : Sheet name lines) :
    lines.foldl step c = ⟨c.close, [], some (name, c.pending ++ lines)⟩ := by
  obtain ⟨comments, header, inner, rfl, hcomments, hheader, hinner⟩ := h.parts
  rw [List.foldl_append, foldl_step_comments c hcomments, List.foldl_cons,
    step_header _ hheader, foldl_step_continues _ hinner rfl]
  simp [close]

end Cutting

/-! ## Blank lines around a declaration -/

theorem trimLines_sheet (h : Sheet name lines) {front back : List String}
    (hfront : ∀ line ∈ front, isBlankText line = true)
    (hback : ∀ line ∈ back, isBlankText line = true) :
    trimLines (front ++ lines ++ back) = lines := by
  obtain ⟨first, rest, hlines, hfirst⟩ := h.begins
  obtain ⟨init, last, hinit⟩ : ∃ init last, lines = init ++ [last] :=
    ⟨_, _, (List.dropLast_concat_getLast (hlines ▸ List.cons_ne_nil first rest)).symm⟩
  have hlast : isBlankText last = false := h.ends last (by simp [hinit])
  have hstart : (front ++ lines ++ back).dropWhile isBlankText = lines ++ back := by
    rw [List.append_assoc, List.dropWhile_append_of_pos hfront, hlines, List.cons_append,
      List.dropWhile_cons_of_neg (by simp [hfirst])]
  have hend : (lines ++ back).reverse.dropWhile isBlankText = lines.reverse := by
    rw [List.reverse_append,
      List.dropWhile_append_of_pos fun line hm => hback line (List.mem_reverse.mp hm), hinit,
      List.reverse_concat, List.dropWhile_cons_of_neg (by simp [hlast])]
  unfold trimLines
  rw [hstart, hend, List.reverse_reverse]

/-! ## Several declarations -/

/-- The lines of several declarations, two empty ones between each two. -/
def spread : List (List String) → List String
  | [] => []
  | [lines] => lines
  | lines :: more => lines ++ "" :: "" :: spread more

/-- The last one is in the end, and in front of it are the lines of the others and empty ones. -/
theorem spread_concat (sheets : List (List String)) (last : List String) :
    ∃ front, spread (sheets ++ [last]) = front ++ last ∧
      (∀ sheet ∈ sheets, sheet ⊆ front) ∧
      ∀ line ∈ front, line = "" ∨ ∃ sheet ∈ sheets, line ∈ sheet := by
  induction sheets with
  | nil => exact ⟨[], rfl, by simp, by simp⟩
  | cons sheet sheets ih =>
      obtain ⟨front, hfront, hsub, hlines⟩ := ih
      refine ⟨sheet ++ "" :: "" :: front, ?_, ?_, ?_⟩
      -- the rest is not empty, so two empty lines come between
      · have hcons : spread (sheet :: (sheets ++ [last])) =
            sheet ++ "" :: "" :: spread (sheets ++ [last]) := by
          obtain ⟨next, more, hmore⟩ := List.exists_cons_of_ne_nil
            (show sheets ++ [last] ≠ [] by simp)
          rw [hmore, spread]
          exact List.cons_ne_nil _ _
        rw [List.cons_append, hcons, hfront]
        simp
      · intro other hm line hline
        simp only [List.mem_append, List.mem_cons]
        rcases List.mem_cons.mp hm with rfl | hm
        · exact .inl hline
        · exact .inr (.inr (.inr (hsub other hm hline)))
      · intro line hm
        simp only [List.mem_append, List.mem_cons] at hm
        rcases hm with hm | rfl | rfl | hm
        · exact .inr ⟨sheet, List.mem_cons_self, hm⟩
        · exact .inl rfl
        · exact .inl rfl
        · exact (hlines line hm).imp_right fun ⟨other, hother, hline⟩ =>
            ⟨other, List.mem_cons_of_mem _ hother, hline⟩

/-- Between declarations there are empty lines only. -/
theorem mem_spread {sheets : List (List String)} (hm : line ∈ spread sheets) :
    line = "" ∨ ∃ sheet ∈ sheets, line ∈ sheet := by
  rcases List.eq_nil_or_concat sheets with rfl | ⟨init, last, rfl⟩
  · exact absurd hm List.not_mem_nil
  · rw [List.concat_eq_append] at hm ⊢
    obtain ⟨front, hfront, -, hlines⟩ := spread_concat init last
    rw [hfront] at hm
    rcases List.mem_append.mp hm with hm | hm
    · exact (hlines line hm).imp_right fun ⟨sheet, hsheet, hline⟩ =>
        ⟨sheet, List.mem_append_left _ hsheet, hline⟩
    · exact .inr ⟨last, by simp, hm⟩

/-- Each declaration is there with its lines. -/
theorem subset_spread {sheets : List (List String)} {sheet : List String} (hm : sheet ∈ sheets) :
    sheet ⊆ spread sheets := by
  rcases List.eq_nil_or_concat sheets with rfl | ⟨init, last, rfl⟩
  · exact absurd hm List.not_mem_nil
  · rw [List.concat_eq_append] at hm ⊢
    obtain ⟨front, hfront, hsub, -⟩ := spread_concat init last
    rw [hfront]
    rcases List.mem_append.mp hm with hm | hm
    · exact List.subset_append_of_subset_left _ (hsub sheet hm)
    · exact List.mem_singleton.mp hm ▸ List.subset_append_right _ _

theorem split_join_spread {texts : List String} (hne : texts ≠ []) :
    Text.split '\n' (Text.join "\n\n\n" texts) = spread (texts.map (Text.split '\n')) := by
  induction texts with
  | nil => exact absurd rfl hne
  | cons text texts ih =>
      cases texts with
      | nil => simp [Text.join, Text.joinChars, spread]
      | cons next texts =>
          have hchars : (text ++ "\n\n\n" ++ Text.join "\n\n\n" (next :: texts)).toList =
              text.toList ++ '\n' :: ([] ++ '\n' :: ([] ++ '\n' ::
                (Text.join "\n\n\n" (next :: texts)).toList)) := by simp
          have hrest := ih (List.cons_ne_nil _ _)
          rw [Text.join_cons_cons, List.map_cons, List.map_cons, spread, ← List.map_cons, ← hrest]
          · unfold Text.split
            rw [hchars, Text.splitChars_append_sep, Text.splitChars_append_sep,
              Text.splitChars_append_sep]
            simp [Text.splitChars]
          · exact List.cons_ne_nil _ _

/-- What a declaration adds to a set. -/
def addSheet (set : DefinitionSet) (sheet : String × List String) : DefinitionSet :=
  set.add ⟨sheet.1, Text.join "\n" sheet.2⟩

theorem isBlankText_empty : isBlankText "" = true := by decide

/-- **A run over the lines of several declarations** adds each of them, after what was being read
before. -/
theorem close_foldl_spread (sheet : String × List String) (sheets : List (String × List String))
    (h : ∀ s ∈ sheet :: sheets, Sheet s.1 s.2) (c : Cutting)
    (hpending : ∀ line ∈ c.pending, isBlankText line = true) :
    ((spread ((sheet :: sheets).map Prod.snd)).foldl Cutting.step c).close =
      (sheet :: sheets).foldl addSheet c.close := by
  -- induction on the sheets behind the first, which is still open at the end
  induction sheets generalizing sheet c with
  | nil =>
      have hsheet := h sheet List.mem_cons_self
      have htrim := trimLines_sheet hsheet hpending (fun line hm => absurd hm List.not_mem_nil)
      rw [List.append_nil] at htrim
      simp only [List.map_cons, List.map_nil, spread, List.foldl_cons, List.foldl_nil]
      rw [Cutting.foldl_step_sheet c hsheet, Cutting.close_of_current _ rfl, htrim]
      rfl
  | cons next sheets ih =>
      have hsheet := h sheet List.mem_cons_self
      have hblank : ∀ line ∈ ["", ""], isBlankText line = true := by simp [isBlankText_empty]
      have hempty : ∀ line ∈ ["", ""], Continues line := by simp [Continues]
      have htrim := trimLines_sheet hsheet hpending hblank
      have hlines : spread ((sheet :: next :: sheets).map Prod.snd) =
          sheet.2 ++ (["", ""] ++ spread ((next :: sheets).map Prod.snd)) := by simp [spread]
      rw [hlines, List.foldl_append, List.foldl_append, Cutting.foldl_step_sheet c hsheet,
        Cutting.foldl_step_continues _ hempty rfl,
        ih next (fun s hm => h s (List.mem_cons_of_mem _ hm)) _
          fun line hm => absurd hm List.not_mem_nil,
        Cutting.close_of_current _ rfl, htrim]
      rfl

/-- Definitions of new names, each different from the others, are all added. -/
theorem foldl_add_of_nodup {definitions : List Definition} (set : DefinitionSet)
    (hnodup : (definitions.map Definition.name).Nodup)
    (hnew : ∀ d ∈ definitions, set.declares d.name = false) :
    definitions.foldl add set = { set with definitions := set.definitions ++ definitions } := by
  induction definitions generalizing set with
  | nil => rw [List.foldl_nil, List.append_nil]
  | cons d definitions ih =>
      have hd := hnew d List.mem_cons_self
      obtain ⟨hfresh, hnodup⟩ := List.nodup_cons.mp hnodup
      have hadd : set.add d = { set with definitions := set.definitions ++ [d] } := by
        unfold add
        rw [if_neg (by simp [hd])]
      have hnew' : ∀ other ∈ definitions, (set.add d).declares other.name = false := by
        intro other hm
        refine Bool.eq_false_iff.mpr fun hdeclared => ?_
        rcases (declares_add d).mp hdeclared with hold | heq
        · rw [hnew other (List.mem_cons_of_mem _ hm)] at hold
          exact Bool.noConfusion hold
        · exact hfresh (heq ▸ List.mem_map_of_mem hm)
      rw [List.foldl_cons, ih _ hnodup hnew', hadd]
      simp

end DefinitionSet

end StubGen
