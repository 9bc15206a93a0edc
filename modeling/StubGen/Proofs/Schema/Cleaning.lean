import StubGen.Proofs.Schema.Rendering

/-!
# What cleaning leaves alone

Cleaning takes something away exactly where an example that is opened closes, and what it takes away
is never made up for: `cleanExamples_eq_self_iff`. An example closes at a line of the text, since
its opening ends a line. A generated module may well quote such an opening, for descriptions, keys
and values reach it as they are; but it has no line for the example to close at, and so it is left
alone: `generate_clean`.
-/

namespace StubGen.Schema

open Text

variable {cs body rest : List Char}

/-- An example is opened in the characters and closes. -/
def Illustrated (cs : List Char) : Prop :=
  ∃ front body rest, cs = front ++ exampleOpening ++ body ∧ Closes body rest

theorem Illustrated.cons (h : Illustrated cs) (c : Char) : Illustrated (c :: cs) := by
  obtain ⟨front, body, rest, rfl, hcloses⟩ := h
  exact ⟨c :: front, body, rest, rfl, hcloses⟩

/-- What is opened and closes is opened here or further behind. -/
theorem Illustrated.of_cons {c : Char} (h : Illustrated (c :: cs)) :
    Illustrated cs ∨ ∃ body rest, afterChars? exampleOpening (c :: cs) = some body ∧
      afterExample? true body = some rest := by
  obtain ⟨front, body, rest, htext, hcloses⟩ := h
  cases front with
  | nil =>
      rw [List.nil_append] at htext
      exact .inr ⟨body, rest, afterChars?_eq_some_iff.mpr htext,
        afterExample?_eq_some_iff.mpr hcloses⟩
  | cons _ front => exact .inl ⟨front, body, rest, (List.cons.inj htext).2, hcloses⟩

theorem length_cleanExamplesChars_le (cs : List Char) :
    (cleanExamplesChars cs).length ≤ cs.length := by
  fun_induction cleanExamplesChars cs with
  | case1 => exact Nat.le_refl _
  | case2 _ _ _ ih => exact Nat.succ_le_succ ih
  | case3 _ _ _ _ _ ih => exact Nat.succ_le_succ ih
  | case4 c cs body hopening rest hrest ih =>
      have hbody := congrArg List.length (afterChars?_eq_some_iff.mp hopening)
      have hafter := length_afterExample? hrest
      rw [List.length_append] at hbody
      omega

/-- What is taken away is not made up for. -/
theorem length_cleanExamplesChars_lt (h : Illustrated cs) :
    (cleanExamplesChars cs).length < cs.length := by
  fun_induction cleanExamplesChars cs with
  | case1 =>
      obtain ⟨front, body, rest, htext, -⟩ := h
      have hne : exampleOpening ≠ [] := by decide
      exact absurd htext (by simp [hne])
  | case2 c cs hopening ih =>
      rcases h.of_cons with hcs | ⟨body, rest, hbody, -⟩
      · exact Nat.succ_lt_succ (ih hcs)
      · exact absurd (hopening.symm.trans hbody) (by simp)
  | case3 c cs body hopening hrest ih =>
      -- the example that is opened here does not close, so one further behind does
      rcases h.of_cons with hcs | ⟨body', rest, hbody, hcloses⟩
      · exact Nat.succ_lt_succ (ih hcs)
      · obtain rfl := Option.some.inj (hopening.symm.trans hbody)
        exact absurd (hrest.symm.trans hcloses) (by simp)
  | case4 c cs body hopening rest hrest _ =>
      have hbody := congrArg List.length (afterChars?_eq_some_iff.mp hopening)
      have hafter := length_afterExample? hrest
      have hclean := length_cleanExamplesChars_le rest
      rw [List.length_append] at hbody
      omega

theorem cleanExamplesChars_of_not_illustrated (h : ¬ Illustrated cs) :
    cleanExamplesChars cs = cs := by
  fun_induction cleanExamplesChars cs with
  | case1 => rfl
  | case2 c cs _ ih => rw [ih fun hcs => h (hcs.cons c)]
  | case3 c cs _ _ _ ih => rw [ih fun hcs => h (hcs.cons c)]
  | case4 c cs body hopening rest hrest _ =>
      refine absurd ⟨[], body, rest, ?_, afterExample?_eq_some_iff.mp hrest⟩ h
      rw [List.nil_append]
      exact afterChars?_eq_some_iff.mp hopening

/-- **Cleaning leaves a text alone** if and only if no example in it closes. -/
theorem cleanExamples_eq_self_iff {text : String} :
    cleanExamples text = text ↔ ¬ Illustrated text.toList := by
  rw [← String.toList_inj, cleanExamples, String.toList_ofList]
  refine ⟨fun h hillustrated => ?_, cleanExamplesChars_of_not_illustrated⟩
  exact absurd (congrArg List.length h) (length_cleanExamplesChars_lt hillustrated).ne

/-- An example closes at one of its lines. -/
theorem Closes.brace_mem (h : Closes body rest) : ['}'] ∈ splitChars '\n' body := by
  induction h with
  | brace hover =>
      rcases hover with rfl | ⟨more, rfl⟩
      · decide
      · rw [← List.singleton_append, splitChars_append_sep]
        exact List.mem_append_left _ (by decide)
  | line _ _ _ ih =>
      rw [splitChars_append_sep]
      exact List.mem_append_right _ ih

/-- The lines of an example are lines of the text, for its opening ends a line. -/
theorem not_illustrated_of_braceless {text : String} (h : Braceless text) :
    ¬ Illustrated text.toList := by
  rintro ⟨front, body, rest, htext, hcloses⟩
  obtain ⟨mark, hmark⟩ : ∃ mark, exampleOpening = mark ++ ['\n'] :=
    ⟨exampleOpening.dropLast, by decide⟩
  refine h ?_
  rw [htext, hmark, ← List.append_assoc, List.append_assoc, List.singleton_append,
    splitChars_append_sep]
  exact List.mem_append_right _ hcloses.brace_mem

/-- **Cleaning never touches what this library generates.** Whatever the descriptions, keys and
values of a schema say, no line of the module is a lone closing brace. So no example that the module
happens to open is ever closed in it, and it is clean as it is. -/
theorem generate_clean {maxDepth : Nat} {schema : Json} {root source : String}
    (hroot : OneLine root) (h : generate maxDepth schema root = .ok source) :
    Braceless source ∧
      (∀ front body rest, source.toList = front ++ exampleOpening ++ body → ¬ Closes body rest) ∧
      cleanExamples source = source := by
  obtain ⟨blocks, hblocks, rfl⟩ := Result.map_eq_ok_iff.mp h
  have hbraceless : Braceless (Declaration.renderModule blocks) :=
    Declaration.braceless_renderModule (proper_declarations naming_oneLine hroot hblocks)
  have hopen := not_illustrated_of_braceless hbraceless
  exact ⟨hbraceless, fun front body rest htext hcloses => hopen ⟨front, body, rest, htext, hcloses⟩,
    cleanExamples_eq_self_iff.mpr hopen⟩

/-- A page that is described, and of which the kind is given, by an example written out as code. -/
def illustratedSchema : Json :=
  let illustration := "# example: \x7b\n\x7d\n"
  .obj [("description", .str illustration),
    ("properties", .obj [("kind", .obj [("const", .str illustration)])])]

/-- The example does reach the module. -/
theorem generate_clean_illustrated : OneLine "Page" ∧
    ∃ source, generate 4 illustratedSchema "Page" = .ok source ∧
      containsChars exampleOpening source.toList = true ∧ Braceless source ∧
      (∀ front body rest, source.toList = front ++ exampleOpening ++ body → ¬ Closes body rest) ∧
      cleanExamples source = source := by
  have hroot : OneLine "Page" := by decide
  have hopens : ((generate 4 illustratedSchema "Page").toOption.any fun source =>
      containsChars exampleOpening source.toList) = true := by decide +kernel
  cases h : generate 4 illustratedSchema "Page" with
  | ok source =>
      rw [h] at hopens
      exact ⟨hroot, source, rfl, hopens, generate_clean hroot h⟩
  | error _ =>
      rw [h] at hopens
      exact Bool.noConfusion hopens

end StubGen.Schema
