import StubGen.Proofs.Stub.SchemaNames
import StubGen.Schema.CommandEngine

/-!
# What rendering a schema comes to

Rendering never fails, but it takes an engine at its word: when there is a text, the root is named,
whatever the text may be. So there is one way in which a caller gets a name that nothing stands
behind. The text is hollow: it has nothing in it but white space and examples that are cleaned away.
That is seen by reading cleaning backwards, `isBlankText_cleanExamples_iff`. What rendering comes to
is then known for every engine, `render_outcome`. The engine of this library leaves no hollow text,
while a program may end well without having written anything: `render_names_nothing`.
-/

namespace StubGen.Schema

open Text (isBlank isBlankText)

variable {cs rest line body : List Char}

/-! ## Where an example ends -/

/-- A line is over where the text goes on like this. -/
def LineOver (rest : List Char) : Prop := rest = [] ∨ ∃ more, rest = '\n' :: more

/-- An example that is read from the start of a line closes at the first line that is a lone closing
brace, and leaves the rest. -/
inductive Closes : List Char → List Char → Prop where
  | brace {rest : List Char} : LineOver rest → Closes ('}' :: rest) rest
  | line {line cs rest : List Char} :
      '\n' ∉ line → line ≠ ['}'] → Closes cs rest → Closes (line ++ '\n' :: cs) rest

theorem afterExample?_brace (h : LineOver rest) : afterExample? true ('}' :: rest) = some rest := by
  rcases h with rfl | ⟨more, rfl⟩
  · rfl
  · rfl

/-- What is no lone brace at the start of a line is passed over. -/
theorem afterExample?_cons {start : Bool} {c : Char}
    (h : start = true → c = '}' → ¬ LineOver cs) :
    afterExample? start (c :: cs) = afterExample? (c = '\n') cs := by
  cases cs with
  | nil =>
      have hopen : ¬ (start = true ∧ c = '}') := fun hboth => h hboth.1 hboth.2 (.inl rfl)
      simp [afterExample?, hopen]
  | cons d rest =>
      have hopen : ¬ ((start = true ∧ c = '}') ∧ d = '\n') := by
        rintro ⟨⟨hstart, hc⟩, rfl⟩
        exact h hstart hc (.inr ⟨rest, rfl⟩)
      rw [afterExample?, if_neg (by simpa using hopen)]

/-- From within a line nothing ends before the next one. -/
theorem afterExample?_within (h : '\n' ∉ line) :
    afterExample? false (line ++ '\n' :: cs) = afterExample? true cs := by
  induction line with
  | nil => exact afterExample?_cons nofun
  | cons c line ih =>
      obtain ⟨hc, hline⟩ := not_or.mp (List.mem_cons.not.mp h)
      have hwithin : false = true → c = '}' → ¬ LineOver (line ++ '\n' :: cs) := nofun
      rw [List.cons_append, afterExample?_cons hwithin, ← ih hline, decide_eq_false (Ne.symm hc)]

theorem afterExample?_line (h : '\n' ∉ line) (hopen : line ≠ ['}']) :
    afterExample? true (line ++ '\n' :: cs) = afterExample? true cs := by
  cases line with
  | nil => exact afterExample?_cons fun _ hc => absurd hc (by decide)
  | cons c line =>
      obtain ⟨hc, hline⟩ := not_or.mp (List.mem_cons.not.mp h)
      rw [List.cons_append, afterExample?_cons, decide_eq_false (Ne.symm hc),
        afterExample?_within hline]
      rintro - rfl (hnil | ⟨more, hmore⟩)
      · exact absurd hnil (by simp)
      -- a line that goes on behind its brace
      · cases line with
        | nil => exact hopen rfl
        | cons d line => exact hline (List.mem_cons.mpr (.inl (List.cons.inj hmore).1.symm))

/-- The last line ends nothing unless it is a lone brace. -/
theorem afterExample?_last {start : Bool} (h : '\n' ∉ cs) (hopen : start = true → cs ≠ ['}']) :
    afterExample? start cs = none := by
  induction cs generalizing start with
  | nil => rfl
  | cons c cs ih =>
      obtain ⟨hc, hcs⟩ := not_or.mp (List.mem_cons.not.mp h)
      rw [afterExample?_cons, decide_eq_false (Ne.symm hc)]
      · exact ih hcs nofun
      · rintro hs rfl (rfl | ⟨more, rfl⟩)
        · exact hopen hs rfl
        · exact hcs List.mem_cons_self

/-- **The rest of a text behind an example** is what the first lone closing brace leaves. -/
theorem afterExample?_eq_some_iff : afterExample? true cs = some rest ↔ Closes cs rest := by
  constructor
  · intro h
    induction hn : cs.length using Nat.strongRecOn generalizing cs with
    | ind n ih =>
        -- by induction on the length: a line that is no lone brace is passed over
        by_cases hmem : '\n' ∈ cs
        · obtain ⟨line, more, rfl, hline⟩ := List.eq_append_cons_of_mem hmem
          by_cases hbrace : line = ['}']
          · subst hbrace
            rw [List.singleton_append, afterExample?_brace (.inr ⟨more, rfl⟩)] at h
            rw [← Option.some.inj h]
            exact .brace (.inr ⟨more, rfl⟩)
          · rw [afterExample?_line hline hbrace] at h
            refine .line hline hbrace (ih more.length ?_ h rfl)
            rw [← hn, List.length_append, List.length_cons]
            omega
        · by_cases hbrace : cs = ['}']
          · subst hbrace
            rw [afterExample?_brace (.inl rfl)] at h
            rw [← Option.some.inj h]
            exact .brace (.inl rfl)
          · rw [afterExample?_last hmem fun _ => hbrace] at h
            exact absurd h (by simp)
  · intro h
    induction h with
    | brace hover => exact afterExample?_brace hover
    | line hline hbrace _ ih => rw [afterExample?_line hline hbrace, ih]

/-! ## What cleaning leaves -/

/-- Nothing is in a text but white space and examples. -/
inductive Hollow : List Char → Prop where
  | nil : Hollow []
  | blank {c : Char} {cs : List Char} : isBlank c = true → Hollow cs → Hollow (c :: cs)
  | illustration {body rest : List Char} :
      Closes body rest → Hollow rest → Hollow (exampleOpening ++ body)

theorem cleanExamplesChars_cons {c : Char} (hc : c ≠ '#') (cs : List Char) :
    cleanExamplesChars (c :: cs) = c :: cleanExamplesChars cs := by
  rw [cleanExamplesChars]
  split
  · rfl
  · rename_i body hopening
    have hmark : exampleOpening = '#' :: exampleOpening.tail := by decide
    have htext := Text.afterChars?_eq_some_iff.mp hopening
    rw [hmark] at htext
    exact absurd (List.cons.inj htext).1 hc

/-- An example is cleaned away. -/
theorem cleanExamplesChars_illustration (h : Closes body rest) :
    cleanExamplesChars (exampleOpening ++ body) = cleanExamplesChars rest := by
  have hmark : exampleOpening ++ body = '#' :: (exampleOpening.tail ++ body) := rfl
  have hopening : Text.afterChars? exampleOpening ('#' :: (exampleOpening.tail ++ body)) =
      some body := Text.afterChars?_eq_some_iff.mpr rfl
  rw [hmark, cleanExamplesChars]
  split
  · exact absurd (hopening.symm.trans ‹_›) (by simp)
  · rename_i found hfound
    obtain rfl := Option.some.inj (hopening.symm.trans hfound)
    have hrest := afterExample?_eq_some_iff.mpr h
    split
    · exact absurd (hrest.symm.trans ‹_›) (by simp)
    · rename_i left hleft
      rw [Option.some.inj (hrest.symm.trans hleft)]

theorem all_isBlank_cleanExamplesChars_iff :
    (cleanExamplesChars cs).all isBlank = true ↔ Hollow cs := by
  constructor
  · intro h
    -- what cleaning leaves is blank if everything is blank that is not in an illustration
    fun_induction cleanExamplesChars cs with
    | case1 => exact .nil
    | case2 c cs _ ih =>
        obtain ⟨hc, hcs⟩ := Bool.and_eq_true_iff.mp (List.all_cons ▸ h)
        exact .blank hc (ih hcs)
    | case3 c cs body _ _ ih =>
        obtain ⟨hc, hcs⟩ := Bool.and_eq_true_iff.mp (List.all_cons ▸ h)
        exact .blank hc (ih hcs)
    | case4 c cs body hopening rest hrest ih =>
        rw [Text.afterChars?_eq_some_iff.mp hopening]
        exact .illustration (afterExample?_eq_some_iff.mp hrest) (ih h)
  · intro h
    induction h with
    | nil => rw [cleanExamplesChars]; rfl
    | @blank c cs hc _ ih =>
        have hne : c ≠ '#' := fun heq => absurd (heq ▸ hc) (by decide)
        rw [cleanExamplesChars_cons hne, List.all_cons, hc, ih]
        rfl
    | illustration hcloses _ ih => rw [cleanExamplesChars_illustration hcloses, ih]

/-- **Cleaning leaves a blank text of hollow ones only.** -/
theorem isBlankText_cleanExamples_iff {source : String} :
    isBlankText (cleanExamples source) = true ↔ Hollow source.toList := by
  rw [isBlankText, cleanExamples, String.toList_ofList]
  exact all_isBlank_cleanExamplesChars_iff

/-! ## What a caller gets -/

variable {engine : Engine} {schema : Json} {root fallback source : String}

/-- What a caller can work with: the fallback that it has named itself, or the name of a root with
something behind it. -/
def Usable (name fallback : String) (r : Resolution) : Prop :=
  r = .plain fallback ∨ r.expr = name ∧ r.hasDefinition = true

/-- There is something behind a name unless the text is hollow. -/
theorem hasDefinition_iff {name : String} :
    Resolution.hasDefinition ⟨name, cleanExamples source⟩ = true ↔ ¬ Hollow source.toList := by
  rw [Resolution.hasDefinition, Bool.not_eq_true', ← isBlankText_cleanExamples_iff,
    Bool.not_eq_true]

/-- What the engine of this library makes can be used. -/
theorem usable_builtin (schema : Json) (root fallback : String) :
    Usable (rootName schema root fallback) fallback
      (render builtinEngine schema root fallback) := by
  cases hds : declarations ⟨normalizeEnums schema, rootName schema root fallback,
      defaultMaxDepth⟩ with
  | error e => exact .inl (render_eq_error hds)
  | ok ds =>
      have hline := oneLine_of_identifierChars (identifierChars_rootName schema root fallback)
      rw [render_eq_ok hline hds]
      generalize rootName schema root fallback = name
      exact .inr ⟨rfl, hasDefinition_renderModule name ds⟩

/-- **What rendering comes to,** whatever the engine does. If it fails, the caller's fallback stands
for the schema, with no definition. If it gives a text, the root is named, and there is a definition
behind the name exactly if the text is not hollow. With the engine of this library there always
is. -/
theorem render_outcome (engine : Engine) (schema : Json) (root fallback : String) :
    (∀ e, engine (normalizeEnums schema) (rootName schema root fallback) = .error e →
      render engine schema root fallback = .plain fallback) ∧
    (∀ source, engine (normalizeEnums schema) (rootName schema root fallback) = .ok source →
      (render engine schema root fallback).expr = rootName schema root fallback ∧
      ((render engine schema root fallback).hasDefinition = true ↔ ¬ Hollow source.toList)) ∧
    Usable (rootName schema root fallback) fallback
      (render builtinEngine schema root fallback) := by
  refine ⟨fun e => render_of_error, fun source hok => ?_, usable_builtin schema root fallback⟩
  rw [render_of_ok hok]
  generalize rootName schema root fallback = name
  exact ⟨rfl, hasDefinition_iff⟩

/-- A hollow text makes a name that cannot be used, unless that is the fallback. -/
theorem not_usable_of_hollow (hollow : Hollow source.toList)
    (hok : engine (normalizeEnums schema) (rootName schema root fallback) = .ok source)
    (hne : rootName schema root fallback ≠ fallback) :
    ¬ Usable (rootName schema root fallback) fallback
      (render engine schema root fallback) := by
  rw [render_of_ok hok]
  generalize rootName schema root fallback = name at hne
  rintro (hplain | ⟨-, hdefinition⟩)
  · exact hne (congrArg Resolution.expr hplain)
  · exact hasDefinition_iff.mp hdefinition hollow

/-- A program that ends well without having written anything, and an engine whose text is an example
and nothing else, both leave a name with nothing behind it. -/
theorem render_names_nothing :
    let silent : Engine :=
      CommandEngine.generate (fun _ _ files => some ⟨true, "", files⟩) ⟨"true", []⟩
    let illustrating : Engine := fun _ _ => .ok "# example: \x7b\n\"id\": 1\n\x7d\n"
    let schema : Json := .obj [("type", .str "object")]
    rootName schema "Pet" "Dict" = "Pet" ∧
      ¬ Usable "Pet" "Dict" (render silent schema "Pet" "Dict") ∧
      ¬ Usable "Pet" "Dict" (render illustrating schema "Pet" "Dict") := by
  intro silent illustrating schema
  have hname : rootName schema "Pet" "Dict" = "Pet" := by decide
  have hne : rootName schema "Pet" "Dict" ≠ "Dict" := by decide
  have hillustration : Hollow "# example: \x7b\n\"id\": 1\n\x7d\n".toList := by
    have hcloses : Closes "\"id\": 1\n\x7d\n".toList ['\n'] :=
      afterExample?_eq_some_iff.mp (by decide)
    exact .illustration hcloses (.blank (by decide) .nil)
  refine ⟨hname, ?_, ?_⟩
  · have h := @not_usable_of_hollow silent schema "Pet" "Dict" "" .nil rfl hne
    rwa [hname] at h
  · have h := @not_usable_of_hollow illustrating schema "Pet" "Dict" _ hillustration rfl hne
    rwa [hname] at h

end StubGen.Schema
