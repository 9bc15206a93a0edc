import StubGen.Proofs.Schema.Rereading
import StubGen.Proofs.Stub.Annotations

/-!
# What a module of types declares

A set of definitions that is built by pushing sources is exact: each block declares its own name in
one line and no other name, no two blocks have one name, and what it imports are lines that begin
like imports (`Exact`). A step of the cutting keeps this, so a run over the lines of a source does,
and so does a run over sources. The names that a set declares are those that the lines of its
sources introduce: `declares_push_iff`; the first source that introduces a name brings its
definition: `declared_by_first`. So the lines of a module of types declare the names of its
set, each once and in order, if its lines of imports are left aside: `namesOf_typeModule`.
-/

namespace StubGen

namespace DefinitionSet

variable {set : DefinitionSet} {name line : String} {lines : List String}

/-! ## The names that a source introduces -/

/-- A line of the source is read as the beginning of a declaration of the name. -/
def IntroducedIn (source name : String) : Prop := ∃ line ∈ Text.lines source, Introduces line name

namespace Cutting

/-- **Only a line that introduces a name meets it.** -/
theorem meets_step_iff (c : Cutting) :
    (c.step line).Meets name ↔ c.Meets name ∨ Introduces line name := by
  refine ⟨fun h => ?_, fun h => h.elim (·.step line) (meets_step_of_introduces c)⟩
  -- by the kinds of lines: imports, lines that declare, and lines that continue
  unfold Cutting.step at h
  split at h
  · exact .inl (h.imp_left fun h => declares_addImport.symm.trans h)
  · rename_i himport
    split at h
    · rename_i declared hdeclared
      rcases h with h | ⟨lines, h⟩
      · refine .inl ?_
        unfold close at h
        split at h
        · rename_i current longer hcurrent
          rcases (declares_add _).mp h with h | rfl
          · exact .inl h
          · exact .inr ⟨_, hcurrent⟩
        · exact .inl h
      · obtain ⟨rfl, -⟩ := Prod.mk.inj (Option.some.inj h)
        exact .inr ⟨Bool.eq_false_iff.mpr himport, hdeclared⟩
    · split at h
      · exact .inl h
      · rename_i current longer hcurrent
        split at h
        · exact .inl h
        · refine .inl (h.imp_right fun ⟨_, h⟩ => ?_)
          obtain ⟨rfl, -⟩ := Prod.mk.inj (Option.some.inj h)
          exact ⟨_, hcurrent⟩

theorem meets_foldl_iff (lines : List String) (c : Cutting) :
    (lines.foldl Cutting.step c).Meets name ↔
      c.Meets name ∨ ∃ line ∈ lines, Introduces line name := by
  induction lines generalizing c with
  | nil => simp
  | cons line lines ih =>
      rw [List.foldl_cons, ih, meets_step_iff, or_assoc, List.exists_mem_cons_iff]

theorem declares_close_iff (c : Cutting) : c.close.declares name = true ↔ c.Meets name := by
  refine ⟨fun h => ?_, Meets.close⟩
  unfold close at h
  split at h
  · rename_i current lines hcurrent
    refine ((declares_add _).mp h).imp_right fun heq => ⟨lines, ?_⟩
    rw [hcurrent, ← heq]
  · exact .inl h

end Cutting

/-- **Pushing a source declares what its lines introduce,** and nothing else. -/
theorem declares_push_iff (set : DefinitionSet) (source : String) :
    (set.push source).declares name = true ↔
      set.declares name = true ∨ IntroducedIn source name := by
  unfold push
  rw [Cutting.declares_close_iff, Cutting.meets_foldl_iff]
  simp [Cutting.Meets, IntroducedIn]

theorem declares_foldl_push_iff (sources : List String) (set : DefinitionSet) :
    (sources.foldl push set).declares name = true ↔
      set.declares name = true ∨ ∃ source ∈ sources, IntroducedIn source name := by
  induction sources generalizing set with
  | nil => simp
  | cons source sources ih =>
      rw [List.foldl_cons, ih, declares_push_iff, or_assoc, List.exists_mem_cons_iff]

/-! ## Where a definition comes from -/

/-- The block of a definition is made of lines of the source. -/
def DrawnFrom (source : String) (d : Definition) : Prop :=
  ∃ lines, lines ⊆ Text.lines source ∧ d.block = Text.join "\n" lines

theorem definitions_prefix_add (set : DefinitionSet) (d : Definition) :
    set.definitions <+: (set.add d).definitions := by
  unfold DefinitionSet.add
  split
  · exact List.prefix_rfl
  · exact List.prefix_append _ _

/-- A cutting of a source that begins with a set: all else that it holds is made of lines of the
source. -/
structure Cutting.Drawn (base : DefinitionSet) (source : String) (c : Cutting) : Prop where
  kept : base.definitions <+: c.set.definitions
  set : ∀ d ∈ c.set.definitions, d ∈ base.definitions ∨ DrawnFrom source d
  pending : c.pending ⊆ Text.lines source
  current : ∀ name lines, c.current = some (name, lines) → lines ⊆ Text.lines source

namespace Cutting

variable {base : DefinitionSet} {source : String}

theorem Drawn.close {c : Cutting} (h : c.Drawn base source) :
    base.definitions <+: c.close.definitions ∧
      ∀ d ∈ c.close.definitions, d ∈ base.definitions ∨ DrawnFrom source d := by
  unfold Cutting.close
  split
  · rename_i name lines hcurrent
    refine ⟨h.kept.trans (definitions_prefix_add _ _), fun d hm => ?_⟩
    unfold DefinitionSet.add at hm
    split at hm
    · exact h.set d hm
    · refine (List.mem_append.mp hm).elim (h.set d) fun hm => .inr ?_
      rw [List.mem_singleton.mp hm]
      exact ⟨_, fun line hline => h.current name lines hcurrent (trimLines_subset lines hline), rfl⟩
  · exact ⟨h.kept, h.set⟩

theorem Drawn.step {c : Cutting} (h : c.Drawn base source) (hm : line ∈ Text.lines source) :
    (c.step line).Drawn base source := by
  have happend {lines : List String} (hlines : lines ⊆ Text.lines source) :
      lines ++ [line] ⊆ Text.lines source :=
    List.append_subset.mpr ⟨hlines, by simpa using hm⟩
  unfold Cutting.step
  split
  · have hsame := definitions_addImport c.set line
    exact ⟨hsame ▸ h.kept, fun d hd => h.set d (hsame ▸ hd), h.pending, h.current⟩
  · split
    · refine ⟨h.close.1, h.close.2, List.nil_subset _, fun name lines heq => ?_⟩
      obtain ⟨rfl, rfl⟩ := Prod.mk.inj (Option.some.inj heq)
      exact happend h.pending
    · split
      · exact ⟨h.kept, h.set, happend h.pending, h.current⟩
      · rename_i current lines hcurrent
        split
        · exact ⟨h.kept, h.set, happend h.pending, h.current⟩
        · refine ⟨h.kept, h.set, h.pending, fun name longer heq => ?_⟩
          obtain ⟨rfl, rfl⟩ := Prod.mk.inj (Option.some.inj heq)
          exact happend (h.current _ _ hcurrent)

theorem Drawn.foldl {c : Cutting} (h : c.Drawn base source) (hlines : lines ⊆ Text.lines source) :
    (lines.foldl Cutting.step c).Drawn base source := by
  induction lines generalizing c with
  | nil => exact h
  | cons line lines ih =>
      have ⟨hline, hrest⟩ := List.cons_subset.mp hlines
      exact ih (h.step hline) hrest

end Cutting

/-- **Pushing a source keeps all definitions,** and those it adds are made of its lines. -/
theorem drawn_push (set : DefinitionSet) (source : String) :
    set.definitions <+: (set.push source).definitions ∧
      ∀ d ∈ (set.push source).definitions, d ∈ set.definitions ∨ DrawnFrom source d := by
  have hstart : Cutting.Drawn set source ⟨set, [], none⟩ :=
    ⟨List.prefix_rfl, fun _ hm => .inl hm, List.nil_subset _, fun _ _ heq => absurd heq (by simp)⟩
  exact (hstart.foldl fun _ hm => hm).close

theorem definitions_prefix_foldl_push (sources : List String) (set : DefinitionSet) :
    set.definitions <+: (sources.foldl push set).definitions :=
  @List.foldlRecOn _ _ (fun longer => set.definitions <+: longer.definitions) sources push set
    List.prefix_rfl fun longer h source _ => h.trans (drawn_push longer source).1

/-- **The first source that introduces a name declares it.** If a source introduces a name, then
one definition has it in the end: one of the sources before if one of those introduces it too, else
one that is made of lines of this source. -/
theorem declared_by_first {before behind : List String} {source : String}
    (h : IntroducedIn source name) :
    ∃ d ∈ ((before ++ source :: behind).foldl push empty).definitions, d.name = name ∧
      ((∃ earlier ∈ before, IntroducedIn earlier name) →
        d ∈ (before.foldl push empty).definitions) ∧
      ((∀ earlier ∈ before, ¬ IntroducedIn earlier name) → DrawnFrom source d) := by
  let early := before.foldl push empty
  have hearly : early.declares name = true ↔ ∃ earlier ∈ before, IntroducedIn earlier name := by
    rw [declares_foldl_push_iff]
    simp [DefinitionSet.declares, DefinitionSet.empty]
  have hall : (before ++ source :: behind).foldl push empty =
      behind.foldl push (early.push source) := by rw [List.foldl_append, List.foldl_cons]
  obtain ⟨hkept, hnew⟩ := drawn_push early source
  have hprefix := definitions_prefix_foldl_push behind (early.push source)
  rw [hall]
  -- a name that was there keeps its definition, a new one gets it from this source
  by_cases hdeclared : early.declares name = true
  · obtain ⟨d, hd, hname⟩ := declares_iff.mp hdeclared
    obtain ⟨earlier, hm, hintroduced⟩ := hearly.mp hdeclared
    exact ⟨d, hprefix.subset (hkept.subset hd), hname, fun _ => hd,
      fun hnone => absurd hintroduced (hnone earlier hm)⟩
  · obtain ⟨d, hd, hname⟩ := declares_iff.mp ((declares_push_iff early source).mpr (.inr h))
    have hfresh : d ∉ early.definitions := fun hold => hdeclared (declares_iff.mpr ⟨d, hold, hname⟩)
    exact ⟨d, hprefix.subset hd, hname, fun hsome => absurd (hearly.mpr hsome) hdeclared,
      fun _ => (hnew d hd).resolve_left hfresh⟩

/-! ## What a line can declare -/

theorem className?_eq_some {line word : List Char} (h : className? line = some word) :
    word ≠ [] ∧ ∃ rest, word = (leadingWord rest).1 := by
  unfold className? at h
  split at h
  · cases h
  · rename_i rest _
    simp only at h
    split at h
    · cases h
    · rename_i hne
      split at h
      · split at h
        · obtain rfl := Option.some.inj h
          exact ⟨by simpa using fun hnil => hne (by simp [hnil]), _, rfl⟩
        · cases h
      · cases h

theorem assignedName?_eq_some {line word : List Char} (h : assignedName? line = some word) :
    word ≠ [] ∧ word = (leadingWord line).1 := by
  unfold assignedName? at h
  simp only at h
  split at h
  · cases h
  · rename_i hne
    split at h
    · obtain rfl := Option.some.inj h
      exact ⟨by simpa using hne, rfl⟩
    · cases h

theorem declaredName?_cases (h : declaredName? line = some name) :
    className? line.toList = some name.toList ∨
      className? line.toList = none ∧ assignedName? line.toList = some name.toList := by
  obtain ⟨word, hword, rfl⟩ := Option.map_eq_some_iff.mp h
  rw [String.toList_ofList]
  cases hclass : className? line.toList with
  | some found =>
      rw [hclass] at hword
      exact .inl hword
  | none =>
      rw [hclass] at hword
      exact .inr ⟨rfl, hword⟩

/-- What is declared is one word. -/
theorem worded_of_declaredName? (h : declaredName? line = some name) : Worded name := by
  obtain ⟨hne, rest, hrest⟩ : name.toList ≠ [] ∧ ∃ rest, name.toList = (leadingWord rest).1 := by
    rcases declaredName?_cases h with hclass | ⟨-, hassigned⟩
    · exact className?_eq_some hclass
    · obtain ⟨hne, hline⟩ := assignedName?_eq_some hassigned
      exact ⟨hne, _, hline⟩
  refine ⟨fun hempty => hne (String.toList_eq_nil_iff.mpr hempty), fun c hm => ?_⟩
  rw [hrest] at hm
  exact List.all_eq_true.mp List.all_takeWhile c hm

/-- A line that begins like an import can only declare the word it begins with. -/
theorem mem_importWords_of_isImport (himport : isImport line = true)
    (h : declaredName? line = some name) : name ∈ Schema.importWords := by
  obtain ⟨lead, hlead, rest, hline⟩ : ∃ lead ∈ Schema.importWords, ∃ rest,
      line.toList = lead.toList ++ ' ' :: rest := by
    have hstarts : ∀ lead : String, Text.startsWith (lead ++ " ") line = true →
        ∃ rest, line.toList = lead.toList ++ ' ' :: rest := by
      intro lead hstart
      obtain ⟨rest, hrest⟩ := Option.isSome_iff_exists.mp hstart
      obtain ⟨behind, hbehind, -⟩ := Option.map_eq_some_iff.mp hrest
      exact ⟨behind, by simpa using Text.afterChars?_eq_some_iff.mp hbehind⟩
    rcases Bool.or_eq_true _ _ ▸ himport with hfrom | himport
    · exact ⟨"from", by decide, hstarts "from" hfrom⟩
    · exact ⟨"import", by decide, hstarts "import" himport⟩
  have hword : ∀ lead ∈ Schema.importWords, ∀ c ∈ lead.toList, Text.isWord c = true :=
    fun lead hm => List.all_eq_true.mp (List.all_eq_true.mp
      (show (Schema.importWords.all fun lead => lead.toList.all Text.isWord) = true by decide)
      lead hm)
  -- neither word begins like `class`, so only an assignment could be read
  have hclass : ∀ lead ∈ Schema.importWords,
      Text.afterChars? "class".toList (lead.toList ++ ' ' :: rest) = none := by
    intro lead hlead
    simp only [Schema.importWords, List.mem_cons, List.not_mem_nil, or_false] at hlead
    rcases hlead with rfl | rfl <;> rfl
  have hnone : className? line.toList = none := by rw [className?, hline, hclass lead hlead]
  rcases declaredName?_cases h with hfound | ⟨-, hassigned⟩
  · rw [hnone] at hfound
    cases hfound
  · obtain ⟨-, hname⟩ := assignedName?_eq_some hassigned
    rw [hline, leadingWord_append (hword lead hlead) (by decide)] at hname
    exact String.toList_inj.mp hname ▸ hlead

/-! ## Exact sets -/

/-- The names that lines declare, one after the other. -/
def namesOf (lines : List String) : List String := lines.filterMap declaredName?

theorem namesOf_append (lines more : List String) :
    namesOf (lines ++ more) = namesOf lines ++ namesOf more := List.filterMap_append

theorem namesOf_eq_nil (h : ∀ line ∈ lines, declaredName? line = none) : namesOf lines = [] :=
  List.filterMap_eq_nil_iff.mpr h

theorem declaredName?_of_isBlankText (h : Text.isBlankText line = true) :
    declaredName? line = none :=
  Option.eq_none_iff_forall_ne_some.mpr fun name hname => by
    have hloud := not_isBlankText_of_declaredName? hname
    rw [h] at hloud
    exact Bool.noConfusion hloud

/-- Blank lines declare nothing, so they may be left out. -/
theorem namesOf_dropWhile (lines : List String) :
    namesOf (lines.dropWhile Text.isBlankText) = namesOf lines := by
  have hblank : namesOf (lines.takeWhile Text.isBlankText) = [] := namesOf_eq_nil fun line hm =>
    declaredName?_of_isBlankText (List.all_eq_true.mp List.all_takeWhile line hm)
  conv_rhs => rw [← List.takeWhile_append_dropWhile (p := Text.isBlankText) (l := lines)]
  rw [namesOf_append, hblank, List.nil_append]

theorem namesOf_trimLines (lines : List String) : namesOf (trimLines lines) = namesOf lines := by
  have hreverse : ∀ lines : List String, namesOf lines.reverse = (namesOf lines).reverse :=
    fun _ => List.filterMap_reverse
  rw [trimLines, hreverse, namesOf_dropWhile, hreverse, List.reverse_reverse, namesOf_dropWhile]

theorem namesOf_spread (sheets : List (List String)) :
    namesOf (spread sheets) = sheets.flatMap namesOf := by
  have hempty : declaredName? "" = none := by decide
  induction sheets with
  | nil => rfl
  | cons sheet sheets ih =>
      cases sheets with
      | nil => simp [spread]
      | cons next sheets =>
          rw [spread, namesOf_append, List.flatMap_cons, ← ih]
          · simp [namesOf, hempty]
          · exact List.cons_ne_nil _ _

/-- Each block declares its name and no other, no name has two blocks, and the imports are lines
that begin like imports. -/
structure Exact (set : DefinitionSet) : Prop where
  blocks : ∀ d ∈ set.definitions, namesOf (Text.split '\n' d.block) = [d.name]
  distinct : (set.definitions.map Definition.name).Nodup
  imports : ∀ line ∈ set.imports, isImport line = true ∧ '\n' ∉ line.toList

theorem exact_empty : Exact empty :=
  ⟨fun _ hm => absurd hm List.not_mem_nil, .nil, fun _ hm => absurd hm List.not_mem_nil⟩

theorem Exact.addImport (h : set.Exact) (himport : isImport line = true)
    (hflat : '\n' ∉ line.toList) : (set.addImport line).Exact := by
  refine ⟨fun d hm => h.blocks d (definitions_addImport set line ▸ hm),
    definitions_addImport set line ▸ h.distinct, fun other hm => ?_⟩
  unfold DefinitionSet.addImport at hm
  split at hm
  · exact h.imports other hm
  · rcases List.mem_append.mp hm with hm | hm
    · exact h.imports other hm
    · rw [List.mem_singleton.mp hm]
      exact ⟨himport, hflat⟩

theorem Exact.add (h : set.Exact) {d : Definition}
    (hblock : namesOf (Text.split '\n' d.block) = [d.name]) : (set.add d).Exact := by
  unfold DefinitionSet.add
  split
  · exact h
  · rename_i hnew
    refine ⟨fun other hm => ?_, ?_, h.imports⟩
    · rcases List.mem_append.mp hm with hm | hm
      · exact h.blocks other hm
      · rw [List.mem_singleton.mp hm]
        exact hblock
    · rw [List.map_append]
      refine List.nodup_append.mpr ⟨h.distinct, List.nodup_singleton _, ?_⟩
      rintro taken htaken fresh hfresh rfl
      obtain ⟨other, hother, heq⟩ := List.mem_map.mp htaken
      rw [List.map_singleton, List.mem_singleton] at hfresh
      exact hnew (declares_iff.mpr ⟨other, hother, heq.trans hfresh⟩)

namespace Cutting

/-- What waits declares nothing, and what is being read declares its name and no other. -/
structure Exact (c : Cutting) : Prop where
  set : c.set.Exact
  pending : namesOf c.pending = []
  current : ∀ name lines, c.current = some (name, lines) → namesOf lines = [name]

theorem Exact.close {c : Cutting} (h : c.Exact) (hhonest : c.Honest) : c.close.Exact := by
  unfold Cutting.close
  split
  · rename_i name lines hcurrent
    have hnames := h.current name lines hcurrent
    have hne : trimLines lines ≠ [] := by
      intro hnil
      rw [← namesOf_trimLines, hnil] at hnames
      cases hnames
    refine h.set.add ?_
    rw [Schema.Declaration.split_join_of_oneLine hne fun line hm =>
      hhonest.lines name lines hcurrent line (trimLines_subset lines hm), namesOf_trimLines, hnames]
  · exact h.set

theorem Exact.step {c : Cutting} (h : c.Exact) (hhonest : c.Honest) (hflat : '\n' ∉ line.toList) :
    (c.step line).Exact := by
  -- a line that declares nothing changes no list of names
  have happend {lines : List String} (hline : declaredName? line = none) :
      namesOf (lines ++ [line]) = namesOf lines := by
    rw [namesOf_append]
    simp [namesOf, hline]
  unfold Cutting.step
  split
  · rename_i himport
    exact ⟨h.set.addImport himport hflat, h.pending, h.current⟩
  · split
    · rename_i declared hdeclared
      refine ⟨h.close hhonest, rfl, fun name lines heq => ?_⟩
      obtain ⟨rfl, rfl⟩ := Prod.mk.inj (Option.some.inj heq)
      rw [namesOf_append, h.pending]
      simp [namesOf, hdeclared]
    · rename_i hdeclared
      split
      · exact ⟨h.set, (happend hdeclared).trans h.pending, h.current⟩
      · rename_i current lines hcurrent
        split
        · exact ⟨h.set, (happend hdeclared).trans h.pending, h.current⟩
        · refine ⟨h.set, h.pending, fun name longer heq => ?_⟩
          obtain ⟨rfl, rfl⟩ := Prod.mk.inj (Option.some.inj heq)
          exact (happend hdeclared).trans (h.current _ _ hcurrent)

theorem Exact.foldl {c : Cutting} (h : c.Exact) (hhonest : c.Honest)
    (hflat : ∀ line ∈ lines, '\n' ∉ line.toList) :
    (lines.foldl Cutting.step c).Exact ∧ (lines.foldl Cutting.step c).Honest := by
  induction lines generalizing c with
  | nil => exact ⟨h, hhonest⟩
  | cons line lines ih =>
      have hline := hflat line List.mem_cons_self
      exact ih (h.step hhonest hline) (hhonest.step hline) fun other hm =>
        hflat other (List.mem_cons_of_mem _ hm)

end Cutting

/-- An exact set is honest. -/
theorem Exact.honest (h : set.Exact) : set.Honest := by
  intro d hm
  have hname : d.name ∈ namesOf (Text.split '\n' d.block) := by
    rw [h.blocks d hm]
    exact List.mem_singleton_self _
  obtain ⟨line, hline, hdeclared⟩ := List.mem_filterMap.mp hname
  obtain ⟨piece, hpiece, rfl⟩ := List.mem_map.mp hline
  exact ⟨piece, hdeclared, hpiece⟩

/-- **Pushing keeps a set exact.** -/
theorem Exact.push (h : set.Exact) (source : String) : (set.push source).Exact := by
  have hhonest : Cutting.Honest ⟨set, [], none⟩ :=
    ⟨h.honest, fun _ hm => absurd hm List.not_mem_nil, fun _ _ heq => absurd heq (by simp),
      fun _ _ heq => absurd heq (by simp)⟩
  have hstart : Cutting.Exact ⟨set, [], none⟩ := ⟨h, rfl, fun _ _ heq => absurd heq (by simp)⟩
  obtain ⟨hexact, hhonest⟩ :=
    hstart.foldl hhonest fun _ hm => Text.newline_not_mem_of_mem_lines hm
  exact hexact.close hhonest

theorem exact_foldl_push (sources : List String) : (sources.foldl push empty).Exact :=
  @List.foldlRecOn _ _ Exact sources push _ exact_empty fun _ h source _ => h.push source

end DefinitionSet

namespace Renderer

open DefinitionSet (namesOf)

/-- The lines that every module of types begins with. -/
def typingImports : List String :=
  ["from typing import Any, Callable, Dict, List, Literal, Optional, Tuple, Union",
    "from typing_extensions import NotRequired, Required, TypedDict"]

theorem typeModule_head :
    Template.typeModule.take 2 = typingImports.map fun line => .text (line ++ "\n") := by
  decide +kernel

theorem namesOf_typingImports : namesOf typingImports = [] := by decide +kernel

theorem split_append_newline (text more : String) :
    Text.split '\n' (text ++ "\n" ++ more) = Text.split '\n' text ++ Text.split '\n' more :=
  Text.split_append_sep text more

theorem split_lines_append {lines : List String} (h : ∀ line ∈ lines, OneLine line)
    (more : String) : Text.split '\n' (String.join (lines.map (· ++ "\n")) ++ more) =
      lines ++ Text.split '\n' more := by
  induction lines with
  | nil => simp
  | cons line lines ih =>
      rw [List.map_cons, String.join_cons, String.append_assoc, split_append_newline,
        ih fun other hm => h other (List.mem_cons_of_mem _ hm),
        Schema.Declaration.split_of_oneLine (h line List.mem_cons_self)]
      rfl

/-- The imports of typing names, the imports of the set, an empty line and the blocks. -/
theorem typeModule_text {set : DefinitionSet} (hne : set.isEmpty = false) :
    typeModule set = String.join (typingImports.map (· ++ "\n")) ++
      (set.importText ++ "\n" ++ ("" ++ "\n" ++ (set.body ++ "\n" ++ ""))) := by
  unfold typeModule
  rw [if_neg (by simp [hne]), Template.fill_cut _ Template.typeModule 2, typeModule_template,
    typeModule_head]
  simp [Template.fill, List.lookup_cons, String.append_assoc, Function.comp_def]

/-- **The lines of a module of types declare the names of its set,** each once and in order, if its
lines of imports are left aside. -/
theorem namesOf_typeModule {set : DefinitionSet} (h : set.Exact) (hne : set.isEmpty = false) :
    namesOf (Text.split '\n' (typeModule set)) =
      namesOf set.imports ++ set.definitions.map Definition.name := by
  have himports : namesOf (Text.split '\n' set.importText) = namesOf set.imports := by
    unfold DefinitionSet.importText
    cases himports : set.imports with
    | nil => decide
    | cons line lines =>
        rw [Schema.Declaration.split_join_of_oneLine (List.cons_ne_nil _ _) fun other hm =>
          (h.imports other (himports ▸ hm)).2]
  -- each block declares the name of its definition and no other
  have hbody : namesOf (Text.split '\n' set.body) = set.definitions.map Definition.name := by
    have hblocks : set.definitions.map Definition.block ≠ [] := by
      simpa [DefinitionSet.isEmpty] using hne
    rw [DefinitionSet.body, DefinitionSet.split_join_spread hblocks, DefinitionSet.namesOf_spread,
      List.flatMap_def, List.map_map, List.map_map]
    have hnames : set.definitions.map ((namesOf ∘ Text.split '\n') ∘ Definition.block) =
        set.definitions.map fun d => [d.name] := List.map_congr_left h.blocks
    rw [hnames, ← List.flatMap_def]
    exact List.flatMap_pure_eq_map _ _
  have hblank : namesOf (Text.split '\n' "") = [] := by decide
  rw [typeModule_text hne, split_lines_append (by decide), DefinitionSet.namesOf_append,
    namesOf_typingImports]
  simp only [split_append_newline, DefinitionSet.namesOf_append, himports, hbody, hblank]
  simp

/-- **A name of the set is declared once in its module of types,** if it does not look like the
beginning of an import. -/
theorem count_namesOf_typeModule {set : DefinitionSet} {name : String} (h : set.Exact)
    (hname : set.declares name = true) (hword : name ∉ Schema.importWords) :
    (namesOf (Text.split '\n' (typeModule set))).count name = 1 := by
  obtain ⟨d, hd, rfl⟩ := DefinitionSet.declares_iff.mp hname
  have himports : d.name ∉ namesOf set.imports := by
    intro hm
    obtain ⟨line, hline, hdeclared⟩ := List.mem_filterMap.mp hm
    exact hword (DefinitionSet.mem_importWords_of_isImport (h.imports line hline).1 hdeclared)
  rw [namesOf_typeModule h (DefinitionSet.isEmpty_of_declares hname), List.count_append,
    List.count_eq_zero_of_not_mem himports,
    List.count_eq_one_of_mem h.distinct (List.mem_map_of_mem hd)]

end Renderer

end StubGen
