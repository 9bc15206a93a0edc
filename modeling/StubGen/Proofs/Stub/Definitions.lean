import StubGen.DefinitionSet
import StubGen.Proofs.Text.Characters
import StubGen.Proofs.Text.Lines

/-!
# What a set of definitions declares

Each line that declares a name begins a block of that name, unless the name has one already, so
a set declares every name that a line of a pushed source declares: `declares_push_of_line`. What
is in a set stays in it. And a set is honest about its blocks: one of the lines of a block
declares its name.
-/

namespace StubGen

namespace DefinitionSet

variable {set : DefinitionSet} {name line : String}

/-! ## Adding -/

theorem declares_iff : set.declares name = true ↔ ∃ d ∈ set.definitions, d.name = name := by
  simp [declares]

theorem isEmpty_of_declares (h : set.declares name = true) : set.isEmpty = false := by
  obtain ⟨d, hm, -⟩ := declares_iff.mp h
  exact List.isEmpty_eq_false_iff_exists_mem.mpr ⟨d, hm⟩

theorem definitions_addImport (set : DefinitionSet) (line : String) :
    (set.addImport line).definitions = set.definitions := by
  unfold addImport
  split <;> rfl

theorem declares_add (d : Definition) :
    (set.add d).declares name = true ↔ set.declares name = true ∨ d.name = name := by
  unfold add
  split
  · rename_i hdeclared
    refine ⟨.inl, fun h => h.elim id fun heq => ?_⟩
    rwa [← heq]
  · simp [declares]

/-! ## Cutting -/

/-- A line that is read as the beginning of a declaration. -/
structure Introduces (line name : String) : Prop where
  notImport : isImport line = false
  declared : declaredName? line = some name

namespace Cutting

/-- A name has been met: it is declared in the set, or the declaration being read is its own. -/
def Meets (c : Cutting) (name : String) : Prop :=
  c.set.declares name = true ∨ ∃ lines, c.current = some (name, lines)

theorem Meets.close {c : Cutting} (h : c.Meets name) : c.close.declares name = true := by
  unfold Cutting.close
  rcases h with h | ⟨lines, h⟩
  · split
    · exact (declares_add _).mpr (.inl h)
    · exact h
  · rw [h]
    exact (declares_add _).mpr (.inr rfl)

theorem declares_addImport : (set.addImport line).declares name = set.declares name := by
  unfold declares
  rw [definitions_addImport]

/-- A name that has been met stays met. -/
theorem Meets.step {c : Cutting} (h : c.Meets name) (line : String) : (c.step line).Meets name := by
  unfold Cutting.step
  split
  · exact h.imp_left fun h => declares_addImport.trans h
  · split
    · exact .inl h.close
    · split
      · exact h
      · rename_i current lines hcurrent
        split
        · exact h
        · refine h.imp_right fun ⟨_, hlines⟩ => ?_
          rw [hcurrent] at hlines
          obtain ⟨rfl, -⟩ := Prod.mk.inj (Option.some.inj hlines)
          exact ⟨_, rfl⟩

/-- A line that introduces a name meets it. -/
theorem meets_step_of_introduces (c : Cutting) (h : Introduces line name) :
    (c.step line).Meets name := by
  unfold Cutting.step
  rw [if_neg (Bool.eq_false_iff.mp h.notImport), h.declared]
  exact .inr ⟨_, rfl⟩

theorem Meets.foldl {c : Cutting} (h : c.Meets name) (lines : List String) :
    (lines.foldl Cutting.step c).Meets name := by
  induction lines generalizing c with
  | nil => exact h
  | cons line lines ih => exact ih (h.step line)

end Cutting

/-- **A pushed source declares what its lines introduce.** -/
theorem declares_push_of_line (set : DefinitionSet) {source : String}
    (hm : line ∈ Text.lines source) (h : Introduces line name) :
    (set.push source).declares name = true := by
  obtain ⟨before, behind, hlines⟩ := List.append_of_mem hm
  unfold push
  rw [hlines, List.foldl_append, List.foldl_cons]
  exact ((Cutting.meets_step_of_introduces _ h).foldl behind).close

theorem declares_push_of_declares (h : set.declares name = true) (source : String) :
    (set.push source).declares name = true :=
  ((show Cutting.Meets ⟨set, [], none⟩ name from .inl h).foldl _).close

/-! ## Honest blocks -/

/-- Each block has a line that declares its name. -/
def Honest (set : DefinitionSet) : Prop :=
  ∀ d ∈ set.definitions, ∃ line, declaredName? (String.ofList line) = some d.name ∧
    line ∈ Text.splitChars '\n' d.block.toList

theorem honest_empty : Honest empty := fun _ hm => absurd hm List.not_mem_nil

theorem Honest.addImport (h : set.Honest) (line : String) : (set.addImport line).Honest := by
  unfold Honest
  rw [definitions_addImport]
  exact h

theorem Honest.add (h : set.Honest) {d : Definition} {line : List Char}
    (hline : declaredName? (String.ofList line) = some d.name)
    (hm : line ∈ Text.splitChars '\n' d.block.toList) : (set.add d).Honest := by
  unfold DefinitionSet.add
  split
  · exact h
  · intro other hother
    rcases List.mem_append.mp hother with hother | hother
    · exact h other hother
    · rw [List.mem_singleton.mp hother]
      exact ⟨line, hline, hm⟩

/-- A line that declares a name is not blank. -/
theorem not_isBlankText_of_declaredName? (h : declaredName? line = some name) :
    Text.isBlankText line = false := by
  refine Bool.eq_false_iff.mpr fun hblank => ?_
  have hchars := List.all_eq_true.mp hblank
  unfold declaredName? at h
  cases hline : line.toList with
  | nil =>
      simp [hline, className?, assignedName?, leadingWord, Text.afterChars?] at h
  | cons c cs =>
      have hc : Text.isBlank c = true := hchars c (by simp [hline])
      have hclass : className? (c :: cs) = none := by
        have hne : 'c' ≠ c := fun heq => absurd (heq ▸ hc) (by decide)
        simp [className?, Text.afterChars?, hne]
      have hassigned : assignedName? (c :: cs) = none := by
        simp [assignedName?, leadingWord, Text.isWord_of_isBlank hc]
      rw [hline, hclass, hassigned] at h
      exact absurd h (by simp)

theorem mem_dropWhile_of_not {α : Type} {p : α → Bool} {items : List α} {a : α} (hm : a ∈ items)
    (ha : p a = false) : a ∈ items.dropWhile p := by
  rw [← List.takeWhile_append_dropWhile (p := p) (l := items)] at hm
  refine (List.mem_append.mp hm).resolve_left fun htake => ?_
  exact absurd (List.all_eq_true.mp List.all_takeWhile a htake) (by simp [ha])

theorem mem_trimLines {lines : List String} (hm : line ∈ lines)
    (hline : Text.isBlankText line = false) : line ∈ trimLines lines := by
  unfold trimLines
  rw [List.mem_reverse]
  exact mem_dropWhile_of_not (List.mem_reverse.mpr (mem_dropWhile_of_not hm hline)) hline

theorem trimLines_subset (lines : List String) : trimLines lines ⊆ lines := by
  intro line hm
  have hm := (List.dropWhile_sublist _).subset (List.mem_reverse.mp hm)
  exact (List.dropWhile_sublist _).subset (List.mem_reverse.mp hm)

namespace Cutting

/-- What is being read consists of lines, and one of them declares the name. -/
structure Honest (c : Cutting) : Prop where
  set : c.set.Honest
  pending : ∀ line ∈ c.pending, '\n' ∉ line.toList
  lines : ∀ name lines, c.current = some (name, lines) → ∀ line ∈ lines, '\n' ∉ line.toList
  declared : ∀ name lines, c.current = some (name, lines) →
    ∃ line ∈ lines, declaredName? line = some name

theorem Honest.close {c : Cutting} (h : c.Honest) : c.close.Honest := by
  unfold Cutting.close
  split
  · rename_i name lines hcurrent
    obtain ⟨line, hm, hline⟩ := h.declared name lines hcurrent
    have hkept := mem_trimLines hm (not_isBlankText_of_declaredName? hline)
    have hflat : ∀ piece ∈ (trimLines lines).map String.toList, '\n' ∉ piece := by
      intro piece hpiece
      obtain ⟨other, hother, rfl⟩ := List.mem_map.mp hpiece
      exact h.lines name lines hcurrent other (trimLines_subset lines hother)
    have hdeclared : declaredName? (String.ofList line.toList) = some name := by
      rwa [String.ofList_toList]
    refine h.set.add hdeclared ?_
    unfold Text.join
    rw [String.toList_ofList]
    show line.toList ∈ Text.splitChars '\n' (Text.joinChars ['\n'] _)
    rw [Text.splitChars_joinChars (List.ne_nil_of_mem (List.mem_map_of_mem hkept)) hflat]
    exact List.mem_map_of_mem hkept
  · exact h.set

theorem Honest.step {c : Cutting} (h : c.Honest) (hflat : '\n' ∉ line.toList) :
    (c.step line).Honest := by
  -- a line without line ends is the only thing that a step adds
  have happend {lines : List String} (hlines : ∀ other ∈ lines, '\n' ∉ other.toList) :
      ∀ other ∈ lines ++ [line], '\n' ∉ other.toList := by
    intro other hm
    rcases List.mem_append.mp hm with hm | hm
    · exact hlines other hm
    · rwa [List.mem_singleton.mp hm]
  unfold Cutting.step
  split
  · exact ⟨h.set.addImport line, h.pending, h.lines, h.declared⟩
  · split
    -- a declaring line closes what was open and begins anew behind the pending lines
    · rename_i declared hdeclared
      refine ⟨h.close, fun _ hm => absurd hm List.not_mem_nil, fun name lines heq => ?_,
        fun name lines heq => ?_⟩
      · obtain ⟨rfl, rfl⟩ := Prod.mk.inj (Option.some.inj heq)
        exact happend h.pending
      · obtain ⟨rfl, rfl⟩ := Prod.mk.inj (Option.some.inj heq)
        exact ⟨line, by simp, hdeclared⟩
    · split
      · exact ⟨h.set, happend h.pending, h.lines, h.declared⟩
      · rename_i current lines hcurrent
        split
        · exact ⟨h.set, happend h.pending, h.lines, h.declared⟩
        · refine ⟨h.set, h.pending, fun name longer heq => ?_, fun name longer heq => ?_⟩
          · obtain ⟨rfl, rfl⟩ := Prod.mk.inj (Option.some.inj heq)
            exact happend (h.lines current lines hcurrent)
          · obtain ⟨rfl, rfl⟩ := Prod.mk.inj (Option.some.inj heq)
            obtain ⟨other, hm, hother⟩ := h.declared current lines hcurrent
            exact ⟨other, List.mem_append_left _ hm, hother⟩

theorem Honest.foldl {c : Cutting} (h : c.Honest) {lines : List String}
    (hflat : ∀ line ∈ lines, '\n' ∉ line.toList) : (lines.foldl Cutting.step c).Honest := by
  induction lines generalizing c with
  | nil => exact h
  | cons line lines ih =>
      exact ih (h.step (hflat line List.mem_cons_self)) fun other hm =>
        hflat other (List.mem_cons_of_mem _ hm)

end Cutting

/-- **Every set that is built by pushing is honest.** -/
theorem Honest.push (h : set.Honest) (source : String) : (set.push source).Honest := by
  have hstart : Cutting.Honest ⟨set, [], none⟩ :=
    ⟨h, fun _ hm => absurd hm List.not_mem_nil, fun _ _ heq => absurd heq (by simp),
      fun _ _ heq => absurd heq (by simp)⟩
  refine (hstart.foldl fun line hm => ?_).close
  exact Text.newline_not_mem_of_mem_lines hm

/-! ## Lines that introduce a name -/

/-- The leading word of a text that goes on with no word character. -/
theorem leadingWord_append {word rest : List Char} {c : Char}
    (hword : ∀ d ∈ word, Text.isWord d = true) (hc : Text.isWord c = false) :
    leadingWord (word ++ c :: rest) = (word, c :: rest) := by
  unfold leadingWord
  rw [List.takeWhile_append_of_pos hword, List.dropWhile_append_of_pos hword]
  simp [hc]

theorem trimStartChars_cons {c : Char} {cs : List Char} (hc : Text.isBlank c = false) :
    Text.trimStartChars (c :: cs) = c :: cs := by
  simp [Text.trimStartChars, hc]

theorem trimStartChars_space (cs : List Char) :
    Text.trimStartChars (' ' :: cs) = Text.trimStartChars cs := by
  simp [Text.trimStartChars, show Text.isBlank ' ' = true by decide]

/-- A name that is one word. -/
structure Worded (name : String) : Prop where
  ne_empty : name ≠ ""
  word : ∀ c ∈ name.toList, Text.isWord c = true

/-- A word of which the reader of sources makes no import line. -/
structure Readable (name : String) : Prop extends Worded name where
  ne_from : name ≠ "from"
  ne_import : name ≠ "import"

theorem Worded.trimStartChars (h : Worded name) (rest : List Char) :
    Text.trimStartChars (name.toList ++ rest) = name.toList ++ rest := by
  have hword := h.word
  cases hname : name.toList with
  | nil => exact absurd (String.toList_inj.mp hname) h.ne_empty
  | cons c cs =>
      refine trimStartChars_cons (Bool.eq_false_iff.mpr fun hblank => ?_)
      exact absurd (hword c (by simp [hname])) (by simp [Text.isWord_of_isBlank hblank])

theorem introduces_class (h : Worded name) (rest : List Char) :
    Introduces (String.ofList ("class ".toList ++ name.toList ++ '(' :: rest)) name := by
  refine ⟨by simp [isImport, Text.startsWith, Text.after?, Text.afterChars?], ?_⟩
  have hclass : Text.afterChars? "class".toList ("class ".toList ++ name.toList ++ '(' :: rest) =
      some (' ' :: (name.toList ++ '(' :: rest)) := by
    rw [Text.afterChars?_eq_some_iff]
    simp
  have hne : name.toList ≠ [] := fun heq => h.ne_empty (String.toList_inj.mp heq)
  unfold declaredName?
  rw [String.toList_ofList]
  have hname : className? ("class ".toList ++ name.toList ++ '(' :: rest) = some name.toList := by
    unfold className?
    rw [hclass]
    dsimp only
    rw [trimStartChars_space, h.trimStartChars, leadingWord_append h.word (by decide)]
    simp [hne, trimStartChars_cons (show Text.isBlank '(' = false by decide)]
  rw [hname]
  simp

theorem startsWith_word {lead : String} (hlead : ∀ c ∈ lead.toList, Text.isWord c = true)
    (h : Worded name) {rest : List Char}
    (hstart : Text.startsWith (lead ++ " ") (String.ofList (name.toList ++ ' ' :: rest)) = true) :
    name = lead := by
  unfold Text.startsWith Text.after? at hstart
  rw [Option.isSome_map, Option.isSome_iff_exists] at hstart
  obtain ⟨behind, hbehind⟩ := hstart
  have htext := Text.afterChars?_eq_some_iff.mp hbehind
  rw [String.toList_ofList, String.toList_append, List.append_assoc] at htext
  have hwords := congrArg (fun cs => (leadingWord cs).1) htext
  have hspace : Text.isWord ' ' = false := by decide
  rw [leadingWord_append h.word hspace] at hwords
  rw [show " ".toList ++ behind = ' ' :: behind from rfl, leadingWord_append hlead hspace] at hwords
  exact String.toList_inj.mp hwords

theorem className?_assignment (h : Worded name) (rest : List Char) :
    className? (name.toList ++ ' ' :: '=' :: rest) = none := by
  unfold className?
  split
  · rfl
  · rename_i behind hbehind
    have htext := Text.afterChars?_eq_some_iff.mp hbehind
    -- the name goes on behind the keyword, if it does at all
    obtain ⟨more, hname, rfl⟩ : ∃ more, name.toList = "class".toList ++ more ∧
        behind = more ++ ' ' :: '=' :: rest := by
      rcases List.append_eq_append_iff.mp htext with ⟨back, hback, hspace⟩ | ⟨more, hname, hmore⟩
      · cases back with
        | nil => exact ⟨[], by simpa using hback.symm, by simpa using hspace.symm⟩
        | cons c back =>
            obtain ⟨rfl, -⟩ := List.cons.inj hspace
            have hmem : ' ' ∈ "class".toList := hback ▸ by simp
            exact absurd hmem (by decide)
      · exact ⟨more, hname, hmore⟩
    dsimp only
    cases more with
    | nil =>
        rw [List.nil_append, trimStartChars_space,
          trimStartChars_cons (show Text.isBlank '=' = false by decide)]
        simp [leadingWord, show Text.isWord '=' = false by decide]
    | cons c more =>
        have hword := h.word c (by simp [hname])
        have hblank : Text.isBlank c = false :=
          Bool.eq_false_iff.mpr fun hb => absurd hword (by simp [Text.isWord_of_isBlank hb])
        rw [List.cons_append, trimStartChars_cons hblank]
        simp

theorem introduces_assignment (h : Readable name) (rest : List Char) :
    Introduces (String.ofList (name.toList ++ " = ".toList ++ rest)) name := by
  have htext : name.toList ++ " = ".toList ++ rest = name.toList ++ ' ' :: '=' :: ' ' :: rest := by
    simp
  rw [htext]
  constructor
  · unfold isImport
    rw [Bool.or_eq_false_iff]
    constructor
    · refine Bool.eq_false_iff.mpr fun hstart => h.ne_from ?_
      exact startsWith_word (List.all_eq_true.mp (by decide)) h.toWorded hstart
    · refine Bool.eq_false_iff.mpr fun hstart => h.ne_import ?_
      exact startsWith_word (List.all_eq_true.mp (by decide)) h.toWorded hstart
  · have hne : name.toList ≠ [] := fun heq => h.ne_empty (String.toList_inj.mp heq)
    have hassigned : assignedName? (name.toList ++ ' ' :: '=' :: ' ' :: rest) =
        some name.toList := by
      unfold assignedName?
      rw [leadingWord_append h.word (by decide)]
      have hequals : Text.isBlank '=' = false := by decide
      simp [hne, trimStartChars_space, trimStartChars_cons hequals]
    unfold declaredName?
    rw [String.toList_ofList, className?_assignment h.toWorded, hassigned]
    simp

/-! ## How declarations are written -/

/-- A line begins like a declaration of the name: a class with bases, or an assignment. -/
def Begins (name : String) (line : List Char) : Prop :=
  ∃ opening ∈ ["class " ++ name ++ "(", name ++ " = "], opening.toList <+: line

/-- One of the lines of a source begins like a declaration of the name. -/
def Announces (source name : String) : Prop :=
  ∃ line ∈ Text.splitChars '\n' source.toList, Begins name line

theorem introduces_of_begins (h : Readable name) {line : List Char} (hline : Begins name line) :
    Introduces (String.ofList line) name := by
  obtain ⟨opening, hopening, rest, rfl⟩ := hline
  simp only [List.mem_cons, List.not_mem_nil, or_false] at hopening
  rcases hopening with rfl | rfl
  · have hline : ("class " ++ name ++ "(").toList ++ rest =
        "class ".toList ++ name.toList ++ '(' :: rest := by simp
    rw [hline]
    exact introduces_class h.toWorded rest
  · have hline : (name ++ " = ").toList ++ rest = name.toList ++ " = ".toList ++ rest := by simp
    rw [hline]
    exact introduces_assignment h rest

theorem Begins.dropReturn (h : '\r' ∉ name.toList) {line : List Char}
    (hline : Begins name line) : Begins name (Text.dropReturn line) := by
  obtain ⟨opening, hopening, rest, rfl⟩ := hline
  refine ⟨opening, hopening, Text.dropReturn rest, (Text.dropReturn_append ?_ rest).symm⟩
  simp only [List.mem_cons, List.not_mem_nil, or_false] at hopening
  rcases hopening with rfl | rfl <;> simp [h]

/-- A line that begins like a declaration is not blank. -/
theorem Begins.exists_not_blank {line : List Char} (h : Begins name line) :
    ∃ c ∈ line, Text.isBlank c = false := by
  obtain ⟨opening, hopening, rest, rfl⟩ := h
  simp only [List.mem_cons, List.not_mem_nil, or_false] at hopening
  rcases hopening with rfl | rfl
  · exact ⟨'(', by simp, by decide⟩
  · exact ⟨'=', by simp, by decide⟩

/-- **A pushed source declares the names that its lines begin to declare.** -/
theorem declares_push_of_announces (h : Readable name) (set : DefinitionSet) {source : String}
    (hsource : Announces source name) : (set.push source).declares name = true := by
  obtain ⟨line, hm, hline⟩ := hsource
  obtain ⟨c, hc, -⟩ := hline.exists_not_blank
  rcases Text.mem_lines_of_mem_splitChars (List.ne_nil_of_mem hc) hm with hm | hm
  · exact declares_push_of_line set hm (introduces_of_begins h hline)
  · have hreturn : '\r' ∉ name.toList := fun hm => absurd (h.word _ hm) (by decide)
    exact declares_push_of_line set hm (introduces_of_begins h (hline.dropReturn hreturn))

theorem Announces.not_blank {source : String} (h : Announces source name) :
    Text.isBlankText source = false := by
  obtain ⟨line, hm, hline⟩ := h
  obtain ⟨c, hc, hblank⟩ := hline.exists_not_blank
  refine Bool.eq_false_iff.mpr fun hall => ?_
  have hc := List.all_eq_true.mp hall c (Text.subset_of_mem_splitChars hm hc)
  rw [hblank] at hc
  exact Bool.noConfusion hc

/-- Sources set one below the other write what each of them does. -/
theorem announces_join {sources : List String} :
    Announces (Text.join "\n" sources) name ↔ ∃ source ∈ sources, Announces source name := by
  have hmem {line : List Char} (hne : line ≠ []) :
      line ∈ Text.splitChars '\n' (Text.join "\n" sources).toList ↔
        ∃ source ∈ sources, line ∈ Text.splitChars '\n' source.toList := by
    unfold Text.join
    rw [String.toList_ofList, show "\n".toList = List.replicate (0 + 1) '\n' from rfl,
      Text.mem_splitChars_joinChars hne]
    constructor
    · rintro ⟨text, htext, hm⟩
      obtain ⟨source, hsource, rfl⟩ := List.mem_map.mp htext
      exact ⟨source, hsource, hm⟩
    · rintro ⟨source, hsource, hm⟩
      exact ⟨source.toList, List.mem_map_of_mem hsource, hm⟩
  constructor
  · rintro ⟨line, hm, hline⟩
    obtain ⟨c, hc, -⟩ := hline.exists_not_blank
    obtain ⟨source, hsource, hm⟩ := (hmem (List.ne_nil_of_mem hc)).mp hm
    exact ⟨source, hsource, line, hm, hline⟩
  · rintro ⟨source, hsource, line, hm, hline⟩
    obtain ⟨c, hc, -⟩ := hline.exists_not_blank
    exact ⟨line, (hmem (List.ne_nil_of_mem hc)).mpr ⟨source, hsource, hm⟩, hline⟩

/-! ## Sources one after the other -/

theorem honest_foldl_push (sources : List String) : (sources.foldl push empty).Honest := by
  refine @List.foldlRecOn _ _ Honest sources push _ honest_empty ?_
  exact fun set h source _ => h.push source

/-- A name that one of the pushed sources writes is declared, whatever else is pushed. -/
theorem declares_foldl_push (h : Readable name) {sources : List String} {source : String}
    (hm : source ∈ sources) (hsource : Announces source name) (set : DefinitionSet) :
    (sources.foldl push set).declares name = true := by
  obtain ⟨before, behind, rfl⟩ := List.append_of_mem hm
  rw [List.foldl_append, List.foldl_cons]
  refine @List.foldlRecOn _ _ (fun set => set.declares name = true) behind push _
    (declares_push_of_announces h _ hsource) ?_
  exact fun set hset source _ => declares_push_of_declares hset source

end DefinitionSet

end StubGen
