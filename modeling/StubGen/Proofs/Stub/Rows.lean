import StubGen.Proofs.Schema.Rereading
import StubGen.Stub.Table

/-!
# Rows that are read back

The declarations of a row stand in the stub of its table without the imports in front of them, line
for line: `split_declarations`. No line of a declaration looks like an import, and none but its own
looks like the beginning of the row: `begins_unique`.
-/

namespace StubGen

open Schema
open Text (splitChars)
open DefinitionSet (Begins Announces isImport Continues IsComment spread)

variable {name other line : String} {blocks : List Declaration}

namespace Schema

/-! ## Names that begin no import -/

/-- A name of characters of words that is no word an import begins with. -/
structure Tidy (name : String) : Prop where
  ne_empty : name ≠ ""
  chars : Spelled (isNamePart · = true) name
  notImport : name ∉ importWords

/-- All names that a document makes are so. -/
theorem naming_tidy : Naming Tidy where
  definition key :=
    ⟨Identifier.upperFirst_ne_empty (sanitize_ne_empty _),
      alphabet_isNamePart.spelled_definitionName key, definitionName_not_mem key⟩
  nested {parent} h property := by
    obtain ⟨cs, hcs⟩ : ∃ cs, (nestedName parent property).toList = '_' :: cs := by
      simp [nestedName]
    refine ⟨fun heq => ?_, alphabet_isNamePart.spelled_nestedName h.chars property, fun hm =>
      not_mem_takenNames_of_underscore hcs (importWords_subset hm)⟩
    rw [heq] at hcs
    exact absurd hcs (by simp)
  longer h hmore :=
    ⟨by simp [h.ne_empty], h.chars.append (alphabet_isNamePart.spelled_of_alphanum hmore.alphanum),
      fun hm => not_mem_takenNames_of_suffix hmore (importWords_subset hm)⟩

theorem isBlank_of_isNamePart {c : Char} (h : isNamePart c = true) : Text.isBlank c = false := by
  refine Bool.eq_false_iff.mpr fun hblank => ?_
  rw [isNamePart, Text.isIdentifierChar_of_isBlank hblank, Text.isWord_of_isBlank hblank] at h
  exact Bool.noConfusion h

theorem Tidy.solid (name : String) (h : Tidy name) : Solid name :=
  ⟨h.ne_empty, h.chars.mono fun _ => isBlank_of_isNamePart⟩

theorem Tidy.oneLine (name : String) (h : Tidy name) : OneLine name := h.solid.oneLine

theorem Tidy.not_mem (h : Tidy name) {c : Char} (hc : isNamePart c = false) : c ∉ name.toList :=
  fun hm => absurd (h.chars c hm) (by simp [hc])

theorem Tidy.exists_cons (h : Tidy name) :
    ∃ c cs, name.toList = c :: cs ∧ isNamePart c = true := by
  obtain ⟨c, cs, hname⟩ := List.exists_cons_of_ne_nil fun hnil =>
    h.ne_empty (String.toList_eq_nil_iff.mp hnil)
  exact ⟨c, cs, hname, h.chars c (hname ▸ List.mem_cons_self)⟩

end Schema

/-! ## Lines that begin a declaration -/

/-- A line begins a declaration as a class or as an assignment. -/
theorem begins_cases {line : List Char} (h : Begins name line) :
    (∃ rest, line = "class".toList ++ ' ' :: (name.toList ++ '(' :: rest)) ∨
      ∃ rest, line = name.toList ++ ' ' :: '=' :: rest := by
  obtain ⟨opening, hopening, rest, rfl⟩ := h
  simp only [List.mem_cons, List.not_mem_nil, or_false] at hopening
  rcases hopening with rfl | rfl
  · exact .inl ⟨rest, by simp⟩
  · exact .inr ⟨' ' :: rest, by simp⟩

theorem begins_exists_cons (h : Tidy name) {line : List Char} (hline : Begins name line) :
    ∃ c cs, line = c :: cs ∧ isNamePart c = true := by
  obtain ⟨rest, rfl⟩ | ⟨rest, rfl⟩ := begins_cases hline
  · exact ⟨'c', _, rfl, by decide⟩
  · obtain ⟨c, cs, hname, hc⟩ := h.exists_cons
    exact ⟨c, cs ++ ' ' :: '=' :: rest, by rw [hname]; rfl, hc⟩

/-- What stands behind the keyword of a class is no sign of equality. -/
theorem class_ne_assignment (h : Tidy name) (h' : Tidy other) (rest rest' : List Char) :
    "class".toList ++ ' ' :: (name.toList ++ '(' :: rest) ≠
      other.toList ++ ' ' :: '=' :: rest' := by
  intro heq
  obtain ⟨-, hbehind⟩ := Text.eq_of_append_sep (by decide) (h'.not_mem (by decide)) heq
  obtain ⟨c, cs, hname, hc⟩ := h.exists_cons
  rw [hname] at hbehind
  obtain ⟨rfl, -⟩ := List.cons.inj hbehind
  exact absurd hc (by decide)

/-- **A line begins the declaration of one name only.** -/
theorem begins_unique (h : Tidy name) (h' : Tidy other) {line : List Char}
    (hline : Begins name line) (hline' : Begins other line) : name = other := by
  rcases begins_cases hline with ⟨rest, rfl⟩ | ⟨rest, rfl⟩ <;>
    rcases begins_cases hline' with ⟨rest', heq⟩ | ⟨rest', heq⟩
  · have hbehind := (Text.eq_of_append_sep (by decide) (by decide) heq).2
    exact String.toList_inj.mp (Text.eq_of_append_sep (h.not_mem (by decide))
      (h'.not_mem (by decide)) hbehind).1
  · exact absurd heq (class_ne_assignment h h' _ _)
  · exact absurd heq.symm (class_ne_assignment h' h _ _)
  · exact String.toList_inj.mp (Text.eq_of_append_sep (h.not_mem (by decide))
      (h'.not_mem (by decide)) heq).1

/-- A line that begins a declaration is no import. -/
theorem isImport_of_begins (h : Tidy name) (hline : Begins name line.toList) :
    isImport line = false := by
  have hword : ∀ word ∈ importWords, Text.startsWith (word ++ " ") line = false := by
    intro word hm
    have hspace : ' ' ∉ word.toList := by
      revert word
      decide
    refine Bool.eq_false_iff.mpr fun hstart => ?_
    rw [Text.startsWith, Text.after?, Option.isSome_map, Option.isSome_iff_exists] at hstart
    obtain ⟨behind, hbehind⟩ := hstart
    have htext : line.toList = word.toList ++ ' ' :: behind := by
      simpa using Text.afterChars?_eq_some_iff.mp hbehind
    rcases begins_cases hline with ⟨rest, heq⟩ | ⟨rest, heq⟩
    · have hclass := (Text.eq_of_append_sep hspace (by decide) (htext.symm.trans heq)).1
      exact absurd (String.toList_inj.mp hclass ▸ hm) (by decide)
    · have hname := (Text.eq_of_append_sep hspace (h.not_mem (by decide)) (htext.symm.trans heq)).1
      exact h.notImport (String.toList_inj.mp hname ▸ hm)
  have hfrom := hword "from" (by decide)
  have himport := hword "import" (by decide)
  exact Bool.or_eq_false_iff.mpr ⟨hfrom, himport⟩

/-- A line inside a declaration or a comment begins none. -/
theorem not_begins_of_continues (h : Tidy name) (hline : Continues line ∨ IsComment line) :
    ¬ Begins name line.toList := by
  intro hbegins
  obtain ⟨c, cs, htext, hc⟩ := begins_exists_cons h hbegins
  rcases hline with (rfl | ⟨rest, hline | hline⟩) | ⟨rest, hline⟩
  · exact nomatch htext
  all_goals
    obtain ⟨rfl, -⟩ := List.cons.inj (htext.symm.trans hline)
    exact absurd hc (by decide)

theorem Schema.Declaration.Outline.begins {d : Declaration} {comments inner : List String}
    {header : String} (o : Outline d comments header inner) : Begins d.name header.toList := by
  refine ⟨d.opening, ?_, o.header⟩
  unfold Declaration.opening
  split <;> simp

/-- Each line of a declaration begins it, goes on with it or is a comment. -/
theorem kinds_of_line {d : Declaration} (h : d.Proper Tidy) (hm : line ∈ Text.split '\n' d.render) :
    (Continues line ∨ IsComment line) ∨ Begins d.name line.toList := by
  obtain ⟨comments, header, inner, o⟩ := Declaration.exists_outline (h.mono Tidy.oneLine)
  rw [o.lines] at hm
  rcases List.mem_append.mp hm with hm | hm
  · exact .inl (.inr (o.comments line hm))
  rcases List.mem_cons.mp hm with rfl | hm
  · exact .inr o.begins
  · exact .inl (.inl (o.inner line hm))

/-- Such a line is no import. -/
theorem isImport_of_kind (h : Tidy name)
    (hline : (Continues line ∨ IsComment line) ∨ Begins name line.toList) :
    isImport line = false := by
  rcases hline with (hline | ⟨rest, hline⟩) | hline
  · exact hline.reads.1
  · exact DefinitionSet.isImport_of_not_word hline (by decide)
  · exact isImport_of_begins h hline

/-! ## The lines of a row -/

namespace Schema.Declaration

theorem withoutReturn_toList (line : String) :
    (withoutReturn line).toList = Text.dropReturn line.toList := String.toList_ofList

/-- Without a carriage return a line goes on or begins as it did. -/
theorem kind_withoutReturn (h : Tidy name)
    (hline : (Continues line ∨ IsComment line) ∨ Begins name line.toList) :
    (Continues (withoutReturn line) ∨ IsComment (withoutReturn line)) ∨
      Begins name (withoutReturn line).toList := by
  have hcons : ∀ {c : Char} {rest : List Char}, c ≠ '\r' → line.toList = c :: rest →
      (withoutReturn line).toList = c :: Text.dropReturn rest := by
    intro c rest hc hline
    rw [withoutReturn_toList, hline]
    exact Text.dropReturn_append (show '\r' ∉ [c] by simpa using hc.symm) rest
  rcases hline with ((rfl | ⟨rest, hline | hline⟩) | ⟨rest, hline⟩) | hline
  · exact .inl (.inl (.inl rfl))
  · exact .inl (.inl (.inr ⟨_, .inl (hcons (by decide) hline)⟩))
  · exact .inl (.inl (.inr ⟨_, .inr (hcons (by decide) hline)⟩))
  · exact .inl (.inr ⟨_, hcons (by decide) hline⟩)
  · rw [withoutReturn_toList]
    exact .inr (hline.dropReturn (h.not_mem (by decide)))

theorem withoutReturn_of_endsLoud (h : EndsLoud line) : withoutReturn line = line := by
  obtain ⟨init, c, hline, hc⟩ := h
  have hne : c ≠ '\r' := fun heq => absurd (heq ▸ hc) (by decide)
  have hdrop : Text.dropReturn (init ++ [c]) = init ++ [c] := by simp [Text.dropReturn, hne]
  rw [withoutReturn, hline, hdrop, ← hline, String.ofList_toList]

theorem oneLine_withoutReturn (h : OneLine line) : OneLine (withoutReturn line) := by
  unfold OneLine at *
  rw [withoutReturn_toList]
  exact fun hm => h (Text.dropReturn_subset _ hm)

/-- The lines of declarations, two empty ones between each two, without carriage returns at their
ends. -/
def linesOf (blocks : List Declaration) : List String :=
  (spread (blocks.map fun d => Text.split '\n' d.render)).map withoutReturn

theorem oneLine_of_mem_linesOf (hm : line ∈ linesOf blocks) : OneLine line := by
  obtain ⟨whole, hwhole, rfl⟩ := List.mem_map.mp hm
  refine oneLine_withoutReturn ?_
  obtain rfl | ⟨sheet, hsheet, hline⟩ := DefinitionSet.mem_spread hwhole
  · decide
  · obtain ⟨d, -, rfl⟩ := List.mem_map.mp hsheet
    obtain ⟨piece, hpiece, rfl⟩ := List.mem_map.mp hline
    rw [OneLine, String.toList_ofList]
    exact Text.not_mem_of_mem_splitChars hpiece

/-- Each line of declarations is empty, or one of a declaration. -/
theorem kind_of_mem_linesOf (h : ∀ d ∈ blocks, d.Proper Tidy) (hm : line ∈ linesOf blocks) :
    line = "" ∨ ∃ d ∈ blocks,
      (Continues line ∨ IsComment line) ∨ Begins d.name line.toList := by
  obtain ⟨whole, hwhole, rfl⟩ := List.mem_map.mp hm
  obtain rfl | ⟨sheet, hsheet, hline⟩ := DefinitionSet.mem_spread hwhole
  · exact .inl rfl
  · obtain ⟨d, hd, rfl⟩ := List.mem_map.mp hsheet
    exact .inr ⟨d, hd, kind_withoutReturn (h d hd).name (kinds_of_line (h d hd) hline)⟩

theorem isImport_of_mem_linesOf (h : ∀ d ∈ blocks, d.Proper Tidy) (hm : line ∈ linesOf blocks) :
    isImport line = false := by
  obtain rfl | ⟨d, hd, hkind⟩ := kind_of_mem_linesOf h hm
  · decide
  · exact isImport_of_kind (h d hd).name hkind

/-- What is declared is announced by the lines. -/
theorem announces_linesOf (h : ∀ d ∈ blocks, d.Proper Tidy) {d : Declaration} (hd : d ∈ blocks) :
    Announces (Text.join "\n" (linesOf blocks)) d.name := by
  obtain ⟨comments, header, inner, o⟩ := exists_outline ((h d hd).mono Tidy.oneLine)
  have hlines : Text.split '\n' d.render ∈ blocks.map fun d => Text.split '\n' d.render :=
    List.mem_map_of_mem hd
  have hheader : header ∈ Text.split '\n' d.render := by simp [o.lines]
  have hm : withoutReturn header ∈ linesOf blocks :=
    List.mem_map_of_mem (DefinitionSet.subset_spread hlines hheader)
  have hbegins : Begins d.name (withoutReturn header).toList := by
    rw [withoutReturn_toList]
    exact o.begins.dropReturn ((h d hd).name.not_mem (by decide))
  have hone := Text.splitChars_of_not_mem (oneLine_of_mem_linesOf hm)
  exact DefinitionSet.announces_join.mpr ⟨_, hm, _, hone ▸ List.mem_singleton_self _, hbegins⟩

/-- Declarations begin with a line that is not blank. -/
theorem linesOf_head (hne : blocks ≠ []) (h : ∀ d ∈ blocks, d.Proper Tidy) :
    ∃ first rest, linesOf blocks = first :: rest ∧
      ∃ c cs, first.toList = c :: cs ∧ Text.isBlank c = false := by
  obtain ⟨d, ds, rfl⟩ := List.exists_cons_of_ne_nil hne
  obtain ⟨first, inner, hlines, c, cs, hfirst, hc⟩ : ∃ first inner,
      Text.split '\n' d.render = first :: inner ∧
        ∃ c cs, first.toList = c :: cs ∧ Text.isBlank c = false := by
    have hd := h d List.mem_cons_self
    obtain ⟨comments, header, inner, o⟩ := exists_outline (hd.mono Tidy.oneLine)
    -- the first line is the header or a comment in front of it
    cases comments with
    | nil =>
        obtain ⟨c, cs, hheader, hc⟩ := begins_exists_cons hd.name o.begins
        exact ⟨header, inner, o.lines, c, cs, hheader, isBlank_of_isNamePart hc⟩
    | cons comment comments =>
        obtain ⟨rest, hcomment⟩ := o.comments comment List.mem_cons_self
        exact ⟨comment, _, o.lines, '#', rest, hcomment, by decide⟩
  have hreturn : c ≠ '\r' := fun heq => absurd (heq ▸ hc) (by decide)
  have hdrop : (withoutReturn first).toList = c :: Text.dropReturn cs := by
    rw [withoutReturn_toList, hfirst]
    exact Text.dropReturn_append (show '\r' ∉ [c] by simpa using hreturn.symm) cs
  obtain ⟨behind, hspread⟩ : ∃ behind,
      spread ((d :: ds).map fun d => Text.split '\n' d.render) = first :: behind := by
    rw [List.map_cons, hlines]
    cases ds with
    | nil => exact ⟨inner, rfl⟩
    | cons next ds => exact ⟨_, rfl⟩
  exact ⟨withoutReturn first, behind.map withoutReturn, by rw [linesOf, hspread, List.map_cons], c,
    _, hdrop, hc⟩

/-- Declarations end with a line that does not end in white space. -/
theorem linesOf_last (hne : blocks ≠ []) (h : ∀ d ∈ blocks, d.Proper Tidy) :
    ∃ init last, linesOf blocks = init ++ [last] ∧ EndsLoud last := by
  obtain ⟨others, d, rfl⟩ : ∃ others d, blocks = others ++ [d] :=
    ⟨_, _, (List.dropLast_concat_getLast hne).symm⟩
  have hd := h d (by simp)
  obtain ⟨front, last, hlast, hloud⟩ := (endsLoud_render (hd.mono Tidy.solid)).last
  obtain ⟨before, hspread, -, -⟩ := DefinitionSet.spread_concat
    (others.map fun d => Text.split '\n' d.render) (Text.split '\n' d.render)
  refine ⟨(before ++ front).map withoutReturn, last, ?_, hloud⟩
  rw [linesOf, List.map_append, List.map_singleton, hspread, hlast, ← List.append_assoc,
    List.map_append, List.map_singleton, withoutReturn_of_endsLoud hloud]

/-- What is not blank at either end is all that is left when it is trimmed. -/
theorem trim_newlines {text : String} {c : Char} {cs : List Char} (hfirst : text.toList = c :: cs)
    (hc : Text.isBlank c = false) (h : EndsLoud text) : Text.trim ("\n\n" ++ text) = text := by
  obtain ⟨init, d, htext, hd⟩ := h
  have hkept : Text.trimEndChars (c :: cs) = c :: cs := by
    rw [← hfirst, htext, Text.trimEndChars_eq_self_iff (by simp), List.getLast_concat]
    exact hd
  have hlead : ("\n\n" ++ text).toList = ['\n', '\n'] ++ c :: cs := by simp [hfirst]
  rw [Text.trim, hlead, Text.trimChars_append (List.all_eq_true.mp (by decide)) hc,
    ← Text.trimEndChars_cons hc, hkept,    ← hfirst, String.ofList_toList]

end Schema.Declaration

namespace Row

open Schema.Declaration (linesOf withoutReturn)

/-- **The declarations of a row stand in the stub of its table line for line**, without the imports
in front of them. -/
theorem split_declarations {schema : Json} {row source : String}
    (hroot : rootName schema row "Dict" = name) (hname : Tidy name)
    (hok : builtinEngine (normalizeEnums schema) name = .ok source)
    (hblocks : Schema.declarations ⟨normalizeEnums schema, name, defaultMaxDepth⟩ = .ok blocks) :
    Row.declarations builtinEngine schema row = Text.join "\n" (linesOf blocks) := by
  have hproper := proper_declarations naming_tidy hname hblocks
  have hne : blocks ≠ [] := by
    rintro rfl
    exact absurd (closed_declarations hblocks).root_once (by simp)
  have hmodule : source = Declaration.renderModule blocks := by
    have hgenerate : (Schema.declarations ⟨normalizeEnums schema, name, defaultMaxDepth⟩).map
        Declaration.renderModule = .ok source := hok
    rw [hblocks] at hgenerate
    exact (Except.ok.inj hgenerate).symm
  have hrender : Schema.render builtinEngine schema row "Dict" = ⟨name, source⟩ := by
    rw [Schema.render, hroot, hok]
    exact congrArg _ (cleanExamples_of_generate (Tidy.oneLine name hname) hok)
  have hblank := (announces_generate (Tidy.oneLine name hname) hok).not_blank
  obtain ⟨first, rest, hfirst, c, cs, hchars, hc⟩ := Declaration.linesOf_head hne hproper
  obtain ⟨init, last, hlast, hloud⟩ := Declaration.linesOf_last hne hproper
  -- of the module only the imports go, which leaves two empty lines in front
  have hkept : (Text.lines source).filter (fun line => !isImport line) =
      "" :: "" :: linesOf blocks := by
    have himports : Declaration.importLines.filter (fun line => !isImport line) = [] := by decide
    have hempty : (!isImport "") = true := by decide
    rw [hmodule, Declaration.lines_renderModule hne, List.filter_append, himports,
      List.nil_append, List.filter_cons, if_pos hempty, List.filter_cons, if_pos hempty]
    refine congrArg (fun lines => "" :: "" :: lines) (List.filter_eq_self.mpr fun line hm => ?_)
    simp [Declaration.isImport_of_mem_linesOf hproper hm]
  have hjoin : Text.join "\n" ("" :: "" :: linesOf blocks) =
      "\n\n" ++ Text.join "\n" (linesOf blocks) := by
    rw [Text.join_cons_cons, hfirst, Text.join_cons_cons, ← String.toList_inj]
    simp
  -- neither end of what is left is blank, so trimming removes just the empty lines
  have hends : EndsLoud (Text.join "\n" (linesOf blocks)) :=
    endsLoud_join (by rw [hlast, List.getLast?_concat]) hloud
  obtain ⟨behind, hbehind⟩ := Text.join_cons "\n" first rest
  have hbegins : (Text.join "\n" (linesOf blocks)).toList = c :: (cs ++ behind.toList) := by
    rw [hfirst, hbehind, String.toList_append, hchars]
    rfl
  unfold Row.declarations
  rw [hrender]
  dsimp only
  rw [if_pos (by simp [Resolution.hasDefinition, hblank]), hkept, hjoin,
    Declaration.trim_newlines hbegins hc hends]

/-- The lines of the row, as they are read. -/
theorem lines_declarations (hne : blocks ≠ []) (hproper : ∀ d ∈ blocks, d.Proper Tidy) :
    Text.lines (Text.join "\n" (linesOf blocks)) = (linesOf blocks).map withoutReturn := by
  obtain ⟨first, rest, hfirst, -⟩ := Declaration.linesOf_head hne hproper
  obtain ⟨init, last, hlast, hloud⟩ := Declaration.linesOf_last hne hproper
  have hsplit : Text.split '\n' (Text.join "\n" (linesOf blocks)) = linesOf blocks :=
    Declaration.split_join_of_oneLine (hfirst ▸ List.cons_ne_nil _ _) fun line hm =>
      Declaration.oneLine_of_mem_linesOf hm
  have hends : ∀ piece ∈ (splitChars '\n' (Text.join "\n" (linesOf blocks)).toList).getLast?,
      piece ≠ [] ∧ Text.dropReturn piece = piece := by
    intro piece hm
    have hpiece := congrArg List.getLast? hsplit
    rw [Text.split, List.getLast?_map, Option.mem_def.mp hm, hlast, List.getLast?_concat,
      Option.map_some] at hpiece
    obtain rfl := Option.some.inj hpiece
    have hkept := congrArg String.toList (Declaration.withoutReturn_of_endsLoud hloud)
    rw [Declaration.withoutReturn_toList, String.toList_ofList] at hkept
    exact ⟨fun hnil => hloud.ne_empty (by rw [hnil]), hkept⟩
  rw [← Text.lines_newline_of_last hends, Text.lines_newline]
  conv => rhs; rw [← hsplit, Text.split, List.map_map]
  rw [List.map_map]
  exact List.map_congr_left fun piece _ => by simp [withoutReturn]

end Row

end StubGen
