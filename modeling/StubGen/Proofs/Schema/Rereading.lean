import StubGen.Proofs.Schema.Layout
import StubGen.Proofs.Schema.Legality
import StubGen.Proofs.Stub.Sheets
import StubGen.Proofs.Text.Segments

/-!
# Declarations that are read back

The text of a declaration is a sheet: at most one comment, a line that introduces its name, and
lines that go on with it, be they further in, empty or a closing brace. So a module of declarations
is read back as what it was written from: `push_renderModule`. That takes names that are words,
which they are when the keys and properties of the document are ASCII, and texts without carriage
returns. Only a name that makes a line look like an import is in the way, and no name does so in
front of a class.
-/

namespace StubGen

open Text (isBlank isBlankText splitChars)
open DefinitionSet (IsComment Continues Sheet Introduces Worded Readable)

namespace Schema

variable {name root : String} {schema inner outer document : Json}

/-! ## Texts that end with a sign -/

/-- The last character of a text is not white space. -/
def EndsLoud (text : String) : Prop := ∃ init c, text.toList = init ++ [c] ∧ isBlank c = false

theorem EndsLoud.append {text : String} (h : EndsLoud text) (lead : String) :
    EndsLoud (lead ++ text) := by
  obtain ⟨init, c, htext, hc⟩ := h
  exact ⟨lead.toList ++ init, c, by simp [htext], hc⟩

theorem EndsLoud.ne_empty {text : String} (h : EndsLoud text) : text ≠ "" := by
  rintro rfl
  obtain ⟨init, c, htext, -⟩ := h
  simp at htext

theorem endsLoud_join {sep : String} {pieces : List String} {last : String}
    (hlast : pieces.getLast? = some last) (h : EndsLoud last) :
    EndsLoud (Text.join sep pieces) := by
  induction pieces with
  | nil => simp at hlast
  | cons piece pieces ih =>
      cases pieces with
      | nil =>
          obtain rfl : piece = last := by simpa using hlast
          have hjoin : Text.join sep [piece] = piece := by simp [Text.join, Text.joinChars]
          rwa [hjoin]
      | cons next pieces =>
          rw [Text.join_cons_cons]
          exact (ih (by simpa using hlast)).append _

theorem EndsLoud.not_blank {text : String} (h : EndsLoud text) : isBlankText text = false := by
  obtain ⟨init, c, htext, hc⟩ := h
  rw [isBlankText, htext]
  simp [hc]

/-- The last line of such a text ends so too. -/
theorem EndsLoud.last {text : String} (h : EndsLoud text) :
    ∃ front last, Text.split '\n' text = front ++ [last] ∧ EndsLoud last := by
  obtain ⟨init, c, htext, hc⟩ := h
  obtain ⟨front, last, first, rest, -, hsingle, happend⟩ := Text.splitChars_append '\n' init [c]
  have hne : c ≠ '\n' := fun heq => absurd (heq ▸ hc) (by decide)
  rw [Text.splitChars_of_not_mem (by simpa using hne.symm)] at hsingle
  obtain ⟨rfl, rfl⟩ := List.cons.inj hsingle
  refine ⟨front.map String.ofList, String.ofList (last ++ [c]), ?_, last, c, ?_, hc⟩
  · rw [Text.split, htext, happend, List.map_append, List.map_singleton]
  · rw [String.toList_ofList]

theorem TypeExpr.endsLoud_render (expr : TypeExpr) : EndsLoud expr.render := by
  have hquote : EndsLoud "\"" := ⟨[], '"', rfl, by decide⟩
  have hclose : EndsLoud "]" := ⟨[], ']', rfl, by decide⟩
  cases expr with
  | any => exact ⟨['A', 'n'], 'y', by decide, by decide⟩
  | none => exact ⟨['N', 'o', 'n'], 'e', by decide, by decide⟩
  | str => exact ⟨['s', 't'], 'r', by decide, by decide⟩
  | int => exact ⟨['i', 'n'], 't', by decide, by decide⟩
  | float => exact ⟨['f', 'l', 'o', 'a'], 't', by decide, by decide⟩
  | bool => exact ⟨['b', 'o', 'o'], 'l', by decide, by decide⟩
  | ref name => exact hquote.append _
  | _ =>
      rw [TypeExpr.render]
      exact hclose.append _

/-- A name that has characters, and no white space among them. -/
structure Solid (name : String) : Prop where
  ne_empty : name ≠ ""
  solid : Spelled (isBlank · = false) name

theorem solid_of_worded (name : String) (h : Worded name) : Solid name where
  ne_empty := h.ne_empty
  solid c hm := Bool.eq_false_iff.mpr fun hblank => by
    have hword := h.word c hm
    rw [Text.isWord_of_isBlank hblank] at hword
    exact Bool.noConfusion hword

theorem Solid.oneLine (name : String) (h : Solid name) : OneLine name :=
  fun hm => absurd (h.solid _ hm) (by decide)

theorem Solid.endsLoud (h : Solid name) : EndsLoud name := by
  have hne : name.toList ≠ [] := fun heq => h.ne_empty (String.toList_inj.mp heq)
  exact ⟨name.toList.dropLast, name.toList.getLast hne,
    (List.dropLast_concat_getLast hne).symm, h.solid _ (List.getLast_mem hne)⟩

theorem endsLoud_renderAlias {expr : TypeExpr} (h : expr.Proper Solid) :
    EndsLoud expr.renderAlias := by
  unfold TypeExpr.renderAlias
  split
  · exact Solid.endsLoud h
  · exact expr.endsLoud_render

theorem endsLoud_typeText (field : Field) : EndsLoud field.typeText := by
  have hclose : EndsLoud "]" := ⟨[], ']', rfl, by decide⟩
  unfold Field.typeText
  split
  · exact hclose.append _
  · exact field.type.endsLoud_render

theorem endsLoud_docLine (doc : String) : EndsLoud (Declaration.docLine doc) := by
  have hquotes : EndsLoud " \"\"\"" := ⟨[' ', '"', '"'], '"', by decide, by decide⟩
  exact hquotes.append _

/-! ## Texts without carriage returns -/

/-- A text without carriage returns. -/
abbrev Returnless (text : String) : Prop := Spelled (· ≠ '\r') text

theorem returnless_iff {text : String} : Returnless text ↔ '\r' ∉ text.toList :=
  ⟨fun h hm => h _ hm rfl, fun h _ hm heq => h (heq ▸ hm)⟩

theorem Returnless.of_flat {text : String} (h : Flat text) : Returnless text :=
  h.mono fun _ hc heq => hc (.inr heq)

/-- What is no line end is no carriage return. -/
theorem ne_return (c : Char) (h : ¬ IsLineEnd c) : c ≠ '\r' := fun heq => h (.inr heq)

theorem returnless_of_worded (name : String) (h : Worded name) : Returnless name :=
  fun c hm heq => absurd (heq ▸ h.word c hm) (by decide)

/-! ## The text of a declaration is a sheet -/

namespace Declaration

/-- Whether a declaration is written as a class. -/
def isClass : Declaration → Bool
  | .record _ _ fields => fitsClass fields
  | .alias _ _ => false

/-- How the line goes on that a declaration opens with. -/
def opening (d : Declaration) : String :=
  if d.isClass then "class " ++ d.name ++ "(" else d.name ++ " = "

/-- The lines of a declaration: comments at the margin, the line that opens it, and lines that go
on with it. -/
structure Outline (d : Declaration) (comments : List String) (header : String)
    (inner : List String) : Prop where
  lines : Text.split '\n' d.render = comments ++ header :: inner
  comments : ∀ line ∈ comments, IsComment line
  header : d.opening.toList <+: header.toList
  inner : ∀ line ∈ inner, Continues line

theorem continues_of_inner {text : String} (h : Inner text) :
    ∀ line ∈ Text.split '\n' text, Continues line := by
  intro line hm
  obtain ⟨piece, hpiece, rfl⟩ := List.mem_map.mp hm
  obtain ⟨rest, rfl⟩ := h piece hpiece
  exact .inr ⟨rest, .inl String.toList_ofList⟩

/-- The lines of pieces that are set one below the other. -/
theorem split_join_lines {pieces : List String} (hne : pieces ≠ []) :
    Text.split '\n' (Text.join "\n" pieces) = pieces.flatMap (Text.split '\n') :=
  Text.split_join_eq_flatMap hne

theorem split_of_oneLine {text : String} (h : OneLine text) : Text.split '\n' text = [text] :=
  Text.split_of_not_mem h

theorem getLast?_dropTrailingEmpty (lines : List String) :
    ∀ line ∈ (dropTrailingEmpty lines).getLast?, line ≠ "" := by
  intro line hm
  rw [dropTrailingEmpty, List.getLast?_reverse] at hm
  have hloud := List.head?_dropWhile_not (fun line : String => line.isEmpty) lines.reverse
  rw [Option.mem_def.mp hm] at hloud
  rintro rfl
  exact absurd hloud (by decide)

/-- The pieces of a class are empty or end with a sign. -/
theorem endsLoud_classLines {doc : Option String} {fields : List Field} :
    ∀ piece ∈ classLines name doc fields, piece = "" ∨ EndsLoud piece := by
  intro piece hm
  have hm := (prefix_dropTrailingEmpty _).subset hm
  simp only [List.mem_append, List.mem_singleton, List.mem_flatMap] at hm
  rcases hm with (rfl | hm) | ⟨field, -, hm⟩
  · have hcolon : EndsLoud "(TypedDict, total=False):" :=
      ⟨"(TypedDict, total=False)".toList, ':', by decide, by decide⟩
    exact .inr (hcolon.append _)
  · cases doc with
    | none => exact absurd hm List.not_mem_nil
    | some text =>
        rcases List.mem_cons.mp hm with rfl | hm
        · exact .inr (endsLoud_docLine text)
        · exact .inl (List.mem_singleton.mp hm)
  · simp only [classField, List.mem_append, List.mem_singleton, Option.mem_toList,
      Option.map_eq_some_iff] at hm
    rcases hm with (rfl | ⟨text, -, rfl⟩) | rfl
    · exact .inr ((endsLoud_typeText field).append _)
    · exact .inr (endsLoud_docLine text)
    · exact .inl rfl

theorem outline_class (hname : OneLine name) (doc : Option String) {fields : List Field}
    (hfits : fitsClass fields = true) (htypes : ∀ field ∈ fields, field.type.Proper OneLine) :
    ∃ header inner, Outline (.record name doc fields) [] header inner := by
  obtain ⟨body, hlines, hbody⟩ := classLines_eq name doc hfits htypes
  have hfirst : OneLine ("class " ++ name ++ "(TypedDict, total=False):") :=
    hname.between (by decide) (by decide)
  refine ⟨"class " ++ name ++ "(TypedDict, total=False):", body.flatMap (Text.split '\n'),
    ?_, by simp, ⟨"TypedDict, total=False):".toList, ?_⟩, fun line hm => ?_⟩
  · rw [render, if_pos hfits, hlines, split_join_lines (List.cons_ne_nil _ _), List.flatMap_cons,
      split_of_oneLine hfirst]
    rfl
  · simp [opening, isClass, hfits, Declaration.name]
  · obtain ⟨piece, hpiece, hm⟩ := List.mem_flatMap.mp hm
    rcases hbody piece hpiece with hinner | rfl
    · exact continues_of_inner hinner line hm
    · exact .inl (List.mem_singleton.mp hm)

/-- What a record is written as by its keys is pieces of one line each. -/
theorem oneLine_keyedLines (hname : OneLine name) (doc : Option String) {fields : List Field}
    (htypes : ∀ field ∈ fields, field.type.Proper OneLine) :
    ∀ piece ∈ keyedLines name doc fields, OneLine piece := by
  intro piece hm
  simp only [keyedLines, List.mem_append, List.mem_singleton, Option.mem_toList,
    Option.map_eq_some_iff, List.mem_flatMap] at hm
  rcases hm with ((⟨text, -, rfl⟩ | rfl) | ⟨field, hfield, hm⟩) | rfl
  · exact OneLine.append (by decide) (not_mem_comment text)
  · exact oneLine_keyedHeader hname
  · exact (keyedField_cases (htypes field hfield) piece hm).1
  · decide

/-- Pieces of one line each, set one below the other, are the lines of the text. -/
theorem split_join_of_oneLine {pieces : List String} (hne : pieces ≠ [])
    (h : ∀ piece ∈ pieces, OneLine piece) : Text.split '\n' (Text.join "\n" pieces) = pieces :=
  Text.split_join hne h

theorem outline_keyed (hname : OneLine name) (doc : Option String) {fields : List Field}
    (hfits : fitsClass fields = false) (htypes : ∀ field ∈ fields, field.type.Proper OneLine) :
    ∃ comments header inner, Outline (.record name doc fields) comments header inner := by
  -- the comment, the line with the name, and what is in the brackets
  let comments := (doc.map fun text => "# " ++ Quoting.comment text).toList
  let call := name ++ " = TypedDict(" ++ Quoting.literal name ++ ", \x7b"
  let entries := fields.flatMap keyedField ++ ["\x7d, total=False)"]
  have hpieces : keyedLines name doc fields = comments ++ call :: entries := by
    simp [keyedLines, comments, call, entries]
  refine ⟨comments, call, entries, ?_, fun line hm => ?_,
    ⟨("TypedDict(" ++ Quoting.literal name ++ ", \x7b").toList, ?_⟩, fun line hm => ?_⟩
  · have hflat := oneLine_keyedLines hname doc htypes
    rw [render, if_neg (by simp [hfits]), split_join_of_oneLine (by simp [keyedLines]) hflat,
      hpieces]
  · obtain ⟨text, -, rfl⟩ := Option.map_eq_some_iff.mp (Option.mem_toList.mp hm)
    exact ⟨' ' :: (Quoting.comment text).toList, by simp⟩
  · simp [opening, isClass, hfits, Declaration.name, call]
  · rcases List.mem_append.mp hm with hm | hm
    · obtain ⟨field, hfield, hm⟩ := List.mem_flatMap.mp hm
      obtain ⟨-, c, cs, htext, -⟩ := keyedField_cases (htypes field hfield) line hm
      exact .inr ⟨_, .inl htext⟩
    · rw [List.mem_singleton.mp hm]
      exact .inr ⟨", total=False)".toList, .inr (by decide)⟩

/-- Every declaration has an outline. -/
theorem exists_outline {d : Declaration} (h : d.Proper OneLine) :
    ∃ comments header inner, Outline d comments header inner := by
  cases d with
  | «alias» name type =>
      have hline : OneLine (name ++ " = " ++ type.renderAlias) :=
        (h.1.append (by decide)).append (oneLine_renderAlias h.2)
      exact ⟨[], name ++ " = " ++ type.renderAlias, [], split_of_oneLine hline, by simp,
        ⟨type.renderAlias.toList, by simp [opening, isClass, Declaration.name]⟩, by simp⟩
  | record name doc fields =>
      cases hfits : fitsClass fields with
      | true => exact ⟨[], outline_class h.1 doc hfits h.2⟩
      | false => exact outline_keyed h.1 doc hfits h.2

/-- The text of a declaration does not end in white space. -/
theorem endsLoud_render {d : Declaration} (h : d.Proper Solid) : EndsLoud d.render := by
  cases d with
  | «alias» name type => exact (endsLoud_renderAlias h.2).append _
  | record name doc fields =>
      rw [render]
      split
      · obtain ⟨body, hlines, -⟩ := classLines_eq name doc ‹_› fun field hm =>
          TypeExpr.Proper.mono Solid.oneLine (h.2 field hm)
        obtain ⟨last, hlast⟩ : ∃ last, (classLines name doc fields).getLast? = some last :=
          ⟨_, by rw [hlines]; exact List.getLast?_eq_some_getLast (List.cons_ne_nil _ _)⟩
        have hne : last ≠ "" := getLast?_dropTrailingEmpty _ last hlast
        exact endsLoud_join hlast
          ((endsLoud_classLines last (List.mem_of_getLast? hlast)).resolve_left hne)
      · have hlast : (keyedLines name doc fields).getLast? = some "\x7d, total=False)" := by
          rw [keyedLines, List.getLast?_concat]
        exact endsLoud_join hlast ⟨"\x7d, total=False".toList, ')', by decide, by decide⟩

/-- **The text of a declaration is a sheet of its name,** if it is a class or the name does not
look like the beginning of an import. -/
theorem sheet_render {d : Declaration} (h : d.Proper Worded)
    (hread : d.isClass = true ∨ Readable d.name) : Sheet d.name (Text.split '\n' d.render) := by
  have hsolid := h.mono solid_of_worded
  obtain ⟨comments, header, inner, o⟩ := exists_outline (hsolid.mono Solid.oneLine)
  obtain ⟨front, last, hlast, hloud⟩ := (endsLoud_render hsolid).last
  refine ⟨⟨comments, header, inner, o.lines, o.comments, ?_, o.inner⟩, fun line hm => ?_⟩
  case refine_2 =>
    rw [hlast, List.getLast?_concat, Option.mem_some_iff] at hm
    exact hm ▸ hloud.not_blank
  obtain ⟨rest, hheader⟩ := o.header
  rw [← String.ofList_toList (s := header), ← hheader, opening]
  split
  · have hline : ("class " ++ d.name ++ "(").toList ++ rest =
        "class ".toList ++ d.name.toList ++ '(' :: rest := by simp
    rw [hline]
    exact DefinitionSet.introduces_class h.name rest
  · rename_i hclass
    rw [String.toList_append]
    exact DefinitionSet.introduces_assignment (hread.resolve_left hclass) rest

/-! ## Declarations have no carriage returns -/

theorem returnless_comment (text : String) : Returnless (Quoting.comment text) :=
  returnless_iff.mpr (not_mem_comment_of_isBlank (by decide) (by decide) text)

theorem returnless_docLine {doc : String} (h : Returnless doc) : Returnless (docLine doc) := by
  have hquoted : Returnless (Quoting.docstring (Text.trim doc)) := by
    refine returnless_iff.mpr fun hm => ?_
    exact (mem_docstring_trim hm).elim (by decide) (returnless_iff.mp h)
  have hbody : Returnless
      (Quoting.indentContinuation "    " (Quoting.docstring (Text.trim doc))) := by
    refine spelled_join (returnless_iff.mpr (by decide)) fun piece hpiece c hm => ?_
    obtain ⟨line, hline, rfl⟩ := List.mem_map.mp hpiece
    rw [String.toList_ofList] at hm
    exact hquoted c (Text.subset_of_mem_splitChars hline hm)
  exact ((Returnless.of_flat (by decide)).append hbody).append (Returnless.of_flat (by decide))

theorem returnless_classLines (hname : Returnless name) {doc : Option String}
    (hdoc : ∀ text ∈ doc, Returnless text) {fields : List Field} (hfits : fitsClass fields = true)
    (hfields : ∀ field ∈ fields, field.type.Proper Returnless ∧
      ∀ text ∈ field.doc, Returnless text) :
    ∀ piece ∈ classLines name doc fields, Returnless piece := by
  intro piece hm
  have hm := (prefix_dropTrailingEmpty _).subset hm
  simp only [List.mem_append, List.mem_singleton, List.mem_flatMap] at hm
  rcases hm with (rfl | hm) | ⟨field, hfield, hm⟩
  · exact hname.between ne_return (by decide) (by decide)
  · -- documentation is free text, but it has been asked to have no carriage return
    cases doc with
    | none => exact absurd hm List.not_mem_nil
    | some text =>
        rcases List.mem_cons.mp hm with rfl | hm
        · exact returnless_docLine (hdoc text rfl)
        · rw [List.mem_singleton.mp hm]
          exact Returnless.of_flat (by decide)
  · simp only [classField, List.mem_append, List.mem_singleton, Option.mem_toList,
      Option.map_eq_some_iff] at hm
    rcases hm with (rfl | ⟨text, htext, rfl⟩) | rfl
    · have hfield' : Returnless field.name := by
        have hchars := isFieldName_chars (List.all_eq_true.mp hfits field hfield)
        exact fun c hm heq => absurd (hchars c hm) (by rw [heq]; decide)
      exact (hfield'.between ne_return (by decide) (by decide)).append
        (spelled_typeText ne_return (hfields field hfield).1)
    · exact returnless_docLine ((hfields field hfield).2 text htext)
    · exact Returnless.of_flat (by decide)

theorem returnless_keyedLines (hname : Returnless name) (doc : Option String)
    {fields : List Field} (htypes : ∀ field ∈ fields, field.type.Proper Returnless) :
    ∀ piece ∈ keyedLines name doc fields, Returnless piece := by
  intro piece hm
  simp only [keyedLines, keyedField, List.mem_append, List.mem_singleton, Option.mem_toList,
    Option.map_eq_some_iff, List.mem_flatMap] at hm
  rcases hm with ((⟨text, -, rfl⟩ | rfl) | ⟨field, hfield, ⟨text, -, rfl⟩ | rfl⟩) | rfl
  · exact (Returnless.of_flat (by decide)).append (returnless_comment text)
  · exact (((hname.append (Returnless.of_flat (by decide))).append
      (Returnless.of_flat (flat_literal name)))).append (Returnless.of_flat (by decide))
  · exact (Returnless.of_flat (by decide)).append (returnless_comment text)
  · exact (((Returnless.of_flat (flat_literal field.name)).between ne_return (by decide)
      (by decide)).append (spelled_typeText ne_return (htypes field hfield))).append
        (Returnless.of_flat (by decide))
  · exact Returnless.of_flat (by decide)

theorem returnless_render {d : Declaration} (h : d.Proper Worded)
    (hdocs : ∀ text ∈ d.docs, Returnless text) : Returnless d.render := by
  have hproper := h.mono returnless_of_worded
  cases d with
  | «alias» name type =>
      exact (hproper.1.append (Returnless.of_flat (by decide))).append
        (spelled_renderAlias ne_return hproper.2)
  | record name doc fields =>
      have hdoc : ∀ text ∈ doc, Returnless text := fun text hm =>
        hdocs text (List.mem_append_left _ (Option.mem_toList.mpr hm))
      have hfields : ∀ field ∈ fields, field.type.Proper Returnless ∧
          ∀ text ∈ field.doc, Returnless text := fun field hfield =>
        ⟨hproper.2 field hfield, fun text hm => hdocs text (List.mem_append_right _
          (List.mem_flatMap.mpr ⟨field, hfield, Option.mem_toList.mpr hm⟩))⟩
      rw [render]
      refine spelled_join (returnless_iff.mpr (by decide)) ?_
      split
      · exact returnless_classLines hproper.1 hdoc ‹_› hfields
      · exact returnless_keyedLines hproper.1 doc hproper.2

/-! ## Modules are read back -/

/-- The import lines of a module of declarations. -/
def importLines : List String :=
  ["from typing import Any, Dict, List, Literal, Tuple, Union",
   "from typing_extensions import Required, TypedDict"]

/-- The definition that a declaration is in text. -/
def definition (d : Declaration) : Definition := ⟨d.name, d.render⟩

/-- A line without a carriage return at its end. -/
def withoutReturn (line : String) : String := String.ofList (Text.dropReturn line.toList)

/-- The lines of a module: its imports, two empty ones, and those of its declarations. -/
theorem lines_renderModule {ds : List Declaration} (hne : ds ≠ []) :
    Text.lines (renderModule ds) = importLines ++ "" :: "" ::
      (DefinitionSet.spread (ds.map fun d => Text.split '\n' d.render)).map withoutReturn := by
  let body := Text.join "\n\n\n" (ds.map render)
  obtain ⟨init, hinit⟩ : ∃ init, header.toList = init ++ ['\n'] :=
    ⟨header.toList.dropLast, by decide⟩
  -- the header ends its last line, so the body begins at a margin
  have himports : ((splitChars '\n' init).map Text.dropReturn).map String.ofList =
      importLines ++ ["", ""] := by
    have hlines : ((splitChars '\n' header.toList.dropLast).map Text.dropReturn).map
        String.ofList = importLines ++ ["", ""] := by decide +kernel
    rwa [hinit, List.dropLast_concat] at hlines
  have hspread := DefinitionSet.split_join_spread fun heq : ds.map render = [] =>
    hne (List.map_eq_nil_iff.mp heq)
  rw [List.map_map] at hspread
  have hbody : ((splitChars '\n' body.toList).map Text.dropReturn).map String.ofList =
      (DefinitionSet.spread (ds.map fun d => Text.split '\n' d.render)).map withoutReturn := by
    rw [← Function.comp_def, ← hspread, Text.split, List.map_map, List.map_map]
    exact List.map_congr_left fun piece _ => by simp [withoutReturn]
  rw [renderModule, Text.lines_newline, String.toList_append, hinit, List.append_assoc,
    List.singleton_append, Text.splitChars_append_sep, List.map_append, List.map_append, himports,
    hbody, List.append_assoc]
  rfl

theorem withoutReturn_of_returnless {line : String} (h : Returnless line) :
    withoutReturn line = line := by
  rw [withoutReturn, Text.dropReturn_of_not_mem (returnless_iff.mp h), String.ofList_toList]

/-- Where no declaration has carriage returns, its lines are read as they are. -/
theorem lines_renderModule_of_returnless {ds : List Declaration} (hne : ds ≠ [])
    (h : ∀ d ∈ ds, Returnless d.render) :
    Text.lines (renderModule ds) = importLines ++ "" :: "" ::
      DefinitionSet.spread (ds.map fun d => Text.split '\n' d.render) := by
  have hlines : ∀ line ∈ DefinitionSet.spread (ds.map fun d => Text.split '\n' d.render),
      Returnless line := by
    intro line hm
    obtain rfl | ⟨sheet, hsheet, hline⟩ := DefinitionSet.mem_spread hm
    · exact Returnless.of_flat (by decide)
    obtain ⟨d, hd, rfl⟩ := List.mem_map.mp hsheet
    obtain ⟨piece, hpiece, rfl⟩ := List.mem_map.mp hline
    intro c hc
    rw [String.toList_ofList] at hc
    exact h d hd c (Text.subset_of_mem_splitChars hpiece hc)
  rw [lines_renderModule hne, List.map_congr_left fun line hm =>
    withoutReturn_of_returnless (hlines line hm), List.map_id']

/-- **A module of declarations is read back** as its two imports and its declarations, each with
its own text. -/
theorem push_renderModule {ds : List Declaration} (hne : ds ≠ [])
    (hnodup : (ds.map Declaration.name).Nodup) (hproper : ∀ d ∈ ds, d.Proper Worded)
    (hdocs : ∀ d ∈ ds, ∀ text ∈ d.docs, Returnless text)
    (hread : ∀ d ∈ ds, d.isClass = true ∨ Readable d.name) :
    DefinitionSet.empty.push (renderModule ds) = ⟨importLines, ds.map definition⟩ := by
  have hreturn : ∀ d ∈ ds, Returnless d.render := fun d hm =>
    returnless_render (hproper d hm) (hdocs d hm)
  -- the imports are taken first, and then the lines of one declaration after the other
  have hstart : (importLines ++ ["", ""]).foldl DefinitionSet.Cutting.step
      ⟨DefinitionSet.empty, [], none⟩ = ⟨⟨importLines, []⟩, ["", ""], none⟩ := by
    rfl
  let sheets := ds.map fun d => (d.name, Text.split '\n' d.render)
  have hsheets : ∀ s ∈ sheets, Sheet s.1 s.2 := by
    intro s hm
    obtain ⟨d, hd, rfl⟩ := List.mem_map.mp hm
    exact sheet_render (hproper d hd) (hread d hd)
  have hrun : ((DefinitionSet.spread (sheets.map Prod.snd)).foldl DefinitionSet.Cutting.step
      ⟨⟨importLines, []⟩, ["", ""], none⟩).close =
        sheets.foldl DefinitionSet.addSheet ⟨importLines, []⟩ := by
    obtain ⟨sheet, rest, hcons⟩ := List.exists_cons_of_ne_nil (l := sheets) (by simpa [sheets])
    rw [hcons] at hsheets ⊢
    exact DefinitionSet.close_foldl_spread sheet rest hsheets _ (by decide)
  have hadd : sheets.foldl DefinitionSet.addSheet ⟨importLines, []⟩ =
      (ds.map definition).foldl DefinitionSet.add ⟨importLines, []⟩ := by
    rw [List.foldl_map, List.foldl_map]
    refine List.foldl_ext _ _ _ fun set d _ => ?_
    rw [DefinitionSet.addSheet, Text.join_split]
    rfl
  have hnames : (ds.map definition).map Definition.name = ds.map Declaration.name := by
    rw [List.map_map]
    rfl
  have hnew : ∀ d ∈ ds.map definition,
      DefinitionSet.declares ⟨importLines, []⟩ d.name = false := fun _ _ => rfl
  unfold DefinitionSet.push
  rw [lines_renderModule_of_returnless hne hreturn]
  have hlines : importLines ++ "" :: "" :: DefinitionSet.spread
      (ds.map fun d => Text.split '\n' d.render) = (importLines ++ ["", ""]) ++
        DefinitionSet.spread (sheets.map Prod.snd) := by
    rw [List.map_map]
    rfl
  rw [hlines, List.foldl_append, hstart, hrun, hadd,
    DefinitionSet.foldl_add_of_nodup _ (hnames ▸ hnodup) hnew]
  rfl

end Declaration

/-! ## Documents in ASCII -/

/-- A text of ASCII characters. -/
abbrev Ascii (text : String) : Prop := Spelled (·.toNat < 128) text

/-- A letter, a digit or an underscore. -/
def isAsciiWord (c : Char) : Bool := c.isAlphanum || c == '_'

/-- A name of ASCII letters, digits and underscores. -/
structure AsciiWord (name : String) : Prop where
  ne_empty : name ≠ ""
  chars : Spelled (isAsciiWord · = true) name

/-- One schema stands in another one, or is the same. -/
inductive Subschema : Json → Json → Prop where
  | here {schema : Json} : Subschema schema schema
  | part {schema inner : Json} {members : Members} :
      Part inner members → Subschema schema inner → Subschema schema (.obj members)

/-- A schema whose own properties have ASCII names, and whose description has no carriage
return. -/
structure OwnPlain (schema : Json) : Prop where
  properties : ∀ properties, schema.get? "properties" = some (.obj properties) →
    ∀ property ∈ properties, Ascii property.1
  description : ∀ text, schema.getStr? "description" = some text → Returnless text

/-- A document whose property names and definition keys are ASCII, and whose descriptions have no
carriage returns. -/
structure Plain (document : Json) : Prop where
  own : ∀ schema, Subschema schema document → OwnPlain schema
  definitions : ∀ key schema, definition? document key = some schema → Ascii key

theorem part_insert_type {members : Members} {type : Json}
    (h : Part inner (members.insert "type" type)) : Part inner members := by
  have hget : ∀ {key}, key ≠ "type" → (members.insert "type" type).get? key = members.get? key :=
    fun hkey => Members.get?_insert_of_ne hkey
  cases h with
  | under hkey hvalue =>
      rw [hget (by rintro rfl; simp at hkey)] at hvalue
      exact .under hkey hvalue
  | among hkey hvalue hm =>
      rw [hget (by rintro rfl; simp at hkey)] at hvalue
      exact .among hkey hvalue hm
  | named hkey hvalue hm =>
      rw [hget (by rintro rfl; simp at hkey)] at hvalue
      exact .named hkey hvalue hm

/-- What stands in merged parts is a property of one of them. -/
theorem part_mergedOf {resolved : List Json} {members : Members}
    (heq : mergedOf resolved = .obj members) (h : Part inner members) :
    ∃ part ∈ resolved, ∃ m ∈ partProperties part, m.2 = inner := by
  obtain rfl := Json.obj.inj heq
  cases h with
  | under hkey hvalue =>
      simp only [List.mem_cons, List.not_mem_nil, or_false] at hkey
      rcases hkey with rfl | rfl <;> simp [Members.get?_cons, Members.get?_nil] at hvalue
  | among hkey hvalue _ =>
      simp only [List.mem_cons, List.not_mem_nil, or_false] at hkey
      rcases hkey with rfl | rfl | rfl | rfl <;>
        simp [Members.get?_cons, Members.get?_nil] at hvalue
  | named hkey hvalue hm =>
      simp only [List.mem_cons, List.not_mem_nil, or_false] at hkey
      rcases hkey with rfl | rfl | rfl | rfl <;>
        simp [Members.get?_cons, Members.get?_nil] at hvalue
      obtain ⟨part, hpart, hm⟩ := exists_of_mem_merged (hvalue ▸ hm)
      exact ⟨part, hpart, _, hm, rfl⟩

/-- Plainness is handed down to what a schema is typed by. -/
theorem hereditary_plain :
    Hereditary fun outer => ∀ schema, Subschema schema outer → OwnPlain schema where
  part h hpart schema hs := h schema (.part hpart hs)
  retyped {members types type} h _ _ schema hs := by
    have hget : ∀ {key}, key ≠ "type" →
        (members.insert "type" type).get? key = members.get? key :=
      fun hkey => Members.get?_insert_of_ne hkey
    cases hs with
    | here =>
        have hown := h _ .here
        refine ⟨fun properties hp => hown.properties properties ?_, fun text ht =>
          hown.description text ?_⟩
        · exact (hget (by decide)).symm.trans hp
        · rw [Json.getStr?, Json.get?] at ht ⊢
          rwa [hget (by decide)] at ht
    | part hpart hs => exact h schema (.part (part_insert_type hpart) hs)
  merged {resolved} h schema hs := by
    have hproperty : ∀ part ∈ resolved, ∀ m ∈ partProperties part,
        Ascii m.1 ∧ ∀ schema, Subschema schema m.2 → OwnPlain schema := by
      intro part hpart m hm
      obtain ⟨members, rfl, hget⟩ := get?_properties_of_partProperties hm
      exact ⟨(h _ hpart _ .here).properties _ hget m hm, fun schema hs =>
        h _ hpart schema (.part (.named (by simp) hget hm) hs)⟩
    -- a property of a merged schema is a property of one of its parts
    generalize heq : mergedOf resolved = merged at hs
    cases hs with
    | here =>
        subst heq
        refine ⟨fun properties hp m hm => ?_, fun text ht => ?_⟩
        · obtain rfl : mergedProperties resolved = properties := by
            simpa [mergedOf, Json.get?, Members.get?_cons] using hp
          obtain ⟨part, hpart, hm⟩ := exists_of_mem_merged hm
          exact (hproperty part hpart m hm).1
        · simp [mergedOf, Json.getStr?, Json.get?, Members.get?_cons, Members.get?_nil] at ht
    | part hinner hs =>
        obtain ⟨part, hpart, m, hm, rfl⟩ := part_mergedOf heq hinner
        exact (hproperty part hpart m hm).2 schema hs

/-! ## Names in ASCII -/

theorem lt_of_isAsciiWord {c : Char} (h : isAsciiWord c = true) : c.toNat < 128 := by
  simp only [isAsciiWord, Char.isAlphanum, Bool.or_eq_true, beq_iff_eq, Text.isAlpha_iff,
    Text.isUpper_iff, Text.isLower_iff, Text.isDigit_iff] at h
  rcases h with h | rfl
  · omega
  · decide

theorem isAsciiWord_of_mem_toUpper (c : Char) (h : isAsciiWord c = true) :
    ∀ d ∈ Text.toUpper c, isAsciiWord d = true := by
  intro d hm
  have hc := lt_of_isAsciiWord h
  rw [Text.toUpper, if_pos hc, List.mem_singleton] at hm
  have hall := Text.ascii_forall (p := fun c => !isAsciiWord c || isAsciiWord c.toUpper)
    (by decide +kernel) hc
  rw [hm]
  simpa [h] using hall

theorem AsciiWord.worded (h : AsciiWord name) : Worded name where
  ne_empty := h.ne_empty
  word c hm := by
    have hword := h.chars c hm
    unfold Text.isWord
    rw [if_pos (lt_of_isAsciiWord hword)]
    exact hword

theorem ascii_className {key : String} (h : Ascii key) : Ascii (Identifier.className key) := by
  have hstripped : Ascii (Identifier.dropSpaces key) := by
    intro c hm
    rw [Identifier.dropSpaces, String.toList_ofList] at hm
    exact h c (List.mem_of_mem_filter hm)
  unfold Identifier.className
  dsimp only
  split
  · exact hstripped.append fun c hm => by rw [List.mem_singleton.mp hm]; decide
  · exact hstripped

/-- A sanitized text consists of ASCII characters if the text does. -/
theorem asciiWord_sanitize {text : String} (h : Ascii text) :
    Spelled (isAsciiWord · = true) (Identifier.sanitize text) := by
  have hmap : ∀ c ∈ (Text.trimChars text.toList).map
      fun c => if Identifier.isIdentifierChar c then c else '_', c.toNat < 128 := by
    intro c hm
    obtain ⟨d, hd, rfl⟩ := List.mem_map.mp hm
    split
    · have hd := (List.dropWhile_sublist _).subset (List.mem_reverse.mp hd)
      exact h d ((List.dropWhile_sublist _).subset (List.mem_reverse.mp hd))
    · decide
  have hascii : Ascii (Identifier.sanitize text) := by
    have harg : Ascii "arg" := by decide
    unfold Ascii Spelled Identifier.sanitize Identifier.sanitizeChars
    rw [String.toList_ofList]
    split
    · exact harg
    · rename_i c rest heq
      rw [heq] at hmap
      split
      · intro d hm
        rcases List.mem_cons.mp hm with rfl | hm
        · decide
        · exact hmap d hm
      · exact hmap
  intro c hm
  -- for ASCII characters, those of identifiers are those of words
  have hall := Text.ascii_forall (p := fun c => !Identifier.isIdentifierChar c || isAsciiWord c)
    (by decide +kernel) (hascii c hm)
  simpa [Identifier.identifierChars_sanitize text c hm] using hall

theorem asciiWord_definitionName {key : String} (h : Ascii key) :
    AsciiWord (definitionName key) where
  ne_empty := Identifier.upperFirst_ne_empty (sanitize_ne_empty _)
  chars := (asciiWord_sanitize (ascii_className h)).upperFirst isAsciiWord_of_mem_toUpper

theorem asciiWord_nestedName {parent property : String} (hparent : AsciiWord parent)
    (h : Ascii property) : AsciiWord (nestedName parent property) where
  ne_empty := by simp [nestedName]
  chars := hparent.chars.nestedName (by decide)
    ((asciiWord_sanitize h).upperFirst isAsciiWord_of_mem_toUpper)

theorem AsciiWord.append {more : String} (h : AsciiWord name) (hmore : Suffix more) :
    AsciiWord (name ++ more) where
  ne_empty := by simp [h.ne_empty]
  chars := h.chars.append fun c hm => by
    simp [isAsciiWord, List.all_eq_true.mp hmore.alphanum c hm]

/-! ## Names that look like imports -/

/-- The words that begin an import. -/
def importWords : List String := ["from", "import"]

theorem importWords_subset : importWords ⊆ takenNames := by decide

/-- The name of a definition begins with no small letter. -/
theorem definitionName_not_mem (key : String) : definitionName key ∉ importWords := by
  intro hm
  have hsmall : ∀ word ∈ importWords, word.toList.head?.any Char.isLower = true := by decide
  have hlower := hsmall _ hm
  obtain ⟨d, rest, hname⟩ := List.exists_cons_of_ne_nil fun hnil =>
    sanitize_ne_empty (Identifier.className key) (String.toList_eq_nil_iff.mp hnil)
  obtain ⟨e, es, hupper⟩ := List.exists_cons_of_ne_nil (Text.toUpper_ne_nil d)
  rw [definitionName, Identifier.upperFirst, String.toList_ofList, hname,
    Identifier.upperFirstChars, hupper, List.cons_append, List.head?_cons, Option.any_some,
    Text.isLower_of_mem_toUpper (hupper ▸ List.mem_cons_self)] at hlower
  exact Bool.noConfusion hlower

/-- A name that a plain document makes for itself is no word that begins an import. -/
structure Told (root name : String) : Prop where
  word : AsciiWord name
  told : name = root ∨ name ∉ importWords

/-- What plain documents are asked. -/
def plainManner (root : String) : Manner where
  fit outer := ∀ schema, Subschema schema outer → OwnPlain schema
  fine := Told root
  said := Returnless

theorem getStr?_of_description? {text : String} (h : description? schema = some text) :
    schema.getStr? "description" = some text :=
  (Option.filter_eq_some_iff.mp h).1

theorem kept_plain (h : Plain document) (root : String) : (plainManner root).Kept document where
  hereditary := hereditary_plain
  whole := h.own
  definition hd :=
    ⟨asciiWord_definitionName (h.definitions _ _ hd),
      .inr (definitionName_not_mem _)⟩
  nested {members properties property parent} hfit hp hm hparent := by
    have hascii : Ascii property.1 :=
      (hfit _ .here).properties properties (get?_of_objectProperties? hp) property hm
    refine ⟨asciiWord_nestedName hparent.word hascii, .inr fun hm => ?_⟩
    obtain ⟨cs, hcs⟩ : ∃ cs, (nestedName parent property.1).toList = '_' :: cs := by
      simp [nestedName]
    exact not_mem_takenNames_of_underscore hcs (importWords_subset hm)
  longer hname hmore :=
    ⟨hname.word.append hmore, .inr fun hm =>
      not_mem_takenNames_of_suffix hmore (importWords_subset hm)⟩
  described hfit hd := (hfit _ .here).description _ (getStr?_of_description? hd)
  required := returnless_iff.mpr (by decide)

/-! ## What the declarations of a document are read back as -/

/-- Where the root could be taken for the beginning of an import, it is declared as a class. -/
def Recognizable (root : String) (blocks : List Declaration) : Prop :=
  root ∈ importWords → ∀ block ∈ blocks, block.name = root → block.isClass = true

/-- **What a plain document is declared by is read back as it was written.** The module is cut into
its blocks, in their order, under the names that they declare and each with its whole text, the
documentation and the comment in front of it included; its imports are the two of every module.
Only a root that is the word `from` or `import` must be declared as a class for that. -/
theorem push_generate {maxDepth : Nat} {source : String} (hplain : Plain schema)
    (hroot : AsciiWord root) (h : generate maxDepth schema root = .ok source) :
    ∃ blocks : List Declaration, declarations ⟨schema, root, maxDepth⟩ = .ok blocks ∧
      source = Declaration.renderModule blocks ∧
      (Recognizable root blocks → DefinitionSet.empty.push source =
        ⟨Declaration.importLines, blocks.map Declaration.definition⟩) := by
  obtain ⟨blocks, hb, rfl⟩ := Result.map_eq_ok_iff.mp h
  refine ⟨blocks, hb, rfl, fun hrecognizable => ?_⟩
  have hclosed := closed_declarations hb
  have htold : (plainManner root).fine root := ⟨hroot, .inl rfl⟩
  have hdeclares : ∀ d ∈ blocks, (plainManner root).Declares d :=
    declares_declarations (kept_plain hplain root) htold hb
  have hne : blocks ≠ [] := by
    rintro rfl
    exact absurd hclosed.root_once (by simp)
  refine Declaration.push_renderModule hne hclosed.distinct (fun d hm => ?_) (fun d hm => ?_)
    fun d hm => ?_
  · exact (hdeclares d hm).proper.mono fun _ hname => hname.word.worded
  · exact (hdeclares d hm).docs
  · have hname := (hdeclares d hm).proper.name
    -- only the root can be an import word, which is read back as a class alone
    by_cases hword : d.name ∈ importWords
    · have heq := hname.told.resolve_right fun hnot => hnot hword
      exact .inl (hrecognizable (heq ▸ hword) d hm heq)
    · refine .inr ⟨hname.word.worded, fun heq => hword ?_, fun heq => hword ?_⟩
      · rw [heq]
        decide
      · rw [heq]
        decide

/-- A pet with a key that is no name, and a text of two lines of which the second one looks like an
import. -/
def shelteredSchema : Json :=
  .obj [("type", .str "object"), ("description", .str "A pet,\nfrom the shelter."),
    ("properties", .obj [("pet-name", .obj [("type", .str "string")])])]

/-- What stands in an object schema as a schema, listed. -/
def parts (members : Members) : List Json :=
  ["additionalProperties", "items"].filterMap members.get? ++
    (["items", "anyOf", "oneOf", "allOf"].flatMap fun key => (arrayUnder? members key).getD []) ++
    ["properties", "patternProperties", "definitions", "$defs"].flatMap fun key =>
      (((members.get? key).bind Json.obj?).getD []).map Prod.snd

theorem mem_parts_of_part {members : Members} (h : Part inner members) : inner ∈ parts members := by
  unfold parts
  cases h with
  | under hkey hget =>
      exact List.mem_append_left _ (List.mem_append_left _ (List.mem_filterMap.mpr ⟨_, hkey, hget⟩))
  | among hkey hget hm =>
      refine List.mem_append_left _ (List.mem_append_right _ (List.mem_flatMap.mpr ⟨_, hkey, ?_⟩))
      rw [arrayUnder?, hget]
      exact hm
  | named hkey hget hm =>
      refine List.mem_append_right _ (List.mem_flatMap.mpr ⟨_, hkey, ?_⟩)
      rw [hget]
      exact List.mem_map_of_mem hm

theorem plain_shelteredSchema : Plain shelteredSchema := by
  have hleaf : ∀ schema, Subschema schema (.obj [("type", .str "string")]) → OwnPlain schema := by
    intro schema hs
    cases hs with
    | here =>
        have hget : ∀ key, key ≠ "type" → (Json.obj [("type", .str "string")]).get? key = none := by
          simp [Json.get?, Members.get?_cons, Members.get?_nil]
        refine ⟨fun _ hp => ?_, fun _ ht => ?_⟩
        · rw [hget _ (by decide)] at hp
          cases hp
        · rw [Json.getStr?, hget _ (by decide)] at ht
          cases ht
    | part hpart _ => exact absurd (mem_parts_of_part hpart) List.not_mem_nil
  refine ⟨fun schema hs => ?_, fun key schema hd => ?_⟩
  · cases hs with
    | here =>
        refine ⟨fun properties hp => ?_, fun text ht => ?_⟩
        · have heq : shelteredSchema.get? "properties" =
              some (.obj [("pet-name", .obj [("type", .str "string")])]) := rfl
          rw [heq] at hp
          obtain rfl := Json.obj.inj (Option.some.inj hp)
          intro property hm
          rw [List.mem_singleton.mp hm]
          decide
        · have heq : shelteredSchema.getStr? "description" = some "A pet,\nfrom the shelter." := rfl
          rw [heq] at ht
          rw [returnless_iff, ← Option.some.inj ht]
          decide
    | part hpart hs =>
        have hm := mem_parts_of_part hpart
        rw [List.mem_singleton.mp hm] at hs
        exact hleaf schema hs
  · have hnone : definition? shelteredSchema key = none := rfl
    rw [hnone] at hd
    cases hd

theorem push_generate_shelteredSchema : ∃ source, generate 4 shelteredSchema "Pet" = .ok source ∧
    ∃ blocks : List Declaration, declarations ⟨shelteredSchema, "Pet", 4⟩ = .ok blocks ∧
      source = Declaration.renderModule blocks ∧ DefinitionSet.empty.push source =
        ⟨Declaration.importLines, blocks.map Declaration.definition⟩ := by
  have hok : (generate 4 shelteredSchema "Pet").toBool = true := by decide +kernel
  match h : generate 4 shelteredSchema "Pet" with
  | .ok source =>
      have hroot : AsciiWord "Pet" := ⟨by decide, fun c hm => List.all_eq_true.mp (by decide) c hm⟩
      obtain ⟨blocks, hb, hsource, hpush⟩ := push_generate plain_shelteredSchema hroot h
      exact ⟨source, rfl, blocks, hb, hsource, hpush fun hm => absurd hm (by decide)⟩
  | .error _ =>
      rw [h] at hok
      exact Bool.noConfusion hok

/-- A list that is declared as `from` is taken for an import: nothing is read back of it. -/
theorem push_generate_from :
    ((declarations ⟨.obj [("type", .str "array")], "from", 4⟩).toOption.map
      (List.map Declaration.name)) = some ["from"] ∧
    ((generate 4 (.obj [("type", .str "array")]) "from").toOption.map fun source =>
      (DefinitionSet.empty.push source)) =
        some ⟨Declaration.importLines ++ ["from = List[Any]"], []⟩ := by
  constructor
  · decide +kernel
  · decide +kernel

end Schema

end StubGen
