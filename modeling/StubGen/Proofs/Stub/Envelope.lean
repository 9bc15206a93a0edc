import Mathlib.Data.List.TakeWhile
import StubGen.Proofs.Stub.Modules
import StubGen.Proofs.Stub.Signatures

/-!
# The wrapper of a response

An API function gives its result in a wrapper, which is declared in its module of types behind
what the types of its parameters and of its result need. The set keeps the first declaration of a
name, and it reads a class only if its name is one word. So the wrapper is declared exactly if its
name is a word that no line of the other sources introduces: `render_envelope`. Either way the
name is declared once; a type that goes by it takes the wrapper's place.
-/

namespace StubGen

open DefinitionSet (namesOf IntroducedIn Introduces Worded Readable Sheet Continues Announces)
open Identifier (isIdentifierChar)
open Schema (Flat IsLineEnd Declaration)
open StubGen.TypeName (namesIn isBasic)

namespace DefinitionSet

variable {set : DefinitionSet} {name type : String}

/-- The fields of a wrapper: the status and the headers of the response, and the result. -/
def envelopeFields (type : String) : List String :=
  ["    status: int", "    headers: Dict", "    data: " ++ type]

/-- The lines of a wrapper. -/
def envelopeLines (name type : String) : List String :=
  ("class " ++ name ++ "(TypedDict):") :: envelopeFields type

theorem introduces_envelope (h : Worded name) :
    Introduces ("class " ++ name ++ "(TypedDict):") name := by
  have hline : "class " ++ name ++ "(TypedDict):" =
      String.ofList ("class ".toList ++ name.toList ++ '(' :: "TypedDict):".toList) := by
    rw [← String.toList_inj]
    simp
  rw [hline]
  exact introduces_class h _

/-- What is no word has a character that is not of words, behind others that are. -/
theorem exists_of_not_worded (hne : name ≠ "") (h : ¬ Worded name) :
    ∃ word c more, name.toList = word ++ c :: more ∧ (∀ d ∈ word, Text.isWord d = true) ∧
      Text.isWord c = false := by
  cases hrest : name.toList.dropWhile Text.isWord with
  | nil =>
      have hall : ∀ c ∈ name.toList, Text.isWord c = true := List.dropWhile_eq_nil_iff.mp hrest
      exact absurd ⟨hne, hall⟩ h
  | cons c more =>
      have hhead := List.head?_dropWhile_not Text.isWord name.toList
      rw [hrest] at hhead
      refine ⟨name.toList.takeWhile Text.isWord, c, more, ?_,
        List.all_eq_true.mp List.all_takeWhile, by simpa using hhead⟩
      rw [← hrest, List.takeWhile_append_dropWhile]

/-- The first line of a wrapper declares nothing if the name is no word: the class is read up to the
first character that is not of words, and behind it stands no bracket. -/
theorem declaredName?_envelope (hne : name ≠ "") (hchars : name.toList.all isIdentifierChar = true)
    (h : ¬ Worded name) : declaredName? ("class " ++ name ++ "(TypedDict):") = none := by
  have hchar : ∀ c ∈ name.toList, isIdentifierChar c = true := List.all_eq_true.mp hchars
  have hblank : ∀ c ∈ name.toList, Text.isBlank c = false := fun c hm =>
    Text.isBlank_of_isIdentifierChar (hchar c hm)
  obtain ⟨first, behind, hfirst⟩ := List.exists_cons_of_ne_nil fun hnil =>
    hne (String.toList_eq_nil_iff.mp hnil)
  obtain ⟨word, c, more, hname, hword, hc⟩ := exists_of_not_worded hne h
  have hcm : c ∈ name.toList := by simp [hname]
  have hother : ∀ d, isIdentifierChar d = false → ∀ c ∈ name.toList, c ≠ d := fun d hd c hm heq =>
    Bool.noConfusion (hd.symm.trans (heq ▸ hchar c hm))
  have hline : ("class " ++ name ++ "(TypedDict):").toList =
      "class".toList ++ ' ' :: (name.toList ++ "(TypedDict):".toList) := by simp
  have hstart : Text.trimStartChars (' ' :: (name.toList ++ "(TypedDict):".toList)) =
      name.toList ++ "(TypedDict):".toList := by
    rw [trimStartChars_space, hfirst, List.cons_append,
      trimStartChars_cons (hblank first (by simp [hfirst]))]
  have hclass : className? ("class " ++ name ++ "(TypedDict):").toList = none := by
    unfold className?
    rw [hline, Text.afterChars?_eq_some_iff.mpr rfl]
    dsimp only
    rw [hstart, hname, List.append_assoc, List.cons_append, leadingWord_append hword hc,
      trimStartChars_cons (hblank c hcm)]
    simp [hother '(' (by decide) c hcm, hother ':' (by decide) c hcm]
  -- the word in front is `class`, and no name begins with an equals sign
  have hassigned : assignedName? ("class " ++ name ++ "(TypedDict):").toList = none := by
    unfold assignedName?
    rw [hline, leadingWord_append (List.all_eq_true.mp (by decide)) (by decide)]
    have hequals := hother '=' (by decide) first (by simp [hfirst])
    dsimp only
    rw [hstart, hfirst, List.cons_append]
    split
    · rfl
    · split
      · rename_i heq
        exact absurd (List.cons.inj heq).1 hequals
      · rfl
  rw [declaredName?, hclass, hassigned]
  rfl

theorem continues_of_mem_fields {line : String} (h : line ∈ envelopeFields type) :
    Continues line := by
  simp only [envelopeFields, List.mem_cons, List.not_mem_nil, or_false] at h
  rcases h with rfl | rfl | rfl <;> exact .inr ⟨_, .inl (by simp; rfl)⟩

theorem sheet_envelope (h : Worded name) (type : String) :
    Sheet name (envelopeLines name type) := by
  refine ⟨⟨[], _, _, rfl, by simp, introduces_envelope h, fun _ hm => continues_of_mem_fields hm⟩,
    ?_⟩
  intro line hm
  obtain rfl : "    data: " ++ type = line := by simpa [envelopeLines, envelopeFields] using hm
  simp [Text.isBlankText, show Text.isBlank 'd' = false by decide]

/-- Lines that declare nothing wait for a declaration, and there is none. -/
theorem close_foldl_of_silent {lines : List String} (c : Cutting) (hcurrent : c.current = none)
    (h : ∀ line ∈ lines, isImport line = false ∧ declaredName? line = none) :
    (lines.foldl Cutting.step c).close = c.set := by
  induction lines generalizing c with
  | nil => rw [List.foldl_nil, Cutting.close, hcurrent]
  | cons line lines ih =>
      obtain ⟨himport, hdeclared⟩ := h line List.mem_cons_self
      have hstep : c.step line = { c with pending := c.pending ++ [line] } := by
        unfold Cutting.step
        rw [if_neg (Bool.eq_false_iff.mp himport), hdeclared, hcurrent]
      rw [List.foldl_cons, hstep]
      exact ih _ hcurrent fun other hm => h other (List.mem_cons_of_mem _ hm)

/-- The lines of a text that is made of lines are these. -/
theorem lines_join_newline {lines : List String} (hne : lines ≠ [])
    (h : ∀ line ∈ lines, Flat line) :
    Text.lines (Text.join "\n" lines ++ "\n") = lines := by
  have hreturn : '\r' ∉ (Text.join "\n" lines).toList := by
    rw [Text.join, String.toList_ofList]
    intro hm
    rcases Text.mem_joinChars hm with hm | ⟨piece, hpiece, hm⟩
    · exact absurd hm (by decide)
    · obtain ⟨line, hline, rfl⟩ := List.mem_map.mp hpiece
      exact h line hline _ hm (.inr rfl)
  rw [Text.lines_append_newline hreturn]
  exact Schema.Declaration.split_join_of_oneLine hne fun line hm hc => h line hm _ hc (.inl rfl)

/-- **Pushing a wrapper adds it under its name** if that is a word, and else does nothing. -/
theorem push_envelope (set : DefinitionSet) (hne : name ≠ "")
    (hchars : name.toList.all isIdentifierChar = true) (htype : Flat type) :
    (Worded name → set.push (Text.join "\n" (envelopeLines name type) ++ "\n") =
      set.add ⟨name, Text.join "\n" (envelopeLines name type)⟩) ∧
    (¬ Worded name → set.push (Text.join "\n" (envelopeLines name type) ++ "\n") = set) := by
  -- the lines have no line ends, so they are read as they were joined
  have hflat : ∀ line ∈ envelopeLines name type, Flat line := by
    intro line hm
    have hname : Flat name := Typing.flat_of_identifierChars (List.all_eq_true.mp hchars)
    simp only [envelopeLines, envelopeFields, List.mem_cons, List.not_mem_nil, or_false] at hm
    rcases hm with rfl | rfl | rfl | rfl
    · exact hname.between (fun _ h => h) (by decide) (by decide)
    · decide
    · decide
    · exact Schema.Spelled.append (by decide) htype
  have hlines : Text.lines (Text.join "\n" (envelopeLines name type) ++ "\n") =
      envelopeLines name type := lines_join_newline (List.cons_ne_nil _ _) hflat
  unfold push
  rw [hlines]
  constructor
  · intro h
    exact close_foldl_spread (name, envelopeLines name type) []
      (by simpa using sheet_envelope h type) ⟨set, [], none⟩ (by simp)
  · intro h
    refine close_foldl_of_silent _ rfl fun line hm => ?_
    rcases List.mem_cons.mp hm with rfl | hm
    · exact ⟨by simp [isImport, Text.startsWith, Text.after?, Text.afterChars?],
        declaredName?_envelope hne hchars h⟩
    · obtain ⟨himport, hdeclared, -⟩ := (continues_of_mem_fields hm).reads
      exact ⟨himport, hdeclared⟩

end DefinitionSet

namespace Renderer

variable {r : Renderer}

open DefinitionSet (envelopeLines)

theorem apiResponse_pieces : Template.apiResponse =
    [.text "class ", .gap "response_type", .text "(TypedDict):\n", .text "    status: int\n",
      .text "    headers: Dict\n", .text "    data: ", .gap "data_type", .text "\n"] := by
  decide +kernel

theorem fill_apiResponse (name type : String) :
    Template.apiResponse.fill [("response_type", name), ("data_type", type)] =
      Text.join "\n" (envelopeLines name type) ++ "\n" := by
  rw [apiResponse_pieces, ← String.toList_inj]
  simp [Template.fill, List.lookup_cons, envelopeLines, DefinitionSet.envelopeFields, Text.join,
    Text.joinChars]

/-- The sources behind the types that a function names: of its parameters and of its result. -/
def typeSources (r : Renderer) (spec : Spec) : List String :=
  let signature := spec.signature.getD default
  r.parameterSources signature ++ [(r.resultType signature).definition]

/-- The name of a wrapper is a word if the leaf is one. -/
theorem worded_envelopeName {leaf : String} (hne : leaf ≠ "") :
    Worded (envelopeName leaf) ↔ Worded leaf := by
  have hsuffix : ∀ c ∈ "Response".toList, Text.isWord c = true := List.all_eq_true.mp (by decide)
  constructor
  · exact fun h => ⟨hne, fun c hm => h.word c (by simp [envelopeName, hm])⟩
  · refine fun h => ⟨by simp [envelopeName], fun c hm => ?_⟩
    rw [envelopeName, String.toList_append] at hm
    exact (List.mem_append.mp hm).elim (h.word c) (hsuffix c)

theorem envelopeName_ne_empty (leaf : String) : envelopeName leaf ≠ "" := by
  simp [envelopeName]

/-- No line of imports begins with the name of a wrapper, which is longer than what they begin
with. -/
theorem envelopeName_not_mem_importWords (leaf : String) :
    envelopeName leaf ∉ Schema.importWords := by
  intro hm
  have hshort : ∀ word ∈ Schema.importWords, word.length ≤ 6 := by decide
  have hlength := hshort _ hm
  rw [envelopeName, String.length_append, show "Response".length = 8 by decide] at hlength
  omega

theorem identifierChars_envelopeName (name : String) :
    (envelopeName (leafOf name)).toList.all isIdentifierChar = true := by
  rw [envelopeName, String.toList_append, List.all_append, identifierChars_leafOf]
  decide

/-- The module of types of an API function. -/
theorem typeDefs_of_apiFunction {spec : Spec} {stub : Stub}
    (hcategory : spec.category = .apiFunction) (h : r.render spec = .ok stub) :
    stub.typeDefs = typeModule (((r.typeSources spec).foldl DefinitionSet.push .empty).push
      (Text.join "\n" (envelopeLines (envelopeName (leafOf spec.name))
        (r.resultType (spec.signature.getD default)).expr) ++ "\n")) := by
  have hstub : r.functionStub spec = .ok stub := by simpa only [render, hcategory] using h
  obtain ⟨path, body, hbody, -, htypes⟩ := functionStub_eq_ok hstub
  rw [functionBody?, hcategory] at hbody
  rw [htypes, ← Option.some.inj hbody, ← fill_apiResponse, apiBody, parameterList]
  dsimp only
  rw [ParameterList.definitions_ofParameters, typeSources, List.foldl_append]
  rfl

/-- Texts that are set side by side end with the last one, in front of which stands a line end or
nothing. -/
theorem join_concat (pieces : List String) (last : String) :
    ∃ front, (front = "" ∨ ∃ before, front = before ++ "\n") ∧
      Text.join "\n\n\n" (pieces ++ [last]) = front ++ last := by
  induction pieces with
  | nil => exact ⟨"", .inl rfl, by simp [Text.join, Text.joinChars]⟩
  | cons piece pieces ih =>
      obtain ⟨front, hfront, hjoin⟩ := ih
      obtain ⟨next, more, hmore⟩ := List.exists_cons_of_ne_nil (show pieces ++ [last] ≠ [] by simp)
      refine ⟨piece ++ "\n\n\n" ++ front, .inr ?_, ?_⟩
      · rcases hfront with rfl | ⟨before, rfl⟩
        · exact ⟨piece ++ "\n\n", by simp [String.append_assoc]⟩
        · exact ⟨piece ++ "\n\n\n" ++ before, by simp [String.append_assoc]⟩
      · rw [List.cons_append, hmore, Text.join_cons_cons, ← hmore, hjoin]
        simp only [String.append_assoc]

/-- **A module ends with what has been added last.** -/
theorem typeModule_add {set : DefinitionSet} {d : Definition} (hnew : set.declares d.name = false) :
    ∃ before, typeModule (set.add d) = before ++ "\n" ++ d.block ++ "\n" := by
  have hadd : set.add d = { set with definitions := set.definitions ++ [d] } := by
    unfold DefinitionSet.add
    rw [if_neg (by simp [hnew])]
  have hne : (set.add d).isEmpty = false := by simp [hadd, DefinitionSet.isEmpty]
  obtain ⟨front, hfront, hbody⟩ := join_concat (set.definitions.map Definition.block) d.block
  have hbody : (set.add d).body = front ++ d.block := by
    rw [← hbody, hadd, DefinitionSet.body, List.map_append, List.map_singleton]
  rw [typeModule_text hne, hbody]
  let lead := String.join (typingImports.map (· ++ "\n")) ++ (set.add d).importText ++ "\n"
  rcases hfront with rfl | ⟨before, rfl⟩
  · refine ⟨lead, ?_⟩
    rw [← String.toList_inj]
    simp [lead]
  · refine ⟨lead ++ "\n" ++ before, ?_⟩
    rw [← String.toList_inj]
    simp [lead]

/-- **The wrapper is declared unless its name is no word or has been taken.** If the leaf of an API
function is a word, the lines of its module of types declare the name of the wrapper once. If no
line of the sources behind the types of its parameters and of its result introduces that name, the
declaration is the wrapper, with the status, the headers and the data, which is of the type of the
result; else the module is that of those sources alone. Every readable name in the type of the
result is basic or declared in the module. -/
theorem render_envelope {spec : Spec} {stub : Stub} (hengine : r.engine = Schema.builtinEngine)
    (hcategory : spec.category = .apiFunction) (h : r.render spec = .ok stub) :
    let name := envelopeName (leafOf spec.name)
    let type := (r.resultType (spec.signature.getD default)).expr
    (Worded (leafOf spec.name) → (namesOf (Text.split '\n' stub.typeDefs)).count name = 1) ∧
    (Worded (leafOf spec.name) → (∀ source ∈ r.typeSources spec, ¬ IntroducedIn source name) →
      ∃ before, stub.typeDefs =
        before ++ "\n" ++ Text.join "\n" (envelopeLines name type) ++ "\n") ∧
    (¬ Worded (leafOf spec.name) ∨ (∃ source ∈ r.typeSources spec, IntroducedIn source name) →
      stub.typeDefs = typeModule ((r.typeSources spec).foldl DefinitionSet.push .empty)) ∧
    ∀ part ∈ namesIn type, isBasic part = true ∨ (Readable part → Declares stub.typeDefs part) := by
  intro name type
  let set := (r.typeSources spec).foldl DefinitionSet.push .empty
  have hexact : set.Exact := DefinitionSet.exact_foldl_push _
  have hdeclares :
      set.declares name = true ↔ ∃ source ∈ r.typeSources spec, IntroducedIn source name := by
    rw [DefinitionSet.declares_foldl_push_iff]
    simp [DefinitionSet.declares, DefinitionSet.empty]
  have hword : Worded name ↔ Worded (leafOf spec.name) := worded_envelopeName (leafOf_ne_empty _)
  have hne : name ≠ "" := envelopeName_ne_empty _
  have hchars : name.toList.all isIdentifierChar = true := identifierChars_envelopeName spec.name
  -- the envelope is pushed last, after all sources
  have htypes : stub.typeDefs =
      typeModule (set.push (Text.join "\n" (envelopeLines name type) ++ "\n")) :=
    typeDefs_of_apiFunction hcategory h
  have hflat : Flat type :=
    ((Typing.compositional_flat r.engine).resolve (spec.signature.getD default).returnType "").2
  obtain ⟨hadd, hskip⟩ := DefinitionSet.push_envelope set hne hchars hflat
  rw [htypes]
  refine ⟨fun hleaf => ?_, fun hleaf hfree => ?_, fun htaken => ?_, fun part hm => ?_⟩
  · refine count_namesOf_typeModule (hexact.push _) ?_
      (envelopeName_not_mem_importWords _)
    rw [hadd (hword.mpr hleaf)]
    exact (DefinitionSet.declares_add _).mpr (.inr rfl)
  · have hnew : set.declares name = false := Bool.eq_false_iff.mpr fun hdeclared => by
      obtain ⟨source, hm, hintroduced⟩ := hdeclares.mp hdeclared
      exact hfree source hm hintroduced
    rw [hadd (hword.mpr hleaf)]
    exact typeModule_add hnew
  -- a taken name is left to its first owner, and a name that is no word is not read at all
  · by_cases hleaf : Worded name
    · have hdeclared : set.declares name = true :=
        hdeclares.mpr (htaken.resolve_left fun hnot => hnot (hword.mp hleaf))
      rw [hadd hleaf, DefinitionSet.add, if_pos hdeclared]
    · rw [hskip hleaf]
  · have hgrounded : (r.resultType (spec.signature.getD default)).Grounded := by
      unfold resultType
      rw [hengine]
      exact Typing.grounded_resolve _ _
    refine (hgrounded.names part hm).imp_right fun hannounced hreadable => ?_
    refine declares_typeModule (hexact.push _).honest ?_
    refine DefinitionSet.declares_push_of_declares ?_ _
    exact DefinitionSet.declares_foldl_push hreadable
      (List.mem_append_right _ List.mem_cons_self) hannounced _

/-! ## An object with an id -/

/-- A schema for an object with a title and an id. -/
def idSchema (title : String) : Json :=
  .obj [("title", .str title), ("type", .str "object"),
    ("properties", .obj [("id", .obj [("type", .str "integer")])])]

/-- The class of an object with an id. -/
def idClass (name : String) : Declaration := .record name none [⟨"id", .int, false, none⟩]

theorem generate_idSchema (title name : String) :
    Schema.builtinEngine (Schema.normalizeEnums (idSchema title)) name =
      .ok (Declaration.renderModule [idClass name]) := rfl

theorem render_idClass (name : String) :
    (idClass name).render = "class " ++ name ++ "(TypedDict, total=False):\n    id: int" := by
  have hrender : (idClass name).render =
      Text.join "\n" (Declaration.classLines name none [⟨"id", .int, false, none⟩]) :=
    congrArg (Text.join "\n") (if_pos (by decide))
  rw [hrender, ← String.toList_inj]
  simp [Declaration.classLines, Declaration.classField, Declaration.dropTrailingEmpty, Text.join,
    Text.joinChars, Schema.Field.typeText, Schema.TypeExpr.render]

/-- The types of an object with an id are its class. -/
theorem push_idSchema {title : String} (hword : Readable title)
    (hroot : Schema.rootName (idSchema title) title "Dict" = title) :
    DefinitionSet.empty.push
        (Schema.render Schema.builtinEngine (idSchema title) title "Dict").definition =
      ⟨Declaration.importLines, [(idClass title).definition]⟩ := by
  have hline : OneLine title :=
    Schema.Solid.oneLine title (Schema.solid_of_worded title hword.toWorded)
  have hproper : (idClass title).Proper Worded := ⟨hword.toWorded, by simp [Schema.TypeExpr.Proper]⟩
  have hok := generate_idSchema title title
  rw [Schema.render, hroot, hok]
  dsimp only
  rw [Schema.cleanExamples_of_generate hline hok,
    Declaration.push_renderModule (by simp) (by simp) (by simpa using hproper)
      (by simp [idClass, Declaration.docs]) (by simpa using .inr hword)]
  rfl

/-- An API function that gives a pet. -/
def getPet : Spec :=
  { Spec.blank with
    id := "1", name := "getPet", category := .apiFunction
    signature := some (.mk [] (.object (some (idSchema "Pet")) none none) none) }

/-- A pet comes in a wrapper, and both are declared. -/
theorem render_envelope_getPet : ∃ stub, plainRenderer.render getPet = .ok stub ∧
    (namesOf (Text.split '\n' stub.typeDefs)).count "getPetResponse" = 1 ∧
    (∃ before, stub.typeDefs =
      before ++ "\n" ++ Text.join "\n" (envelopeLines "getPetResponse" "Pet") ++ "\n") ∧
    Declares stub.typeDefs "Pet" := by
  have hok : (plainRenderer.render getPet).toOption.isSome = true := by
    decide +kernel
  obtain ⟨stub, hstub⟩ := Option.isSome_iff_exists.mp hok
  have hstub := Result.eq_ok_of_toOption hstub
  have hleaf : leafOf getPet.name = "getPet" := by decide +kernel
  have htype : (plainRenderer.resultType (getPet.signature.getD default)).expr =
      "Pet" := by decide +kernel
  have hword : Worded (leafOf getPet.name) := by
    rw [hleaf]
    exact ⟨by decide, List.all_eq_true.mp (by decide)⟩
  have hpet : Readable "Pet" := by decide +kernel
  -- the only source before is that of the class for the pet
  have hfree : ∀ source ∈ plainRenderer.typeSources getPet,
      ¬ IntroducedIn source (envelopeName (leafOf getPet.name)) := by
    rw [hleaf]
    intro source hm hintroduced
    have hdeclared := (DefinitionSet.declares_foldl_push_iff _ .empty).mpr
      (.inr ⟨source, hm, hintroduced⟩)
    rw [show plainRenderer.typeSources getPet =
        [(Schema.render Schema.builtinEngine (idSchema "Pet") "Pet" "Dict").definition] from rfl,
      List.foldl_cons, push_idSchema hpet (by decide +kernel)] at hdeclared
    exact absurd hdeclared (by decide)
  obtain ⟨hcount, hwrapper, -, hnames⟩ := render_envelope rfl rfl hstub
  rw [hleaf, htype] at hwrapper
  rw [hleaf] at hcount
  rw [htype] at hnames
  have hmem : "Pet" ∈ namesIn "Pet" := by decide
  exact ⟨stub, hstub, hcount (hleaf ▸ hword), hwrapper (hleaf ▸ hword) (hleaf ▸ hfree),
    (hnames "Pet" hmem).resolve_left (by decide) hpet⟩

/-- An API function that takes an object with a title. -/
def taker (name title : String) : Spec :=
  { Spec.blank with
    id := "1", name := name, category := .apiFunction
    signature := some (.mk [.mk "pet" "" true none (.object (some (idSchema title)) none none)]
      .void none) }

/-- The module of types of a taker whose wrapper is not added has the class of the object alone. -/
theorem typeDefs_taker {name title : String} (hword : Readable title)
    (hsources : plainRenderer.typeSources (taker name title) =
      [(Schema.render Schema.builtinEngine (idSchema title) title "Dict").definition, ""])
    (hroot : Schema.rootName (idSchema title) title "Dict" = title)
    (hok : (plainRenderer.render (taker name title)).toOption.isSome = true)
    (hmissing : ¬ Worded (leafOf name) ∨ envelopeName (leafOf name) = title) :
    (plainRenderer.render (taker name title)).toOption.map Stub.typeDefs =
      some (typeModule ⟨Declaration.importLines, [⟨title,
        "class " ++ title ++ "(TypedDict, total=False):\n    id: int"⟩]⟩) := by
  obtain ⟨stub, hstub⟩ := Option.isSome_iff_exists.mp hok
  have htypes := typeDefs_of_apiFunction rfl (Result.eq_ok_of_toOption hstub)
  rw [hsources, List.foldl_cons, push_idSchema hword hroot] at htypes
  rw [hstub, Option.map_some, htypes, ← render_idClass]
  refine congrArg (fun set => some (typeModule set)) ?_
  obtain ⟨hadd, hskip⟩ := DefinitionSet.push_envelope
    ⟨Declaration.importLines, [(idClass title).definition]⟩ (envelopeName_ne_empty (leafOf name))
    (identifierChars_envelopeName name) (show Flat "None" by decide)
  -- either the wrapper is not read or the class has taken its name
  by_cases hleaf : Worded (leafOf name)
  · have htaken : DefinitionSet.declares ⟨Declaration.importLines, [(idClass title).definition]⟩
        (envelopeName (leafOf name)) = true := by
      rw [hmissing.resolve_left (not_not_intro hleaf)]
      simp [DefinitionSet.declares, Declaration.definition, idClass, Declaration.name]
    refine (hadd ((worded_envelopeName (leafOf_ne_empty _)).mpr hleaf)).trans ?_
    rw [DefinitionSet.add, if_pos htaken]
    rfl
  · exact hskip fun h => hleaf ((worded_envelopeName (leafOf_ne_empty _)).mp h)

/-- **A type of the wrapper's name takes its place,** and a leaf that is no word has no wrapper. -/
theorem wrapper_missing :
    (plainRenderer.render (taker "getPet" "getPetResponse")).toOption.map Stub.typeDefs =
      some (typeModule ⟨Declaration.importLines, [⟨"getPetResponse",
        "class getPetResponse(TypedDict, total=False):\n    id: int"⟩]⟩) ∧
    (plainRenderer.render (taker "x²" "Pet")).toOption.map Stub.typeDefs =
      some (typeModule ⟨Declaration.importLines, [⟨"Pet",
        "class Pet(TypedDict, total=False):\n    id: int"⟩]⟩) := by
  have hleaf : leafOf "x²" = "x²" := by decide +kernel
  have hsquare : ¬ Worded (leafOf "x²") := fun h =>
    absurd (h.word '²' (by rw [hleaf]; decide)) (by decide +kernel)
  exact ⟨typeDefs_taker (by decide +kernel) rfl (by decide +kernel) (by decide +kernel)
      (.inr (by decide +kernel)),
    typeDefs_taker (by decide +kernel) rfl (by decide +kernel) (by decide +kernel)
      (.inl hsquare)⟩

end Renderer

end StubGen
