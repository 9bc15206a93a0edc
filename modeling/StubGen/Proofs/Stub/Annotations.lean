import StubGen.Proofs.Result
import StubGen.Proofs.Stub.Templates
import StubGen.Proofs.Stub.Typing
import StubGen.Stub.Package

/-!
# Annotations of functions

The code of a function that calls an API or runs on the server begins with a head, in which each
parameter and the result is annotated. The annotations are type expressions as they are seen from
outside the module of types, and the two fit together: what a resolved type names is basic or
written in its definition, every definition is pushed to the set from which the module of types
is made, and a name that is not basic is qualified with the path of that module. So every name in
an annotation is there when the annotation is evaluated, but for the names inside a callable,
which are declared in the module of types and stand without its path: `annotations_resolve`.
-/

namespace StubGen

open DefinitionSet (Announces Begins Readable Honest)
open StubGen.TypeName (namesIn Written isBasic qualify)
open Identifier (isIdentifierChar)

/-! ## The head of a function -/

/-- A line of a parameter list. -/
inductive ParameterLine where
  /-- Behind it parameters are given by keyword. -/
  | keywordsOnly
  | parameter (name annotation : String) (optional : Bool) (comment : String)

namespace ParameterLine

def text : ParameterLine → String
  | .keywordsOnly => "    *,"
  | .parameter name annotation optional comment =>
    "    " ++ name ++ ": " ++ annotation ++ (if optional then " = None" else "") ++ "," ++
      if comment.isEmpty then "" else "  # " ++ comment

def annotation? : ParameterLine → Option String
  | .keywordsOnly => none
  | .parameter _ annotation _ _ => some annotation

end ParameterLine

/-- The head of a function. -/
structure FunctionHead where
  name : String
  lines : List ParameterLine
  /-- The annotation of the result. -/
  result : String

namespace FunctionHead

def text (head : FunctionHead) : String :=
  "def " ++ head.name ++ "(\n" ++ Text.join "\n" (head.lines.map ParameterLine.text) ++
    "\n) -> " ++ head.result ++ ":\n"

/-- The annotations of the parameters and of the result. -/
def annotations (head : FunctionHead) : List String :=
  head.lines.filterMap ParameterLine.annotation? ++ [head.result]

end FunctionHead

/-! ## Parameters -/

namespace ParameterList

open Schema (Engine)

variable (engine : Engine) (owner : String)

theorem line_eq_text (name : String) (parameter : Parameter) (type : Resolution) :
    line owner name parameter type = ParameterLine.text (.parameter name (qualify owner type.expr)
      (!parameter.required) (Quoting.comment parameter.description)) := by
  unfold line ParameterLine.text
  cases parameter.required <;> simp

/-- The lines of parameters: one for each, with its annotation. -/
theorem lines_step (d : Draft) (entry : Parameter × Nat) :
    ∃ lines : List ParameterLine,
      (step engine owner d entry).list.lines = d.list.lines ++ lines.map ParameterLine.text ∧
      lines.filterMap ParameterLine.annotation? = [qualify owner (typeOf engine entry.1).expr] := by
  let name := freeName (d.list.names.map Prod.snd)
    (Identifier.argumentName (remoteName entry.2 entry.1))
  let written : ParameterLine := .parameter name (qualify owner (typeOf engine entry.1).expr)
    (!entry.1.required) (Quoting.comment entry.1.description)
  have hline : line owner name entry.1 (typeOf engine entry.1) = written.text :=
    line_eq_text owner name entry.1 _
  by_cases hkeywords : entry.1.required && d.seenOptional && !d.keywordOnly
  · refine ⟨[.keywordsOnly, written], ?_, rfl⟩
    unfold step
    simp only [hkeywords, if_true, List.append_assoc]
    rw [hline]
    rfl
  · refine ⟨[written], ?_, rfl⟩
    unfold step
    simp only [hkeywords]
    rw [hline]
    simp

theorem lines_foldl (entries : List (Parameter × Nat)) (d : Draft) :
    ∃ lines : List ParameterLine,
      (entries.foldl (step engine owner) d).list.lines =
        d.list.lines ++ lines.map ParameterLine.text ∧
      lines.filterMap ParameterLine.annotation? =
        entries.map fun entry => qualify owner (typeOf engine entry.1).expr := by
  induction entries generalizing d with
  | nil => exact ⟨[], by simp, rfl⟩
  | cons entry entries ih =>
      obtain ⟨first, hfirst, hannotation⟩ := lines_step engine owner d entry
      obtain ⟨rest, hrest, hannotations⟩ := ih (step engine owner d entry)
      refine ⟨first ++ rest, ?_, ?_⟩
      · rw [List.foldl_cons, hrest, hfirst, List.map_append, List.append_assoc]
      · rw [List.filterMap_append, hannotation, hannotations, List.map_cons]
        rfl

/-- **Every parameter is annotated with its type**, seen from outside the module of types. -/
theorem lines_ofParameters (parameters : List Parameter) :
    ∃ lines : List ParameterLine,
      (ofParameters engine owner parameters).lines = lines.map ParameterLine.text ∧
      lines.filterMap ParameterLine.annotation? =
        parameters.map fun parameter => qualify owner (typeOf engine parameter).expr := by
  obtain ⟨lines, hlines, hannotations⟩ := lines_foldl engine owner
    parameters.zipIdx ⟨⟨[], [], .empty⟩, false, false⟩
  refine ⟨lines, by simpa [ofParameters] using hlines, ?_⟩
  have hfst : (fun entry : Parameter × Nat => qualify owner (typeOf engine entry.1).expr) =
      (fun parameter => qualify owner (typeOf engine parameter).expr) ∘ Prod.fst := rfl
  rw [hannotations, hfst, ← List.map_map, List.zipIdx_map_fst]

theorem definitions_foldl (entries : List (Parameter × Nat)) (d : Draft) :
    (entries.foldl (step engine owner) d).list.definitions =
      (entries.map fun entry => (typeOf engine entry.1).definition).foldl DefinitionSet.push
        d.list.definitions := by
  induction entries generalizing d with
  | nil => rfl
  | cons entry entries ih => rw [List.foldl_cons, ih, List.map_cons, List.foldl_cons]; rfl

/-- The definitions are those of the parameters' types, pushed one after the other. -/
theorem definitions_ofParameters (parameters : List Parameter) :
    (ofParameters engine owner parameters).definitions =
      (parameters.map fun parameter => (typeOf engine parameter).definition).foldl
        DefinitionSet.push .empty := by
  have hfst : (fun entry : Parameter × Nat => (typeOf engine entry.1).definition) =
      (fun parameter => (typeOf engine parameter).definition) ∘ Prod.fst := rfl
  unfold ofParameters
  rw [definitions_foldl, hfst, ← List.map_map, List.zipIdx_map_fst]

end ParameterList

namespace Renderer

/-! ## The module of types -/

/-- A line of a module begins a class of the name or assigns to it. -/
def Declares (source name : String) : Prop :=
  ∃ line ∈ Text.split '\n' source, DefinitionSet.declaredName? line = some name

theorem Declares.not_blank {source name : String} (h : Declares source name) :
    Text.isBlankText source = false := by
  obtain ⟨line, hm, hline⟩ := h
  obtain ⟨piece, hpiece, rfl⟩ := List.mem_map.mp hm
  have hblank := DefinitionSet.not_isBlankText_of_declaredName? hline
  refine Bool.eq_false_iff.mpr fun hall => Bool.eq_false_iff.mp hblank ?_
  refine List.all_eq_true.mpr fun c hc => List.all_eq_true.mp hall c ?_
  rw [String.toList_ofList] at hc
  exact Text.subset_of_mem_splitChars hpiece hc

/-- What a module of types holds behind its imports of typing names. -/
theorem typeModule_template : Template.typeModule.drop 2 =
    [.gap "imports", .text "\n", .text "\n", .gap "body", .text "\n"] := by decide

/-- **The module of types declares what its set declares.** -/
theorem declares_typeModule {set : DefinitionSet} {name : String} (h : set.Honest)
    (hname : set.declares name = true) : Declares (typeModule set) name := by
  obtain ⟨d, hd, rfl⟩ := DefinitionSet.declares_iff.mp hname
  obtain ⟨line, hline, hm⟩ := h d hd
  have hempty : set.isEmpty = false := by
    simpa [DefinitionSet.isEmpty] using List.ne_nil_of_mem hd
  have hne : line ≠ [] := by
    rintro rfl
    have hnone : DefinitionSet.declaredName? (String.ofList []) = none := by decide
    exact absurd (hnone.symm.trans hline) (by simp)
  refine ⟨String.ofList line, List.mem_map_of_mem ?_, hline⟩
  -- the body stands between line ends, so its lines are lines of the module
  obtain ⟨lead, htext⟩ : ∃ lead, (typeModule set).toList =
      lead ++ '\n' :: (set.body.toList ++ '\n' :: []) := by
    let values := [("imports", set.importText), ("body", set.body)]
    refine ⟨(Template.fill values (Template.typeModule.take 2) ++ set.importText ++ "\n").toList,
      ?_⟩
    unfold typeModule
    rw [hempty, Template.fill_cut _ Template.typeModule 2, typeModule_template]
    simp [Template.fill, List.lookup_cons, values]
  have hbody : line ∈ Text.splitChars '\n' set.body.toList := by
    unfold DefinitionSet.body Text.join
    rw [String.toList_ofList, show "\n\n\n".toList = List.replicate (2 + 1) '\n' from rfl,
      Text.mem_splitChars_joinChars hne]
    exact ⟨d.block.toList, List.mem_map_of_mem (List.mem_map_of_mem hd), hm⟩
  rw [htext, Text.splitChars_append_sep, Text.splitChars_append_sep]
  exact List.mem_append_right _ (List.mem_append_left _ hbody)

/-! ## Names in annotations -/

/-- The types of the generated language that need no import. -/
def builtinTypes : List String := ["int", "float", "str", "bool", "None"]

/-- One of the lines of a module imports a typing name. -/
def Imports (source name : String) : Prop :=
  ∃ line ∈ Text.split '\n' source, ∃ names ∈ Text.after? "from typing import " line,
    name ∈ namesIn names

/-- A name that every module of functions knows: a type of the language, or one of the typing
names, which its preamble imports. -/
def Provided (r : Renderer) (name : String) : Prop :=
  name ∈ builtinTypes ∨
    name ∈ Identifier.preambleNames ∧ Imports (r.preamble .functions) name

/-- A name in an annotation of a stub means something where the annotation is evaluated. -/
inductive Resolves (r : Renderer) (stub : Stub) (leaf annotation : String) : String → Prop where
  | provided {name : String} (h : r.Provided name) : Resolves r stub leaf annotation name
  /-- It is reached by the path of the module of types, which declares it. -/
  | qualified {name : String} (hwritten : stub.hasTypeDefs = true)
      (h : Declares stub.typeDefs name) :
      Resolves r stub leaf annotation ("_" ++ leaf ++ "." ++ name)
  /-- Only beside a callable: the module of types declares it, but it stands without the path. -/
  | bare {name : String} (hcallable : "Callable" ∈ namesIn annotation)
      (hwritten : stub.hasTypeDefs = true) (h : Declares stub.typeDefs name) :
      Resolves r stub leaf annotation name

variable {r : Renderer}

theorem imports_preamble {name : String} (h : name ∈ Identifier.preambleNames) :
    Imports (r.preamble .functions) name := by
  have htemplate : Template.codePreamble.take 1 =
      [.text "from typing import List, Dict, Any, Optional, Callable\n"] := by decide
  have htext : r.preamble .functions = "from typing import List, Dict, Any, Optional, Callable\n" ++
      Template.fill [("package", r.package)] (Template.codePreamble.drop 1) := by
    show Template.fill [("package", r.package)] Template.codePreamble = _
    rw [Template.fill_cut _ _ 1, htemplate]
    simp [Template.fill]
  refine ⟨"from typing import List, Dict, Any, Optional, Callable", List.mem_map.mpr
    ⟨"from typing import List, Dict, Any, Optional, Callable".toList, ?_, String.ofList_toList⟩,
    "List, Dict, Any, Optional, Callable", by decide, ?_⟩
  · rw [htext, String.toList_append, show
      "from typing import List, Dict, Any, Optional, Callable\n".toList =
        "from typing import List, Dict, Any, Optional, Callable".toList ++ ['\n'] by decide,
      List.append_assoc, List.singleton_append, Text.splitChars_append_sep]
    exact List.mem_append_left _ (by decide)
  · have hnames : namesIn "List, Dict, Any, Optional, Callable" = Identifier.preambleNames := by
      decide
    exact hnames ▸ h

theorem provided_of_isBasic {name : String} (h : isBasic name = true) : r.Provided name := by
  have hall : ∀ name ∈ TypeName.basicTypes,
      name ∈ builtinTypes ∨ name ∈ Identifier.preambleNames := by decide
  exact (hall name (Typing.mem_basicTypes h)).imp_right fun h => ⟨h, imports_preamble h⟩

/-- A name that is read from a source as one word, and that does not begin like a callable. -/
structure Plain (name : String) : Prop where
  readable : Readable name
  notCallable : Text.startsWith "Callable" name = true → name = "Callable"

/-- **What is declared or basic resolves once it is qualified.** -/
theorem resolves_of_qualify {leaf expr name : String} {set : DefinitionSet} {stub : Stub}
    (hleaf : leaf.toList.all isIdentifierChar = true) (hset : set.Honest)
    (htypes : stub.typeDefs = typeModule set) (hexpr : Written expr)
    (hnames : ∀ m ∈ namesIn expr, isBasic m = true ∨ set.declares m = true)
    (hplain : ∀ m ∈ namesIn expr, Plain m) (hm : name ∈ namesIn (qualify leaf expr)) :
    Resolves r stub leaf (qualify leaf expr) name := by
  have hdeclared {m : String} (h : set.declares m = true) :
      stub.hasTypeDefs = true ∧ Declares stub.typeDefs m := by
    have hdeclares := declares_typeModule hset h
    rw [Stub.hasTypeDefs, htypes, hdeclares.not_blank]
    exact ⟨rfl, hdeclares⟩
  rcases TypeName.mem_namesIn_qualify hleaf hexpr (fun m hm => (hplain m hm).notCallable) hm with
    hbasic | ⟨m, hmem, hbasic, rfl⟩ | ⟨hcallable, hmem⟩
  · exact .provided (provided_of_isBasic hbasic)
  · obtain ⟨hwritten, hdeclares⟩ := hdeclared ((hnames m hmem).resolve_left (by simp [hbasic]))
    exact .qualified hwritten hdeclares
  · rcases hnames name hmem with hbasic | hname
    · exact .provided (provided_of_isBasic hbasic)
    · exact .bare hcallable (hdeclared hname).1 (hdeclared hname).2

/-! ## Functions -/

theorem identifierChars_leafOf (name : String) :
    (leafOf name).toList.all isIdentifierChar = true := by
  have hchars := Identifier.identifierChars_sanitize name
  refine List.all_eq_true.mpr fun c hc => ?_
  unfold leafOf Identifier.avoidReserved at hc
  split at hc
  · rw [String.toList_append] at hc
    rcases List.mem_append.mp hc with hc | hc
    · rw [List.mem_singleton.mp (show c ∈ ['_'] from hc)]
      decide
    · exact hchars c hc
  · exact hchars c hc

theorem leafOf_ne_empty (name : String) : leafOf name ≠ "" := by
  unfold leafOf Identifier.avoidReserved
  split
  · simp
  · exact Schema.sanitize_ne_empty name

/-- The pieces with which the templates of annotated functions begin; the gap for the type of the
result has a name of its own in each. -/
def headPieces (resultGap : String) : Template :=
  [.text "\n", .text "\n", .text "def ", .gap "name", .text "(\n", .gap "parameters", .text "\n",
    .text ") -> ", .gap resultGap, .text ":\n"]

/-- The code of a function begins with a head that annotates each parameter and the result. -/
theorem exists_head {template : Template} {values : List (String × String)}
    {resultGap leaf result : String} {signature : Signature}
    (htemplate : template.take 10 = headPieces resultGap)
    (hname : values.lookup "name" = some leaf)
    (hparameters : values.lookup "parameters" = some (r.parameterList leaf signature).signature)
    (hresult : values.lookup resultGap = some (qualify leaf result)) :
    ∃ (head : FunctionHead) (rest : String), template.fill values = "\n\n" ++ head.text ++ rest ∧
      head.name = leaf ∧ head.annotations = ((signature.parameters.map fun parameter =>
        (ParameterList.typeOf r.engine parameter).expr) ++ [result]).map (qualify leaf) := by
  obtain ⟨lines, hlines, hannotations⟩ :=
    ParameterList.lines_ofParameters r.engine leaf signature.parameters
  refine ⟨⟨leaf, lines, qualify leaf result⟩, Template.fill values (template.drop 10), ?_, rfl, ?_⟩
  · rw [Template.fill_cut values template 10, htemplate, ← String.toList_inj]
    simp only [parameterList, ParameterList.signature, hlines] at hparameters
    simp [headPieces, Template.fill, hname, hparameters, hresult, FunctionHead.text]
  · rw [FunctionHead.annotations, hannotations, List.map_append, List.map_map]
    rfl

theorem apiFunction_template : Template.apiFunction.take 10 = headPieces "response_type" := by
  decide

theorem serverFunction_template : Template.serverFunction.take 10 = headPieces "return_type" := by
  decide

/-- The types that the code of a function names: those of its parameters and of its result, for
which an API function has a wrapper. -/
def annotatedTypes (r : Renderer) (spec : Spec) : List String :=
  let signature := spec.signature.getD default
  (signature.parameters.map fun parameter => (ParameterList.typeOf r.engine parameter).expr) ++
    [if spec.category = .apiFunction then envelopeName (leafOf spec.name)
      else (r.resultType signature).expr]

/-- The code of a function: its head with an annotation for each type, and the sources from which
the module of types is made. -/
def Annotates (r : Renderer) (spec : Spec) (body : FunctionBody) : Prop :=
  (∃ (head : FunctionHead) (rest : String), body.source = "\n\n" ++ head.text ++ rest ∧
    head.name = leafOf spec.name ∧
    head.annotations = (r.annotatedTypes spec).map (qualify (leafOf spec.name))) ∧
  ∃ sources : List String, body.definitions = sources.foldl DefinitionSet.push .empty ∧
    ∀ expr ∈ r.annotatedTypes spec, Written expr ∧
      ∀ name ∈ namesIn expr, isBasic name = true ∨ ∃ source ∈ sources, Announces source name

/-- The sources behind the types of parameters. -/
def parameterSources (r : Renderer) (signature : Signature) : List String :=
  signature.parameters.map fun parameter => (ParameterList.typeOf r.engine parameter).definition

theorem written_typeOf (hengine : r.engine = Schema.builtinEngine) {signature : Signature}
    {sources : List String} (hsources : r.parameterSources signature ⊆ sources) {expr : String}
    (hexpr : expr ∈ signature.parameters.map fun parameter =>
      (ParameterList.typeOf r.engine parameter).expr) :
    Written expr ∧
      ∀ name ∈ namesIn expr, isBasic name = true ∨ ∃ source ∈ sources, Announces source name := by
  obtain ⟨parameter, hparameter, rfl⟩ := List.mem_map.mp hexpr
  have hgrounded : (ParameterList.typeOf r.engine parameter).Grounded := by
    unfold ParameterList.typeOf
    rw [hengine]
    exact Typing.grounded_resolve _ _
  exact ⟨hgrounded.written, fun name hm => (hgrounded.names name hm).imp_right fun hannounced =>
    ⟨_, hsources (List.mem_map_of_mem hparameter), hannounced⟩⟩

/-- The wrapper of a response is written under its name. -/
theorem announces_envelope (name dataType : String) (hname : '\n' ∉ name.toList) :
    Announces (Template.apiResponse.fill [("response_type", name), ("data_type", dataType)])
      name := by
  have htemplate : Template.apiResponse.take 3 =
      [.text "class ", .gap "response_type", .text "(TypedDict):\n"] := by decide
  refine ⟨("class " ++ name ++ "(TypedDict):").toList, ?_,
    "class " ++ name ++ "(", by simp, "TypedDict):".toList, by simp⟩
  rw [Template.fill_cut _ Template.apiResponse 3, htemplate, String.toList_append]
  have hline : (Template.fill [("response_type", name), ("data_type", dataType)]
      [.text "class ", .gap "response_type", .text "(TypedDict):\n"]).toList =
      ("class " ++ name ++ "(TypedDict):").toList ++ ['\n'] := by
    simp [Template.fill]
  rw [hline, List.append_assoc, List.singleton_append, Text.splitChars_append_sep,
    Text.splitChars_of_not_mem (by simp [hname])]
  exact List.mem_cons_self

theorem annotates_apiBody (hengine : r.engine = Schema.builtinEngine) {spec : Spec}
    (hcategory : spec.category = .apiFunction) :
    Annotates r spec (r.apiBody spec (leafOf spec.name) (spec.signature.getD default)) := by
  have hleaf := identifierChars_leafOf spec.name
  -- the result of a call comes in its envelope, which the function itself pushes last
  have hresult : (if spec.category = .apiFunction then envelopeName (leafOf spec.name)
      else (r.resultType (spec.signature.getD default)).expr) = envelopeName (leafOf spec.name) :=
    if_pos hcategory
  have hchars : (envelopeName (leafOf spec.name)).toList.all isIdentifierChar = true := by
    rw [envelopeName, String.toList_append, List.all_append, hleaf]
    decide
  have hne : envelopeName (leafOf spec.name) ≠ "" := by simp [envelopeName]
  let signature := spec.signature.getD default
  let result := r.resultType signature
  let sources := r.parameterSources signature ++ [result.definition,
    Template.apiResponse.fill
      [("response_type", envelopeName (leafOf spec.name)), ("data_type", result.expr)]]
  unfold Annotates annotatedTypes apiBody
  dsimp only
  rw [hresult]
  refine ⟨exists_head apiFunction_template rfl rfl rfl, sources, ?_, fun expr hm => ?_⟩
  · rw [parameterList, ParameterList.definitions_ofParameters, List.foldl_append, List.foldl_cons,
      List.foldl_cons, List.foldl_nil]
    rfl
  · rcases List.mem_append.mp hm with hm | hm
    · exact written_typeOf hengine (List.subset_append_left _ _) hm
    · rw [List.mem_singleton.mp hm]
      refine ⟨.name hne hchars, fun name hm => .inr ⟨_, List.mem_append_right _
        (List.mem_cons_of_mem _ List.mem_cons_self), ?_⟩⟩
      rw [TypeName.namesIn_identifier hne hchars, List.mem_singleton] at hm
      rw [hm]
      exact announces_envelope _ _ (Schema.oneLine_of_identifierChars hchars)

theorem annotates_serverBody (hengine : r.engine = Schema.builtinEngine) {spec : Spec}
    (hcategory : spec.category = .serverFunction) :
    Annotates r spec (r.serverBody spec (leafOf spec.name) (spec.signature.getD default)) := by
  -- the result of a server function is annotated as it is
  have hresult : (if spec.category = .apiFunction then envelopeName (leafOf spec.name)
      else (r.resultType (spec.signature.getD default)).expr) =
        (r.resultType (spec.signature.getD default)).expr :=
    if_neg (by simp [hcategory])
  have hgrounded : (r.resultType (spec.signature.getD default)).Grounded := by
    unfold resultType
    rw [hengine]
    exact Typing.grounded_resolve _ _
  let signature := spec.signature.getD default
  let sources := r.parameterSources signature ++ [(r.resultType signature).definition]
  unfold Annotates annotatedTypes serverBody
  dsimp only
  rw [hresult]
  refine ⟨exists_head serverFunction_template rfl rfl rfl, sources, ?_, fun expr hm => ?_⟩
  · rw [parameterList, ParameterList.definitions_ofParameters, List.foldl_append]
    rfl
  · rcases List.mem_append.mp hm with hm | hm
    · exact written_typeOf hengine (List.subset_append_left _ _) hm
    · rw [List.mem_singleton.mp hm]
      exact ⟨hgrounded.written, fun name hm => (hgrounded.names name hm).imp_right fun hannounced =>
        ⟨_, List.mem_append_right _ List.mem_cons_self, hannounced⟩⟩

/-- The stub of a function holds the code of its category and the module of its types. -/
theorem functionStub_eq_ok {spec : Spec} {stub : Stub} (h : r.functionStub spec = .ok stub) :
    ∃ path body, r.functionBody? spec (leafOf spec.name) path = some body ∧
      stub.source = body.source ∧ stub.typeDefs = typeModule body.definitions := by
  unfold functionStub at h
  obtain ⟨path, -, h⟩ := Result.bind_eq_ok_iff.mp h
  split at h
  · rename_i body hbody
    rw [← Result.pure_eq_ok_iff.mp h]
    exact ⟨path, body, hbody, rfl, rfl⟩
  · exact absurd h Result.throw_ne_ok

/-- A function that calls an API or runs on the server has code that annotates it. -/
theorem annotates_of_functionBody? (hengine : r.engine = Schema.builtinEngine) {spec : Spec}
    {path : NamespacePath} {body : FunctionBody}
    (hcategory : spec.category = .apiFunction ∨ spec.category = .serverFunction)
    (h : r.functionBody? spec (leafOf spec.name) path = some body) : Annotates r spec body := by
  unfold functionBody? at h
  rcases hcategory with hcategory | hcategory
  · simp only [hcategory, Option.some.injEq] at h
    exact h ▸ annotates_apiBody hengine hcategory
  · simp only [hcategory, Option.some.injEq] at h
    exact h ▸ annotates_serverBody hengine hcategory

theorem annotates_of_render {spec : Spec} {stub : Stub} (hengine : r.engine = Schema.builtinEngine)
    (hcategory : spec.category = .apiFunction ∨ spec.category = .serverFunction)
    (h : r.render spec = .ok stub) :
    ∃ body, Annotates r spec body ∧ stub.source = body.source ∧
      stub.typeDefs = typeModule body.definitions := by
  have hstub : r.functionStub spec = .ok stub := by
    rcases hcategory with hcategory | hcategory <;> simpa only [render, hcategory] using h
  obtain ⟨path, body, hbody, hsource, htypes⟩ := functionStub_eq_ok hstub
  exact ⟨body, annotates_of_functionBody? hengine hcategory hbody, hsource, htypes⟩

/-- **Every annotation resolves.** The code of a function that calls an API or runs on the server
begins with a head in which each parameter and the result is annotated, and every name in an
annotation, at any depth, is provided for every module of functions or is reached through the
module of types, which is written and declares it. Only beside a callable, which is never
qualified, a name may be declared there and stand without the path. This is for types whose names
are read as one word each and do not begin like a callable. -/
theorem annotations_resolve {spec : Spec} {stub : Stub}
    (hengine : r.engine = Schema.builtinEngine)
    (hcategory : spec.category = .apiFunction ∨ spec.category = .serverFunction)
    (hplain : ∀ expr ∈ r.annotatedTypes spec, ∀ name ∈ namesIn expr, Plain name)
    (h : r.render spec = .ok stub) :
    ∃ (head : FunctionHead) (rest : String), stub.source = "\n\n" ++ head.text ++ rest ∧
      head.name = leafOf spec.name ∧
      head.annotations.length = (spec.signature.getD default).parameters.length + 1 ∧
      ∀ annotation ∈ head.annotations, ∀ name ∈ namesIn annotation,
        Resolves r stub head.name annotation name := by
  obtain ⟨body, ⟨⟨head, rest, htext, hname, hannotations⟩, sources, hdefinitions, htyped⟩,
    hsource, htypes⟩ := annotates_of_render hengine hcategory h
  refine ⟨head, rest, hsource.trans htext, hname, ?_, fun annotation ha name hm => ?_⟩
  · rw [hannotations]
    simp [annotatedTypes]
  · rw [hannotations] at ha
    obtain ⟨expr, hexpr, rfl⟩ := List.mem_map.mp ha
    obtain ⟨hwritten, hnames⟩ := htyped expr hexpr
    rw [hname]
    refine resolves_of_qualify (identifierChars_leafOf spec.name)
      (DefinitionSet.honest_foldl_push sources) (hdefinitions ▸ htypes) hwritten (fun m hm => ?_)
      (hplain expr hexpr) hm
    -- what a source announces is declared once all sources have been pushed
    exact (hnames m hm).imp_right fun ⟨_, hmem, hannounced⟩ =>
      DefinitionSet.declares_foldl_push (hplain expr hexpr m hm).readable hmem hannounced _

/-- A renderer with the engine of this library. -/
def plainRenderer : Renderer := ⟨"shop", Schema.builtinEngine, fun _ => ""⟩

/-- A pet, as an object with a title. -/
def petType : DeclaredType :=
  .object (some (.obj [("title", .str "Pet"), ("type", .str "object"),
    ("properties", .obj [("id", .obj [("type", .str "integer")])])])) none none

/-- A function on the server that takes a pet, other pets, and what is called with a pet. -/
def adoption : Spec :=
  { Spec.blank with
    id := "1", name := "adopt", category := .serverFunction
    signature := some (.mk [.mk "pet" "" true none petType,
      .mk "others" "" true none (.array (some (.type petType))),
      .mk "notify" "" false none (.function (some
        (.mk [.mk "pet" "" true none petType] .void none)))] (.plain "number") none) }

theorem annotatedTypes_adoption : plainRenderer.annotatedTypes adoption =
    ["Pet", "List[Pet]", "Callable[[Pet], None]", "float"] := by decide

theorem exists_stub_adoption : ∃ stub, plainRenderer.render adoption = .ok stub := by
  have hok : (plainRenderer.render adoption).toBool = true := by decide +kernel
  match h : plainRenderer.render adoption with
  | .ok stub => exact ⟨stub, rfl⟩
  | .error _ =>
      rw [h] at hok
      exact Bool.noConfusion hok

instance (name : String) : Decidable (Readable name) :=
  decidable_of_iff (name ≠ "" ∧ name.toList.all Text.isWord = true ∧ name ≠ "from" ∧
      name ≠ "import")
    ⟨fun ⟨hne, hword, hfrom, himport⟩ =>
      ⟨⟨hne, List.all_eq_true.mp hword⟩, hfrom, himport⟩,
      fun h => ⟨h.ne_empty, List.all_eq_true.mpr h.word, h.ne_from, h.ne_import⟩⟩

instance (name : String) : Decidable (Plain name) :=
  decidable_of_iff (Readable name ∧ (Text.startsWith "Callable" name = true → name = "Callable"))
    ⟨fun ⟨hreadable, hcallable⟩ => ⟨hreadable, hcallable⟩,
      fun h => ⟨h.readable, h.notCallable⟩⟩

/-- The pet and the list of pets are qualified, and the pet that the callable takes is not. -/
theorem annotations_resolve_adoption : ∃ stub, plainRenderer.render adoption = .ok stub ∧
    ∃ (head : FunctionHead) (rest : String), stub.source = "\n\n" ++ head.text ++ rest ∧
      head.name = leafOf adoption.name ∧
      head.annotations.length = (adoption.signature.getD default).parameters.length + 1 ∧
      ∀ annotation ∈ head.annotations, ∀ name ∈ namesIn annotation,
        Resolves plainRenderer stub head.name annotation name := by
  have hplain : ∀ expr ∈ plainRenderer.annotatedTypes adoption, ∀ name ∈ namesIn expr,
      Plain name := by
    rw [annotatedTypes_adoption]
    decide +kernel
  obtain ⟨stub, hstub⟩ := exists_stub_adoption
  exact ⟨stub, hstub, annotations_resolve rfl (.inr rfl) hplain hstub⟩

/-- **The names inside a callable stand without the path.** The pet that the callable takes is
neither provided nor qualified. -/
theorem callable_stands_bare : ∃ stub, plainRenderer.render adoption = .ok stub ∧
    ∃ (head : FunctionHead) (rest : String), stub.source = "\n\n" ++ head.text ++ rest ∧
      ∃ annotation ∈ head.annotations, "Pet" ∈ namesIn annotation ∧
        ¬ plainRenderer.Provided "Pet" ∧ ∀ name, "Pet" ≠ "_" ++ head.name ++ "." ++ name := by
  obtain ⟨stub, hstub⟩ := exists_stub_adoption
  obtain ⟨body, ⟨⟨head, rest, htext, -, hannotations⟩, -⟩, hsource, -⟩ :=
    annotates_of_render (r := plainRenderer) rfl (.inr rfl) hstub
  refine ⟨stub, hstub, head, rest, hsource.trans htext,
    qualify "adopt" "Callable[[Pet], None]", ?_, by decide +kernel, ?_, ?_⟩
  · have hleaf : leafOf adoption.name = "adopt" := by decide +kernel
    rw [hannotations, annotatedTypes_adoption, hleaf]
    simp
  · rintro (h | ⟨h, -⟩)
    · exact absurd h (by decide)
    · exact absurd h (by decide)
  · intro name h
    simpa using congrArg (fun text => text.toList.head?) h

end Renderer

end StubGen
