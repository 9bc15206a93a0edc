import StubGen.Command.Function
import StubGen.Proofs.Stub.Signatures

/-!
# Functions that call the service

The code of an API function and of a server function has one form, a `Caller`: a head, a
docstring, the call that sends what the parameters hold, and what is made of the answer. The head
and the call belong together, for both are written from one arrangement of the parameters:
`exists_caller`. The call, and the logging of a server function, are names that the module
imports, so a function or a parameter of that name hides them. No numbering makes a parameter such
a name and none keeps it from being one, and which names they are is exactly told by
`captures_iff`.
-/

namespace StubGen

open Identifier (Usable isIdentifierChar argumentName camelCase)
open Quoting (readDisplay?)
open Schema (Engine)

namespace ParameterList

/-- A parameter list is written from an arrangement, whose local names stand beside the remote
names. -/
theorem exists_arrangement (engine : Engine) (owner : String) (parameters : List Parameter) :
    ∃ a : Arrangement,
      (ofParameters engine owner parameters).lines = a.lines.map ParameterLine.text ∧
      (ofParameters engine owner parameters).names =
        (remoteNames parameters).zip (a.given.map Given.name) ∧
      a.given.length = parameters.length ∧ (a.given.map Given.name).Nodup ∧
      ∀ g ∈ a.given, Usable g.name := by
  obtain ⟨a, h⟩ := drafts_foldl (@drafts_empty engine owner) parameters.zipIdx
  rw [List.nil_append] at h
  have hlength : a.given.length = parameters.length := by
    simpa using congrArg List.length h.rests
  refine ⟨a, h.lines, ?_, hlength, h.distinct, h.usable⟩
  rw [remoteNames, ← h.remotes, ← h.locals]
  exact List.zip_of_prod rfl rfl

/-- The payload of a parameter list is read back as its names. -/
theorem readDisplay?_payload (engine : Engine) (owner : String) (parameters : List Parameter) :
    readDisplay? (ofParameters engine owner parameters).payload =
      some (ofParameters engine owner parameters).names := by
  obtain ⟨a, -, hnames, -, -, husable⟩ := exists_arrangement engine owner parameters
  refine Quoting.readDisplay?_text fun entry hm => ?_
  rw [hnames] at hm
  obtain ⟨g, hg, hname⟩ := List.mem_map.mp (List.of_mem_zip hm).2
  rw [← hname]
  exact ⟨(husable g hg).nonempty, (husable g hg).chars⟩

/-! ## Which local names there are -/

variable {engine : Engine} {owner : String}

/-- A name that does not end in a digit, so that no numbered name is equal to it. -/
def Unnumbered (name : String) : Prop := ∀ c ∈ name.toList.getLast?, c.isDigit = false

instance (name : String) : Decidable (Unnumbered name) :=
  decidable_of_iff ((name.toList.getLast?.all fun c => !c.isDigit) = true) <| by
    simp [Unnumbered, Option.all_eq_true]

theorem Unnumbered.ne {name : String} (h : Unnumbered name) (stem : String) (n : Nat) :
    stem ++ toString n ≠ name := by
  rintro rfl
  have hne : (toString n).toList ≠ [] := by
    rw [Ne, String.toList_eq_nil_iff]
    exact Nat.repr_ne_empty
  have hlast := List.getLast?_eq_some_getLast hne
  refine Bool.false_ne_true ((h ((toString n).toList.getLast hne) ?_).symm.trans
    (Schema.isDigit_of_mem_toString (List.getLast_mem hne)))
  rw [String.toList_append, List.getLast?_append, hlast]
  exact rfl

/-- Making a name free neither makes it an unnumbered name nor, where that is free, another. -/
theorem freeName_eq_iff {used : List String} {name wanted : String} (h : Unnumbered wanted)
    (hfree : wanted ∉ used) : freeName used name = wanted ↔ name = wanted := by
  rw [freeName_eq_freshName]
  refine ⟨fun heq => ?_, ?_⟩
  · rcases Schema.freshName_cases used name with hsame | ⟨n, hnumbered⟩
    · rw [← heq, hsame]
    · exact absurd (hnumbered.symm.trans heq) (h.ne name n)
  · rintro rfl
    unfold Schema.freshName
    rw [if_neg (by simpa using hfree)]

/-- **One step declares an unnumbered name exactly if the parameter comes to it**, or if it has
been declared before. -/
theorem mem_locals_step {name : String} (h : Unnumbered name) (d : Draft)
    (entry : Parameter × Nat) :
    name ∈ (step engine owner d entry).list.names.map Prod.snd ↔
      name ∈ d.list.names.map Prod.snd ∨ argumentName (remoteName entry.2 entry.1) = name := by
  have hnames : (step engine owner d entry).list.names.map Prod.snd = d.list.names.map Prod.snd ++
      [freeName (d.list.names.map Prod.snd) (argumentName (remoteName entry.2 entry.1))] := by
    simp [step]
  rw [hnames, List.mem_append, List.mem_singleton]
  by_cases hused : name ∈ d.list.names.map Prod.snd
  · exact iff_of_true (.inl hused) (.inl hused)
  · rw [eq_comm, freeName_eq_iff h hused]

theorem mem_locals_foldl {name : String} (h : Unnumbered name) (entries : List (Parameter × Nat))
    (d : Draft) :
    name ∈ (entries.foldl (step engine owner) d).list.names.map Prod.snd ↔
      name ∈ d.list.names.map Prod.snd ∨
        ∃ entry ∈ entries, argumentName (remoteName entry.2 entry.1) = name := by
  induction entries generalizing d with
  | nil => simp
  | cons entry entries ih =>
      rw [List.foldl_cons, ih, mem_locals_step h, or_assoc, List.exists_mem_cons_iff]

/-- An unnumbered name is declared exactly if some parameter comes to it. -/
theorem mem_locals_iff (engine : Engine) (owner : String) (parameters : List Parameter)
    {name : String} (h : Unnumbered name) :
    name ∈ (ofParameters engine owner parameters).names.map Prod.snd ↔
      ∃ remote ∈ remoteNames parameters, argumentName remote = name := by
  unfold ofParameters remoteNames
  rw [mem_locals_foldl h]
  simp

end ParameterList

namespace Renderer

open Command (executeKind?)
open ParameterList (Arrangement Given Unnumbered remoteNames)

variable {r : Renderer}

/-! ## The call -/

/-- The code of a function that calls the service. -/
structure Caller where
  head : FunctionHead
  /-- What the docstring says, and the id in it. -/
  description : String
  idText : String
  /-- What is called: the kind of function, the literal of its id, and the display of the mapping
  that is sent. -/
  kind : String
  idLiteral : String
  payload : String
  /-- What is made of the answer. -/
  answer : String

def Caller.text (caller : Caller) : String :=
  "\n\n" ++ caller.head.text ++ "    \"\"\"" ++ caller.description ++ "\n\n    Function ID: " ++
    caller.idText ++ "\n    \"\"\"\n    resp = execute(\"" ++ caller.kind ++ "\", " ++
    caller.idLiteral ++ ", " ++ caller.payload ++ ")\n" ++ caller.answer

/-- The pieces between the head and what is made of the answer. -/
def callPieces (kind : String) : Template :=
  [.text "    \"\"\"", .gap "description", .text "\n", .text "\n", .text "    Function ID: ",
    .gap "id_doc", .text "\n", .text "    \"\"\"\n",
    .text ("    resp = execute(\"" ++ kind ++ "\", "), .gap "id_literal", .text ", ",
    .gap "payload", .text ")\n"]

theorem apiFunction_pieces :
    Template.apiFunction.take 23 = headPieces "response_type" ++ callPieces "api" := by
  decide +kernel

theorem serverFunction_pieces :
    Template.serverFunction.take 23 = headPieces "return_type" ++ callPieces "server" := by
  decide +kernel

theorem fill_headPieces (head : FunctionHead) {values : List (String × String)}
    {resultGap parameters : String} (hname : values.lookup "name" = some head.name)
    (hparameters : values.lookup "parameters" = some parameters)
    (htext : parameters = Text.join "\n" (head.lines.map ParameterLine.text))
    (hresult : values.lookup resultGap = some head.result) :
    Template.fill values (headPieces resultGap) = "\n\n" ++ head.text := by
  rw [← String.toList_inj]
  simp [headPieces, Template.fill, hname, hparameters, hresult, htext, FunctionHead.text]

theorem fill_callPieces (values : List (String × String)) (kind : String) :
    Template.fill values (callPieces kind) =
      "    \"\"\"" ++ (values.lookup "description").getD "" ++ "\n\n    Function ID: " ++
        (values.lookup "id_doc").getD "" ++
        "\n    \"\"\"\n    resp = execute(\"" ++ kind ++ "\", " ++
        (values.lookup "id_literal").getD "" ++ ", " ++ (values.lookup "payload").getD "" ++
        ")\n" := by
  have hid : "\n\n    Function ID: " = "\n" ++ ("\n" ++ "    Function ID: ") := by decide
  have hcall : "\n    \"\"\"\n    resp = execute(\"" =
      "\n" ++ ("    \"\"\"\n" ++ "    resp = execute(\"") := by decide
  rw [hid, hcall]
  simp only [callPieces, Template.fill, List.map_cons, List.map_nil, String.join_cons,
    String.join_nil, String.append_assoc, String.append_empty]

/-- The parameters of a function. -/
def parametersOf (spec : Spec) : List Parameter := (spec.signature.getD default).parameters

/-- A caller is the code for a spec, with its parameters in an arrangement: these are the lines of
its head, and the display pairs their remote names with their local names. -/
structure Calls (spec : Spec) (caller : Caller) (a : Arrangement) : Prop where
  name : caller.head.name = leafOf spec.name
  lines : caller.head.lines = a.lines
  distinct : (a.given.map Given.name).Nodup
  length : a.given.length = (parametersOf spec).length
  display : readDisplay? caller.payload =
    some ((remoteNames (parametersOf spec)).zip (a.given.map Given.name))
  locals : ∀ {name}, Unnumbered name → (name ∈ a.given.map Given.name ↔
    ∃ remote ∈ remoteNames (parametersOf spec), argumentName remote = name)

theorem exists_caller_of_fill {spec : Spec} {template : Template}
    {values : List (String × String)} {resultGap kind result leaf : String} {list : ParameterList}
    (htemplate : template.take 23 = headPieces resultGap ++ callPieces kind)
    (hleaf : leaf = leafOf spec.name)
    (hlist : list = ParameterList.ofParameters r.engine leaf (parametersOf spec))
    (hname : values.lookup "name" = some leaf)
    (hparameters : values.lookup "parameters" = some list.signature)
    (hresult : values.lookup resultGap = some result)
    (hpayload : values.lookup "payload" = some list.payload) :
    ∃ caller a, template.fill values = caller.text ∧ caller.kind = kind ∧ Calls spec caller a := by
  obtain ⟨a, hlines, hnames, hlength, hdistinct, -⟩ :=
    ParameterList.exists_arrangement r.engine leaf (parametersOf spec)
  have hdisplay := ParameterList.readDisplay?_payload r.engine leaf (parametersOf spec)
  have hmem {name : String} := @ParameterList.mem_locals_iff r.engine leaf (parametersOf spec) name
  rw [← hlist] at hlines hnames hdisplay hmem
  -- the payload pairs the names one to one, so its local names are those of the arrangement
  have hlocals : list.names.map Prod.snd = a.given.map Given.name := by
    have hsame : (remoteNames (parametersOf spec)).length = (a.given.map Given.name).length := by
      simp [remoteNames, hlength]
    rw [hnames, List.map_snd_zip (Nat.le_of_eq hsame.symm)]
  refine ⟨⟨⟨leaf, a.lines, result⟩, (values.lookup "description").getD "",
      (values.lookup "id_doc").getD "", kind, (values.lookup "id_literal").getD "",
      list.payload, Template.fill values (template.drop 23)⟩, a, ?_, rfl,
    ⟨hleaf, rfl, hdistinct, hlength, hdisplay.trans (congrArg some hnames), fun h => ?_⟩⟩
  -- the text is the head, the call, and what the template has behind them
  · have hhead := fill_headPieces ⟨leaf, a.lines, result⟩ hname hparameters
      (congrArg (Text.join "\n") hlines) hresult
    rw [Template.fill_cut values template 23, htemplate, Template.fill_append, hhead,
      fill_callPieces, hpayload]
    unfold Caller.text
    dsimp only [Option.getD_some]
    simp only [← String.append_assoc]
  · rw [← hlocals]
    exact hmem h

/-- **The code of an API function and of a server function is a caller.** -/
theorem exists_caller {spec : Spec} {stub : Stub} {kind : String}
    (hkind : executeKind? spec.category = some kind) (h : r.render spec = .ok stub) :
    ∃ caller a, stub.source = caller.text ∧ caller.kind = kind ∧ Calls spec caller a := by
  have hstub : r.functionStub spec = .ok stub := by
    cases hcategory : spec.category <;> simp_all [render, executeKind?]
  obtain ⟨path, body, hbody, hsource, -⟩ := functionStub_eq_ok hstub
  rw [hsource]
  unfold executeKind? at hkind
  split at hkind
  · rename_i heq
    rw [functionBody?, heq] at hbody
    rw [← Option.some.inj hbody, ← Option.some.inj hkind]
    unfold apiBody
    exact exists_caller_of_fill apiFunction_pieces rfl rfl rfl rfl rfl rfl
  · rename_i heq
    rw [functionBody?, heq] at hbody
    rw [← Option.some.inj hbody, ← Option.some.inj hkind]
    dsimp only [serverBody]
    exact exists_caller_of_fill serverFunction_pieces rfl rfl rfl rfl rfl rfl
  · cases hkind

/-! ## Names that the code uses -/

/-- The names that the body of a function takes from the preamble of its module: the call, and
the logging of a server function. -/
def usedNames : Category → List String
  | .apiFunction => ["execute"]
  | .serverFunction => ["execute", "logging"]
  | _ => []

/-- A name of ASCII letters that is left as it is when it is made an identifier. -/
structure Lettered (name : String) : Prop where
  nonempty : name ≠ ""
  letters : ∀ c ∈ name.toList, c.isAlpha = true
  free : Identifier.isReserved name = false
  ne_arg : name ≠ "arg"

theorem lettered_of_mem_usedNames {category : Category} {name : String}
    (h : name ∈ usedNames category) : Lettered name := by
  have hall : ∀ name ∈ ["execute", "logging"], name ≠ "" ∧ name.toList.all Char.isAlpha = true ∧
      Identifier.isReserved name = false ∧ name ≠ "arg" := by decide
  have hm : name ∈ ["execute", "logging"] := by
    cases category with
    | apiFunction => exact List.mem_cons.mpr (.inl (List.mem_singleton.mp h))
    | serverFunction => exact h
    | _ => exact absurd h List.not_mem_nil
  obtain ⟨hne, hletters, hfree, harg⟩ := hall name hm
  exact ⟨hne, List.all_eq_true.mp hletters, hfree, harg⟩

namespace Lettered

variable {name : String}

theorem isDigit_eq_false {c : Char} (h : Lettered name) (hm : c ∈ name.toList) :
    c.isDigit = false := by
  have hletter := h.letters c hm
  refine Bool.eq_false_iff.mpr fun hdigit => ?_
  rw [Text.isAlpha_iff, Text.isUpper_iff, Text.isLower_iff] at hletter
  rw [Text.isDigit_iff] at hdigit
  omega

theorem unnumbered (h : Lettered name) : Unnumbered name :=
  fun _ hc => h.isDigit_eq_false (List.mem_of_getLast? hc)

theorem ne_underscore {c : Char} (h : Lettered name) (hm : c ∈ name.toList) : c ≠ '_' := by
  rintro rfl
  exact absurd (h.letters _ hm) (by decide)

/-- Characters come to the name by having underscores put in only if none is put in. -/
theorem map_eq_iff (h : Lettered name) (cs : List Char) :
    cs.map (fun c => if isIdentifierChar c then c else '_') = name.toList ↔ cs = name.toList := by
  constructor
  · intro heq
    rw [← heq]
    refine ((List.map_congr_left fun c hc => ?_).trans (List.map_id' cs)).symm
    have hm : (if isIdentifierChar c then c else '_') ∈ name.toList := heq ▸ List.mem_map_of_mem hc
    by_cases hchar : isIdentifierChar c = true
    · rw [if_pos hchar]
    · rw [if_neg hchar] at hm
      exact absurd rfl (h.ne_underscore hm)
  · rintro rfl
    refine (List.map_congr_left fun c hc => ?_).trans (List.map_id' _)
    have halnum : c.isAlphanum = true := by simp [Char.isAlphanum, h.letters c hc]
    rw [if_pos (Identifier.isIdentifierChar_of_isAlphanum halnum)]

/-- **A text is sanitized to such a name exactly if it is the name**, white space around it left
aside. -/
theorem sanitize_eq_iff (h : Lettered name) (text : String) :
    Identifier.sanitize text = name ↔ Text.trim text = name := by
  have htrim : Text.trim text = name ↔ Text.trimChars text.toList = name.toList := by
    rw [← String.toList_inj, Text.trim, String.toList_ofList]
  rw [htrim, ← h.map_eq_iff, ← String.toList_inj, Identifier.sanitize, String.toList_ofList]
  unfold Identifier.sanitizeChars
  split
  · rename_i heq
    rw [heq]
    refine iff_of_false (fun harg => h.ne_arg ?_) fun hnil => h.nonempty ?_
    · exact String.toList_inj.mp harg.symm
    · exact String.toList_eq_nil_iff.mp hnil.symm
  · rename_i c rest heq
    rw [heq]
    split
    · rename_i hc
      refine iff_of_false (fun hname => ?_) fun hname => ?_
      · exact h.ne_underscore (hname ▸ List.mem_cons_self) rfl
      · have hm : c ∈ name.toList := hname ▸ List.mem_cons_self
        exact Bool.noConfusion (hc.symm.trans (h.isDigit_eq_false hm))
    · exact Iff.rfl

theorem avoidReserved_eq_iff (h : Lettered name) (text : String) :
    Identifier.avoidReserved text = name ↔ text = name := by
  unfold Identifier.avoidReserved
  split
  · rename_i htaken
    refine iff_of_false (fun heq => ?_) fun heq => ?_
    · exact h.ne_underscore (heq ▸ by simp) rfl
    · exact Bool.noConfusion (h.free.symm.trans (heq ▸ htaken))
  · exact Iff.rfl

end Lettered

/-- **A function captures a name exactly if it is called so, a parameter exactly if its remote
name comes to it.** The code of an API function and of a server function is a caller, written from
an arrangement of its parameters. Of the names that its body uses from the preamble of its module,
the leaf is one exactly if the spec goes by that name, and a local name is one exactly if the
remote name of some parameter is that name in camel case. -/
theorem captures_iff {spec : Spec} {stub : Stub} {kind : String}
    (hkind : executeKind? spec.category = some kind) (h : r.render spec = .ok stub) :
    ∃ (caller : Caller) (a : Arrangement), stub.source = caller.text ∧ caller.head.lines = a.lines ∧
      a.given.length = (parametersOf spec).length ∧
      ∀ used ∈ usedNames spec.category,
        (caller.head.name = used ↔ Text.trim spec.name = used) ∧
        (used ∈ a.given.map Given.name ↔
          ∃ remote ∈ remoteNames (parametersOf spec), Text.trim (camelCase remote) = used) := by
  obtain ⟨caller, a, hsource, -, hcalls⟩ := exists_caller hkind h
  refine ⟨caller, a, hsource, hcalls.lines, hcalls.length, fun used hm => ?_⟩
  have hlettered := lettered_of_mem_usedNames hm
  constructor
  · rw [hcalls.name, leafOf, hlettered.avoidReserved_eq_iff, hlettered.sanitize_eq_iff]
  · rw [hcalls.locals hlettered.unnumbered]
    refine exists_congr fun remote => and_congr_right fun _ => ?_
    rw [argumentName, hlettered.avoidReserved_eq_iff, hlettered.sanitize_eq_iff]

/-- A server function that is called like the call in its body, with a parameter that is called
like its logging. -/
def hider : Spec :=
  { Spec.blank with
    id := "1", name := "execute", category := .serverFunction
    signature := some (.mk [.mk "logging" "" true none (.primitive "string")] .void none) }

theorem exists_stub_hider : ∃ stub, plainRenderer.render hider = .ok stub := by
  have hok : (plainRenderer.render hider).toOption.isSome = true := by decide +kernel
  obtain ⟨stub, hstub⟩ := Option.isSome_iff_exists.mp hok
  exact ⟨stub, Result.eq_ok_of_toOption hstub⟩

/-- Both names that its body uses are hidden there. -/
theorem captures_iff_hider : executeKind? hider.category = some "server" ∧
    ∃ stub, plainRenderer.render hider = .ok stub ∧
      ∃ (caller : Caller) (a : Arrangement), stub.source = caller.text ∧
        caller.head.lines = a.lines ∧ caller.head.name = "execute" ∧
        "logging" ∈ a.given.map Given.name := by
  obtain ⟨stub, hstub⟩ := exists_stub_hider
  obtain ⟨caller, a, hsource, hlines, -, hcaptures⟩ :=
    captures_iff (rfl : executeKind? hider.category = some "server") hstub
  have hname := hcaptures "execute" (by decide)
  have hparameter := hcaptures "logging" (by decide)
  exact ⟨rfl, stub, hstub, caller, a, hsource, hlines, hname.1.mpr (by decide),
    hparameter.2.mpr ⟨"logging", by decide, by decide⟩⟩

/-- **A function that is called `execute` calls itself.** And where it would log, it takes its
parameter for the module. -/
theorem hider_calls_itself : usedNames hider.category = ["execute", "logging"] ∧
    (plainRenderer.render hider).toOption.map Stub.source = some
      ("\n\ndef execute(\n    logging: str,\n) -> None:\n    \"\"\"\n\n    Function ID: 1\n" ++
        "    \"\"\"\n    resp = execute(\"server\", \"1\", \x7b'logging': logging\x7d)\n    try:\n" ++
        "        return None\n    except ValueError as e:\n" ++
        "        logging.getLogger(\"poly\").warning(\"Could not decode response of execute, " ++
        "returning raw text: %s\", e)\n        return resp.text  # type: ignore\n") := by
  decide +kernel

end Renderer

end StubGen
