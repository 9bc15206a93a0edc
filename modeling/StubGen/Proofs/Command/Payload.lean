import StubGen.Proofs.Json.Values
import StubGen.Proofs.Stub.Calls

/-!
# What is sent to execute a function

A function can be executed in two ways: from the command line, with an array of values, and by
calling the code that is generated for it. The command line pairs the values with the names of the
parameters; the code sends a display, which pairs the remote names with the local names that hold
the values. Both keep the last of the values that go by one name. The remote name of a parameter is
its name unless it has none, so the two send the same if every parameter has a name; a parameter
without one is sent under the empty name by the command line alone: `payload_agrees`.
-/

namespace StubGen

namespace Json

/-- The marks, quotes, digits and letters that a value begins with are no white space. -/
theorem nextToken?_of_isBlank {c : Char} (h : Text.isBlank c = true) (cs : List Char) :
    nextToken? (c :: cs) = none := by
  have hmark : markToken? c = none := by
    unfold markToken?
    split <;> first | rfl | exact absurd h (by decide)
  have hquote : c ≠ '\x22' := by rintro rfl; exact absurd h (by decide)
  have hminus : c ≠ '-' := by rintro rfl; exact absurd h (by decide)
  have hdigit : c.isDigit = false := Text.eq_false_of_isBlank (by decide) h
  have hletter : isWordLetter c = false := Text.eq_false_of_isBlank (by decide) h
  simp [nextToken?, hmark, hquote, hminus, hdigit, hletter]

/-- A text with a value in it is not blank. -/
theorem not_isBlankText_of_parse? {text : String} {value : Json} (h : parse? text = some value) :
    Text.isBlankText text = false := by
  refine Bool.eq_false_iff.mpr fun hblank => ?_
  obtain ⟨tokens, htokens, hrun⟩ := Option.bind_eq_some_iff.mp h
  rw [tokens?] at htokens
  split at htokens
  · rw [← Option.some.inj htokens] at hrun
    cases hrun
  · rename_i c rest heq
    have hm : c ∈ text.toList := (List.dropWhile_sublist _).subset (heq ▸ List.mem_cons_self)
    rw [nextToken?_of_isBlank (List.all_eq_true.mp hblank c hm)] at htokens
    cases htokens

end Json

namespace Command

open ParameterList (Arrangement Given remoteNames)
open Renderer (Caller Calls parametersOf plainRenderer)

/-! ## The display that the code sends -/

/-- The members that a display makes when the names in it hold values. -/
def evaluate? (held : Members) (display : List (String × String)) : Option Members :=
  (display.mapM fun entry => (held.get? entry.2).map fun value => (entry.1, value)).map
    (Members.insertAll [])

/-- What the code sends when its local names hold values. -/
def sentBy? (caller : Caller) (held : Members) : Option Members :=
  (Quoting.readDisplay? caller.payload).bind (evaluate? held)

/-- A display whose names hold values pairs its keys with them, one by one. -/
theorem mapM_get?_zip {held : Members} {keys locals : List String} {values : List Json}
    (hkeys : keys.length = values.length) (hlocals : locals.length = values.length)
    (hheld : ∀ m ∈ locals.zip values, held.get? m.1 = some m.2) :
    ((keys.zip locals).mapM fun entry => (held.get? entry.2).map fun value => (entry.1, value)) =
      some (keys.zip values) := by
  induction values generalizing keys locals with
  | nil =>
      rw [List.length_eq_zero_iff.mp hkeys]
      rfl
  | cons value values ih =>
      obtain ⟨key, keys, rfl⟩ := List.exists_cons_of_length_eq_add_one hkeys
      obtain ⟨name, locals, rfl⟩ := List.exists_cons_of_length_eq_add_one hlocals
      have hfirst := hheld (name, value) List.mem_cons_self
      have hrest := ih (Nat.succ.inj hkeys) (Nat.succ.inj hlocals) fun m hm =>
        hheld m (List.mem_cons_of_mem _ hm)
      simp only [List.zip_cons_cons, List.mapM_cons, hfirst, hrest]
      rfl

theorem evaluate?_zip {keys locals : List String} {values : List Json} (hdistinct : locals.Nodup)
    (hkeys : keys.length = values.length) (hlocals : locals.length = values.length) :
    evaluate? (locals.zip values) (keys.zip locals) =
      some (Members.insertAll [] (keys.zip values)) := by
  have hdistinct : Members.keys (locals.zip values) = locals := by
    rw [Members.keys, List.map_fst_zip (Nat.le_of_eq hlocals)]
  rw [evaluate?,
    mapM_get?_zip hkeys hlocals fun m hm => Members.get?_of_mem (by rwa [hdistinct]) hm]
  rfl

/-! ## Both payloads -/

/-- Under each key the last of the values that go by it. -/
def KeepsLast (members : Members) (keys : List String) (values : List Json) : Prop :=
  ∀ key, members.get? key = Members.get? (keys.zip values).reverse key

theorem keepsLast_pairValues (keys : List String) (values : List Json) :
    KeepsLast (pairValues keys values) keys values := by
  intro key
  rw [pairValues, Members.get?_insertAll, Members.get?_nil, Option.or_none]

/-- An array with no more values than there are parameters is paired with their names. -/
theorem payload_of_array {spec : Spec} {text : String} {values : List Json}
    (hparse : Json.parse? text = some (.arr values))
    (hlength : values.length ≤ (parameterNames spec).length) :
    payload spec (some text) = .ok (.obj (pairValues (parameterNames spec) values)) := by
  have hblank := Json.not_isBlankText_of_parse? hparse
  simp [payload, Option.filter, hblank, hparse, Nat.not_lt.mpr hlength]

theorem parameterNames_eq (spec : Spec) :
    parameterNames spec = (parametersOf spec).map Parameter.name := by
  unfold parameterNames parametersOf
  cases spec.signature <;> rfl

/-- The names of parameters are their remote names if none is empty, and the empty name is no
remote name. -/
theorem remoteNames_eq {parameters : List Parameter}
    (h : ∀ parameter ∈ parameters, parameter.name ≠ "") :
    remoteNames parameters = parameters.map Parameter.name := by
  have hremote : ∀ entry ∈ parameters.zipIdx,
      ParameterList.remoteName entry.2 entry.1 = entry.1.name := by
    intro entry hm
    have hne := h entry.1 (List.fst_mem_of_mem_zipIdx hm)
    simp [ParameterList.remoteName, hne]
  have hfst : (fun entry : Parameter × Nat => entry.1.name) = Parameter.name ∘ Prod.fst := rfl
  rw [remoteNames, List.map_congr_left hremote, hfst, ← List.map_map, List.zipIdx_map_fst]

theorem empty_not_mem_remoteNames (parameters : List Parameter) :
    "" ∉ remoteNames parameters := by
  intro hm
  obtain ⟨entry, -, hremote⟩ := List.mem_map.mp hm
  unfold ParameterList.remoteName at hremote
  split at hremote
  · simp at hremote
  · rename_i hne
    exact hne (by simp [hremote])

/-- A caller sends the last of the values that go by each remote name. -/
theorem sentBy?_of_calls {spec : Spec} {caller : Caller} {a : Arrangement} {values : List Json}
    (h : Calls spec caller a) (hlength : values.length = (parameterNames spec).length) :
    sentBy? caller ((a.given.map Given.name).zip values) =
      some (pairValues (remoteNames (parametersOf spec)) values) := by
  have hparameters : (parametersOf spec).length = values.length := by
    rw [hlength, parameterNames_eq, List.length_map]
  have hremotes : (remoteNames (parametersOf spec)).length = values.length := by
    simpa [remoteNames] using hparameters
  have hlocals : (a.given.map Given.name).length = values.length := by
    rw [List.length_map, h.length, hparameters]
  rw [sentBy?, h.display, Option.bind_some, evaluate?_zip h.distinct hremotes hlocals]
  rfl

theorem keys_pairValues {names : List String} {values : List Json}
    (hlength : values.length = names.length) {name : String} :
    name ∈ Members.keys (pairValues names values) ↔ name ∈ names := by
  have hkeys : Members.keys (names.zip values) = names := by
    rw [Members.keys, List.map_fst_zip (Nat.le_of_eq hlength.symm)]
  rw [pairValues, Members.mem_keys_insertAll, hkeys]
  simp [Members.keys]

/-- **The command line and the generated code send the same exactly if every parameter has a
name.** The code of a function that can be executed is a caller of the same kind. When its
parameters hold the values of an array with one value for each, it sends the last of the values
that go by each remote name. The command line makes of the same array the last of the values that
go by each name, so all of them where the names are distinct. If no name is empty these are the
same members; else the empty name has a value on the command line and none in what the code
sends. -/
theorem payload_agrees {r : Renderer} {spec : Spec} {stub : Stub} {kind text : String}
    {values : List Json} (hkind : executeKind? spec.category = some kind)
    (hrender : r.render spec = .ok stub) (hparse : Json.parse? text = some (.arr values))
    (hlength : values.length = (parameterNames spec).length) :
    ∃ (caller : Caller) (a : Arrangement) (sent paired : Members),
      stub.source = caller.text ∧ caller.kind = kind ∧ caller.head.lines = a.lines ∧
      sentBy? caller ((a.given.map Given.name).zip values) = some sent ∧
      payload spec (some text) = .ok (.obj paired) ∧
      KeepsLast sent (remoteNames (parametersOf spec)) values ∧
      KeepsLast paired (parameterNames spec) values ∧
      ((parameterNames spec).Nodup →
        ∀ m ∈ (parameterNames spec).zip values, paired.get? m.1 = some m.2) ∧
      ("" ∉ parameterNames spec → sent = paired) ∧
      ("" ∈ parameterNames spec → sent.get? "" = none ∧ paired.get? "" ≠ none) := by
  obtain ⟨caller, a, hsource, hcaller, hcalls⟩ := Renderer.exists_caller hkind hrender
  refine ⟨caller, a, pairValues (remoteNames (parametersOf spec)) values,
    pairValues (parameterNames spec) values, hsource, hcaller, hcalls.lines,
    sentBy?_of_calls hcalls hlength, payload_of_array hparse (Nat.le_of_eq hlength),
    keepsLast_pairValues _ _, keepsLast_pairValues _ _, fun hdistinct m hm => ?_,
    fun hnamed => ?_, fun hunnamed => ⟨?_, fun hnone => ?_⟩⟩
  · -- the last value under a name is the only one where the names are distinct
    have hkeys : Members.keys ((parameterNames spec).zip values).reverse =
        (parameterNames spec).reverse := by
      rw [Members.keys, List.map_reverse, List.map_fst_zip (Nat.le_of_eq hlength.symm)]
    rw [keepsLast_pairValues]
    exact Members.get?_of_mem (hkeys ▸ List.nodup_reverse.mpr hdistinct) (List.mem_reverse.mpr hm)
  · -- a parameter goes by another remote name only if its own is empty
    rw [parameterNames_eq] at hnamed ⊢
    rw [remoteNames_eq fun parameter hm heq => hnamed (heq ▸ List.mem_map_of_mem hm)]
  · rw [keepsLast_pairValues]
    refine Members.get?_eq_none_iff.mpr fun m hm heq => ?_
    have hremote := (List.of_mem_zip (List.mem_reverse.mp hm)).1
    exact empty_not_mem_remoteNames _ (heq ▸ hremote)
  · obtain ⟨m, hm, heq⟩ := List.mem_map.mp ((keys_pairValues hlength).mpr hunnamed)
    exact Members.get?_eq_none_iff.mp hnone m hm heq

/-- A function on the server with parameters of these names. -/
def taking (names : List String) : Spec :=
  { Spec.blank with
    id := "1", name := "greet", category := .serverFunction
    signature := some (.mk (names.map fun name => .mk name "" true none (.primitive "string"))
      .void none) }

theorem exists_stub_taking (names : List String)
    (h : (plainRenderer.render (taking names)).toOption.isSome = true) :
    ∃ stub, plainRenderer.render (taking names) = .ok stub := by
  obtain ⟨stub, hstub⟩ := Option.isSome_iff_exists.mp h
  exact ⟨stub, Result.eq_ok_of_toOption hstub⟩

/-- Two names that come to the same local name are told apart on both ways. -/
theorem payload_agrees_taking : ∃ stub,
    plainRenderer.render (taking ["first-name", "first name"]) = .ok stub ∧
    ∃ (caller : Caller) (a : Arrangement) (sent : Members), stub.source = caller.text ∧
      caller.kind = "server" ∧ caller.head.lines = a.lines ∧
      sentBy? caller ((a.given.map Given.name).zip [.int 1, .int 2]) = some sent ∧
      payload (taking ["first-name", "first name"]) (some "[1, 2]") = .ok (.obj sent) ∧
      sent.get? "first-name" = some (.int 1) ∧ sent.get? "first name" = some (.int 2) := by
  obtain ⟨stub, hstub⟩ := exists_stub_taking ["first-name", "first name"] (by decide +kernel)
  have hparse : Json.parse? "[1, 2]" = some (.arr [.int 1, .int 2]) := by with_unfolding_all rfl
  obtain ⟨caller, a, sent, paired, hsource, hkind, hlines, hsent, hpayload, -, -, hall, hnamed,
    -⟩ :=
    payload_agrees rfl hstub hparse rfl
  obtain rfl := hnamed (by decide)
  have hfirst : ("first-name", Json.int 1) ∈
      (parameterNames (taking ["first-name", "first name"])).zip [.int 1, .int 2] := .head _
  have hsecond : ("first name", Json.int 2) ∈
      (parameterNames (taking ["first-name", "first name"])).zip [.int 1, .int 2] :=
    .tail _ (.head _)
  exact ⟨stub, hstub, caller, a, sent, hsource, hkind, hlines, hsent, hpayload,
    hall (by decide) _ hfirst, hall (by decide) _ hsecond⟩

/-- **A value without a name goes by the empty name from the command line alone.** The code sends
it under the name that stands for the first parameter. -/
theorem payload_under_empty_name : ∃ stub, plainRenderer.render (taking [""]) = .ok stub ∧
    ∃ (caller : Caller) (a : Arrangement), stub.source = caller.text ∧
      caller.head.lines = a.lines ∧
      sentBy? caller ((a.given.map Given.name).zip [.int 42]) = some [("arg0", .int 42)] ∧
      payload (taking [""]) (some "[42]") = .ok (.obj [("", .int 42)]) := by
  obtain ⟨stub, hstub⟩ := exists_stub_taking [""] (by decide +kernel)
  obtain ⟨caller, a, hsource, -, hcalls⟩ :=
    Renderer.exists_caller (rfl : executeKind? (taking [""]).category = some "server") hstub
  have hparse : Json.parse? "[42]" = some (.arr [.int 42]) := by with_unfolding_all rfl
  exact ⟨stub, hstub, caller, a, hsource, hcalls.lines, sentBy?_of_calls hcalls rfl,
    payload_of_array hparse (by decide)⟩

end Command

end StubGen
