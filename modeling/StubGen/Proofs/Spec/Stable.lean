import StubGen.Package.SpecCache
import StubGen.Proofs.Spec.RoundTrip

/-!
# Specs that have been read are stable

A spec that comes from JSON holds no null where null stands for absence, and all its
types are normal: `decode_normal`. Such a spec is read back from what it is written as,
field by field: `decode_encode_of_normal`. So specs survive the cache: `encode_stable`.
-/

namespace StubGen.Spec

variable {value : Json} {key : String}

/-! ## What a spec is read as is normal -/

/-- Any value at all. -/
def Whatever : Json → Prop := fun _ => True

theorem hereditary_whatever : Json.Hereditary Whatever := ⟨fun _ _ => trivial, fun _ _ => trivial⟩

/-- A variable as reading gives it. -/
structure NormalVariable (v : Variable) : Prop where
  valueType : v.valueType.Normal Whatever
  value : ∀ value ∈ v.value, value.isNull = false

/-- A spec as reading gives it. -/
structure Normal (spec : Spec) : Prop where
  signature : ∀ s ∈ spec.signature, s.Normal Whatever
  storedVariable : ∀ v ∈ spec.storedVariable, NormalVariable v
  definition : ∀ value ∈ spec.definition, value.isNull = false
  schema : ∀ value ∈ spec.schema, value.isNull = false

/-- A draft of which all that has been read is normal. -/
def NormalDraft (d : Draft) : Prop := d.spec.Normal

theorem isNull_of_rawValue {found : Json} (h : found ∈ rawValue value) : found.isNull = false := by
  obtain ⟨rfl, hn⟩ := rawValue_eq_some_iff.mp h
  exact hn

theorem setVariableField_normal {v v' : Variable} (hv : NormalVariable v)
    (h : setVariableField v key value = .ok v') : NormalVariable v' := by
  unfold setVariableField at h
  split at h
  · exact Result.bind_pure_keeps h (fun _ _ => ⟨hv.valueType, hv.value⟩)
  split at h
  · refine Result.bind_pure_keeps h fun read hread => ?_
    refine ⟨orDefault_keeps normal_any ?_ hread, hv.value⟩
    exact (readsNormal hereditary_whatever trivial).type .outside
  split at h
  · rw [← Except.ok.inj h]
    exact ⟨hv.valueType, fun _ hm => isNull_of_rawValue hm⟩
  · exact Except.ok.inj h ▸ hv

theorem decodeVariable_normal {v : Variable} (h : decodeVariable value = .ok v) :
    NormalVariable v := by
  unfold decodeVariable at h
  obtain ⟨members, -, h⟩ := Result.bind_eq_ok_iff.mp h
  obtain ⟨read, hread, h⟩ := Result.bind_eq_ok_iff.mp h
  obtain ⟨_, -, h⟩ := Result.bind_eq_ok_iff.mp h
  rw [← Result.pure_eq_ok_iff.mp h]
  refine Result.foldlM_keeps (fun _ _ _ _ => setVariableField_normal) ?_ hread
  exact ⟨trivial, fun _ hm => absurd hm (by simp [default])⟩

theorem setField_normal {d d' : Draft} (hd : NormalDraft d) (h : setField d key value = .ok d') :
    NormalDraft d' := by
  obtain ⟨hsignature, hstored, hdefinition, hschema⟩ := hd
  unfold setField at h
  -- the id, the context, the name, the description and the category hold no values
  rcases Result.of_ite h with h | h
  · exact Result.bind_pure_keeps h fun _ _ => ⟨hsignature, hstored, hdefinition, hschema⟩
  rcases Result.of_ite h with h | h
  · exact Result.bind_pure_keeps h fun _ _ => ⟨hsignature, hstored, hdefinition, hschema⟩
  rcases Result.of_ite h with h | h
  · exact Result.bind_pure_keeps h fun _ _ => ⟨hsignature, hstored, hdefinition, hschema⟩
  rcases Result.of_ite h with h | h
  · exact Result.bind_pure_keeps h fun _ _ => ⟨hsignature, hstored, hdefinition, hschema⟩
  rcases Result.of_ite h with h | h
  · exact Result.bind_pure_keeps h fun _ _ => ⟨hsignature, hstored, hdefinition, hschema⟩
  rcases Result.of_ite h with h | h
  · refine Result.bind_pure_keeps h fun read hread => ?_
    refine ⟨fun s hs => ?_, hstored, hdefinition, hschema⟩
    have hs : read = some s := hs
    rw [hs] at hread
    exact (readsNormal hereditary_whatever trivial).signature .outside s (optional_eq_some hread)
  -- nor do the code and its language
  rcases Result.of_ite h with h | h
  · exact Result.bind_pure_keeps h fun _ _ => ⟨hsignature, hstored, hdefinition, hschema⟩
  rcases Result.of_ite h with h | h
  · exact Result.bind_pure_keeps h fun _ _ => ⟨hsignature, hstored, hdefinition, hschema⟩
  rcases Result.of_ite h with h | h
  · refine Result.bind_pure_keeps h fun read hread => ?_
    refine ⟨hsignature, fun v hv => ?_, hdefinition, hschema⟩
    have hv : read = some v := hv
    rw [hv] at hread
    exact decodeVariable_normal (optional_eq_some hread)
  rcases Result.of_ite h with h | h
  · rw [← Except.ok.inj h]
    exact ⟨hsignature, hstored, fun _ hm => isNull_of_rawValue hm, hschema⟩
  rcases Result.of_ite h with h | h
  · rw [← Except.ok.inj h]
    exact ⟨hsignature, hstored, hdefinition, fun _ hm => isNull_of_rawValue hm⟩
  rcases Result.of_ite h with h | h
  · exact Result.bind_pure_keeps h fun _ _ => ⟨hsignature, hstored, hdefinition, hschema⟩
  · rw [← Except.ok.inj h]
    exact ⟨hsignature, hstored, hdefinition, hschema⟩

theorem normal_blank : Normal blank where
  signature := fun _ hm => absurd hm (by simp [blank])
  storedVariable := fun _ hm => absurd hm (by simp [blank])
  definition := fun _ hm => absurd hm (by simp [blank])
  schema := fun _ hm => absurd hm (by simp [blank])

/-- Every spec that comes from JSON is normal. -/
theorem decode_normal {spec : Spec} (h : decode value = .ok spec) : spec.Normal := by
  unfold decode at h
  obtain ⟨members, -, h⟩ := Result.bind_eq_ok_iff.mp h
  obtain ⟨draft, hdraft, h⟩ := Result.bind_eq_ok_iff.mp h
  obtain ⟨_, -, h⟩ := Result.bind_eq_ok_iff.mp h
  obtain ⟨_, -, h⟩ := Result.bind_eq_ok_iff.mp h
  obtain ⟨_, -, h⟩ := Result.bind_eq_ok_iff.mp h
  obtain ⟨_, -, h⟩ := Result.bind_eq_ok_iff.mp h
  have hstart : NormalDraft ⟨none, none, none, blank⟩ := normal_blank
  have hd := Result.foldlM_keeps (fun _ _ _ _ => setField_normal) hstart hdraft
  exact Result.pure_eq_ok_iff.mp h ▸ ⟨hd.signature, hd.storedVariable, hd.definition, hd.schema⟩

/-! ## Writing and reading a spec -/

/-- A variable with a member read. -/
def readVariable (v : Variable) (m : String × Json) : Decoded Variable :=
  setVariableField v m.1 m.2

theorem decode_encodeVariable {v : Variable} (hv : NormalVariable v) :
    decodeVariable (encodeVariable v) = .ok v := by
  have hread : orDefault .any (decodeType .outside) (encodeType v.valueType) = .ok v.valueType :=
    (orDefault_of_not_null (isNull_encodeType v.valueType)).trans
      (decode_encodeType .outside v.valueType hv.valueType)
  have hsecret : readVariable default ("secret", .bool v.secret) = .ok ⟨v.secret, .any, none⟩ := by
    simp [readVariable, setVariableField, boolean, default, bind, Except.bind, pure, Except.pure]
  have htype : readVariable ⟨v.secret, .any, none⟩ ("valueType", encodeType v.valueType) =
      .ok ⟨v.secret, v.valueType, none⟩ := by
    simp [readVariable, setVariableField, hread, bind, Except.bind, pure, Except.pure]
  have hvalue : (member? "value" v.value).foldlM readVariable ⟨v.secret, v.valueType, none⟩ =
      .ok v := by
    refine foldlM_member? (fun h => by rw [← h]) fun x hx => ?_
    simp [readVariable, setVariableField, rawValue_of_not_null (hv.value x hx), ← hx]
  unfold decodeVariable encodeVariable
  show (List.foldlM readVariable default _ >>= fun result => _) = _
  rw [foldlM_append_of_ok ((foldlM_cons_of_ok hsecret).trans (foldlM_cons_of_ok htype)), hvalue]
  rfl

/-- A draft in which all of a spec has been read. -/
def draftOf (spec : Spec) : Draft :=
  ⟨some spec.id, some spec.name, some spec.category,
    { spec with id := blank.id, name := blank.name, category := blank.category }⟩

/-- A draft with a member read. -/
def readField (d : Draft) (m : String × Json) : Decoded Draft := setField d m.1 m.2

theorem decodeCategory_name (category : Category) :
    decodeCategory (.str category.name) = .ok category := by
  cases category <;> rfl

/-- The first members of a spec are always there. -/
theorem foldlM_readField_head (spec : Spec) :
    [("id", .str spec.id), ("context", .str spec.context), ("name", .str spec.name),
      ("description", .str spec.description), ("type", .str spec.category.name)].foldlM readField
        ⟨none, none, none, blank⟩ =
      .ok (draftOf { spec with
        signature := none, code := none, language := none, storedVariable := none
        definition := none, schema := none, contextName := none }) := by
  simp [readField, setField, text, orDefault, decodeCategory_name, draftOf, blank, bind,
    Except.bind, pure, Except.pure]

section

variable {base : Spec}

theorem foldlM_function {signature : Option Signature} (h : base.signature = none)
    (hn : ∀ s ∈ signature, s.Normal Whatever) :
    (member? "function" (signature.map encodeSignature)).foldlM readField (draftOf base) =
      .ok (draftOf { base with signature := signature }) := by
  refine foldlM_member?_map (fun hs => by rw [hs, ← h]) fun s hs => ?_
  have hread := optional_of_ok (isNull_encodeSignature s)
    (decode_encodeSignature .outside s (hn s hs))
  simp [readField, setField, hread, hs, draftOf, bind, Except.bind, pure, Except.pure]

theorem foldlM_code {code : Option String} (h : base.code = none) :
    (member? "code" (code.map .str)).foldlM readField (draftOf base) =
      .ok (draftOf { base with code := code }) := by
  refine foldlM_member?_map (fun hn => by rw [hn, ← h]) fun text ht => ?_
  rw [ht]
  rfl

theorem foldlM_language {language : Option String} (h : base.language = none) :
    (member? "language" (language.map .str)).foldlM readField (draftOf base) =
      .ok (draftOf { base with language := language }) := by
  refine foldlM_member?_map (fun hn => by rw [hn, ← h]) fun text ht => ?_
  rw [ht]
  rfl

theorem foldlM_variable {stored : Option Variable} (h : base.storedVariable = none)
    (hn : ∀ v ∈ stored, NormalVariable v) :
    (member? "variable" (stored.map encodeVariable)).foldlM readField (draftOf base) =
      .ok (draftOf { base with storedVariable := stored }) := by
  refine foldlM_member?_map (fun hv => by rw [hv, ← h]) fun v hv => ?_
  have hread := optional_of_ok (show (encodeVariable v).isNull = false from rfl)
    (decode_encodeVariable (hn v hv))
  simp [readField, setField, hread, hv, draftOf, bind, Except.bind, pure, Except.pure]

theorem foldlM_definition {definition : Option Json} (h : base.definition = none)
    (hn : ∀ v ∈ definition, v.isNull = false) :
    (member? "definition" definition).foldlM readField (draftOf base) =
      .ok (draftOf { base with definition := definition }) := by
  refine foldlM_member? (fun hd => by rw [hd, ← h]) fun v hv => ?_
  simp [readField, setField, rawValue_of_not_null (hn v hv), ← hv, draftOf]

theorem foldlM_schema {schema : Option Json} (h : base.schema = none)
    (hn : ∀ v ∈ schema, v.isNull = false) :
    (member? "schema" schema).foldlM readField (draftOf base) =
      .ok (draftOf { base with schema := schema }) := by
  refine foldlM_member? (fun hd => by rw [hd, ← h]) fun v hv => ?_
  simp [readField, setField, rawValue_of_not_null (hn v hv), ← hv, draftOf]

theorem foldlM_contextName {contextName : Option String} (h : base.contextName = none) :
    (member? "contextName" (contextName.map .str)).foldlM readField (draftOf base) =
      .ok (draftOf { base with contextName := contextName }) := by
  refine foldlM_member?_map (fun hn => by rw [hn, ← h]) fun text ht => ?_
  rw [ht]
  rfl

end

/-- **A normal spec that is written is read back.** -/
theorem decode_encode_of_normal {spec : Spec} (h : spec.Normal) :
    decode (encode spec) = .ok spec := by
  unfold decode encode
  show (List.foldlM readField ⟨none, none, none, blank⟩ _ >>= fun draft => _) = _
  -- one lemma for each field, in the order in which they are written
  simp only [List.append_assoc]
  rw [foldlM_append_of_ok (foldlM_readField_head spec),
    foldlM_append_of_ok (foldlM_function rfl h.signature),
    foldlM_append_of_ok (foldlM_code rfl), foldlM_append_of_ok (foldlM_language rfl),
    foldlM_append_of_ok (foldlM_variable rfl h.storedVariable),
    foldlM_append_of_ok (foldlM_definition rfl h.definition),
    foldlM_append_of_ok (foldlM_schema rfl h.schema), foldlM_contextName rfl]
  rfl

/-- A spec that comes from JSON is read back from what it is written as. -/
theorem decode_encode {spec : Spec} (h : decode value = .ok spec) :
    decode (encode spec) = .ok spec :=
  decode_encode_of_normal (decode_normal h)

theorem parseMany_map_encode {specs : List Spec}
    (h : ∀ spec ∈ specs, ∃ value, decode value = .ok spec) :
    parseMany (specs.map encode) = (specs, []) := by
  induction specs with
  | nil => rfl
  | cons spec specs ih =>
      obtain ⟨value, hv⟩ := h spec List.mem_cons_self
      have hrest := ih fun other hm => h other (List.mem_cons_of_mem _ hm)
      unfold parseMany at hrest ⊢
      rw [List.map_cons, List.foldr_cons, hrest, decode_encode hv]

/-- **Writing specs loses nothing.** A spec that comes from JSON is the same when it has been
written and read again. So the array that is written for a list of such specs gives the same list
and refuses nothing, and so does its text if the array is read back from that. -/
theorem encode_stable :
    (∀ value spec, decode value = .ok spec → decode (encode spec) = .ok spec) ∧
    ∀ specs, (∀ spec ∈ specs, ∃ value, decode value = .ok spec) →
      parseMany (specs.map encode) = (specs, []) ∧
      (Json.parse? (SpecCache.render specs) = some (.arr (specs.map encode)) →
        SpecCache.parse? (SpecCache.render specs) = some specs) := by
  refine ⟨fun value spec h => decode_encode h, fun specs h => ?_⟩
  have hmany := parseMany_map_encode h
  refine ⟨hmany, fun htext => ?_⟩
  unfold SpecCache.parse?
  rw [htext]
  show some (parseMany (specs.map encode)).1 = some specs
  rw [hmany]

/-- A table of which nothing but the required fields is said. -/
def petTable : Spec := { blank with id := "7", name := "Pets", category := .table }

/-- The text of a cache with one table is read back. -/
theorem parse?_render_petTable :
    Json.parse? (SpecCache.render [petTable]) = some (.arr ([petTable].map encode)) := by
  with_unfolding_all rfl

/-- A table given as an array, with its category as an object, is stable. -/
theorem encode_stable_petTable :
    let value : Json := .arr [.str "7", .null, .str "Pets", .null, .obj [("table", .null)]]
    decode value = .ok petTable ∧ decode (encode petTable) = .ok petTable ∧
      SpecCache.parse? (SpecCache.render [petTable]) = some [petTable] := by
  intro value
  have hvalue : decode value = .ok petTable := by rfl
  refine ⟨hvalue, encode_stable.1 value petTable hvalue, ?_⟩
  refine (encode_stable.2 [petTable] fun spec hm => ?_).2 parse?_render_petTable
  rw [List.mem_singleton.mp hm]
  exact ⟨value, hvalue⟩

end StubGen.Spec
