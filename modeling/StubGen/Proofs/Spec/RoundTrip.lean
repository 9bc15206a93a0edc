import StubGen.Proofs.Spec.Normal
import StubGen.Spec.Encode

/-!
# Types that are written are read back

Writing a type and reading it again gives the same type, wherever it stands, if the type
is normal: `decode_encodeType` and its likes, by induction on the types that nest in each
other. An item of an array is where that needs care: a piece of a schema must not be
taken for a type when it is read again.
-/

namespace StubGen.Spec

variable {good : Json → Prop} {place : Place} {β : Type}
  {step : β → String × Json → Decoded β} {b b' : β} {members others : Members} {key : String}

/-! ## Reading members that may be left out -/

theorem foldlM_member? {value : Option Json} (hnone : value = none → b = b')
    (hsome : ∀ v, value = some v → step b (key, v) = .ok b') :
    (member? key value).foldlM step b = .ok b' := by
  cases value with
  | none => exact congrArg _ (hnone rfl)
  | some v =>
      show [(key, v)].foldlM step b = .ok b'
      rw [List.foldlM_cons, hsome v rfl]
      rfl

theorem foldlM_member?_map {α : Type} {encode : α → Json} {value : Option α}
    (hnone : value = none → b = b')
    (hsome : ∀ a, value = some a → step b (key, encode a) = .ok b') :
    (member? key (value.map encode)).foldlM step b = .ok b' := by
  refine foldlM_member? (fun h => hnone (Option.map_eq_none_iff.mp h)) fun v hv => ?_
  obtain ⟨a, ha, rfl⟩ := Option.map_eq_some_iff.mp hv
  exact hsome a ha

theorem foldlM_cons_of_ok {m : String × Json} (h : step b m = .ok b') :
    (m :: members).foldlM step b = members.foldlM step b' := by
  rw [List.foldlM_cons, h]
  rfl

theorem foldlM_append_of_ok (h : members.foldlM step b = .ok b') :
    (members ++ others).foldlM step b = others.foldlM step b' := by
  rw [List.foldlM_append, h]
  rfl

variable {α : Type} {read : Json → Decoded α} {default a : α} {value : Json}

theorem orDefault_of_not_null (hn : value.isNull = false) :
    orDefault default read value = read value := by
  cases value with
  | null => exact absurd hn (by simp [Json.isNull])
  | _ => rfl

theorem optional_of_ok (hn : value.isNull = false) (h : read value = .ok a) :
    optional read value = .ok (some a) := by
  cases value with
  | null => exact absurd hn (by simp [Json.isNull])
  | _ =>
      show some <$> read _ = _
      rw [h]
      rfl

theorem rawValue_of_not_null (hn : value.isNull = false) : rawValue value = some value :=
  rawValue_eq_some_iff.mpr ⟨rfl, hn⟩

/-! ## Types -/

theorem decodeKind_name (place : Place) (kind : Kind) :
    decodeKind place (.str kind.name) = .ok kind := by
  cases kind <;> rfl

theorem readType_kind (type : DeclaredType) (tag : Json) :
    readType type ("kind", tag) = .ok type := by
  cases type <;> simp [readType, setTypeField]

/-- A type that is given as an object is read by its tag and then by its other members. -/
theorem decodeType_tagged (place : Place) (kind : Kind) (members : Members) :
    decodeType place (.obj (("kind", .str kind.name) :: members)) =
      members.foldlM readType kind.bare := by
  rw [decodeType, tagOf, Members.get?_cons, if_pos rfl]
  dsimp only
  rw [decodeKind_name]
  show typeMembers kind.bare _ = _
  rw [typeMembers_eq, foldlM_cons_of_ok (readType_kind _ _)]

theorem decodeType_single {kind : Kind} {type : DeclaredType}
    (h : readType kind.bare (key, value) = .ok type) :
    decodeType place (.obj [("kind", .str kind.name), (key, value)]) = .ok type := by
  rw [decodeType_tagged, foldlM_cons_of_ok h]
  rfl

theorem isNull_encodeType (type : DeclaredType) : (encodeType type).isNull = false := by
  cases type with
  | array items => cases items <;> simp [encodeType, Json.isNull]
  | function signature => cases signature <;> simp [encodeType, Json.isNull]
  | _ => simp [encodeType, Json.isNull]

theorem isNull_encodeSignature (s : Signature) : (encodeSignature s).isNull = false := by
  cases s
  simp [encodeSignature, Json.isNull]

/-! ## Single fields -/

variable {name description : String} {required : Bool} {nullable synchronous : Option Bool}
  {type : DeclaredType} {parameters : List Parameter}

theorem readParameter_type (hn : value.isNull = false) (h : decodeType place value = .ok type) :
    readParameter place (.mk name description required nullable .any) ("type", value) =
      .ok (.mk name description required nullable type) := by
  simp [readParameter, setParameterField, readings, orDefault_of_not_null hn, h, bind,
    Except.bind, pure, Except.pure]

theorem readSignature_arguments {returnType : DeclaredType}
    (h : decodeParameters place value = .ok parameters) (hn : value.isNull = false) :
    readSignature place (.mk [] returnType synchronous) ("arguments", value) =
      .ok (.mk parameters returnType synchronous) := by
  simp [readSignature, setSignatureField, readings, orDefault_of_not_null hn, h, bind,
    Except.bind, pure, Except.pure]

theorem readSignature_returnType (hn : value.isNull = false)
    (h : decodeType place value = .ok type) :
    readSignature place (.mk parameters .any synchronous) ("returnType", value) =
      .ok (.mk parameters type synchronous) := by
  simp [readSignature, setSignatureField, readings, orDefault_of_not_null hn, h, bind,
    Except.bind, pure, Except.pure]

/-- An object is read back if its properties are. -/
theorem decodeType_object {schema : Option Json} {properties : Option (List Parameter)}
    {typeName : Option String} {encoded : Option Json}
    (hschema : ∀ value ∈ schema, good value ∧ value.isNull = false)
    (hproperties : (member? "properties" encoded).foldlM readType (.object schema none none) =
      .ok (.object schema properties none)) :
    decodeType place (.obj (("kind", .str "object") :: member? "schema" schema ++
      member? "properties" encoded ++ member? "typeName" (typeName.map .str))) =
      .ok (.object schema properties typeName) := by
  have hread : (member? "schema" schema).foldlM readType (.object none none none) =
      .ok (.object schema none none) := by
    refine foldlM_member? (fun h => by rw [h]) fun v hv => ?_
    have hn := (hschema v hv).2
    simp [readType, setTypeField, rawValue_of_not_null hn, hv]
  rw [List.cons_append, List.cons_append, show "object" = Kind.name .object from rfl,
    decodeType_tagged, List.append_assoc]
  show List.foldlM readType (.object none none none) _ = _
  rw [foldlM_append_of_ok hread, foldlM_append_of_ok hproperties]
  refine foldlM_member?_map (fun h => by rw [h]) fun name hname => ?_
  rw [hname]
  rfl

mutual

/-- **A normal type that is written is read back.** -/
theorem decode_encodeType (place : Place) :
    ∀ type : DeclaredType, type.Normal good → decodeType place (encodeType type) = .ok type
  | .void, _ => by
      rw [encodeType]
      exact decodeType_tagged place .void []
  | .any, _ => by
      rw [encodeType]
      exact decodeType_tagged place .any []
  | .primitive typeName, _ => by
      rw [encodeType]
      exact decodeType_tagged place .primitive [("type", .str typeName)]
  | .plain value, _ => by
      rw [encodeType]
      exact decodeType_tagged place .plain [("value", .str value)]
  | .array none, _ => by
      rw [encodeType]
      exact decodeType_tagged place .array []
  | .array (some (.type type)), h => by
      have htype := decode_encodeType .inside type h
      have hread : readType (Kind.bare .array) ("items", encodeType type) =
          .ok (.array (some (.type type))) := by
        simp [readType, setTypeField, readings, Kind.bare, isNull_encodeType, htype]
      rw [encodeType, encodeItems]
      exact decodeType_single hread
  | .array (some (.schema value)), h => by
      -- being normal, the piece is no type when it is read again
      obtain ⟨-, hn, e, he⟩ := h
      have hread : readType (Kind.bare .array) ("items", value) =
          .ok (.array (some (.schema value))) := by
        simp [readType, setTypeField, readings, Kind.bare, hn, he]
      rw [encodeType, encodeItems]
      exact decodeType_single hread
  | .function none, _ => by
      rw [encodeType]
      exact decodeType_tagged place .function []
  | .function (some signature), h => by
      have hsignature := decode_encodeSignature .inside signature h
      have hread : readType (Kind.bare .function) ("spec", encodeSignature signature) =
          .ok (.function (some signature)) := by
        have hspec : optional (fun _ => decodeSignature .inside (encodeSignature signature))
            (encodeSignature signature) = .ok (some signature) :=
          optional_of_ok (isNull_encodeSignature signature) hsignature
        exact congrArg (DeclaredType.function <$> ·) hspec
      rw [encodeType]
      exact decodeType_single hread
  | .object schema none typeName, h => by
      rw [encodeType]
      exact decodeType_object (DeclaredType.normal_object_iff.mp h).1 rfl
  | .object schema (some parameters) typeName, h => by
      have hparameters := decode_encodeParameters .inside parameters h.2
      have hread : readType (.object schema none none)
          ("properties", .arr (encodeParameters parameters)) =
          .ok (.object schema (some parameters) none) := by
        simp [readType, setTypeField, readings, decodeParameters, optional, hparameters, bind,
          Except.bind, Functor.map, Except.map, pure, Except.pure]
      rw [encodeType]
      exact decodeType_object (DeclaredType.normal_object_iff.mp h).1
        (foldlM_cons_of_ok hread)

theorem decode_encodeParameters (place : Place) :
    ∀ parameters : List Parameter, AllNormal good parameters →
      decodeEach place (encodeParameters parameters) = .ok parameters
  | [], _ => by rw [encodeParameters, decodeEach]
  | p :: parameters, h => by
      rw [encodeParameters, decodeEach, decode_encodeParameter place p h.1,
        decode_encodeParameters place parameters h.2]
      rfl

theorem decode_encodeParameter (place : Place) :
    ∀ p : Parameter, p.Normal good → decodeParameter place (encodeParameter p) = .ok p
  | .mk name description required nullable type, h => by
      have htype := decode_encodeType place type h
      have hnullable : (member? "nullable" (nullable.map .bool)).foldlM (readParameter place)
          (.mk name description required none .any) =
          .ok (.mk name description required nullable .any) := by
        refine foldlM_member?_map (fun h => by rw [h]) fun flag hflag => ?_
        rw [hflag]
        rfl
      have hread := @readParameter_type place _ name description required nullable type
        (isNull_encodeType type) htype
      rw [encodeParameter, decodeParameter, parameterMembers_eq, List.append_assoc]
      refine (foldlM_append_of_ok ?_).trans ((foldlM_append_of_ok hnullable).trans ?_)
      · rfl
      · exact foldlM_cons_of_ok hread

theorem decode_encodeSignature (place : Place) :
    ∀ s : Signature, s.Normal good → decodeSignature place (encodeSignature s) = .ok s
  | .mk parameters returnType synchronous, h => by
      have hparameters := decode_encodeParameters place parameters h.1
      have hreturn := decode_encodeType place returnType h.2
      have hread : decodeParameters place (.arr (encodeParameters parameters)) =
          .ok parameters := by
        rw [decodeParameters]
        exact hparameters
      have hfirst := @readSignature_arguments place _ none parameters .any hread rfl
      have hsecond := @readSignature_returnType place _ none returnType parameters
        (isNull_encodeType returnType) hreturn
      rw [encodeSignature, decodeSignature, signatureMembers_eq]
      refine (foldlM_append_of_ok ((foldlM_cons_of_ok hfirst).trans
        (foldlM_cons_of_ok hsecond))).trans ?_
      refine foldlM_member?_map (fun h => by rw [h]) fun flag hflag => ?_
      rw [hflag]
      rfl

end

end StubGen.Spec
