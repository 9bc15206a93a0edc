import StubGen.Proofs.Json.Values
import StubGen.Proofs.Result
import StubGen.Spec.Decode

/-!
# What reading gives

A type that has been read holds pieces of schemas as they stood in the value it was read
from: the schemas of objects, and those items of arrays that could not be read as types.
None of them is null, since null stands for absence. A type of this form is normal:
`DeclaredType.Normal`; and if all values inside some value are good, then so are all
pieces of what is read from it: `readsNormal`.

Records are read from objects and from arrays alike, as a fold over their members:
`typeMembers_eq` and its likes.
-/

namespace StubGen

open Spec

variable {good : Json → Prop}

mutual

/-- A type in which no schema is null, no item of an array is a schema that could be read as a
type, and all schemas are good. -/
def DeclaredType.Normal (good : Json → Prop) : DeclaredType → Prop
  | .array (some items) => items.Normal good
  | .object schema none _ => ∀ value ∈ schema, good value ∧ value.isNull = false
  | .object schema (some parameters) _ =>
    (∀ value ∈ schema, good value ∧ value.isNull = false) ∧ AllNormal good parameters
  | .function (some signature) => signature.Normal good
  | .void | .primitive _ | .array none | .function none | .plain _ | .any => True

def ArrayItems.Normal (good : Json → Prop) : ArrayItems → Prop
  | .type type => type.Normal good
  | .schema value =>
    good value ∧ value.isNull = false ∧ ∃ e, decodeType .inside value = .error e

def Parameter.Normal (good : Json → Prop) : Parameter → Prop
  | .mk _ _ _ _ type => type.Normal good

def AllNormal (good : Json → Prop) : List Parameter → Prop
  | [] => True
  | parameter :: parameters => parameter.Normal good ∧ AllNormal good parameters

def Signature.Normal (good : Json → Prop) : Signature → Prop
  | .mk parameters returnType _ => AllNormal good parameters ∧ returnType.Normal good

end

theorem DeclaredType.normal_object_iff {schema : Option Json}
    {properties : Option (List Parameter)} {typeName : Option String} :
    (DeclaredType.object schema properties typeName).Normal good ↔
      (∀ value ∈ schema, good value ∧ value.isNull = false) ∧
        ∀ parameters ∈ properties, AllNormal good parameters := by
  cases properties <;> simp [DeclaredType.Normal]

namespace Spec

/-! ## Records are read by a fold over their members -/

/-- The readings of a value where it stands. -/
def readings (place : Place) (value : Json) : Readings :=
  ⟨fun _ => decodeType place value, fun _ => decodeParameters place value,
    fun _ => decodeSignature place value⟩

/-- A type with a member read. -/
def readType (type : DeclaredType) (m : String × Json) : Decoded DeclaredType :=
  setTypeField type m.1 m.2 (readings .inside m.2)

/-- A parameter with a member read. -/
def readParameter (place : Place) (p : Parameter) (m : String × Json) : Decoded Parameter :=
  setParameterField p m.1 m.2 (readings place m.2)

/-- A signature with a member read. -/
def readSignature (place : Place) (s : Signature) (m : String × Json) : Decoded Signature :=
  setSignatureField s m.1 m.2 (readings place m.2)

/-- A walk over members that takes a step at each of them is a fold. -/
theorem eq_foldlM {β : Type} {walk : β → Members → Decoded β}
    {step : β → String × Json → Decoded β} (hnil : ∀ b, walk b [] = .ok b)
    (hcons : ∀ b m rest, walk b (m :: rest) = step b m >>= fun b => walk b rest) (b : β)
    (members : Members) : walk b members = members.foldlM step b := by
  induction members generalizing b with
  | nil => exact hnil b
  | cons m members ih =>
      rw [hcons, List.foldlM_cons]
      exact congrArg _ (funext ih)

/-- So is a walk along keys and items together, as far as there are both. -/
theorem eq_foldlM_zip {β : Type} {walk : β → List String → List Json → Decoded β}
    {step : β → String × Json → Decoded β} (hnil : ∀ b keys, walk b keys [] = .ok b)
    (hshort : ∀ b item items, walk b [] (item :: items) = .ok b)
    (hcons : ∀ b key keys item items,
      walk b (key :: keys) (item :: items) = step b (key, item) >>= fun b => walk b keys items)
    (b : β) (keys : List String) (items : List Json) :
    walk b keys items = (keys.zip items).foldlM step b := by
  induction items generalizing b keys with
  | nil =>
      rw [hnil, List.zip_nil_right]
      rfl
  | cons item items ih =>
      cases keys with
      | nil => exact hshort b item items
      | cons key keys =>
          rw [hcons, List.zip_cons_cons, List.foldlM_cons]
          exact congrArg _ (funext fun b => ih b keys)

theorem typeMembers_eq (type : DeclaredType) (members : Members) :
    typeMembers type members = members.foldlM readType type :=
  eq_foldlM (fun _ => by rw [typeMembers]) (fun _ _ _ => by rw [typeMembers]; rfl) type members

theorem typeItems_eq (type : DeclaredType) (keys : List String) (items : List Json) :
    typeItems type keys items = (keys.zip items).foldlM readType type :=
  eq_foldlM_zip (fun _ _ => by rw [typeItems]) (fun _ _ _ => by rw [typeItems])
    (fun _ _ _ _ _ => by rw [typeItems]; rfl) type keys items

theorem parameterMembers_eq (place : Place) (p : Parameter) (members : Members) :
    parameterMembers place p members = members.foldlM (readParameter place) p :=
  eq_foldlM (fun _ => by rw [parameterMembers]) (fun _ _ _ => by rw [parameterMembers]; rfl)
    p members

theorem parameterItems_eq (place : Place) (p : Parameter) (keys : List String)
    (items : List Json) :
    parameterItems place p keys items = (keys.zip items).foldlM (readParameter place) p :=
  eq_foldlM_zip (fun _ _ => by rw [parameterItems]) (fun _ _ _ => by rw [parameterItems])
    (fun _ _ _ _ _ => by rw [parameterItems]; rfl) p keys items

theorem signatureMembers_eq (place : Place) (s : Signature) (members : Members) :
    signatureMembers place s members = members.foldlM (readSignature place) s :=
  eq_foldlM (fun _ => by rw [signatureMembers]) (fun _ _ _ => by rw [signatureMembers]; rfl)
    s members

theorem signatureItems_eq (place : Place) (s : Signature) (keys : List String)
    (items : List Json) :
    signatureItems place s keys items = (keys.zip items).foldlM (readSignature place) s :=
  eq_foldlM_zip (fun _ _ => by rw [signatureItems]) (fun _ _ _ => by rw [signatureItems])
    (fun _ _ _ _ _ => by rw [signatureItems]; rfl) s keys items

/-! ## What a value is read as is normal -/

/-- Whatever a value is read as is normal. -/
structure ReadsNormal (good : Json → Prop) (value : Json) : Prop where
  type : ∀ place type, decodeType place value = .ok type → type.Normal good
  parameters : ∀ place parameters, decodeParameters place value = .ok parameters →
    AllNormal good parameters
  parameter : ∀ place p, decodeParameter place value = .ok p → p.Normal good
  signature : ∀ place s, decodeSignature place value = .ok s → s.Normal good

/-- A good value that is read as normal things only. -/
def Sound (good : Json → Prop) (value : Json) : Prop := good value ∧ ReadsNormal good value

variable {value : Json} {key : String} {place : Place}

theorem rawValue_eq_some_iff {found : Json} :
    rawValue value = some found ↔ value = found ∧ value.isNull = false := by
  cases value <;> simp [rawValue, Json.isNull]

theorem optional_eq_some {α : Type} {read : Json → Decoded α} {a : α}
    (h : optional read value = .ok (some a)) : read value = .ok a := by
  cases value with
  | null => exact absurd h (by simp [optional])
  | _ =>
      obtain ⟨b, hb, he⟩ := Result.map_eq_ok_iff.mp h
      rw [hb, Option.some.inj he]

theorem orDefault_keeps {α : Type} {P : α → Prop} {default a : α} {read : Json → Decoded α}
    (hd : P default) (hr : ∀ a, read value = .ok a → P a)
    (h : orDefault default read value = .ok a) : P a := by
  cases value with
  | null => exact Except.ok.inj h ▸ hd
  | _ => exact hr a h

theorem normal_any : DeclaredType.any.Normal good := trivial

theorem allNormal_nil : AllNormal good [] := trivial

theorem normal_default_parameter : (default : Parameter).Normal good := trivial

theorem normal_default_signature : (default : Signature).Normal good := ⟨trivial, trivial⟩

theorem normal_bare (kind : Kind) : kind.bare.Normal good := by
  cases kind <;> simp [Kind.bare, DeclaredType.Normal]

/-- A piece of a schema that has been read is good and not null. -/
theorem good_of_rawValue (hs : Sound good value) {found : Json}
    (h : rawValue value = some found) : good found ∧ found.isNull = false := by
  obtain ⟨rfl, hn⟩ := rawValue_eq_some_iff.mp h
  exact ⟨hs.1, hn⟩

theorem readType_normal {type type' : DeclaredType} (hs : Sound good value)
    (ht : type.Normal good) (h : readType type (key, value) = .ok type') :
    type'.Normal good := by
  unfold readType setTypeField at h
  cases type with
  | void => exact Except.ok.inj h ▸ trivial
  | any => exact Except.ok.inj h ▸ trivial
  | primitive old =>
      dsimp only at h
      split at h
      · obtain ⟨_, -, rfl⟩ := Result.map_eq_ok_iff.mp h
        trivial
      · exact Except.ok.inj h ▸ trivial
  | plain old =>
      dsimp only at h
      split at h
      · obtain ⟨_, -, rfl⟩ := Result.map_eq_ok_iff.mp h
        trivial
      · exact Except.ok.inj h ▸ trivial
  | function old =>
      dsimp only at h
      split at h
      · obtain ⟨signature, hread, rfl⟩ := Result.map_eq_ok_iff.mp h
        cases signature with
        | none => trivial
        | some signature =>
            have hsignature := optional_eq_some hread
            exact hs.2.signature .inside signature hsignature
      · exact Except.ok.inj h ▸ ht
  | array old =>
      dsimp only at h
      split at h
      · split at h
        · exact Except.ok.inj h ▸ trivial
        · rename_i hn
          -- a type is tried first, and a piece of a schema is what is none
          split at h
          · rename_i item hread
            rw [← Except.ok.inj h]
            exact hs.2.type .inside item hread
          · rename_i e hread
            rw [← Except.ok.inj h]
            exact ⟨hs.1, by simpa using hn, e, hread⟩
      · exact Except.ok.inj h ▸ ht
  | object schema properties typeName =>
      obtain ⟨hschema, hproperties⟩ := DeclaredType.normal_object_iff.mp ht
      dsimp only at h
      split at h
      · rw [← Except.ok.inj h]
        exact DeclaredType.normal_object_iff.mpr
          ⟨fun _ hv => good_of_rawValue hs hv, hproperties⟩
      · split at h
        · refine Result.bind_pure_keeps h fun read hread => ?_
          refine DeclaredType.normal_object_iff.mpr ⟨hschema, fun parameters hp => ?_⟩
          rw [Option.mem_def.mp hp] at hread
          have hparameters := optional_eq_some hread
          exact hs.2.parameters .inside parameters hparameters
        · split at h
          · refine Result.bind_pure_keeps h (fun _ _ => ?_)
            exact DeclaredType.normal_object_iff.mpr ⟨hschema, hproperties⟩
          · exact Except.ok.inj h ▸ ht

theorem readParameter_normal {p p' : Parameter} (hs : Sound good value) (hp : p.Normal good)
    (h : readParameter place p (key, value) = .ok p') : p'.Normal good := by
  obtain ⟨name, description, required, nullable, type⟩ := p
  unfold readParameter setParameterField at h
  dsimp only at h
  split at h
  · exact Result.bind_pure_keeps h (fun _ _ => hp)
  split at h
  · exact Result.bind_pure_keeps h (fun _ _ => hp)
  split at h
  · exact Result.bind_pure_keeps h (fun _ _ => hp)
  split at h
  · exact Result.bind_pure_keeps h (fun _ _ => hp)
  split at h
  · refine Result.bind_pure_keeps h fun read hread => ?_
    show read.Normal good
    refine orDefault_keeps normal_any ?_ hread
    exact hs.2.type place
  · exact Except.ok.inj h ▸ hp

theorem readSignature_normal {s s' : Signature} (hs : Sound good value) (hn : s.Normal good)
    (h : readSignature place s (key, value) = .ok s') : s'.Normal good := by
  obtain ⟨parameters, returnType, synchronous⟩ := s
  unfold readSignature setSignatureField at h
  dsimp only at h
  split at h
  · refine Result.bind_pure_keeps h fun read hread => ?_
    refine ⟨orDefault_keeps allNormal_nil ?_ hread, hn.2⟩
    exact hs.2.parameters place
  split at h
  · refine Result.bind_pure_keeps h fun read hread => ?_
    refine ⟨hn.1, orDefault_keeps normal_any ?_ hread⟩
    exact hs.2.type place
  split at h
  · exact Result.bind_pure_keeps h (fun _ _ => hn)
  · exact Except.ok.inj h ▸ hn

theorem decodeEach_normal {items : List Json} {parameters : List Parameter}
    (hs : ∀ item ∈ items, Sound good item) (h : decodeEach place items = .ok parameters) :
    AllNormal good parameters := by
  induction items generalizing parameters with
  | nil =>
      rw [decodeEach] at h
      exact Except.ok.inj h ▸ trivial
  | cons item items ih =>
      rw [decodeEach] at h
      obtain ⟨p, hp, h⟩ := Result.bind_eq_ok_iff.mp h
      obtain ⟨rest, hrest, h⟩ := Result.bind_eq_ok_iff.mp h
      rw [← Result.pure_eq_ok_iff.mp h]
      exact ⟨(hs item List.mem_cons_self).2.parameter place p hp,
        ih (fun other hm => hs other (List.mem_cons_of_mem _ hm)) hrest⟩

/-- Reading members that are read as normal things gives normal things. -/
theorem readsNormal_obj {members : Members} (hs : ∀ m ∈ members, Sound good m.2) :
    ReadsNormal good (.obj members) where
  type place type h := by
    rw [decodeType] at h
    obtain ⟨kind, -, h⟩ := Result.bind_eq_ok_iff.mp h
    rw [typeMembers_eq] at h
    exact Result.foldlM_keeps (fun m hm _ _ => readType_normal (hs m hm)) (normal_bare kind) h
  parameters place parameters h := by
    simp [decodeParameters] at h
  parameter place p h := by
    rw [decodeParameter, parameterMembers_eq] at h
    exact Result.foldlM_keeps (fun m hm _ _ => readParameter_normal (hs m hm))
      normal_default_parameter h
  signature place s h := by
    rw [decodeSignature, signatureMembers_eq] at h
    exact Result.foldlM_keeps (fun m hm _ _ => readSignature_normal (hs m hm))
      normal_default_signature h

theorem readsNormal_arr {items : List Json} (hs : ∀ item ∈ items, Sound good item) :
    ReadsNormal good (.arr items) where
  type place type h := by
    cases items with
    | nil =>
        rw [decodeType] at h
        exact absurd h (by simp)
    | cons tag items =>
        rw [decodeType] at h
        obtain ⟨kind, -, h⟩ := Result.bind_eq_ok_iff.mp h
        obtain ⟨read, hread, h⟩ := Result.bind_eq_ok_iff.mp h
        obtain ⟨_, -, h⟩ := Result.bind_eq_ok_iff.mp h
        rw [typeItems_eq] at hread
        -- the tag is no field, so the items that are read are those behind it
        rw [← Result.pure_eq_ok_iff.mp h]
        refine Result.foldlM_keeps (fun m hm _ _ => readType_normal (hs m.2 ?_))
          (normal_bare kind) hread
        exact List.mem_cons_of_mem _ (List.of_mem_zip hm).2
  parameters place parameters h := by
    rw [decodeParameters] at h
    exact decodeEach_normal hs h
  parameter place p h := by
    rw [decodeParameter] at h
    obtain ⟨read, hread, h⟩ := Result.bind_eq_ok_iff.mp h
    obtain ⟨_, -, h⟩ := Result.bind_eq_ok_iff.mp h
    rw [parameterItems_eq] at hread
    rw [← Result.pure_eq_ok_iff.mp h]
    exact Result.foldlM_keeps
      (fun m hm _ _ => readParameter_normal (hs m.2 (List.of_mem_zip hm).2))
      normal_default_parameter hread
  signature place s h := by
    rw [decodeSignature] at h
    obtain ⟨read, hread, h⟩ := Result.bind_eq_ok_iff.mp h
    obtain ⟨_, -, h⟩ := Result.bind_eq_ok_iff.mp h
    rw [signatureItems_eq] at hread
    rw [← Result.pure_eq_ok_iff.mp h]
    exact Result.foldlM_keeps
      (fun m hm _ _ => readSignature_normal (hs m.2 (List.of_mem_zip hm).2))
      normal_default_signature hread

theorem readsNormal_scalar (ha : value.arr? = none) (ho : value.obj? = none) :
    ReadsNormal good value := by
  cases value with
  | arr items => exact absurd ha (by simp [Json.arr?])
  | obj members => exact absurd ho (by simp [Json.obj?])
  | _ =>
      refine ⟨fun _ _ h => ?_, fun _ _ h => ?_, fun _ _ h => ?_, fun _ _ h => ?_⟩
      all_goals
        simp [decodeType, decodeParameters, decodeParameter, decodeSignature] at h

/-- **What is read from a good value is normal**, if goodness is that of all that is inside. -/
theorem readsNormal (hg : Json.Hereditary good) (h : good value) : ReadsNormal good value := by
  induction value using Json.induction with
  | scalar value ha ho => exact readsNormal_scalar ha ho
  | arr items ih =>
      exact readsNormal_arr fun item hm => ⟨hg.items h hm, ih item hm (hg.items h hm)⟩
  | obj members ih =>
      exact readsNormal_obj fun m hm => ⟨hg.members h hm, ih m hm (hg.members h hm)⟩
end Spec

end StubGen
