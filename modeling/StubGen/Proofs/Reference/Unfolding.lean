import StubGen.Proofs.Result
import StubGen.Reference

/-!
# Resolving references is unfolding them

What a value unfolds to is said here without a stack and without a limit, by a mutual
inductive: a marker whose path is indexed unfolds to what the definition there unfolds
to, a marker that is not indexed stays, and everything else unfolds member by member.
Beside it stands what is visited on the way, each value with its depth.

Resolution gives exactly what a value unfolds to, as long as nothing is visited deeper
than 128 levels: `resolve_iff_unfolds`. The stack of open paths costs no result. A path
can only be met again on it when the value visits itself, and then it visits itself at
every depth, so that no limit is kept: `Visits.unbounded`.
-/

namespace StubGen.SchemaIndex

open Schema (markerKey)

variable {index : SchemaIndex} {value result child target : Json} {members : Members}
  {path : String} {inside : List String} {room d e : Nat}

/-! ## Unfolding -/

/-- An object is a marker that names a path. -/
def Refers (members : Members) (path : String) : Prop :=
  ∃ marker, Members.get? members markerKey = some marker ∧ marker.getStr? "path" = some path

mutual

/-- `Unfolds index value result`: with every marker whose path is indexed replaced by what the
definition there unfolds to, `value` is `result`. A marker without a path unfolds to nothing. -/
inductive Unfolds (index : SchemaIndex) : Json → Json → Prop where
  | scalar {value : Json} : value.arr? = none → value.obj? = none → Unfolds index value value
  | arr {items results : List Json} :
      UnfoldsItems index items results → Unfolds index (.arr items) (.arr results)
  | obj {members results : Members} :
      Members.get? members markerKey = none → UnfoldsMembers index members results →
      Unfolds index (.obj members) (.obj results)
  | known {members : Members} {path : String} {target result : Json} :
      Refers members path → index.get? path = some target → Unfolds index target result →
      Unfolds index (.obj members) result
  | unknown {members : Members} {path : String} :
      Refers members path → index.get? path = none → Unfolds index (.obj members) (.obj members)

/-- The items of an array, one by one. -/
inductive UnfoldsItems (index : SchemaIndex) : List Json → List Json → Prop where
  | nil : UnfoldsItems index [] []
  | cons {item result : Json} {items results : List Json} :
      Unfolds index item result → UnfoldsItems index items results →
      UnfoldsItems index (item :: items) (result :: results)

/-- The members of an object, one by one, under the same keys. -/
inductive UnfoldsMembers (index : SchemaIndex) : Members → Members → Prop where
  | nil : UnfoldsMembers index [] []
  | cons {key : String} {child result : Json} {members results : Members} :
      Unfolds index child result → UnfoldsMembers index members results →
      UnfoldsMembers index ((key, child) :: members) ((key, result) :: results)

end

/-- One step of the way: into an item, into a member, or to the definition that a marker names. -/
inductive Enters (index : SchemaIndex) : Json → Json → Prop where
  | item {items : List Json} {item : Json} : item ∈ items → Enters index (.arr items) item
  | member {members : Members} {key : String} {child : Json} :
      Members.get? members markerKey = none → (key, child) ∈ members →
      Enters index (.obj members) child
  | target {members : Members} {path : String} {target : Json} :
      Refers members path → index.get? path = some target → Enters index (.obj members) target

/-- `Visits index value d seen`: unfolding `value` comes to `seen` after `d` steps. -/
inductive Visits (index : SchemaIndex) : Json → Nat → Json → Prop where
  | here {value : Json} : Visits index value 0 value
  | next {value child seen : Json} {d : Nat} :
      Enters index value child → Visits index child d seen → Visits index value (d + 1) seen

/-- Unfolding a value comes to a marker that names a path. -/
def Reaches (index : SchemaIndex) (value : Json) (path : String) : Prop :=
  ∃ d members, Visits index value d (.obj members) ∧ Refers members path

theorem Reaches.next (he : Enters index value child) (h : Reaches index child path) :
    Reaches index value path := by
  obtain ⟨d, members, hv, hr⟩ := h
  exact ⟨d + 1, members, .next he hv, hr⟩

theorem Visits.trans {middle seen : Json} (h : Visits index value d middle)
    (h' : Visits index middle e seen) : Visits index value (d + e) seen := by
  induction h with
  | here =>
      rw [Nat.zero_add]
      exact h'
  | next he _ ih =>
      rw [Nat.add_right_comm]
      exact .next he (ih h')

/-- **What visits itself is visited at every depth.** -/
theorem Visits.unbounded (h : Visits index value (d + 1) value) (limit : Nat) :
    ∃ deeper, limit ≤ deeper ∧ Visits index value deeper value := by
  induction limit with
  | zero => exact ⟨0, Nat.le_refl 0, .here⟩
  | succ limit ih =>
      obtain ⟨deeper, hle, hv⟩ := ih
      exact ⟨d + 1 + deeper, by omega, h.trans hv⟩

/-! ## What resolution does with each form of a value -/

theorem pathOf_eq_ok_iff {marker : Json} :
    pathOf marker = .ok path ↔ marker.getStr? "path" = some path := by
  unfold pathOf
  cases marker.getStr? "path" <;> simp

/-- The forms of a value that resolution tells apart. -/
inductive Form (index : SchemaIndex) : Json → Prop where
  | scalar {value : Json} : value.arr? = none → value.obj? = none → Form index value
  | arr (items : List Json) : Form index (.arr items)
  | obj {members : Members} : Members.get? members markerKey = none → Form index (.obj members)
  | malformed {members : Members} {marker : Json} :
      Members.get? members markerKey = some marker → marker.getStr? "path" = none →
      Form index (.obj members)
  | known {members : Members} {path : String} {target : Json} :
      Refers members path → index.get? path = some target → Form index (.obj members)
  | unknown {members : Members} {path : String} :
      Refers members path → index.get? path = none → Form index (.obj members)

theorem form (index : SchemaIndex) (value : Json) : Form index value := by
  cases value with
  | obj members =>
      cases hm : Members.get? members markerKey with
      | none => exact .obj hm
      | some marker =>
          cases hp : marker.getStr? "path" with
          | none => exact .malformed hm hp
          | some path =>
              cases ht : index.get? path with
              | none => exact .unknown ⟨marker, hm, hp⟩ ht
              | some target => exact .known ⟨marker, hm, hp⟩ ht
  | arr items => exact .arr items
  | null => exact .scalar rfl rfl
  | bool _ => exact .scalar rfl rfl
  | int _ => exact .scalar rfl rfl
  | float _ => exact .scalar rfl rfl
  | str _ => exact .scalar rfl rfl

theorem resolveAt_scalar (ha : value.arr? = none) (ho : value.obj? = none) :
    index.resolveAt (room + 1) inside value = .ok value := by
  cases value with
  | arr items => exact absurd ha (by simp [Json.arr?])
  | obj members => exact absurd ho (by simp [Json.obj?])
  | _ => rfl

theorem resolveAt_arr (items : List Json) :
    index.resolveAt (room + 1) inside (.arr items) =
      .arr <$> items.mapM (index.resolveAt room inside) := rfl

/-- A member with its value resolved. -/
def resolveMember (index : SchemaIndex) (room : Nat) (inside : List String) (m : String × Json) :
    Except ReferenceError (String × Json) :=
  (m.1, ·) <$> index.resolveAt room inside m.2

theorem resolveAt_obj (h : Members.get? members markerKey = none) :
    index.resolveAt (room + 1) inside (.obj members) =
      .obj <$> members.mapM (index.resolveMember room inside) := by
  rw [resolveAt, h]
  rfl

theorem resolveAt_malformed {marker : Json} (hm : Members.get? members markerKey = some marker)
    (hp : marker.getStr? "path" = none) :
    ∃ reason, index.resolveAt (room + 1) inside (.obj members) = .error (.malformed reason) := by
  rw [resolveAt, hm]
  dsimp only
  rw [pathOf, hp]
  exact ⟨_, rfl⟩

theorem resolveAt_unknown (hr : Refers members path) (ht : index.get? path = none) :
    index.resolveAt (room + 1) inside (.obj members) = .ok (.obj members) := by
  obtain ⟨marker, hm, hp⟩ := hr
  rw [resolveAt, hm]
  dsimp only
  rw [pathOf_eq_ok_iff.mpr hp]
  simp only [bind, Except.bind, ht]
  rfl

theorem resolveAt_known (hr : Refers members path) (ht : index.get? path = some target) :
    index.resolveAt (room + 1) inside (.obj members) =
      if inside.contains path then .error (.cycle path)
      else index.resolveAt room (path :: inside) target := by
  obtain ⟨marker, hm, hp⟩ := hr
  rw [resolveAt, hm]
  dsimp only
  rw [pathOf_eq_ok_iff.mpr hp]
  simp only [bind, Except.bind, ht]

/-! ## Resolution unfolds -/

/-- What a value enters has been resolved where the value has been. -/
theorem resolveAt_of_enters (h : index.resolveAt (room + 1) inside value = .ok result)
    (he : Enters index value child) :
    ∃ inside' result', index.resolveAt room inside' child = .ok result' := by
  cases he with
  | item hi =>
      rw [resolveAt_arr] at h
      obtain ⟨results, hm, -⟩ := Result.map_eq_ok_iff.mp h
      obtain ⟨result', -, hr⟩ := Result.mapM_ok_of_mem hm hi
      exact ⟨inside, result', hr⟩
  | member hm hi =>
      rw [resolveAt_obj hm] at h
      obtain ⟨results, hrs, -⟩ := Result.map_eq_ok_iff.mp h
      obtain ⟨m, -, hr⟩ := Result.mapM_ok_of_mem hrs hi
      obtain ⟨result', hr, -⟩ := Result.map_eq_ok_iff.mp hr
      exact ⟨inside, result', hr⟩
  | target hr ht =>
      rw [resolveAt_known hr ht] at h
      split at h
      · exact absurd h (by simp)
      · exact ⟨_, result, h⟩

/-- Whatever is visited in resolving a value lies within the room that there is. -/
theorem lt_of_visits {seen : Json} (hv : Visits index value d seen)
    (h : index.resolveAt room inside value = .ok result) : d < room := by
  induction hv generalizing room inside result with
  | here =>
      cases room with
      | zero => exact absurd h (by simp [resolveAt])
      | succ room => exact Nat.succ_pos room
  | next he _ ih =>
      cases room with
      | zero => exact absurd h (by simp [resolveAt])
      | succ room =>
          obtain ⟨inside', result', h'⟩ := resolveAt_of_enters h he
          exact Nat.succ_lt_succ (ih h')

theorem unfoldsItems_of_mapM {items results : List Json}
    (IH : ∀ {value result}, index.resolveAt room inside value = .ok result →
      Unfolds index value result)
    (h : items.mapM (index.resolveAt room inside) = .ok results) :
    UnfoldsItems index items results := by
  induction items generalizing results with
  | nil =>
      rw [Result.mapM_nil_eq_ok_iff.mp h]
      exact .nil
  | cons item items ih =>
      obtain ⟨result, rest, hr, hrest, rfl⟩ := Result.mapM_cons_eq_ok_iff.mp h
      exact .cons (IH hr) (ih hrest)

theorem unfoldsMembers_of_mapM {members results : Members}
    (IH : ∀ {value result}, index.resolveAt room inside value = .ok result →
      Unfolds index value result)
    (h : members.mapM (index.resolveMember room inside) = .ok results) :
    UnfoldsMembers index members results := by
  induction members generalizing results with
  | nil =>
      rw [Result.mapM_nil_eq_ok_iff.mp h]
      exact .nil
  | cons m members ih =>
      obtain ⟨resolved, rest, hr, hrest, rfl⟩ := Result.mapM_cons_eq_ok_iff.mp h
      obtain ⟨result, hresult, rfl⟩ := Result.map_eq_ok_iff.mp hr
      exact .cons (IH hresult) (ih hrest)

/-- **Whatever resolution gives, the value unfolds to it.** -/
theorem unfolds_of_resolveAt (h : index.resolveAt room inside value = .ok result) :
    Unfolds index value result := by
  induction room generalizing inside value result with
  -- by induction on the room; a marker that is resolved unfolds to its definition
  | zero => exact absurd h (by simp [resolveAt])
  | succ room ih =>
      cases form index value with
      | scalar ha ho =>
          rw [resolveAt_scalar ha ho] at h
          rw [← Except.ok.inj h]
          exact .scalar ha ho
      | arr items =>
          rw [resolveAt_arr] at h
          obtain ⟨results, hrs, rfl⟩ := Result.map_eq_ok_iff.mp h
          exact .arr (unfoldsItems_of_mapM ih hrs)
      | obj hm =>
          rw [resolveAt_obj hm] at h
          obtain ⟨results, hrs, rfl⟩ := Result.map_eq_ok_iff.mp h
          exact .obj hm (unfoldsMembers_of_mapM ih hrs)
      | malformed hm hp =>
          obtain ⟨reason, he⟩ := @resolveAt_malformed index _ inside room _ hm hp
          rw [he] at h
          exact absurd h (by simp)
      | unknown hr ht =>
          rw [resolveAt_unknown hr ht] at h
          rw [← Except.ok.inj h]
          exact .unknown hr ht
      | known hr ht =>
          rw [resolveAt_known hr ht] at h
          -- a path that it is inside of is an error
          split at h
          · exact absurd h (by simp)
          · exact .known hr ht (ih h)

/-! ## What unfolds is resolved -/

/-- Every path that is open is that of a definition whose unfolding has come to the value. -/
def Open (index : SchemaIndex) (inside : List String) (value : Json) : Prop :=
  ∀ path ∈ inside, ∃ target d, index.get? path = some target ∧ Visits index target d value

theorem Open.enters (h : Open index inside value) (he : Enters index value child) :
    Open index inside child := by
  intro path hm
  obtain ⟨target, d, ht, hv⟩ := h path hm
  exact ⟨target, d + 1, ht, hv.trans (.next he .here)⟩

theorem Open.cons (h : Open index inside value) (he : Enters index value target)
    (ht : index.get? path = some target) : Open index (path :: inside) target := by
  intro other hm
  rcases List.mem_cons.mp hm with rfl | hm
  · exact ⟨target, 0, ht, .here⟩
  · exact h.enters he other hm

theorem mapM_of_unfoldsItems {items results : List Json} {f : Json → Except ReferenceError Json}
    (h : UnfoldsItems index items results)
    (IH : ∀ item ∈ items, ∀ result, Unfolds index item result → f item = .ok result) :
    items.mapM f = .ok results := by
  induction items generalizing results with
  | nil =>
      cases h with
      | nil => rfl
  | cons item items ih =>
      cases h with
      | cons hu hrest =>
          refine Result.mapM_cons_eq_ok_iff.mpr ⟨_, _, IH item List.mem_cons_self _ hu, ?_, rfl⟩
          exact ih hrest fun other hm => IH other (List.mem_cons_of_mem _ hm)

theorem mapM_of_unfoldsMembers {members results : Members}
    (h : UnfoldsMembers index members results)
    (IH : ∀ m ∈ members, ∀ result, Unfolds index m.2 result →
      index.resolveAt room inside m.2 = .ok result) :
    members.mapM (index.resolveMember room inside) = .ok results := by
  induction members generalizing results with
  | nil =>
      cases h with
      | nil => rfl
  | cons m members ih =>
      cases h with
      | @cons key child result _ results hu hrest =>
          refine Result.mapM_cons_eq_ok_iff.mpr ⟨(key, result), results, ?_, ?_, rfl⟩
          · exact Result.map_eq_ok_iff.mpr ⟨result, IH _ List.mem_cons_self _ hu, rfl⟩
          · exact ih hrest fun other hm => IH other (List.mem_cons_of_mem _ hm)

/-- An open path is not met again within bounds: the definition would visit itself. -/
theorem not_mem_of_bounded (ho : Open index inside value)
    (hb : ∀ d seen, Visits index value d seen → d < room)
    (he : Enters index value target) (ht : index.get? path = some target) : path ∉ inside := by
  intro hm
  obtain ⟨target', d, ht', hv⟩ := ho path hm
  rw [ht] at ht'
  rw [← Option.some.inj ht'] at hv
  -- from the value to the definition, and from there back to the value
  obtain ⟨deeper, hle, hself⟩ := Visits.unbounded (.next he hv) room
  exact absurd (hb deeper value hself) (Nat.not_lt.mpr hle)

/-- **What unfolds within bounds is resolved.** -/
theorem resolveAt_of_unfolds (ho : Open index inside value) (h : Unfolds index value result)
    (hb : ∀ d seen, Visits index value d seen → d < room) :
    index.resolveAt room inside value = .ok result := by
  -- on the room that is left: a derivation of the unfolding says nothing about depth
  induction room generalizing inside value result with
  | zero => exact absurd (hb 0 value .here) (Nat.not_lt_zero 0)
  | succ room ih =>
      have hbelow {child : Json} (he : Enters index value child) :
          ∀ d seen, Visits index child d seen → d < room :=
        fun d seen hv => Nat.lt_of_succ_lt_succ (hb (d + 1) seen (.next he hv))
      cases h with
      | scalar ha hobj => exact resolveAt_scalar ha hobj
      | arr hitems =>
          rw [resolveAt_arr]
          refine Result.map_eq_ok_iff.mpr ⟨_, mapM_of_unfoldsItems hitems ?_, rfl⟩
          intro item hm result hu
          exact ih (ho.enters (.item hm)) hu (hbelow (.item hm))
      | obj hmarker hmembers =>
          rw [resolveAt_obj hmarker]
          refine Result.map_eq_ok_iff.mpr ⟨_, mapM_of_unfoldsMembers hmembers ?_, rfl⟩
          intro m hm result hu
          exact ih (ho.enters (.member hmarker hm)) hu (hbelow (.member hmarker hm))
      | known hr ht hu =>
          have he := Enters.target hr ht
          have hfresh := not_mem_of_bounded ho hb he ht
          rw [resolveAt_known hr ht, if_neg (by simpa using hfresh)]
          exact ih (ho.cons he ht) hu (hbelow he)
      | unknown hr ht => exact resolveAt_unknown hr ht

/-! ## Circles -/

/-- A circle is reported for an open path that the value comes to, or for one whose definition
comes to it. -/
theorem reaches_of_cycle (h : index.resolveAt room inside value = .error (.cycle path)) :
    path ∈ inside ∧ Reaches index value path ∨
      ∃ target, index.get? path = some target ∧ Reaches index target path := by
  induction room generalizing inside value with
  | zero => exact absurd h (by simp [resolveAt])
  | succ room ih =>
      have hbelow {child : Json} (he : Enters index value child)
          (hc : index.resolveAt room inside child = .error (.cycle path)) :
          path ∈ inside ∧ Reaches index value path ∨
            ∃ target, index.get? path = some target ∧ Reaches index target path :=
        (ih hc).imp_left fun hin => ⟨hin.1, hin.2.next he⟩
      cases form index value with
      | scalar ha ho =>
          rw [resolveAt_scalar ha ho] at h
          exact absurd h (by simp)
      | arr items =>
          rw [resolveAt_arr] at h
          obtain ⟨item, hm, hc⟩ := Result.mapM_eq_error (Result.map_eq_error_iff.mp h)
          exact hbelow (.item hm) hc
      | obj hmarker =>
          rw [resolveAt_obj hmarker] at h
          obtain ⟨m, hm, hc⟩ := Result.mapM_eq_error (Result.map_eq_error_iff.mp h)
          exact hbelow (.member hmarker hm) (Result.map_eq_error_iff.mp hc)
      | malformed hm hp =>
          obtain ⟨reason, he⟩ := @resolveAt_malformed index _ inside room _ hm hp
          rw [he] at h
          exact absurd h (by simp)
      | unknown hr ht =>
          rw [resolveAt_unknown hr ht] at h
          exact absurd h (by simp)
      | @known members named target hr ht =>
          rw [resolveAt_known hr ht] at h
          split at h
          · rename_i hin
            have hpath : named = path := by simpa using h
            subst hpath
            exact .inl ⟨by simpa using hin, 0, members, .here, hr⟩
          · -- a circle below closes at this definition, at one further out, or on itself
            rcases ih h with ⟨hin, hreach⟩ | hcircle
            · rcases List.mem_cons.mp hin with rfl | hin
              · exact .inr ⟨target, ht, hreach⟩
              · exact .inl ⟨hin, hreach.next (.target hr ht)⟩
            · exact .inr hcircle

/-- **Resolution is unfolding.** A value is resolved exactly if it unfolds and nothing is visited
deeper than 128 levels, and then to what it unfolds to. A circle is reported for no path but one
whose own definition comes to a marker that names it. -/
theorem resolve_iff_unfolds (index : SchemaIndex) (value : Json) :
    (∀ result, index.resolve value = .ok result ↔
      Unfolds index value result ∧ ∀ d seen, Visits index value d seen → d ≤ 128) ∧
    (∀ path, index.resolve value = .error (.cycle path) →
      ∃ target, index.get? path = some target ∧ Reaches index target path) := by
  refine ⟨fun result => ⟨fun h => ⟨unfolds_of_resolveAt h, fun d seen hv => ?_⟩, ?_⟩, ?_⟩
  · exact Nat.le_of_lt_succ (lt_of_visits hv h)
  · rintro ⟨hu, hb⟩
    refine resolveAt_of_unfolds (fun path hm => absurd hm (by simp)) hu ?_
    exact fun d seen hv => Nat.lt_succ_of_le (hb d seen hv)
  · intro path h
    exact (reaches_of_cycle h).resolve_left fun hin => absurd hin.1 (by simp)

/-- A marker that names a path. -/
def markerOf (path : String) : Json := .obj [(markerKey, .obj [("path", .str path)])]

/-- Two definitions that are made of each other go in a circle. -/
theorem resolve_circle_of_two :
    let index : SchemaIndex := ⟨[("a.A", .arr [markerOf "a.B"]), ("a.B", markerOf "a.A")]⟩
    index.resolve (markerOf "a.A") = .error (.cycle "a.A") ∧
      ∃ target, index.get? "a.A" = some target ∧ Reaches index target "a.A" := by
  intro index
  have h : index.resolve (markerOf "a.A") = .error (.cycle "a.A") := by rfl
  exact ⟨h, (resolve_iff_unfolds index (markerOf "a.A")).2 "a.A" h⟩

end StubGen.SchemaIndex
