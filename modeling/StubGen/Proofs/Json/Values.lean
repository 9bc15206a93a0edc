import StubGen.Json.Basic

/-!
# Values inside values

What holds of each value if it holds of its items and members holds of all values:
`Json.induction`. Some properties also go the other way, from a value to all that is in
it: `Json.Hereditary`. And the value under a key of an object is one of its members.
-/

namespace StubGen

namespace Json

theorem sizeOf_snd_lt {members : Members} {m : String × Json} (h : m ∈ members) :
    sizeOf m.2 < sizeOf (Json.obj members) := by
  obtain ⟨key, value⟩ := m
  have := List.sizeOf_lt_of_mem h
  simp only [Prod.mk.sizeOf_spec, Json.obj.sizeOf_spec] at this ⊢
  omega

/-- Induction over the values inside a value. -/
@[elab_as_elim]
theorem induction {motive : Json → Prop}
    (scalar : ∀ value : Json, value.arr? = none → value.obj? = none → motive value)
    (arr : ∀ items : List Json, (∀ item ∈ items, motive item) → motive (.arr items))
    (obj : ∀ members : Members, (∀ m ∈ members, motive m.2) → motive (.obj members)) :
    ∀ value : Json, motive value
  | .arr items => arr items fun item _ => induction scalar arr obj item
  | .obj members => obj members fun m _ => induction scalar arr obj m.2
  | .null => scalar .null rfl rfl
  | .bool b => scalar (.bool b) rfl rfl
  | .int n => scalar (.int n) rfl rfl
  | .float x => scalar (.float x) rfl rfl
  | .str text => scalar (.str text) rfl rfl
termination_by value => sizeOf value
decreasing_by
  · have := List.sizeOf_lt_of_mem ‹_›
    simp only [Json.arr.sizeOf_spec]
    omega
  · exact sizeOf_snd_lt ‹_›

/-- A value stands somewhere in a value. -/
inductive Within (inner : Json) : Json → Prop where
  | here : Within inner inner
  | item {items : List Json} {item : Json} :
      item ∈ items → Within inner item → Within inner (.arr items)
  | member {members : Members} {m : String × Json} :
      m ∈ members → Within inner m.2 → Within inner (.obj members)

theorem Within.trans {inner middle outer : Json} (h : Within inner middle)
    (h' : Within middle outer) : Within inner outer := by
  induction h' with
  | here => exact h
  | item hm _ ih => exact .item hm ih
  | member hm _ ih => exact .member hm ih

theorem sizeOf_le_of_within {inner outer : Json} (h : Within inner outer) :
    sizeOf inner ≤ sizeOf outer := by
  induction h with
  | here => exact Nat.le_refl _
  | @item items item hm _ ih =>
      have := List.sizeOf_lt_of_mem hm
      simp only [Json.arr.sizeOf_spec]
      omega
  | member hm _ ih => exact Nat.le_trans ih (Nat.le_of_lt (sizeOf_snd_lt hm))

/-- What holds of a value and then of all that is in it. -/
structure Hereditary (good : Json → Prop) : Prop where
  items : ∀ {items item}, good (.arr items) → item ∈ items → good item
  members : ∀ {members m}, good (.obj members) → m ∈ members → good m.2

end Json

namespace Members

theorem get?_nil (key : String) : get? [] key = none := rfl

theorem get?_cons (k key : String) (value : Json) (members : Members) :
    get? ((k, value) :: members) key = if key = k then some value else get? members key := by
  unfold get?
  rw [List.lookup_cons]
  by_cases h : key = k
  · rw [if_pos h, beq_iff_eq.mpr h]
  · rw [if_neg h, beq_eq_false_iff_ne.mpr h]

theorem get?_append (members others : Members) (key : String) :
    get? (members ++ others) key = (get? members key).or (get? others key) := by
  unfold get?
  rw [List.lookup_append]

/-- No member is stored under a key that has no value. -/
theorem get?_eq_none_iff {members : Members} {key : String} :
    get? members key = none ↔ ∀ m ∈ members, m.1 ≠ key := by
  induction members with
  | nil => simp [get?_nil]
  | cons m members ih =>
      rw [get?_cons]
      by_cases h : key = m.1
      · simp [h]
      · simp [h, ih, Ne.symm h]

theorem mem_of_get? {members : Members} {key : String} {value : Json}
    (h : members.get? key = some value) : (key, value) ∈ members := by
  obtain ⟨before, behind, rfl, -⟩ := List.lookup_eq_some_iff.mp h
  exact List.mem_append_right _ List.mem_cons_self

/-- Where each key is stored once, every member is found. -/
theorem get?_of_mem {members : Members} {m : String × Json} (hdistinct : members.keys.Nodup)
    (h : m ∈ members) : members.get? m.1 = some m.2 := by
  induction members with
  | nil => exact absurd h List.not_mem_nil
  | cons first members ih =>
      obtain ⟨hfresh, hdistinct⟩ := List.nodup_cons.mp hdistinct
      rw [get?_cons]
      rcases List.mem_cons.mp h with rfl | h
      · exact if_pos rfl
      · have hne : m.1 ≠ first.1 := fun heq => hfresh (heq ▸ List.mem_map_of_mem h)
        rw [if_neg hne, ih hdistinct h]

theorem mem_insert {members : Members} {key : String} {value : Json} {m : String × Json}
    (h : m ∈ members.insert key value) : m ∈ members ∨ m = (key, value) := by
  induction members with
  | nil => exact .inr (List.mem_singleton.mp h)
  | cons first rest ih =>
      unfold insert at h
      split at h
      · rename_i heq
        rcases List.mem_cons.mp h with rfl | h
        · exact .inr (by rw [heq])
        · exact .inl (List.mem_cons_of_mem _ h)
      · rcases List.mem_cons.mp h with rfl | h
        · exact .inl List.mem_cons_self
        · exact (ih h).imp_left (List.mem_cons_of_mem _)

theorem get?_insert_of_ne {members : Members} {key other : String} {value : Json}
    (h : other ≠ key) : (members.insert key value).get? other = members.get? other := by
  induction members with
  | nil => rw [insert, get?_cons, if_neg h]
  | cons first rest ih =>
      obtain ⟨k, v⟩ := first
      unfold insert
      split
      · rename_i hk
        rw [get?_cons, get?_cons, hk, if_neg h, if_neg h]
      · rw [get?_cons, get?_cons, ih]

theorem get?_insert_self (members : Members) (key : String) (value : Json) :
    (members.insert key value).get? key = some value := by
  induction members with
  | nil => rw [insert, get?_cons, if_pos rfl]
  | cons first rest ih =>
      obtain ⟨k, v⟩ := first
      unfold insert
      split
      · rename_i hk
        rw [get?_cons, if_pos hk.symm]
      · rename_i hk
        rw [get?_cons, if_neg (Ne.symm hk), ih]

theorem mem_insertAll {members added : Members} {m : String × Json}
    (h : m ∈ members.insertAll added) : m ∈ members ∨ m ∈ added := by
  induction added generalizing members with
  | nil => exact .inl h
  | cons first added ih =>
      have h : m ∈ (members.insert first.1 first.2).insertAll added := h
      rcases ih h with h | h
      · exact (mem_insert h).imp_right fun heq => by rw [heq]; exact List.mem_cons_self
      · exact .inr (List.mem_cons_of_mem _ h)

theorem mem_keys_insert {members : Members} {key name : String} {value : Json} :
    name ∈ (members.insert key value).keys ↔ name ∈ members.keys ∨ name = key := by
  induction members with
  | nil => simp [insert, keys]
  | cons first rest ih =>
      simp only [keys] at ih ⊢
      unfold insert
      split
      · rename_i heq
        simp only [List.map_cons, List.mem_cons, heq]
        grind
      · simp only [List.map_cons, List.mem_cons, ih, or_assoc]

/-- Values that are stored together add their keys. -/
theorem mem_keys_insertAll {members added : Members} {name : String} :
    name ∈ (members.insertAll added).keys ↔ name ∈ members.keys ∨ name ∈ added.keys := by
  induction added generalizing members with
  | nil => simp [insertAll, keys]
  | cons first added ih =>
      have hstep : members.insertAll (first :: added) =
          (members.insert first.1 first.2).insertAll added := rfl
      rw [hstep, ih, mem_keys_insert]
      simp [keys, or_assoc]

/-- Of values that are stored together under one key the last one counts. -/
theorem get?_insertAll (members added : Members) (key : String) :
    (members.insertAll added).get? key = (get? added.reverse key).or (members.get? key) := by
  induction added generalizing members with
  | nil => rfl
  | cons first added ih =>
      have hstep : members.insertAll (first :: added) =
          (members.insert first.1 first.2).insertAll added := rfl
      rw [hstep, ih, List.reverse_cons, get?_append, Option.or_assoc]
      congr 1
      rw [get?_cons, get?_nil]
      by_cases hkey : key = first.1
      · rw [if_pos hkey, hkey, get?_insert_self, Option.some_or]
      · rw [if_neg hkey, get?_insert_of_ne hkey, Option.none_or]

theorem sizeOf_get? {members : Members} {key : String} {value : Json}
    (h : members.get? key = some value) : sizeOf value < sizeOf (Json.obj members) :=
  Json.sizeOf_snd_lt (mem_of_get? h)

/-- A smaller value in the place of a key's makes an object smaller. -/
theorem sizeOf_insert_lt {members : Members} {key : String} {old new : Json}
    (h : members.get? key = some old) (hlt : sizeOf new < sizeOf old) :
    sizeOf (Json.obj (members.insert key new)) < sizeOf (Json.obj members) := by
  induction members with
  | nil => exact absurd h (by simp [get?_nil])
  | cons first rest ih =>
      obtain ⟨k, v⟩ := first
      rw [get?_cons] at h
      unfold insert
      by_cases hk : k = key
      · rw [if_pos hk.symm] at h
        rw [if_pos hk, Option.some.inj h]
        simp only [Json.obj.sizeOf_spec, List.cons.sizeOf_spec, Prod.mk.sizeOf_spec]
        omega
      · rw [if_neg (Ne.symm hk)] at h
        have := ih h
        rw [if_neg hk]
        simp only [Json.obj.sizeOf_spec, List.cons.sizeOf_spec] at this ⊢
        omega

end Members

end StubGen
