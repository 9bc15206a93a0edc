import StubGen.Proofs.Reference.Apply
import StubGen.Proofs.Reference.Unfolding

/-!
# What resolution leaves as it is

A value is settled when resolving it changes nothing: wherever resolution comes in it, there is no
marker but one whose path is not indexed, and nothing lies deeper than there is room for. Whatever
resolution gives is settled, though parts of it come from definitions at other depths, since a
definition stands higher in the result than where it was resolved. So a second run has nothing to
do, and no path that could be resolved is left: `resolve_settles`.
-/

namespace StubGen.SchemaIndex

open Schema (markerKey)

variable {index : SchemaIndex} {value result : Json} {members : Members} {path : String}
  {inside : List String} {room : Nat}

/-- Resolution with room for some levels finds nothing to do in a value. What stands in a marker
that is not indexed is not looked at. -/
inductive Settled (index : SchemaIndex) : Nat → Json → Prop where
  | scalar {room : Nat} {value : Json} :
      value.arr? = none → value.obj? = none → Settled index (room + 1) value
  | arr {room : Nat} {items : List Json} :
      (∀ item ∈ items, Settled index room item) → Settled index (room + 1) (.arr items)
  | obj {room : Nat} {members : Members} :
      Members.get? members markerKey = none → (∀ m ∈ members, Settled index room m.2) →
      Settled index (room + 1) (.obj members)
  | unknown {room : Nat} {members : Members} {path : String} :
      Refers members path → index.get? path = none → Settled index (room + 1) (.obj members)

/-- More room does no harm. -/
theorem Settled.succ (h : Settled index room value) : Settled index (room + 1) value := by
  induction h with
  | scalar ha ho => exact .scalar ha ho
  | arr _ ih => exact .arr ih
  | obj hmarker _ ih => exact .obj hmarker ih
  | unknown hr ht => exact .unknown hr ht

/-- **What is settled is resolved to itself,** whatever paths are open. -/
theorem Settled.resolveAt (h : Settled index room value) (inside : List String) :
    index.resolveAt room inside value = .ok value := by
  induction h with
  | scalar ha ho => exact resolveAt_scalar ha ho
  | arr _ ih =>
      rw [resolveAt_arr]
      exact Result.map_eq_ok_iff.mpr ⟨_, Result.mapM_eq_self ih, rfl⟩
  | obj hmarker _ ih =>
      rw [resolveAt_obj hmarker]
      refine Result.map_eq_ok_iff.mpr ⟨_, Result.mapM_eq_self fun m hm => ?_, rfl⟩
      exact Result.map_eq_ok_iff.mpr ⟨m.2, ih m hm, rfl⟩
  | unknown hr ht => exact resolveAt_unknown hr ht

/-- **What resolution gives is settled.** -/
theorem settled_of_resolveAt (h : index.resolveAt room inside value = .ok result) :
    Settled index room result := by
  induction room generalizing inside value result with
  | zero => exact absurd h (by simp [SchemaIndex.resolveAt])
  | succ room ih =>
      cases form index value with
      | scalar ha ho =>
          rw [resolveAt_scalar ha ho] at h
          exact Except.ok.inj h ▸ .scalar ha ho
      | arr items =>
          rw [resolveAt_arr] at h
          obtain ⟨results, hrs, rfl⟩ := Result.map_eq_ok_iff.mp h
          refine .arr fun item hm => ?_
          obtain ⟨_, -, hr⟩ := Result.exists_of_mem_mapM hrs hm
          exact ih hr
      | obj hmarker =>
          rw [resolveAt_obj hmarker] at h
          obtain ⟨results, hrs, rfl⟩ := Result.map_eq_ok_iff.mp h
          -- each member of the result was made of one of the value's, under its key
          have hmade : ∀ m ∈ results, m.1 ≠ markerKey ∧ Settled index room m.2 := by
            intro m hm
            obtain ⟨source, hsource, hr⟩ := Result.exists_of_mem_mapM hrs hm
            obtain ⟨child, hchild, rfl⟩ := Result.map_eq_ok_iff.mp hr
            exact ⟨Members.get?_eq_none_iff.mp hmarker source hsource, ih hchild⟩
          exact .obj (Members.get?_eq_none_iff.mpr fun m hm => (hmade m hm).1)
            fun m hm => (hmade m hm).2
      | malformed hm hp =>
          obtain ⟨reason, he⟩ := @resolveAt_malformed index _ inside room _ hm hp
          rw [he] at h
          exact absurd h (by simp)
      | unknown hr ht =>
          rw [resolveAt_unknown hr ht] at h
          exact Except.ok.inj h ▸ .unknown hr ht
      | known hr ht =>
          rw [resolveAt_known hr ht] at h
          split at h
          · exact absurd h (by simp)
          -- the definition was resolved a level deeper than where its result stands
          · exact (ih h).succ

/-- A value is settled exactly if resolution gives it back. -/
theorem settled_iff : Settled index room value ↔ index.resolveAt room [] value = .ok value :=
  ⟨fun h => h.resolveAt [], settled_of_resolveAt⟩

theorem mem_unresolvedInItems_iff {items : List Json} :
    path ∈ unresolvedInItems items ↔ ∃ item ∈ items, path ∈ unresolvedPaths item := by
  induction items with
  | nil => simp [unresolvedInItems]
  | cons item items ih => simp [unresolvedInItems, ih]

theorem mem_unresolvedInMembers_iff :
    path ∈ unresolvedInMembers members ↔ ∃ m ∈ members, path ∈ unresolvedPaths m.2 := by
  induction members with
  | nil => simp [unresolvedInMembers]
  | cons m members ih => simp [unresolvedInMembers, ih]

/-- **No path that is left in a settled value is indexed.** -/
theorem Settled.not_indexed (h : Settled index room value) (hp : path ∈ unresolvedPaths value) :
    index.get? path = none := by
  induction h with
  | @scalar _ value ha ho =>
      cases value with
      | arr items => exact absurd ha (by simp [Json.arr?])
      | obj members => exact absurd ho (by simp [Json.obj?])
      | _ => exact absurd hp (by simp [unresolvedPaths])
  | arr _ ih =>
      rw [unresolvedPaths] at hp
      obtain ⟨item, hm, hp⟩ := mem_unresolvedInItems_iff.mp hp
      exact ih item hm hp
  | obj hmarker _ ih =>
      rw [unresolvedPaths, hmarker] at hp
      obtain ⟨m, hm, hp⟩ := mem_unresolvedInMembers_iff.mp hp
      exact ih m hm hp
  | unknown hr ht =>
      -- the one path of a marker that is left is not indexed, and that is why it is left
      obtain ⟨marker, hmarker, hpath⟩ := hr
      rw [unresolvedPaths, hmarker] at hp
      dsimp only at hp
      rw [hpath, Option.getD_some, List.mem_singleton] at hp
      exact hp ▸ ht

/-- Without markers a value is settled as soon as there is room for it. -/
theorem settled_of_markerFree (hfree : MarkerFree value)
    (h : index.resolveAt room inside value = .ok result) : Settled index room value := by
  induction room generalizing inside value result with
  | zero => exact absurd h (by simp [SchemaIndex.resolveAt])
  | succ room ih =>
      -- the forms of a value with a marker do not occur
      have hno {members : Members} {marker : Json} (hfree : MarkerFree (.obj members))
          (hmarker : Members.get? members markerKey = some marker) : False :=
        hfree members .here _ (Members.mem_of_get? hmarker) rfl
      cases form index value with
      | scalar ha ho => exact .scalar ha ho
      | arr items =>
          rw [resolveAt_arr] at h
          obtain ⟨results, hrs, -⟩ := Result.map_eq_ok_iff.mp h
          refine .arr fun item hm => ?_
          obtain ⟨_, -, hr⟩ := Result.mapM_ok_of_mem hrs hm
          exact ih (hereditary_markerFree.items hfree hm) hr
      | obj hmarker =>
          rw [resolveAt_obj hmarker] at h
          obtain ⟨results, hrs, -⟩ := Result.map_eq_ok_iff.mp h
          refine .obj hmarker fun m hm => ?_
          obtain ⟨_, -, hr⟩ := Result.mapM_ok_of_mem hrs hm
          obtain ⟨_, hchild, -⟩ := Result.map_eq_ok_iff.mp hr
          exact ih (hereditary_markerFree.members hfree hm) hchild
      | malformed hm _ => exact (hno hfree hm).elim
      | unknown hr _ => exact (hno hfree hr.choose_spec.1).elim
      | known hr _ => exact (hno hfree hr.choose_spec.1).elim

/-- **Resolution is done in one run.** What it gives is resolved to itself, names no path that is
indexed, and is the value itself if that has no marker anywhere. -/
theorem resolve_settles (h : index.resolve value = .ok result) :
    index.resolve result = .ok result ∧
      (∀ path ∈ unresolvedPaths result, index.get? path = none) ∧
      (MarkerFree value → result = value) := by
  have hsettled := settled_of_resolveAt h
  refine ⟨settled_iff.mp hsettled, fun path hp => hsettled.not_indexed hp, fun hfree => ?_⟩
  have hself := settled_iff.mp (settled_of_markerFree hfree h)
  exact Except.ok.inj (h.symm.trans hself)

/-- An index of a pet, which has an owner that is known, and of an owner, which has something that
is not. -/
def petIndex : SchemaIndex :=
  ⟨[("zoo.Pet", .obj [("type", .str "object"), ("owner", markerOf "zoo.Owner")]),
    ("zoo.Owner", .arr [markerOf "zoo.Missing", .bool true])]⟩

/-- What is known is put in place of its marker, and what is not keeps its own. -/
theorem resolve_settles_pet :
    let value : Json := .arr [markerOf "zoo.Pet", markerOf "zoo.Missing"]
    let result : Json := .arr [.obj [("type", .str "object"),
      ("owner", .arr [markerOf "zoo.Missing", .bool true])], markerOf "zoo.Missing"]
    petIndex.resolve value = .ok result ∧ petIndex.resolve result = .ok result ∧
      unresolvedPaths result = ["zoo.Missing", "zoo.Missing"] ∧
      ∀ path ∈ unresolvedPaths result, petIndex.get? path = none := by
  intro value result
  have hresolve : petIndex.resolve value = .ok result := rfl
  obtain ⟨hagain, hleft, -⟩ := resolve_settles hresolve
  exact ⟨hresolve, hagain, rfl, hleft⟩

end StubGen.SchemaIndex
