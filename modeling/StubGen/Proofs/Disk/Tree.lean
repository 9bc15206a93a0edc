import StubGen.Disk.Tree

/-!
# What a tree holds after it has been changed

A tree is a list of entries, and `get?` is what it says about a place. Storing and
taking away change that at one place only, and they undo each other down to the list
itself: a new entry that is taken away again leaves the list that was, and so does an
old content that is put back. This is what makes it possible to say that a rollback
ends with the same tree, and not only with one that looks like it.
-/

namespace StubGen.Disk.Tree

variable {tree : Tree} {p q : Place} {node : Node}

/-! ## Entries -/

theorem lookup_putEntry_self (entries : List (Place × Node)) (p : Place) (node : Node) :
    (putEntry p node entries).lookup p = some node := by
  induction entries with
  | nil => simp [putEntry]
  | cons e rest ih =>
      unfold putEntry
      split
      · rename_i h
        simp [h]
      · rename_i h
        have hne : (p == e.1) = false := beq_eq_false_iff_ne.mpr (Ne.symm h)
        rw [List.lookup_cons, hne]
        exact ih

theorem lookup_putEntry_of_ne (entries : List (Place × Node)) (node : Node) (h : q ≠ p) :
    (putEntry p node entries).lookup q = entries.lookup q := by
  induction entries with
  | nil =>
      have hne : (q == p) = false := beq_eq_false_iff_ne.mpr h
      simp [putEntry, List.lookup_cons, hne]
  | cons e rest ih =>
      unfold putEntry
      split
      · rename_i he
        have hne : (q == e.1) = false := beq_eq_false_iff_ne.mpr (he ▸ h)
        rw [List.lookup_cons, List.lookup_cons, hne]
      · rw [List.lookup_cons, List.lookup_cons, ih]

theorem lookup_filter_of_ne (entries : List (Place × Node)) (h : q ≠ p) :
    (entries.filter fun e => e.1 ≠ p).lookup q = entries.lookup q := by
  induction entries with
  | nil => rfl
  | cons e rest ih =>
      rw [List.filter_cons]
      split
      · rw [List.lookup_cons, List.lookup_cons, ih]
      · rename_i he
        have he' : e.1 = p := by simpa using he
        have hne : (q == e.1) = false := beq_eq_false_iff_ne.mpr (he' ▸ h)
        rw [List.lookup_cons, hne]
        exact ih

theorem lookup_eq_none_iff {entries : List (Place × Node)} :
    entries.lookup p = none ↔ ∀ e ∈ entries, e.1 ≠ p := by
  rw [List.lookup_eq_none_iff]
  constructor
  · intro h e he hep
    have := h e he
    simp [hep] at this
  · intro h e he
    simpa using fun hpe => h e he hpe.symm

theorem putEntry_putEntry (entries : List (Place × Node)) (a b : Node) :
    putEntry p b (putEntry p a entries) = putEntry p b entries := by
  induction entries with
  | nil => simp [putEntry]
  | cons e rest ih =>
      by_cases h : e.1 = p
      · simp [putEntry, h]
      · simp [putEntry, h, ih]

theorem putEntry_of_lookup {entries : List (Place × Node)} (h : entries.lookup p = some node) :
    putEntry p node entries = entries := by
  induction entries with
  | nil => simp at h
  | cons e rest ih =>
      obtain ⟨k, n⟩ := e
      by_cases hk : k = p
      · subst hk
        have hn : n = node := by simpa [List.lookup_cons] using h
        simp [putEntry, hn]
      · have hne : (p == k) = false := beq_eq_false_iff_ne.mpr (Ne.symm hk)
        rw [List.lookup_cons, hne] at h
        simp [putEntry, hk, ih h]

theorem filter_putEntry_self (entries : List (Place × Node)) (node : Node) :
    ((putEntry p node entries).filter fun e => e.1 ≠ p) = entries.filter fun e => e.1 ≠ p := by
  induction entries with
  | nil => simp [putEntry]
  | cons e rest ih =>
      by_cases h : e.1 = p
      · simp [putEntry, h]
      · rw [putEntry, if_neg h, List.filter_cons, List.filter_cons, ih]

theorem filter_putEntry_of_ne (entries : List (Place × Node)) (node : Node) (h : p ≠ q) :
    ((putEntry p node entries).filter fun e => e.1 ≠ q) =
      putEntry p node (entries.filter fun e => e.1 ≠ q) := by
  induction entries with
  | nil => simp [putEntry, h]
  | cons e rest ih =>
      by_cases hp : e.1 = p
      · simp [putEntry, hp, h]
      · by_cases hq : e.1 = q
        · simp only [putEntry, hp, if_false]
          rw [List.filter_cons_of_neg (by simp [hq]), List.filter_cons_of_neg (by simp [hq]), ih]
        · simp only [putEntry, hp, if_false]
          rw [List.filter_cons_of_pos (by simp [hq]), List.filter_cons_of_pos (by simp [hq]), ih]
          simp [putEntry, hp]

/-- Two entries can be stored in either order if one of them has its position already. -/
theorem putEntry_comm {entries : List (Place × Node)} {a b : Node} (h : p ≠ q)
    (hq : (entries.lookup q).isSome) :
    putEntry q b (putEntry p a entries) = putEntry p a (putEntry q b entries) := by
  induction entries with
  | nil => simp at hq
  | cons e rest ih =>
      obtain ⟨k, n⟩ := e
      by_cases hkp : k = p
      · subst hkp
        simp [putEntry, h]
      · by_cases hkq : k = q
        · subst hkq
          simp [putEntry, hkp]
        · have hne : (q == k) = false := beq_eq_false_iff_ne.mpr (Ne.symm hkq)
          rw [List.lookup_cons, hne] at hq
          simp [putEntry, hkp, hkq, ih hq]

/-! ## Places -/

theorem get?_of_ne_nil (h : p ≠ []) : tree.get? p = tree.entries.lookup p := by
  unfold get?
  rw [if_neg (by simpa using h)]

@[simp] theorem get?_nil : tree.get? [] = some .directory := rfl

theorem ne_nil_of_get?_ne (h : tree.get? p ≠ some .directory) : p ≠ [] := by
  rintro rfl
  exact h rfl

theorem get?_put_self (h : p ≠ []) : (tree.put p node).get? p = some node := by
  rw [get?_of_ne_nil h]
  exact lookup_putEntry_self ..

theorem get?_put_of_ne (h : q ≠ p) : (tree.put p node).get? q = tree.get? q := by
  unfold get?
  rw [put, lookup_putEntry_of_ne _ _ h]

theorem get?_erase_self (h : p ≠ []) : (tree.erase p).get? p = none := by
  rw [get?_of_ne_nil h, lookup_eq_none_iff]
  intro e he
  simpa [erase] using (List.mem_filter.mp he).2

theorem get?_erase_of_ne (h : q ≠ p) : (tree.erase p).get? q = tree.get? q := by
  unfold get?
  rw [erase, lookup_filter_of_ne _ h]

@[simp] theorem put_put (tree : Tree) (p : Place) (a b : Node) :
    (tree.put p a).put p b = tree.put p b := by
  simp [put, putEntry_putEntry]

/-- Storing what is there already changes nothing. -/
theorem put_of_get? (hp : p ≠ []) (h : tree.get? p = some node) : tree.put p node = tree := by
  rw [get?_of_ne_nil hp] at h
  simp [put, putEntry_of_lookup h]

@[simp] theorem erase_put_self (tree : Tree) (p : Place) (node : Node) :
    (tree.put p node).erase p = tree.erase p := by
  simp only [put, erase, filter_putEntry_self]

theorem erase_put_of_ne (tree : Tree) (node : Node) (h : p ≠ q) :
    (tree.put p node).erase q = (tree.erase q).put p node := by
  simp only [put, erase, filter_putEntry_of_ne _ _ h]

/-- Taking away what is not there changes nothing. -/
theorem erase_of_get?_none (h : tree.get? p = none) : tree.erase p = tree := by
  have hp : p ≠ [] := @ne_nil_of_get?_ne tree p (by simp [h])
  rw [get?_of_ne_nil hp, lookup_eq_none_iff] at h
  unfold erase
  rw [List.filter_eq_self.mpr (by simpa using h)]

theorem put_comm {a b : Node} (h : p ≠ q) (hq : q ≠ []) (hq' : (tree.get? q).isSome) :
    (tree.put p a).put q b = (tree.put q b).put p a := by
  rw [get?_of_ne_nil hq] at hq'
  simp [put, putEntry_comm h hq']

/-! ## Children -/

theorem hasChildren_iff :
    tree.hasChildren p = true ↔ ∃ e ∈ tree.entries, p <+: e.1 ∧ e.1 ≠ p := by
  simp [hasChildren]

/-- Something below a place makes it have children. -/
theorem hasChildren_of_get? (hpq : p <+: q) (hne : q ≠ p) (h : (tree.get? q).isSome) :
    tree.hasChildren p = true := by
  have hq : q ≠ [] := by
    rintro rfl
    exact hne (List.prefix_nil.mp hpq).symm
  rw [get?_of_ne_nil hq] at h
  obtain ⟨n, hn⟩ := Option.isSome_iff_exists.mp h
  obtain ⟨before, after, he, -⟩ := List.lookup_eq_some_iff.mp hn
  exact hasChildren_iff.mpr ⟨(q, n), by simp [he], hpq, hne⟩

theorem mem_putEntry {entries : List (Place × Node)} {e : Place × Node}
    (h : e ∈ putEntry p node entries) : e.1 = p ∨ e ∈ entries := by
  induction entries with
  | nil =>
      left
      simp only [putEntry, List.mem_singleton] at h
      rw [h]
  | cons f rest ih =>
      unfold putEntry at h
      split at h
      · rcases List.mem_cons.mp h with h' | h'
        · left
          rename_i hf
          rw [h', ← hf]
        · exact .inr (List.mem_cons_of_mem _ h')
      · rcases List.mem_cons.mp h with h' | h'
        · exact .inr (h' ▸ List.mem_cons_self)
        · exact (ih h').imp_right (List.mem_cons_of_mem _)

/-- A new node is nobody's child but that of the places above it. -/
theorem hasChildren_put (h : ¬ (q <+: p ∧ p ≠ q)) (hq : tree.hasChildren q = false) :
    (tree.put p node).hasChildren q = false := by
  rw [← Bool.not_eq_true, hasChildren_iff]
  rintro ⟨e, he, hqe, hne⟩
  rcases mem_putEntry he with hp | he'
  · exact h ⟨hp ▸ hqe, hp ▸ hne⟩
  · have := hasChildren_iff.mpr ⟨e, he', hqe, hne⟩
    rw [hq] at this
    exact Bool.noConfusion this

/-! ## Well-formed trees -/

/-- Whatever a tree holds stands in a directory. -/
def WellFormed (tree : Tree) : Prop :=
  ∀ place node, place ≠ [] → tree.get? place = some node →
    tree.get? place.dropLast = some .directory

theorem wellFormed_empty : WellFormed empty := by
  intro place node hp h
  rw [get?_of_ne_nil hp] at h
  simp [empty] at h

/-- All places above one that is there are directories. -/
theorem WellFormed.directory_of_prefix (hw : tree.WellFormed) :
    ∀ (below : Place), below ≠ [] → (tree.get? (p ++ below)).isSome →
      tree.get? p = some .directory := by
  intro below
  -- one step outwards at a time, from the end of the place
  induction h : below.length generalizing below with
  | zero =>
      intro hb
      exact absurd (List.length_eq_zero_iff.mp h) hb
  | succ n ih =>
      intro hb hs
      obtain ⟨m, hm⟩ := Option.isSome_iff_exists.mp hs
      have hup := hw (p ++ below) m (by simp [hb]) hm
      rw [List.dropLast_append_of_ne_nil hb] at hup
      by_cases hd : below.dropLast = []
      · simpa [hd] using hup
      · exact ih below.dropLast (by simp [h]) hd (by simp [hup])

/-- Where nothing is, there is no entry. -/
theorem WellFormed.get?_concat_eq_none (hw : tree.WellFormed) (h : tree.get? p = none)
    (name : String) : tree.get? (p ++ [name]) = none := by
  refine Option.eq_none_iff_forall_ne_some.mpr fun node hnode => ?_
  have hup := hw (p ++ [name]) node (by simp) hnode
  rw [List.dropLast_concat, h] at hup
  exact nomatch hup

/-- Nothing is below a place where nothing is. -/
theorem WellFormed.hasChildren_eq_false (hw : tree.WellFormed) (h : tree.get? p = none) :
    tree.hasChildren p = false := by
  rw [← Bool.not_eq_true, hasChildren_iff]
  rintro ⟨e, he, ⟨below, hb⟩, hne⟩
  have hbelow : below ≠ [] := by
    rintro rfl
    exact hne (by simpa using hb.symm)
  have hthere : (tree.get? (p ++ below)).isSome := by
    rw [hb, get?_of_ne_nil (by rw [← hb]; simp [hbelow])]
    rw [← Option.ne_none_iff_isSome]
    intro hn
    exact lookup_eq_none_iff.mp hn e he rfl
  have := hw.directory_of_prefix below hbelow hthere
  rw [h] at this
  exact absurd this (by simp)

/-- Storing a node in a directory, but not over a directory, keeps a tree well-formed. -/
theorem WellFormed.put (hw : tree.WellFormed) (hup : tree.get? p.dropLast = some .directory)
    (h : tree.get? p ≠ some .directory) : (tree.put p node).WellFormed := by
  have hp := ne_nil_of_get?_ne h
  have hshort : p.dropLast ≠ p := by
    intro he
    have := congrArg List.length he
    have := List.length_pos_iff.mpr hp
    simp only [List.length_dropLast] at *
    omega
  intro q n hq hn
  by_cases hqp : q = p
  · rw [hqp, get?_put_of_ne hshort, hup]
  · rw [get?_put_of_ne hqp] at hn
    have hd := hw q n hq hn
    have hne : q.dropLast ≠ p := fun he => h (he ▸ hd)
    rw [get?_put_of_ne hne, hd]

/-- Taking a file away keeps a tree well-formed, since nothing stands in a file. -/
theorem WellFormed.erase {content : String} (hw : tree.WellFormed)
    (h : tree.get? p = some (.file content)) : (tree.erase p).WellFormed := by
  have hp := @ne_nil_of_get?_ne tree p (by simp [h])
  intro q n hq hn
  have hqp : q ≠ p := by
    rintro rfl
    rw [get?_erase_self hq] at hn
    exact absurd hn (by simp)
  rw [get?_erase_of_ne hqp] at hn
  have hup := hw q n hq hn
  have hne : q.dropLast ≠ p := by
    intro he
    rw [he, h] at hup
    exact absurd hup (by simp)
  rw [get?_erase_of_ne hne, hup]

/-- Taking away what is below a place takes away nothing else. -/
theorem get?_eraseBelow (hp : p ≠ []) :
    (tree.eraseBelow p).get? q = if p <+: q then none else tree.get? q := by
  by_cases hq : q = []
  · have hnot : ¬ p <+: q := fun h => hp (List.prefix_nil.mp (hq ▸ h))
    rw [if_neg hnot, hq]
    rfl
  rw [get?_of_ne_nil hq, get?_of_ne_nil hq]
  unfold eraseBelow
  induction tree.entries with
  | nil => simp
  | cons e rest ih =>
      rw [List.filter_cons]
      -- an entry below `p` goes; any other is looked up as before
      by_cases he : p <+: e.1
      · rw [if_neg (by simpa using he), ih]
        by_cases hpq : p <+: q
        · rw [if_pos hpq, if_pos hpq]
        · have hne : (q == e.1) = false := beq_eq_false_iff_ne.mpr fun h => hpq (h ▸ he)
          rw [if_neg hpq, if_neg hpq, List.lookup_cons, hne]
      · have hkept : (!p.isPrefixOf e.1) = true := by
          rw [Bool.not_eq_true', ← Bool.not_eq_true, List.isPrefixOf_iff_prefix]
          exact he
        rw [if_pos hkept, List.lookup_cons, List.lookup_cons, ih]
        by_cases hqe : q = e.1
        · simp [hqe, he]
        · have hne : (q == e.1) = false := beq_eq_false_iff_ne.mpr hqe
          rw [hne]

theorem WellFormed.eraseBelow (hw : tree.WellFormed) (hp : p ≠ []) :
    (tree.eraseBelow p).WellFormed := by
  intro q n hq hn
  rw [get?_eraseBelow hp] at hn ⊢
  split at hn
  · exact absurd hn (by simp)
  · rename_i hpq
    rw [if_neg fun h => hpq (h.trans (List.dropLast_prefix q))]
    exact hw q n hq hn

/-! ## Names for temporary files -/

theorem length_le_longestName {e : Place × Node} (h : e ∈ tree.entries) :
    (e.1.getLast?.getD "").length ≤ tree.longestName := by
  unfold longestName
  generalize tree.entries = entries at h
  induction entries with
  | nil => simp at h
  | cons f rest ih =>
      rw [List.map_cons, List.foldr_cons]
      rcases List.mem_cons.mp h with h' | h'
      · rw [h']
        exact Nat.le_max_left ..
      · exact Nat.le_trans (ih h') (Nat.le_max_right ..)

/-- Nothing is at the place of a new temporary file. -/
theorem get?_freshPlace (tree : Tree) (p : Place) : tree.get? (tree.freshPlace p) = none := by
  unfold freshPlace
  split
  · assumption
  · rw [get?_of_ne_nil (by simp), lookup_eq_none_iff]
    intro e he heq
    have hlen := length_le_longestName he
    rw [heq] at hlen
    simp only [List.getLast?_concat, Option.getD_some, String.length_append,
      String.length_ofList, List.length_replicate] at hlen
    omega

theorem freshPlace_ne_nil (tree : Tree) (p : Place) : tree.freshPlace p ≠ [] :=
  @ne_nil_of_get?_ne tree _ (by simp [get?_freshPlace])

end StubGen.Disk.Tree
