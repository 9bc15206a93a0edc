/-!
# Results of steps that may fail

A chain of steps succeeds exactly when each of its steps does. These lemmas take such a
chain apart without opening any of the steps: first for steps that only give a result,
then for steps that also change a state, which is left as it is when a step fails.
-/

namespace StubGen.Result

universe u v

section Except

variable {ε : Type u} {α β : Type v}

theorem bind_eq_ok_iff {x : Except ε α} {f : α → Except ε β} {b : β} :
    (x >>= f) = .ok b ↔ ∃ a, x = .ok a ∧ f a = .ok b := by
  cases x with
  | error e => simp [bind, Except.bind]
  | ok a => simp [bind, Except.bind]

theorem ok_bind (a : α) (f : α → Except ε β) : (Except.ok a >>= f) = f a := rfl

theorem bind_eq_error_iff {x : Except ε α} {f : α → Except ε β} {e : ε} :
    (x >>= f) = .error e ↔ x = .error e ∨ ∃ a, x = .ok a ∧ f a = .error e := by
  cases x with
  | error e => simp [bind, Except.bind]
  | ok a => simp [bind, Except.bind]

theorem map_eq_ok_iff {x : Except ε α} {f : α → β} {b : β} :
    f <$> x = .ok b ↔ ∃ a, x = .ok a ∧ f a = b := by
  cases x with
  | error e => simp [Functor.map, Except.map]
  | ok a => simp [Functor.map, Except.map]

@[simp] theorem pure_eq_ok_iff {a b : α} : (pure a : Except ε α) = .ok b ↔ a = b := by
  simp [pure, Except.pure]

@[simp] theorem throw_ne_ok {e : ε} {a : α} : (throw e : Except ε α) ≠ .ok a := by
  simp [throw, throwThe, MonadExceptOf.throw]

/-- What a closed computation gives can be decided by way of `toOption`. -/
theorem eq_ok_of_toOption {x : Except ε α} {a : α} (h : x.toOption = some a) : x = .ok a := by
  cases x with
  | error e => exact absurd h (by simp [Except.toOption])
  | ok b => exact congrArg _ (Option.some.inj h)

theorem map_eq_error_iff {x : Except ε α} {f : α → β} {e : ε} :
    f <$> x = .error e ↔ x = .error e := by
  cases x with
  | error e => simp [Functor.map, Except.map]
  | ok a => simp [Functor.map, Except.map]

theorem mapError_eq_ok_iff {ε' : Type u} {x : Except ε α} {f : ε → ε'} {a : α} :
    x.mapError f = .ok a ↔ x = .ok a := by
  cases x with
  | error e => exact ⟨fun h => (nomatch h), fun h => (nomatch h)⟩
  | ok b => exact ⟨fun h => congrArg _ (Except.ok.inj h), fun h => congrArg _ (Except.ok.inj h)⟩

variable {f : α → Except ε β} {a : α} {items : List α} {results : List β} {e : ε}

theorem mapM_nil_eq_ok_iff : [].mapM f = .ok results ↔ results = [] := by
  rw [List.mapM_nil, pure_eq_ok_iff, eq_comm]

theorem mapM_cons_eq_ok_iff :
    (a :: items).mapM f = .ok results ↔
      ∃ b rest, f a = .ok b ∧ items.mapM f = .ok rest ∧ results = b :: rest := by
  rw [List.mapM_cons, bind_eq_ok_iff]
  constructor
  · rintro ⟨b, hb, h⟩
    obtain ⟨rest, hrest, h⟩ := bind_eq_ok_iff.mp h
    exact ⟨b, rest, hb, hrest, (pure_eq_ok_iff.mp h).symm⟩
  · rintro ⟨b, rest, hb, hrest, rfl⟩
    exact ⟨b, hb, bind_eq_ok_iff.mpr ⟨rest, hrest, rfl⟩⟩

/-- Each of some items has its result among the results. -/
theorem mapM_ok_of_mem (h : items.mapM f = .ok results) (hm : a ∈ items) :
    ∃ b ∈ results, f a = .ok b := by
  induction items generalizing results with
  | nil => simp at hm
  | cons first items ih =>
      obtain ⟨b, rest, hb, hrest, rfl⟩ := mapM_cons_eq_ok_iff.mp h
      rcases List.mem_cons.mp hm with rfl | hm
      · exact ⟨b, List.mem_cons_self, hb⟩
      · obtain ⟨b', hm', hb'⟩ := ih hrest hm
        exact ⟨b', List.mem_cons_of_mem _ hm', hb'⟩

/-- Each of some results is one item's. -/
theorem exists_of_mem_mapM (h : items.mapM f = .ok results) {b : β} (hb : b ∈ results) :
    ∃ a ∈ items, f a = .ok b := by
  induction items generalizing results with
  | nil =>
      rw [mapM_nil_eq_ok_iff.mp h] at hb
      exact absurd hb List.not_mem_nil
  | cons first items ih =>
      obtain ⟨b', rest, hb', hrest, rfl⟩ := mapM_cons_eq_ok_iff.mp h
      rcases List.mem_cons.mp hb with rfl | hb
      · exact ⟨first, List.mem_cons_self, hb'⟩
      · obtain ⟨a, hm, ha⟩ := ih hrest hb
        exact ⟨a, List.mem_cons_of_mem _ hm, ha⟩

theorem mem_mapM_iff (h : items.mapM f = .ok results) {b : β} :
    b ∈ results ↔ ∃ a ∈ items, f a = .ok b := by
  refine ⟨exists_of_mem_mapM h, fun ⟨a, hm, ha⟩ => ?_⟩
  obtain ⟨b', hm', hb'⟩ := mapM_ok_of_mem h hm
  rwa [Except.ok.inj (ha.symm.trans hb')]

/-- A step that gives back each of some items gives back all of them. -/
theorem mapM_eq_self {f : α → Except ε α} (h : ∀ a ∈ items, f a = .ok a) :
    items.mapM f = .ok items := by
  induction items with
  | nil => exact mapM_nil_eq_ok_iff.mpr rfl
  | cons first items ih =>
      exact mapM_cons_eq_ok_iff.mpr ⟨first, items, h first List.mem_cons_self,
        ih fun a hm => h a (List.mem_cons_of_mem _ hm), rfl⟩

/-- Items that are read back one by one are read back together. -/
theorem mapM_map_eq_some {γ δ : Type} {read : δ → Option γ} {write : γ → δ} {items : List γ}
    (h : ∀ item ∈ items, read (write item) = some item) :
    (items.map write).mapM read = some items := by
  induction items with
  | nil => rfl
  | cons item items ih =>
      rw [List.map_cons, List.mapM_cons, h item List.mem_cons_self,
        ih fun other hm => h other (List.mem_cons_of_mem _ hm)]
      rfl

/-- Items fail together as one of them fails. -/
theorem mapM_eq_error (h : items.mapM f = .error e) : ∃ a ∈ items, f a = .error e := by
  induction items with
  | nil => exact absurd h (by simp [pure, Except.pure])
  | cons first items ih =>
      rw [List.mapM_cons] at h
      rcases bind_eq_error_iff.mp h with hf | ⟨b, -, h⟩
      · exact ⟨first, List.mem_cons_self, hf⟩
      · rcases bind_eq_error_iff.mp h with hrest | ⟨rest, -, h⟩
        · obtain ⟨a, hm, ha⟩ := ih hrest
          exact ⟨a, List.mem_cons_of_mem _ hm, ha⟩
        · exact absurd h (by simp [pure, Except.pure])

/-- What holds of whatever is made of the result of a step holds of what has been made of it. -/
theorem bind_pure_keeps {P : β → Prop} {x : Except ε α} {f : α → β} {b : β}
    (h : (x >>= fun a => pure (f a)) = .ok b) (hf : ∀ a, x = .ok a → P (f a)) : P b := by
  obtain ⟨a, ha, h⟩ := bind_eq_ok_iff.mp h
  rw [← pure_eq_ok_iff.mp h]
  exact hf a ha

/-- One of the two branches gave the result. -/
theorem of_ite {c : Prop} [Decidable c] {x y result : Except ε α}
    (h : (if c then x else y) = result) : x = result ∨ y = result := by
  by_cases hc : c
  · rw [if_pos hc] at h
    exact .inl h
  · rw [if_neg hc] at h
    exact .inr h

/-- What a step gives where there is something to take it on. -/
theorem exists_of_option_mapM {given : Option α} {result : Option β}
    (h : given.mapM f = .ok result) {b : β} (hb : b ∈ result) : ∃ a ∈ given, f a = .ok b := by
  cases given with
  | none =>
      rw [← pure_eq_ok_iff.mp h] at hb
      exact absurd hb (by simp)
  | some a =>
      obtain ⟨b', hb', rfl⟩ := map_eq_ok_iff.mp h
      rw [← Option.some.inj hb]
      exact ⟨a, rfl, hb'⟩

/-- What each step of a fold keeps, the whole fold keeps. -/
theorem foldlM_keeps {P : β → Prop} {f : β → α → Except ε β} {b b' : β}
    (hf : ∀ a ∈ items, ∀ b b', P b → f b a = .ok b' → P b') (hb : P b)
    (h : items.foldlM f b = .ok b') : P b' := by
  induction items generalizing b with
  | nil => exact pure_eq_ok_iff.mp h ▸ hb
  | cons a items ih =>
      rw [List.foldlM_cons] at h
      obtain ⟨c, hc, h⟩ := bind_eq_ok_iff.mp h
      exact ih (fun a' hm => hf a' (List.mem_cons_of_mem _ hm))
        (hf a List.mem_cons_self b c hb hc) h

/-- Each item of a fold that comes to something has been met with what the earlier ones keep. -/
theorem foldlM_meets {P : β → Prop} {f : β → α → Except ε β} {b b' : β}
    (hf : ∀ a ∈ items, ∀ b b', P b → f b a = .ok b' → P b')
    (hb : P b) (h : items.foldlM f b = .ok b') (hm : a ∈ items) :
    ∃ c c', P c ∧ f c a = .ok c' := by
  induction items generalizing b with
  | nil => exact absurd hm List.not_mem_nil
  | cons first items ih =>
      rw [List.foldlM_cons] at h
      obtain ⟨c, hc, h⟩ := bind_eq_ok_iff.mp h
      rcases List.mem_cons.mp hm with rfl | hm
      · exact ⟨b, c, hb, hc⟩
      · exact ih (fun a' hm' => hf a' (List.mem_cons_of_mem _ hm'))
          (hf first List.mem_cons_self b c hb hc) h hm

/-- Each item of a fold that comes to something has been met. -/
theorem exists_of_foldlM {f : β → α → Except ε β} {b b' : β} (h : items.foldlM f b = .ok b')
    (hm : a ∈ items) : ∃ c c', f c a = .ok c' := by
  obtain ⟨c, c', -, hstep⟩ :=
    foldlM_meets (P := fun _ => True) (fun _ _ _ _ _ _ => trivial) trivial h hm
  exact ⟨c, c', hstep⟩

end Except

section State

variable {σ ε α β : Type}

/-- Steps that change a state and may fail. -/
abbrev Steps (σ ε α : Type) := ExceptT ε (StateM σ) α

/-- Whether a closed run comes to something can be decided by way of `toBool`. -/
theorem run_of_toBool {run : Except ε α × σ} (h : run.1.toBool = true) :
    ∃ a after, run = (.ok a, after) := by
  obtain ⟨e | a, after⟩ := run
  · exact Bool.noConfusion h
  · exact ⟨a, after, rfl⟩

theorem run_get (s : σ) : (get : Steps σ ε σ) s = (.ok s, s) := rfl

theorem run_set (s after : σ) : (set after : Steps σ ε PUnit) s = (.ok (), after) := rfl

theorem run_bind (x : Steps σ ε α) (f : α → Steps σ ε β) (s : σ) :
    (x >>= f) s =
      match x s with
      | (.ok a, after) => f a after
      | (.error e, after) => (.error e, after) := by
  simp only [bind, ExceptT.bind, ExceptT.mk, StateT.bind]
  cases hx : x s with
  | mk result after => cases result <;> rfl

/-- Two steps that come to something are two that each do. -/
theorem run_bind_eq_ok {x : Steps σ ε α} {f : α → Steps σ ε β} {s after : σ} {b : β}
    (h : (x >>= f) s = (.ok b, after)) :
    ∃ a between, x s = (.ok a, between) ∧ f a between = (.ok b, after) := by
  rw [run_bind] at h
  split at h
  · exact ⟨_, _, ‹_›, h⟩
  · exact absurd (Prod.mk.inj h).1 (by simp)

/-- To look at the state and go on is to go on from the state. -/
theorem run_get_bind (f : σ → Steps σ ε α) (s : σ) :
    ((get : Steps σ ε σ) >>= f) s = f s s := by
  rw [run_bind, run_get]

/-- A step that only gives a result changes nothing. -/
theorem run_pure_eq_ok {a b : α} {s after : σ}
    (h : (pure a : Steps σ ε α) s = (.ok b, after)) : a = b ∧ s = after :=
  ⟨Except.ok.inj (Prod.mk.inj h).1, (Prod.mk.inj h).2⟩

/-- What each of some steps keeps where it comes to something, all of them keep. -/
theorem forM_keeps {P : σ → Prop} {step : α → Steps σ ε PUnit} {items : List α}
    (hstep : ∀ a ∈ items, ∀ s after, P s → step a s = (.ok (), after) → P after)
    {s after : σ} (hs : P s) (h : items.forM step s = (.ok (), after)) : P after := by
  induction items generalizing s with
  | nil => exact (Prod.mk.inj h).2 ▸ hs
  | cons first items ih =>
      obtain ⟨_, between, hfirst, hrest⟩ := run_bind_eq_ok h
      exact ih (fun a hm => hstep a (List.mem_cons_of_mem _ hm))
        (hstep first List.mem_cons_self s between hs hfirst) hrest

/-- Steps that come to something together have each come to something. -/
theorem forM_ok_of_mem {step : α → Steps σ ε PUnit} {items : List α} {s after : σ} {a : α}
    (h : items.forM step s = (.ok (), after)) (hm : a ∈ items) :
    ∃ between next, step a between = (.ok (), next) := by
  induction items generalizing s with
  | nil => exact absurd hm List.not_mem_nil
  | cons first items ih =>
      obtain ⟨_, between, hfirst, hrest⟩ := run_bind_eq_ok h
      rcases List.mem_cons.mp hm with rfl | hm
      · exact ⟨s, between, hfirst⟩
      · exact ih hrest hm

/-- What two steps keep, each however it ends, both together keep. -/
theorem bind_leaves {P : σ → Prop} {x : Steps σ ε α} {f : α → Steps σ ε β} {s : σ}
    (hx : P (x s).2) (hf : ∀ a after, P after → P (f a after).2) : P ((x >>= f) s).2 := by
  rw [run_bind]
  split <;> rename_i hrun <;> rw [hrun] at hx
  · exact hf _ _ hx
  · exact hx

theorem forM_leaves {P : σ → Prop} {step : α → Steps σ ε PUnit} {items : List α}
    (hstep : ∀ a ∈ items, ∀ s, P s → P (step a s).2) {s : σ} (hs : P s) :
    P (items.forM step s).2 := by
  induction items generalizing s with
  | nil => exact hs
  | cons first items ih =>
      exact bind_leaves (hstep first List.mem_cons_self s hs) fun _ _ hbetween =>
        ih (fun a hm => hstep a (List.mem_cons_of_mem _ hm)) hbetween

theorem mapM_leaves {P : σ → Prop} {step : α → Steps σ ε β} {items : List α}
    (hstep : ∀ a ∈ items, ∀ s, P s → P (step a s).2) {s : σ} (hs : P s) :
    P (items.mapM step s).2 := by
  induction items generalizing s with
  | nil => exact hs
  | cons first items ih =>
      rw [List.mapM_cons]
      exact bind_leaves (hstep first List.mem_cons_self s hs) fun b between hbetween =>
        bind_leaves (ih (fun a hm => hstep a (List.mem_cons_of_mem _ hm)) hbetween)
          fun bs after hafter => hafter

/-- Steps that come to something one after another, each with an effect that the others keep, come
to something together, with all effects. -/
theorem mapM_achieves (P : σ → Prop) (Done : α → σ → Prop) {step : α → Steps σ ε β}
    {items : List α}
    (hstep : ∀ a ∈ items, ∀ s, P s → ∃ b after, step a s = (.ok b, after) ∧ P after ∧
      Done a after ∧ ∀ other, Done other s → Done other after) {s : σ} (hs : P s) :
    ∃ bs after, items.mapM step s = (.ok bs, after) ∧ P after ∧
      (∀ a ∈ items, Done a after) ∧ ∀ other, Done other s → Done other after := by
  induction items generalizing s with
  | nil => exact ⟨[], s, rfl, hs, nofun, fun _ h => h⟩
  | cons first items ih =>
      obtain ⟨b, between, hfirst, hbetween, hdone, hkept⟩ := hstep first List.mem_cons_self s hs
      obtain ⟨bs, after, hrest, hafter, hall, hkept'⟩ :=
        ih (fun a hm => hstep a (List.mem_cons_of_mem _ hm)) hbetween
      refine ⟨b :: bs, after, ?_, hafter, fun a hm => ?_, fun other h => hkept' _ (hkept _ h)⟩
      · rw [List.mapM_cons, run_bind, hfirst]
        dsimp only
        rw [run_bind, hrest]
        rfl
      · rcases List.mem_cons.mp hm with rfl | hm
        · exact hkept' _ hdone
        · exact hall a hm

theorem run_tryCatch (x : Steps σ ε α) (handle : ε → Steps σ ε α) (s : σ) :
    (tryCatch x handle : Steps σ ε α) s =
      match x s with
      | (.ok a, after) => (.ok a, after)
      | (.error e, after) => handle e after := by
  simp only [tryCatch, tryCatchThe, MonadExceptOf.tryCatch, ExceptT.tryCatch, ExceptT.mk, bind,
    StateT.bind]
  cases hx : x s with
  | mk result after => cases result <;> rfl

end State

end StubGen.Result
