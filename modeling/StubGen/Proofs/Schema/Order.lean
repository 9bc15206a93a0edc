import Mathlib.Logic.Relation
import StubGen.Proofs.Schema.Closed

/-!
# The order of declarations

A reference in quotes may point forwards, but an alias of a declared name needs that name at
once. A name is declared when all that its declaration refers to is done, so the target of an
alias is there before the alias unless the alias is met while the target itself is being
worked on. In that case the target leads back to the alias: it refers to a name whose
declaration refers to a name, and so on, until the alias is named. So what one step adds is
led to by what the step gives, and each alias in it finds its target, or closes such a circle,
or waits for a name that was open when the step began: `Ordered`. When the root has been
declared nothing is open any more, which is the main result, `generate_inOrder`.
-/

namespace StubGen.Schema

open Result

variable {α β γ : Type} {root : String} {due : List String}

/-! ## What leads to what -/

/-- An expression reads as a reference to a name. Of types with the same text a union keeps the
first one, so it is the text that tells what is referred to. -/
def TypeExpr.Mentions (expr : TypeExpr) (name : String) : Prop :=
  ∃ other : TypeExpr, other.render = expr.render ∧ name ∈ other.references

/-- A declaration reads as one that refers to a name, in quotes or not. -/
def Declaration.Mentions : Declaration → String → Prop
  | .record _ _ fields, name => ∃ field ∈ fields, field.type.Mentions name
  | .alias _ type, name => type.Mentions name

/-- The name that an alias needs at once: the declared name that it stands for. -/
def Declaration.target? : Declaration → Option String
  | .alias _ (.ref target) => some target
  | _ => none

/-- One name leads to another: by declarations that each mention the next name. -/
def Leads (blocks : List Declaration) : String → String → Prop :=
  Relation.ReflTransGen fun name next => ∃ d ∈ blocks, d.name = name ∧ d.Mentions next

theorem Leads.mono {blocks more : List Declaration} {name next : String}
    (h : Leads blocks name next) (hsub : blocks ⊆ more) : Leads more name next :=
  Relation.ReflTransGen.mono (fun _ _ ⟨d, hm, hd⟩ => ⟨d, hsub hm, hd⟩) _ _ h

/-- A declaration leads to what is led to by a name that it mentions. -/
theorem Leads.head {blocks : List Declaration} {d : Declaration} {next last : String}
    (hm : d ∈ blocks) (hd : d.Mentions next) (h : Leads blocks next last) :
    Leads blocks d.name last :=
  Relation.ReflTransGen.head ⟨d, hm, rfl, hd⟩ h

namespace TypeExpr

theorem mentions_of_mem {expr : TypeExpr} {name : String} (h : name ∈ expr.references) :
    expr.Mentions name :=
  ⟨expr, rfl, h⟩

theorem mentions_ref (name : String) : (ref name).Mentions name :=
  mentions_of_mem (by simp [references])

theorem Mentions.list {item : TypeExpr} {name : String} (h : item.Mentions name) :
    (TypeExpr.list item).Mentions name := by
  obtain ⟨other, htext, hm⟩ := h
  exact ⟨.list other, by simp only [render, htext], by simpa only [references] using hm⟩

theorem Mentions.dict {value : TypeExpr} {name : String} (h : value.Mentions name) :
    (TypeExpr.dict value).Mentions name := by
  obtain ⟨other, htext, hm⟩ := h
  exact ⟨.dict other, by simp only [render, htext], by simpa only [references] using hm⟩

theorem renderAll_eq_map (exprs : List TypeExpr) : renderAll exprs = exprs.map render := by
  induction exprs with
  | nil => rfl
  | cons expr exprs ih => rw [renderAll, ih, List.map_cons]

/-- A member of a list can be read as another expression of the same text. -/
theorem exists_of_mentions_mem {exprs : List TypeExpr} {expr : TypeExpr} {name : String}
    (hm : expr ∈ exprs) (h : expr.Mentions name) :
    ∃ others, renderAll others = renderAll exprs ∧ name ∈ referencesAll others := by
  obtain ⟨other, htext, hname⟩ := h
  obtain ⟨before, behind, rfl⟩ := List.append_of_mem hm
  refine ⟨before ++ other :: behind, ?_, ?_⟩
  · simp only [renderAll_eq_map, List.map_append, List.map_cons, htext]
  · rw [referencesAll_eq_flatMap]
    exact List.mem_flatMap.mpr ⟨other, by simp, hname⟩

theorem mentions_tuple {exprs : List TypeExpr} {expr : TypeExpr} {name : String}
    (hm : expr ∈ exprs) (h : expr.Mentions name) : (tuple exprs).Mentions name := by
  obtain ⟨others, htext, hname⟩ := exists_of_mentions_mem hm h
  exact ⟨.tuple others, by simp only [render, htext], by simpa only [references] using hname⟩

theorem mentions_union {exprs : List TypeExpr} {expr : TypeExpr} {name : String}
    (hm : expr ∈ exprs) (h : expr.Mentions name) : (union exprs).Mentions name := by
  obtain ⟨others, htext, hname⟩ := exists_of_mentions_mem hm h
  exact ⟨.union others, by simp only [render, htext], by simpa only [references] using hname⟩

theorem Mentions.of_render {expr other : TypeExpr} {name : String} (h : expr.Mentions name)
    (htext : expr.render = other.render) : other.Mentions name := by
  obtain ⟨third, hthird, hname⟩ := h
  exact ⟨third, hthird.trans htext, hname⟩

/-- Each text among some expressions is still there when the repeated ones are gone. -/
theorem exists_distinct {exprs : List TypeExpr} {expr : TypeExpr} (hm : expr ∈ exprs) :
    ∃ kept ∈ distinct exprs, kept.render = expr.render := by
  induction exprs with
  | nil => exact absurd hm List.not_mem_nil
  | cons first exprs ih =>
      rcases List.mem_cons.mp hm with rfl | hm
      · exact ⟨_, List.mem_cons_self, rfl⟩
      · obtain ⟨kept, hkept, htext⟩ := ih hm
        by_cases heq : kept.render = first.render
        · exact ⟨first, List.mem_cons_self, heq.symm.trans htext⟩
        · exact ⟨kept, List.mem_cons_of_mem _ (List.mem_filter.mpr ⟨hkept, by simpa using heq⟩),
            htext⟩

/-- A union mentions what its members mention. -/
theorem mentions_oneOf {exprs : List TypeExpr} {expr : TypeExpr} {name : String}
    (hm : expr ∈ exprs) (h : expr.Mentions name) : (oneOf exprs).Mentions name := by
  obtain ⟨kept, hkept, htext⟩ := exists_distinct hm
  have hkeptName : kept.Mentions name := h.of_render htext.symm
  unfold oneOf
  split
  · rename_i heq
    exact absurd (heq ▸ hkept) List.not_mem_nil
  · rename_i single heq
    rw [heq] at hkept
    rwa [← List.mem_singleton.mp hkept]
  · exact mentions_union hkept hkeptName

end TypeExpr

/-! ## Aliases in order -/

/-- Each alias among some blocks finds its target among the names declared before it, unless
there is an excuse. -/
def InOrder (excuse : String → Declaration → Prop) : List String → List Declaration → Prop
  | _, [] => True
  | declared, d :: blocks =>
    (∀ target, d.target? = some target → target ∈ declared ∨ excuse target d) ∧
      InOrder excuse (declared ++ [d.name]) blocks

variable {excuse excuse' : String → Declaration → Prop}

theorem inOrder_append {declared : List String} {blocks more : List Declaration} :
    InOrder excuse declared (blocks ++ more) ↔
      InOrder excuse declared blocks ∧
        InOrder excuse (declared ++ blocks.map Declaration.name) more := by
  induction blocks generalizing declared with
  | nil => simp [InOrder]
  | cons d blocks ih => simp [InOrder, ih, and_assoc]

/-- Other excuses do as well if they cover the blocks at hand. -/
theorem InOrder.mono {declared : List String} {blocks : List Declaration}
    (h : InOrder excuse declared blocks)
    (hexcuse : ∀ d ∈ blocks, ∀ target, excuse target d → excuse' target d) :
    InOrder excuse' declared blocks := by
  induction blocks generalizing declared with
  | nil => trivial
  | cons d blocks ih =>
      refine ⟨fun target ht => (h.1 target ht).imp_right (hexcuse d List.mem_cons_self target), ?_⟩
      exact ih h.2 fun other hm => hexcuse other (List.mem_cons_of_mem _ hm)

/-- What has been declared before an alias of a list. -/
theorem InOrder.at {declared : List String} {blocks before behind : List Declaration}
    {d : Declaration} {target : String} (h : InOrder excuse declared blocks)
    (hsplit : blocks = before ++ d :: behind) (ht : d.target? = some target) :
    target ∈ declared ++ before.map Declaration.name ∨ excuse target d := by
  subst hsplit
  exact (inOrder_append.mp h).2.1 target ht

/-! ## Steps that add in order -/

/-- What a step adds: each block is led to by one of the `given` names, and each alias finds its
target, or is led to by it, or waits for a name that is open. -/
structure Adds (open_ : List String) (given : String → Prop) (declared : List String)
    (new : List Declaration) : Prop where
  led : ∀ d ∈ new, ∃ name, given name ∧ Leads new name d.name
  inOrder : InOrder (fun target d => target ∈ open_ ∨ Leads new target d.name) declared new

theorem Adds.nil {open_ : List String} {given : String → Prop} {declared : List String} :
    Adds open_ given declared [] :=
  ⟨fun _ hm => absurd hm List.not_mem_nil, trivial⟩

theorem Adds.imp {open_ declared : List String} {given given' : String → Prop}
    {new : List Declaration} (h : Adds open_ given declared new)
    (hg : ∀ name, given name → given' name) : Adds open_ given' declared new where
  led d hm := (h.led d hm).imp fun name hn => ⟨hg name hn.1, hn.2⟩
  inOrder := h.inOrder

/-- What two steps add, one after the other. -/
theorem Adds.append {open_ declared : List String} {given : String → Prop}
    {new more : List Declaration} (h : Adds open_ given declared new)
    (hmore : Adds open_ given (declared ++ new.map Declaration.name) more) :
    Adds open_ given declared (new ++ more) where
  led d hm := by
    rcases List.mem_append.mp hm with hm | hm
    · obtain ⟨name, hg, hl⟩ := h.led d hm
      exact ⟨name, hg, hl.mono (List.subset_append_left _ _)⟩
    · obtain ⟨name, hg, hl⟩ := hmore.led d hm
      exact ⟨name, hg, hl.mono (List.subset_append_right _ _)⟩
  inOrder := by
    refine inOrder_append.mpr ⟨h.inOrder.mono ?_, hmore.inOrder.mono ?_⟩
    · exact fun d _ target => Or.imp_right fun hl => hl.mono (List.subset_append_left _ _)
    · exact fun d _ target => Or.imp_right fun hl => hl.mono (List.subset_append_right _ _)

/-- **A declaration closes the circles through its name.** What was added while its name was open
is led to by it, for it mentions what was given. -/
theorem Adds.snoc {open_ declared : List String} {given : String → Prop}
    {new : List Declaration} {d : Declaration} (h : Adds (d.name :: open_) given declared new)
    (hg : ∀ name, given name → d.Mentions name)
    (ht : ∀ target, d.target? = some target →
      target ∈ declared ++ new.map Declaration.name ∨ target = d.name ∨ target ∈ open_) :
    Adds open_ (· = d.name) declared (new ++ [d]) := by
  have hd : d ∈ new ++ [d] := List.mem_append_right _ List.mem_cons_self
  have hled : ∀ other ∈ new, Leads (new ++ [d]) d.name other.name := by
    intro other hm
    obtain ⟨name, hn, hl⟩ := h.led other hm
    exact Leads.head hd (hg name hn) (hl.mono (List.subset_append_left _ _))
  refine ⟨fun other hm => ⟨d.name, rfl, ?_⟩, inOrder_append.mpr ⟨?_, ?_, trivial⟩⟩
  · rcases List.mem_append.mp hm with hm | hm
    · exact hled other hm
    · rw [List.mem_singleton.mp hm]
      exact .refl
  · refine h.inOrder.mono fun other hm target => ?_
    rintro (hopen | hl)
    · -- a circle through the name that was open is closed by its declaration
      rcases List.mem_cons.mp hopen with rfl | hopen
      · exact .inr (hled other hm)
      · exact .inl hopen
    · exact .inr (hl.mono (List.subset_append_left _ _))
  · intro target htarget
    rcases ht target htarget with hdeclared | rfl | hopen
    · exact .inl hdeclared
    · exact .inr (.inr .refl)
    · exact .inr (.inl hopen)

/-- Steps that add their declarations in order. They declare the names that are `due`, and what
they add is led to by those and by the names that are `given` with their result. -/
structure Ordered (root : String) (due : List String) (given : α → String → Prop)
    (step : Declaring α) : Prop where
  run : ∀ {open_ scope a after}, Accounted root (due ++ open_) scope →
    step scope = .ok (a, after) →
    ∃ new, after.declarations = scope.declarations ++ new ∧
      Adds open_ (fun name => name ∈ due ∨ given a name)
        (scope.declarations.map Declaration.name) new

/-- Typing whatever schema under whatever name is sound, and adds in order what is led to by the
type. -/
structure OrderedTypes (root : String) (typeOf : TypeOf) : Prop where
  sound : SoundTypes root typeOf
  ordered : ∀ schema hint, Ordered root [] TypeExpr.Mentions (typeOf schema hint)

variable {given : α → String → Prop}

theorem ordered_pure (a : α) : Ordered root due given (pure a) := by
  refine ⟨fun {open_ scope b after} _ hrun => ⟨[], ?_, .nil⟩⟩
  obtain ⟨-, rfl⟩ := Prod.mk.inj (Except.ok.inj hrun)
  exact (List.append_nil _).symm

theorem ordered_throw (e : SchemaError) : Ordered root due given (throw e) :=
  ⟨fun _ hrun => nomatch hrun⟩

theorem ordered_lift_bind {x : Except SchemaError γ} {f : γ → Declaring α}
    (hf : ∀ c, Ordered root due given (f c)) :
    Ordered root due given ((x : Declaring γ) >>= f) := by
  refine ⟨fun hacc hrun => ?_⟩
  obtain ⟨c, between, hx, hf'⟩ := run_bind_eq_ok hrun
  obtain ⟨_, -, hx⟩ := bind_eq_ok_iff.mp hx
  obtain ⟨rfl, rfl⟩ := Prod.mk.inj (Except.ok.inj hx)
  exact (hf _).run hacc hf'

/-- The result is made into something that gives all that it gives. -/
theorem Ordered.map {given' : β → String → Prop} {f : α → β} {x : Declaring α}
    (h : Ordered root due given x) (hf : ∀ a name, given a name → given' (f a) name) :
    Ordered root due given' (f <$> x) := by
  refine ⟨fun hacc hrun => ?_⟩
  obtain ⟨a, between, hx, hf'⟩ := run_bind_eq_ok (f := fun a => pure (f a)) hrun
  obtain ⟨rfl, rfl⟩ := Prod.mk.inj (Except.ok.inj hf')
  obtain ⟨new, hnew, hadds⟩ := h.run hacc hx
  exact ⟨new, hnew, hadds.imp fun name => Or.imp_right (hf a name)⟩

theorem Ordered.mapM {names : α → List String} {f : γ → Declaring α} {items : List γ}
    (hsound : ∀ item ∈ items, Sound root [] [] names (f item))
    (h : ∀ item ∈ items, Ordered root [] given (f item)) :
    Ordered root [] (fun results name => ∃ a ∈ results, given a name) (items.mapM f) := by
  induction items with
  | nil => exact ordered_pure _
  | cons item items ih =>
      refine ⟨fun {open_ scope results after} hacc hrun => ?_⟩
      rw [List.mapM_cons] at hrun
      obtain ⟨a, between, hfirst, hrun⟩ := run_bind_eq_ok hrun
      obtain ⟨rest, last, hrest, hrun⟩ := run_bind_eq_ok hrun
      obtain ⟨rfl, rfl⟩ := Prod.mk.inj (Except.ok.inj hrun)
      have hacc' := ((hsound item List.mem_cons_self).run hacc (List.nil_subset _) hfirst).1
      obtain ⟨new, hnew, hadds⟩ := (h item List.mem_cons_self).run hacc hfirst
      have hrestOrdered := ih (fun other hm => hsound other (List.mem_cons_of_mem _ hm))
        fun other hm => h other (List.mem_cons_of_mem _ hm)
      obtain ⟨more, hmore, haddsMore⟩ := hrestOrdered.run hacc' hrest
      -- what the first item has added is declared when the others are typed
      refine ⟨new ++ more, by rw [hmore, hnew, List.append_assoc], Adds.append ?_ ?_⟩
      · exact hadds.imp fun name => Or.imp_right fun hg => ⟨a, List.mem_cons_self, hg⟩
      · rw [hnew, List.map_append] at haddsMore
        exact haddsMore.imp fun name => Or.imp_right fun ⟨b, hm, hg⟩ =>
          ⟨b, List.mem_cons_of_mem _ hm, hg⟩

/-- A declaration follows on what it is made of. -/
theorem Ordered.emit {names : α → List String} {name : String} {x : Declaring α}
    {f : α → Declaration} (hsound : Sound root [] [] names x) (h : Ordered root [] given x)
    (hname : ∀ a, (f a).name = name) (hgiven : ∀ a n, given a n → (f a).Mentions n)
    (htarget : ∀ a target, (f a).target? = some target → target ∈ names a) :
    Ordered root [name] (fun (_ : Unit) _ => False) (x >>= fun a => emit (f a)) := by
  refine ⟨fun {open_ scope u after} hacc hrun => ?_⟩
  obtain ⟨a, between, hx, hrun⟩ := run_bind_eq_ok hrun
  obtain ⟨-, rfl⟩ := Prod.mk.inj (Except.ok.inj hrun)
  obtain ⟨hacc', -, hnames⟩ := hsound.run hacc (List.nil_subset _) hx
  obtain ⟨new, hnew, hadds⟩ := h.run hacc hx
  obtain rfl := hname a
  refine ⟨new ++ [f a], by simp [hnew], ?_⟩
  refine (Adds.snoc (d := f a) (hadds.imp fun n hn => ?_) (hgiven a) fun target ht => ?_).imp
    fun n hn => .inl (List.mem_singleton.mpr hn)
  · simpa using hn
  · -- the target is taken, so it is declared or open
    have hmem := hacc'.balance.subset (hnames (htarget a target ht))
    rw [hnew] at hmem
    simpa [or_comm, or_assoc, or_left_comm] using hmem

/-- A name is claimed, declared, and given. -/
theorem ordered_claim_bind {hint : String} {f : String → Declaring Unit}
    (hf : ∀ name, Ordered root [name] (fun _ _ => False) (f name)) :
    Ordered root [] TypeExpr.Mentions (do
      let name ← claim hint
      f name
      return .ref name) := by
  refine ⟨fun {open_ scope type after} hacc hrun => ?_⟩
  obtain ⟨name, claimed, hc, hrun⟩ := run_bind_eq_ok hrun
  obtain ⟨rfl, rfl⟩ := Prod.mk.inj (Except.ok.inj hc)
  obtain ⟨_, last, hdeclare, hrun⟩ := run_bind_eq_ok hrun
  obtain ⟨rfl, rfl⟩ := Prod.mk.inj (Except.ok.inj hrun)
  have hclaimed := hacc.claim (freshName_not_mem scope.taken hint)
  obtain ⟨new, hnew, hadds⟩ := (hf _).run hclaimed hdeclare
  refine ⟨new, hnew, hadds.imp fun n hn => .inr ?_⟩
  obtain rfl : n = freshName scope.taken hint := by simpa using hn
  exact TypeExpr.mentions_ref _

theorem ordered_bindPointer_bind {reference name : String} {x : Declaring α}
    (hx : Ordered root (name :: due) given x) :
    Ordered root (name :: due) given (bindPointer reference name >>= fun _ => x) := by
  refine ⟨fun {open_ scope a after} hacc hrun => ?_⟩
  obtain ⟨_, between, hb, hrun⟩ := run_bind_eq_ok hrun
  obtain ⟨-, rfl⟩ := Prod.mk.inj (Except.ok.inj hb)
  have hname : name ∈ scope.taken := hacc.balance.symm.subset (by simp)
  -- a pointer is no declaration
  have hbound := @Accounted.bindPointer root _ _ reference _ hacc hname
  obtain ⟨new, hnew, hadds⟩ := hx.run hbound hrun
  exact ⟨new, hnew, hadds⟩

/-! ## The steps of typing a schema -/

section

variable {typeOf fieldType : TypeOf} {document : Document}

theorem ordered_declareRecord (h : OrderedTypes root fieldType) (name : String)
    (members properties : Members) :
    Ordered root [name] (fun _ _ => False) (declareRecord fieldType name members properties) := by
  let fieldFor (property : String × Json) : Declaring Field := do
    let type ← fieldType property.2 (nestedName name property.1)
    return fieldOf (requiredNames members) property.1 property.2 type
  have hfieldSound : ∀ property ∈ properties,
      Sound root [] [] (fun field => field.type.references) (fieldFor property) :=
    fun property _ => (h.sound property.2 (nestedName name property.1)).map fun _ _ hm => hm
  have hfield : ∀ property ∈ properties,
      Ordered root [] (fun field => field.type.Mentions) (fieldFor property) :=
    fun property _ => (h.ordered property.2 (nestedName name property.1)).map fun _ _ hm => hm
  exact Ordered.emit (f := fun fields => .record name (description? (.obj members)) fields)
    (.mapM hfieldSound) (.mapM hfieldSound hfield) (fun _ => rfl) (fun _ _ hg => hg)
    (fun _ _ ht => nomatch ht)

theorem ordered_declareAs (h : OrderedTypes root typeOf) (hf : OrderedTypes root fieldType)
    (document : Json) (name : String) (schema : Json) :
    Ordered root [name] (fun _ _ => False)
      (declareAs document typeOf fieldType name schema) := by
  refine ordered_lift_bind fun flat => ?_
  split
  · exact ordered_declareRecord hf name _ _
  · refine Ordered.emit (f := fun type => .alias name type) (h.sound flat name)
      (h.ordered flat name) (fun _ => rfl) (fun _ _ hg => hg) fun type target ht => ?_
    cases type <;> simp_all [Declaration.target?, TypeExpr.references]

theorem ordered_arrayType (h : OrderedTypes root typeOf) (members : Members) (hint : String) :
    Ordered root [] TypeExpr.Mentions (arrayType typeOf members hint) := by
  unfold arrayType
  split
  · exact (Ordered.mapM (fun item _ => h.sound item.1 _) fun item _ => h.ordered item.1 _).map
      fun _ _ ⟨_, hm, hg⟩ => TypeExpr.mentions_tuple hm hg
  · exact (h.ordered _ _).map fun _ _ hg => hg.list
  · exact ordered_pure _

theorem ordered_objectType (h : OrderedTypes root typeOf) (hf : OrderedTypes root fieldType)
    (members : Members) (hint : String) :
    Ordered root [] TypeExpr.Mentions (objectType typeOf fieldType members hint) := by
  unfold objectType
  split
  · exact ordered_claim_bind fun name => ordered_declareRecord hf name members _
  · split
    · exact (h.ordered _ _).map fun _ _ hg => hg.dict
    · exact ordered_pure _

/-- What is declared for a new pointer is led to by the name that the pointer stands for. -/
theorem ordered_newPointer (h : OrderedTypes root typeOf) (hf : OrderedTypes root fieldType)
    (reference : String) :
    Ordered root [] TypeExpr.Mentions (do
      let key ← (requireKey reference : Except SchemaError String)
      let schema ← (lookup document.schema reference key : Except SchemaError Json)
      let name ← claim (definitionName key)
      bindPointer reference name
      declareAs document.schema typeOf fieldType name schema
      return .ref name) := by
  refine ordered_lift_bind fun key => ordered_lift_bind fun schema => ?_
  have hdeclare (name : String) : Ordered root [name] (fun _ _ => False) (do
      bindPointer reference name
      declareAs document.schema typeOf fieldType name schema) :=
    ordered_bindPointer_bind (ordered_declareAs h hf document.schema name schema)
  simpa only [bind_assoc] using @ordered_claim_bind root (definitionName key) _ hdeclare

/-- A known pointer adds nothing, be its target declared or open. -/
theorem ordered_pointerType (h : OrderedTypes root typeOf) (hf : OrderedTypes root fieldType)
    (reference : String) :
    Ordered root [] TypeExpr.Mentions (pointerType document typeOf fieldType reference) := by
  unfold pointerType
  split
  · exact ordered_pure _
  · refine ⟨fun {open_ scope type after} hacc hrun => ?_⟩
    obtain ⟨_, between, hget, hrun⟩ := run_bind_eq_ok hrun
    obtain ⟨rfl, rfl⟩ := Prod.mk.inj (Except.ok.inj hget)
    cases hlookup : scope.pointers.lookup reference with
    | some name =>
        rw [hlookup] at hrun
        exact (ordered_pure (TypeExpr.ref name)).run hacc hrun
    | none =>
        rw [hlookup] at hrun
        exact (ordered_newPointer h hf reference).run hacc hrun

theorem ordered_oneOf {f : γ → Declaring TypeExpr} {items : List γ}
    (hsound : ∀ item ∈ items, Sound root [] [] TypeExpr.references (f item))
    (h : ∀ item ∈ items, Ordered root [] TypeExpr.Mentions (f item)) :
    Ordered root [] TypeExpr.Mentions (TypeExpr.oneOf <$> items.mapM f) :=
  (Ordered.mapM hsound h).map fun _ _ ⟨_, hm, hg⟩ => TypeExpr.mentions_oneOf hm hg

theorem ordered_typedSchema (h : OrderedTypes root typeOf) (hf : OrderedTypes root fieldType)
    (members : Members) (hint : String) :
    Ordered root [] TypeExpr.Mentions (typedSchema typeOf fieldType members hint) := by
  unfold typedSchema
  split
  · exact ordered_oneOf (fun type _ => h.sound (.obj (members.insert "type" type)) hint)
      fun type _ => h.ordered (.obj (members.insert "type" type)) hint
  · split
    case h_6 => exact ordered_arrayType h members hint
    case h_7 => exact ordered_objectType h hf members hint
    all_goals exact ordered_pure _
  · split
    · exact ordered_objectType h hf members hint
    · split
      · exact ordered_arrayType h members hint
      · exact ordered_pure _

theorem ordered_schemaType (h : OrderedTypes root typeOf) (hf : OrderedTypes root fieldType)
    (schema : Json) (hint : String) :
    Ordered root [] TypeExpr.Mentions (schemaType document typeOf fieldType schema hint) := by
  have hunion (schemas : List Json) : Ordered root [] TypeExpr.Mentions
      (TypeExpr.oneOf <$> memberTypes typeOf schemas hint) :=
    ordered_oneOf (fun schema _ => h.sound schema.1 _) fun schema _ => h.ordered schema.1 _
  unfold schemaType
  split
  · exact ordered_pure _
  · rename_i members _
    split
    · exact ordered_pointerType h hf _
    · split
      · exact ordered_pure _
      · exact ordered_pure _
      · exact hunion _
      · exact hunion _
      · exact h.ordered _ hint
      · exact ordered_lift_bind fun merged => h.ordered merged hint
      · exact ordered_typedSchema h hf members hint

theorem orderedTypes_throw (e : SchemaError) : OrderedTypes root fun _ _ => throw e :=
  ⟨fun _ _ => sound_throw e, fun _ _ => ordered_throw e⟩

/-- Typing a schema adds in order at every depth. -/
theorem ordered_typeAt (document : Document) :
    ∀ room depth, OrderedTypes document.root (typeAt document room depth)
  | 0, _ => orderedTypes_throw _
  | 1, _ => ⟨sound_typeAt document 1 _, fun schema hint =>
    ordered_schemaType (orderedTypes_throw _) (orderedTypes_throw _) schema hint⟩
  | room + 2, depth => ⟨sound_typeAt document (room + 2) depth, fun schema hint =>
    ordered_schemaType (ordered_typeAt document (room + 1) (depth + 1))
      (ordered_typeAt document room (depth + 2)) schema hint⟩

end

/-! ## Whole documents -/

/-- When the root has been declared, each alias has found its target or closes a circle. -/
theorem inOrder_declarations {document : Document} {blocks : List Declaration}
    (h : declarations document = .ok blocks) :
    InOrder (fun target d => Leads blocks target d.name) [] blocks := by
  obtain ⟨schema, pointer?, after, -, hrun, rfl⟩ := exists_of_declarations h
  have hordered := ordered_declareAs (ordered_typeAt document (document.maxDepth + 1) 0)
    (ordered_typeAt document document.maxDepth 1) document.schema document.root schema
  have hstart : Accounted document.root ([document.root] ++ []) _ :=
    accounted_start document.root pointer?
  obtain ⟨new, hnew, hadds⟩ := hordered.run hstart hrun
  obtain rfl : after.declarations = new := hnew
  exact hadds.inOrder.mono fun d _ target => fun
    | .inl hopen => absurd hopen List.not_mem_nil
    | .inr hl => hl

/-- **Only an alias on a circle can stand before its target.** The blocks of a generated module
are in an order in which each alias of a declared name comes behind the block that declares that
name, and is another block than that, unless the name leads back to the alias: its block mentions
a name whose block mentions a name, and so on, and the last one is the name of the alias. -/
theorem generate_inOrder {maxDepth : Nat} {schema : Json} {root source : String}
    (h : generate maxDepth schema root = .ok source) :
    ∃ blocks, declarations ⟨schema, root, maxDepth⟩ = .ok blocks ∧
      source = Declaration.renderModule blocks ∧
      ∀ before d behind target, blocks = before ++ d :: behind → d.target? = some target →
        (target ∈ before.map Declaration.name ∧ target ≠ d.name) ∨
          Leads blocks target d.name := by
  obtain ⟨blocks, hb, hsource⟩ := map_eq_ok_iff.mp h
  refine ⟨blocks, hb, hsource.symm, fun before d behind target hsplit ht => ?_⟩
  refine ((inOrder_declarations hb).at hsplit ht).imp_left fun hm => ?_
  rw [List.nil_append] at hm
  -- no other block declares the name of the alias
  have hdistinct := (closed_declarations hb).distinct
  rw [hsplit, List.map_append, List.map_cons] at hdistinct
  exact ⟨hm, fun heq => (List.nodup_append.mp hdistinct).2.2 target hm d.name
    List.mem_cons_self heq⟩

/-- A root with a pointer to a definition, which is a pointer to another one. -/
def chainedSchema : Json :=
  .obj [("properties", .obj [("first", .obj [("$ref", .str "#/definitions/Outer")])]),
    ("definitions", .obj
      [("Outer", .obj [("$ref", .str "#/definitions/Inner")]),
       ("Inner", .obj [("properties", .obj [("x", .obj [("type", .str "string")])])])])]

/-- The inner definition comes first, then the alias of it, then the root. -/
theorem generate_inOrder_chained :
    ∃ source, generate 4 chainedSchema "Root" = .ok source ∧
      ∃ blocks, declarations ⟨chainedSchema, "Root", 4⟩ = .ok blocks ∧
        source = Declaration.renderModule blocks ∧
        ∀ before d behind target, blocks = before ++ d :: behind → d.target? = some target →
          (target ∈ before.map Declaration.name ∧ target ≠ d.name) ∨
            Leads blocks target d.name := by
  have hok : (generate 4 chainedSchema "Root").toBool = true := by decide +kernel
  match h : generate 4 chainedSchema "Root" with
  | .ok source => exact ⟨source, rfl, generate_inOrder h⟩
  | .error _ =>
      rw [h] at hok
      exact Bool.noConfusion hok

/-- A definition that is pointed at by its own property, by way of another name for it. -/
def circularSchema : Json :=
  .obj [("properties", .obj [("a", .obj [("$ref", .str "#/definitions/B")])]),
    ("definitions", .obj
      [("B", .obj [("properties", .obj [("x", .obj [("$ref", .str "#/definitions/C")])])]),
       ("C", .obj [("$ref", .str "#/definitions/B")])])]

/-- **An alias on a circle can stand before its target.** The module for this schema has the line
`C = B` before the class `B`. -/
theorem generate_alias_before_target :
    ∃ source blocks, generate defaultMaxDepth circularSchema "Root" = .ok source ∧
      source = Declaration.renderModule blocks ∧
      blocks.map (fun d => (d.name, d.target?)) =
        [("C", some "B"), ("B", none), ("Root", none)] := by
  let result := declarations ⟨circularSchema, "Root", defaultMaxDepth⟩
  have hblocks : (result.toOption.map fun blocks => blocks.map fun d => (d.name, d.target?)) =
      some [("C", some "B"), ("B", none), ("Root", none)] := by decide +kernel
  obtain ⟨blocks, hb, hnames⟩ := Option.map_eq_some_iff.mp hblocks
  refine ⟨_, blocks, ?_, rfl, hnames⟩
  exact map_eq_ok_iff.mpr ⟨blocks, eq_ok_of_toOption hb, rfl⟩

end StubGen.Schema
