import StubGen.Proofs.Json.Values

/-!
# Places in a value

A path leads from a value to one that stands in it, step by step: to an item of an array, or to a
member of an object. What a value is by itself, whatever stands in it, is its outline: the number of
its items, or the keys of its members in order, or the scalar that it is. A value is known by the
outlines at all its places: `eq_of_outlines`.
-/

namespace StubGen.Json

/-- A step to the item at a place of an array, or to the member at a place of an object. -/
inductive Step where
  | item (index : Nat)
  | member (index : Nat) (key : String)
deriving DecidableEq, Repr

/-- The value that a step leads to. -/
def child? : Json → Step → Option Json
  | .arr items, .item index => items[index]?
  | .obj members, .member index key =>
    members[index]?.bind fun m => if m.1 = key then some m.2 else none
  | _, _ => none

/-- The value that a path leads to. -/
def at? (value : Json) : List Step → Option Json
  | [] => some value
  | step :: path => (value.child? step).bind fun child => child.at? path

/-- A value with nothing in its places: the number of its items, its keys in order, or a scalar. -/
def outline : Json → Json
  | .arr items => .arr (items.map fun _ => .null)
  | .obj members => .obj (members.map fun m => (m.1, .null))
  | value => value

variable {value other : Json}

@[simp] theorem at?_nil (value : Json) : value.at? [] = some value := rfl

theorem at?_cons (value : Json) (step : Step) (path : List Step) :
    value.at? (step :: path) = (value.child? step).bind fun child => child.at? path := rfl

theorem child?_item {items : List Json} {index : Nat} {item : Json}
    (h : items[index]? = some item) : (Json.arr items).child? (.item index) = some item := h

theorem child?_member {members : Members} {index : Nat} {m : String × Json}
    (h : members[index]? = some m) : (Json.obj members).child? (.member index m.1) = some m.2 := by
  rw [child?, h, Option.bind_some, if_pos rfl]

/-- The outlines in two values agree at all places. -/
def Alike (value other : Json) : Prop :=
  ∀ path, (value.at? path).map outline = (other.at? path).map outline

theorem Alike.outline (h : Alike value other) : value.outline = other.outline :=
  Option.some.inj (h [])

/-- What stands in one place of both is alike. -/
theorem Alike.child (h : Alike value other) {step : Step} {child child' : Json}
    (hchild : value.child? step = some child) (hchild' : other.child? step = some child') :
    Alike child child' := by
  intro path
  have hpath := h (step :: path)
  rwa [at?_cons, at?_cons, hchild, hchild', Option.bind_some, Option.bind_some] at hpath

/-- **A value is known by the outlines at all its places.** -/
theorem eq_of_outlines (h : Alike value other) : value = other := by
  induction value using Json.induction generalizing other with
  | scalar value harr hobj =>
      have houtline := h.outline
      cases value with
      | arr items => cases harr
      | obj members => cases hobj
      | _ => cases other <;> simp_all [Json.outline]
  | arr items ih =>
      have houtline := h.outline
      cases other with
      | arr others =>
          -- the outline of an array tells how many items it has
          have hlength : items.length = others.length := by
            simpa using congrArg List.length (Json.arr.inj houtline)
          refine congrArg Json.arr (List.ext_getElem hlength fun i hi hi' => ?_)
          exact ih _ (List.getElem_mem hi) (h.child
            (child?_item (List.getElem?_eq_getElem hi))
            (child?_item (List.getElem?_eq_getElem hi')))
      | _ => cases houtline
  | obj members ih =>
      have houtline := h.outline
      cases other with
      | obj others =>
          -- the outline of an object tells its keys
          have hkeys : (members.map fun m => (m.1, Json.null)) =
              others.map fun m => (m.1, Json.null) := Json.obj.inj houtline
          have hlength : members.length = others.length := by
            simpa using congrArg List.length hkeys
          refine congrArg Json.obj (List.ext_getElem hlength fun i hi hi' => ?_)
          have hkey : members[i].1 = others[i].1 := by
            have hentry := List.getElem_of_eq hkeys (by simpa using hi)
            simpa using hentry
          have hchild : (Json.obj others).child? (.member i members[i].1) = some others[i].2 :=
            hkey ▸ child?_member (List.getElem?_eq_getElem hi')
          exact Prod.ext hkey (ih _ (List.getElem_mem hi)
            (h.child (child?_member (List.getElem?_eq_getElem hi)) hchild))
      | _ => cases houtline

end StubGen.Json
