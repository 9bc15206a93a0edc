import Mathlib.Data.List.Forall2
import StubGen.Proofs.Json.Places
import StubGen.Schema.Resolution

/-!
# Normalized enumerations

A schema is normalized before an engine reads it: the texts of its enumerations get single quotes in
place of double ones. Below other keys than that of an enumeration everything stays where it was,
and so an object keeps its type, its properties and its description. Said of all places in a value:
the texts that are items of an enumeration are requoted, and nothing else changes:
`normalizeEnums_requotes`. An enumeration inside an item of another one is none of them, and neither
is an object under the key.
-/

namespace StubGen.Schema

open Json (Step outline)

variable {members : Members} {key : String}

/-! ## Members of normalized objects -/

/-- What a value becomes under a key. -/
def normalizedUnder (key : String) : Json → Json
  | .arr items => .arr (if key = "enum" then items.map normalizeMember else normalizeItems items)
  | value => normalizeEnums value

theorem normalizedUnder_of_ne (hkey : key ≠ "enum") (value : Json) :
    normalizedUnder key value = normalizeEnums value := by
  cases value with
  | arr items => rw [normalizedUnder, if_neg hkey, normalizeEnums]
  | _ => rfl

theorem normalizeItems_eq_map (items : List Json) :
    normalizeItems items = items.map normalizeEnums := by
  induction items with
  | nil => rfl
  | cons item items ih => rw [normalizeItems, ih, List.map_cons]

/-- Members keep their places and their keys. -/
theorem normalizeMembers_eq_map (members : Members) :
    normalizeMembers members = members.map fun m => (m.1, normalizedUnder m.1 m.2) := by
  induction members with
  | nil => rfl
  | cons m members ih =>
      obtain ⟨key, value⟩ := m
      rw [List.map_cons, ← ih]
      cases value with
      | arr items => exact normalizeMembers.eq_2 _ _ _
      | _ => exact normalizeMembers.eq_3 _ _ _ fun _ h => nomatch h

theorem keys_normalizeMembers (members : Members) :
    (normalizeMembers members).map Prod.fst = members.map Prod.fst := by
  rw [normalizeMembers_eq_map, List.map_map]
  rfl

theorem get?_normalizeMembers_eq_map (key : String) (members : Members) :
    Members.get? (normalizeMembers members) key =
      (members.get? key).map (normalizedUnder key) := by
  rw [normalizeMembers_eq_map]
  induction members with
  | nil => rfl
  | cons m members ih =>
      rw [List.map_cons, Members.get?_cons, Members.get?_cons, ih]
      by_cases hkey : key = m.1
      · rw [if_pos hkey, if_pos hkey, hkey, Option.map_some]
      · rw [if_neg hkey, if_neg hkey]

/-- Below other keys than that of an enumeration stands what stood there, normalized. -/
theorem get?_normalizeMembers (hkey : key ≠ "enum") (members : Members) :
    Members.get? (normalizeMembers members) key = (members.get? key).map normalizeEnums := by
  rw [get?_normalizeMembers_eq_map]
  exact congrArg (Option.map · _) (funext (normalizedUnder_of_ne hkey))

theorem get?_normalizeMembers_eq_none (h : members.get? key = none) :
    Members.get? (normalizeMembers members) key = none := by
  rw [get?_normalizeMembers_eq_map, h, Option.map_none]

theorem insert_type_normalizeMembers (members : Members) (type : Json) :
    Members.insert (normalizeMembers members) "type" (normalizeEnums type) =
      normalizeMembers (Members.insert members "type" type) := by
  have htype := normalizedUnder_of_ne (by decide : "type" ≠ "enum") type
  simp only [normalizeMembers_eq_map]
  induction members with
  | nil => rw [List.map_nil, Members.insert, Members.insert, List.map_singleton, htype]
  | cons m members ih =>
      rw [List.map_cons, Members.insert, Members.insert]
      by_cases hkey : m.1 = "type"
      · rw [if_pos hkey, if_pos hkey, List.map_cons, hkey, htype]
      · rw [if_neg hkey, if_neg hkey, List.map_cons, ih]

/-- Members are normalized in their places: what is no object stays none. -/
theorem forall₂_normalizeMembers (members : Members) :
    List.Forall₂ (fun m normal => normal.1 = m.1 ∧
      (normal.2 = normalizeEnums m.2 ∨ m.2.obj? = none ∧ normal.2.obj? = none))
      members (normalizeMembers members) := by
  rw [normalizeMembers_eq_map, List.forall₂_map_right_iff, List.forall₂_same]
  rintro ⟨key, value⟩ -
  refine ⟨rfl, ?_⟩
  cases value with
  | arr items => exact .inr ⟨rfl, rfl⟩
  | _ => exact .inl rfl

/-! ## What normalization leaves of an object -/

@[simp] theorem normalizeEnums_str (text : String) : normalizeEnums (.str text) = .str text := rfl

@[simp] theorem str?_normalizeEnums (value : Json) : (normalizeEnums value).str? = value.str? := by
  cases value <;> simp [normalizeEnums, Json.str?]

@[simp] theorem isText_normalizeEnums (value : Json) (text : String) :
    (normalizeEnums value).isText text = value.isText text := by
  cases value <;> simp [normalizeEnums, Json.isText]

theorem obj?_normalizeEnums (value : Json) :
    (normalizeEnums value).obj? = value.obj?.map normalizeMembers := by
  cases value <;> simp [normalizeEnums, Json.obj?]

theorem isObject_normalizeEnums (value : Json) :
    (normalizeEnums value).isObject = value.isObject := by
  simp [Json.isObject, obj?_normalizeEnums]

theorem get?_normalizeEnums (hkey : key ≠ "enum") (value : Json) :
    (normalizeEnums value).get? key = (value.get? key).map normalizeEnums := by
  cases value with
  | obj members =>
      rw [normalizeEnums]
      exact get?_normalizeMembers hkey members
  | _ => simp [normalizeEnums, Json.get?]

/-- A text stays under its key. -/
theorem getStr?_normalizeEnums (hkey : key ≠ "enum") (value : Json) :
    (normalizeEnums value).getStr? key = value.getStr? key := by
  rw [Json.getStr?, Json.getStr?, get?_normalizeEnums hkey]
  cases value.get? key <;> simp

theorem description?_normalizeEnums (schema : Json) :
    description? (normalizeEnums schema) = description? schema := by
  rw [description?, description?, getStr?_normalizeEnums (by decide)]

/-- Only objects are described. -/
theorem description?_of_obj? {schema : Json} (h : schema.obj? = none) :
    description? schema = none := by
  cases schema with
  | obj members => exact nomatch h
  | _ => rfl

theorem objectProperties?_normalizeMembers (members : Members) :
    objectProperties? (normalizeMembers members) =
      (objectProperties? members).map normalizeMembers := by
  unfold objectProperties?
  rw [get?_normalizeMembers (by decide), get?_normalizeMembers (by decide)]
  cases members.get? "properties" with
  | none => rfl
  | some value =>
      simp only [Option.map_some, Option.bind_some, obj?_normalizeEnums]
      cases value.obj? with
      | none => rfl
      | some properties =>
          cases properties with
          -- whether there are properties is not changed, nor whether the type is that of objects
          | nil => rfl
          | cons m rest =>
              have hcons : normalizeMembers (m :: rest) =
                  (m.1, normalizedUnder m.1 m.2) :: normalizeMembers rest := by
                simp only [normalizeMembers_eq_map, List.map_cons]
              simp only [Option.map_some, hcons]
              cases members.get? "type" with
              | none => simp [hcons]
              | some type =>
                  simp only [Option.map_some, isText_normalizeEnums]
                  split <;> simp [hcons]

/-! ## Items of enumerations -/

/-- The first two steps of a path lead into an enumeration: to what stands under its key, and from
there to an item. -/
def EntersEnum : List Step → Prop
  | .member _ key :: .item _ :: _ => key = "enum"
  | _ => False

/-- A path that leads to an item of an enumeration, and into no other enumeration before. -/
inductive EnumItem : List Step → Prop where
  | here {path : List Step} : EntersEnum path → path.length = 2 → EnumItem path
  | there {step : Step} {path : List Step} :
      ¬ EntersEnum (step :: path) → EnumItem path → EnumItem (step :: path)

theorem exists_of_entersEnum {path : List Step} (h : EntersEnum path) :
    ∃ place index rest, path = .member place "enum" :: .item index :: rest := by
  unfold EntersEnum at h
  split at h
  · exact ⟨_, _, _, by rw [h]⟩
  · exact h.elim

theorem EntersEnum.enumItem_iff {path : List Step} (h : EntersEnum path) :
    EnumItem path ↔ path.length = 2 := by
  refine ⟨fun hitem => ?_, .here h⟩
  cases hitem with
  | here _ hlength => exact hlength
  | there hnone _ => exact absurd h hnone

theorem enumItem_cons_iff {step : Step} {path : List Step} (h : ¬ EntersEnum (step :: path)) :
    EnumItem (step :: path) ↔ EnumItem path := by
  refine ⟨fun hitem => ?_, .there h⟩
  cases hitem with
  | here henters _ => exact absurd henters h
  | there _ hrest => exact hrest

theorem not_enumItem_nil : ¬ EnumItem [] := fun h => by
  cases h with
  | here _ hlength => cases hlength

/-! ### One step -/

theorem outline_normalizeEnums (value : Json) :
    outline (normalizeEnums value) = outline value := by
  cases value with
  | arr items =>
      rw [normalizeEnums, normalizeItems_eq_map, outline, outline, List.map_map]
      rfl
  | obj members =>
      rw [normalizeEnums, normalizeMembers_eq_map, outline, outline, List.map_map]
      rfl
  | _ => rfl

/-- What a value becomes where a step leads to it. -/
def normalizedBehind : Step → Json → Json
  | .item _ => normalizeEnums
  | .member _ key => normalizedUnder key

/-- **A step leads to the same place as before,** and to what the value there has become. -/
theorem child?_normalizeEnums (value : Json) (step : Step) :
    (normalizeEnums value).child? step = (value.child? step).map (normalizedBehind step) := by
  cases value with
  | arr items =>
      rw [normalizeEnums, normalizeItems_eq_map]
      cases step with
      | item index => exact List.getElem?_map
      | member place key => rfl
  | obj members =>
      rw [normalizeEnums, normalizeMembers_eq_map]
      cases step with
      | item index => rfl
      | member place key =>
          rw [Json.child?, Json.child?, List.getElem?_map]
          cases members[place]? with
          | none => rfl
          | some m =>
              rw [Option.map_some, Option.bind_some, Option.bind_some]
              by_cases hkey : m.1 = key
              · rw [if_pos hkey, if_pos hkey, Option.map_some, hkey]
                rfl
              · rw [if_neg hkey, if_neg hkey, Option.map_none]
  | _ => rfl

/-- An item of an enumeration has no places of its own that change. -/
theorem at?_normalizeMember (item : Json) {path : List Step} (hne : path ≠ []) :
    (normalizeMember item).at? path = item.at? path := by
  obtain ⟨step, rest, rfl⟩ := List.exists_cons_of_ne_nil hne
  cases item <;> rfl

/-! ### Whole paths -/

/-- Where a path leads into no enumeration, what stands behind its first step is normalized, or it
is an enumeration itself. -/
theorem normalizedBehind_cases {step : Step} {path : List Step}
    (h : ¬ EntersEnum (step :: path)) (child : Json) :
    normalizedBehind step child = normalizeEnums child ∨
      ∃ items, child = .arr items ∧
        normalizedBehind step child = .arr (items.map normalizeMember) ∧
        ∀ index rest, path ≠ .item index :: rest := by
  cases step with
  | item index => exact .inl rfl
  | member place key =>
      by_cases hkey : key = "enum"
      · cases child with
        | arr items =>
            refine .inr ⟨items, rfl, ?_, ?_⟩
            · rw [normalizedBehind, normalizedUnder, if_pos hkey]
            · rintro index rest rfl
              exact h hkey
        | _ => exact .inl rfl
      · exact .inl (normalizedUnder_of_ne hkey child)

/-- Behind two steps into an enumeration its items are requoted, and what stands in them is left as
it is. -/
theorem at?_normalizedUnder_enum (child : Json) (index : Nat) (rest : List Step) :
    (normalizedUnder "enum" child).at? (.item index :: rest) =
      (child.at? (.item index :: rest)).map (if rest = [] then normalizeMember else id) := by
  cases child with
  | arr items =>
      rw [normalizedUnder, if_pos rfl, Json.at?_cons, Json.at?_cons, Json.child?, Json.child?,
        List.getElem?_map]
      cases items[index]? with
      | none => rfl
      | some item =>
          rw [Option.map_some, Option.bind_some, Option.bind_some]
          by_cases hrest : rest = []
          · rw [if_pos hrest, hrest]
            rfl
          · rw [if_neg hrest, at?_normalizeMember item hrest, Option.map_id, id]
  | _ => rfl

/-- **At each place stands what stood there:** the items of enumerations requoted, and all else by
the outline that it had. -/
theorem at?_normalizeEnums (value : Json) (path : List Step) :
    (EnumItem path → (normalizeEnums value).at? path = (value.at? path).map normalizeMember) ∧
      (¬ EnumItem path →
        ((normalizeEnums value).at? path).map outline = (value.at? path).map outline) := by
  induction path generalizing value with
  | nil =>
      refine ⟨fun h => absurd h not_enumItem_nil, fun _ => ?_⟩
      exact congrArg some (outline_normalizeEnums value)
  | cons step path ih =>
      rw [Json.at?_cons, Json.at?_cons, child?_normalizeEnums]
      cases value.child? step with
      | none => exact ⟨fun _ => rfl, fun _ => rfl⟩
      | some child =>
          rw [Option.map_some, Option.bind_some, Option.bind_some]
          -- behind an enumeration only its items are changed, and nothing inside of them
          by_cases henters : EntersEnum (step :: path)
          · rw [henters.enumItem_iff]
            obtain ⟨place, index, rest, hpath⟩ := exists_of_entersEnum henters
            obtain ⟨rfl, rfl⟩ := List.cons.inj hpath
            rw [normalizedBehind, at?_normalizedUnder_enum]
            cases rest with
            | nil => exact ⟨fun _ => rfl, fun h => absurd rfl h⟩
            | cons step rest =>
                refine ⟨fun h => absurd h (by simp), fun _ => ?_⟩
                rw [if_neg (List.cons_ne_nil _ _), Option.map_id, id]
          · rw [enumItem_cons_iff henters]
            rcases normalizedBehind_cases henters child with heq | ⟨items, rfl, heq, hpath⟩
            · rw [heq]
              exact ih child
            · rw [heq]
              cases path with
              | nil =>
                  refine ⟨fun h => absurd h not_enumItem_nil, fun _ => congrArg some ?_⟩
                  rw [outline, outline, List.map_map]
                  rfl
              | cons step rest =>
                  cases step with
                  | item index => exact absurd rfl (hpath index rest)
                  | member place key => exact ⟨fun _ => rfl, fun _ => rfl⟩

/-! ### Quotes -/

theorem quote_not_mem_singleQuotes (text : String) : '"' ∉ (singleQuotes text).toList := by
  rw [singleQuotes, String.toList_ofList, List.mem_map]
  rintro ⟨c, -, heq⟩
  split at heq
  · exact absurd heq (by decide)
  · rename_i hc
    exact hc heq

theorem singleQuotes_of_not_mem {text : String} (h : '"' ∉ text.toList) :
    singleQuotes text = text := by
  rw [← String.toList_inj, singleQuotes, String.toList_ofList]
  conv => rhs; rw [← List.map_id text.toList]
  refine List.map_congr_left fun c hm => if_neg fun hc => h ?_
  rwa [← hc]

/-- An item that is requoted once stays as it is. -/
theorem normalizeMember_normalizeMember (item : Json) :
    normalizeMember (normalizeMember item) = normalizeMember item := by
  cases item with
  | str text =>
      exact congrArg Json.str (singleQuotes_of_not_mem (quote_not_mem_singleQuotes text))
  | _ => rfl

/-- **Normalization requotes the texts of enumerations, and changes nothing else.** A text that is
an item of an enumeration, and stands in no item of another one, gets single quotes in place of the
double ones. At every other place stands what stood there: an object with its keys in order, an
array with as many items, a scalar as it is. So no text of an enumeration has a double quote left,
and to normalize a second time changes nothing. -/
theorem normalizeEnums_requotes (value : Json) :
    (∀ path text, EnumItem path → value.at? path = some (.str text) →
      (normalizeEnums value).at? path =
        some (.str (String.ofList (text.toList.map fun c => if c = '"' then '\'' else c)))) ∧
    (∀ path, (∀ text, EnumItem path → value.at? path ≠ some (.str text)) →
      ((normalizeEnums value).at? path).map outline = (value.at? path).map outline) ∧
    (∀ path text, EnumItem path → (normalizeEnums value).at? path = some (.str text) →
      '"' ∉ text.toList) ∧
    normalizeEnums (normalizeEnums value) = normalizeEnums value := by
  refine ⟨fun path text hitem hat => ?_, fun path hother => ?_, fun path text hitem hat => ?_,
    Json.eq_of_outlines fun path => ?_⟩
  · rw [(at?_normalizeEnums value path).1 hitem, hat]
    rfl
  · by_cases hitem : EnumItem path
    · rw [(at?_normalizeEnums value path).1 hitem, Option.map_map]
      refine Option.map_congr fun item hat => ?_
      cases item with
      | str text => exact absurd hat (hother text hitem)
      | _ => rfl
    · exact (at?_normalizeEnums value path).2 hitem
  · rw [(at?_normalizeEnums value path).1 hitem] at hat
    obtain ⟨item, -, hitem⟩ := Option.map_eq_some_iff.mp hat
    cases item with
    | str given => exact Json.str.inj hitem ▸ quote_not_mem_singleQuotes given
    | _ => cases hitem
  · by_cases hitem : EnumItem path
    · -- requoting twice is requoting once, and outlines stay
      have htwice : ((value.at? path).map normalizeMember).map normalizeMember =
          (value.at? path).map normalizeMember := by
        rw [Option.map_map]
        exact congrArg (Option.map · _) (funext normalizeMember_normalizeMember)
      rw [(at?_normalizeEnums _ path).1 hitem, (at?_normalizeEnums _ path).1 hitem, htwice]
    · exact (at?_normalizeEnums _ path).2 hitem

/-- The first of the modes that a property may have. -/
theorem normalizeEnums_requotes_mode :
    let value : Json := .obj [("mode", .obj [("enum", .arr [.str "say \"hi\"", .int 3])])]
    let path : List Step := [.member 0 "mode", .member 0 "enum", .item 0]
    EnumItem path ∧ value.at? path = some (.str "say \"hi\"") ∧
      (normalizeEnums value).at? path = some (.str "say 'hi'") := by
  intro value path
  have hitem : EnumItem path := .there id (.here rfl rfl)
  exact ⟨hitem, rfl, (normalizeEnums_requotes value).1 path "say \"hi\"" hitem rfl⟩

/-- A property that is called `enum` is no enumeration, and nothing in an item of one is. -/
example : normalizeEnums (.obj [
      ("enum", .obj [("enum", .arr [.str "\"a\"", .obj [("enum", .arr [.str "\"b\""])]])]),
      ("title", .str "\"c\"")]) =
    .obj [
      ("enum", .obj [("enum", .arr [.str "'a'", .obj [("enum", .arr [.str "\"b\""])]])]),
      ("title", .str "\"c\"")] := by
  rfl

end StubGen.Schema
