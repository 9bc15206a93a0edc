import StubGen.Proofs.Stub.Modules

/-!
# Parameters that are arrays

A parameter may be an array of items that only a schema describes. Then the array is declared under
a name that is made of the parameter's: in title case, without spaces, and as an identifier. That
loses what made the parameters' names different: arrays share a type exactly if their names come to
the same, and an array whose name another source has introduced goes by that declaration:
`arrays_told_apart`.
-/

namespace StubGen

namespace TypeName

/-- Identifiers are still told apart when they are qualified. -/
theorem qualify_identifier_inj (owner : String) {name other : String} (hne : name ≠ "")
    (hchars : name.toList.all Identifier.isIdentifierChar = true) (hother : other ≠ "")
    (hotherChars : other.toList.all Identifier.isIdentifierChar = true) :
    qualify owner name = qualify owner other ↔ name = other := by
  -- a dot is no character of an identifier, so a bare name is no qualified one
  have hbare : ∀ {bare more : String}, bare.toList.all Identifier.isIdentifierChar = true →
      bare ≠ Identifier.typeModule owner ++ "." ++ more := by
    intro bare more hbare heq
    have hdot := List.all_eq_true.mp hbare '.' (by simp [heq])
    exact absurd hdot (by decide)
  refine ⟨fun h => ?_, fun h => h ▸ rfl⟩
  rw [qualify_identifier owner hne hchars, qualify_identifier owner hother hotherChars] at h
  split at h
  · split at h
    · exact h
    · exact absurd h (hbare hchars)
  · split at h
    · exact absurd h.symm (hbare hotherChars)
    · have hlists : (Identifier.typeModule owner ++ ".").toList ++ name.toList =
          (Identifier.typeModule owner ++ ".").toList ++ other.toList := by
        rw [← String.toList_append, ← String.toList_append, h]
      exact String.toList_inj.mp (List.append_cancel_left hlists)

end TypeName

namespace ParameterList

open DefinitionSet (IntroducedIn DrawnFrom Readable Announces)
open Schema (Engine builtinEngine SchemaError)
open StubGen.TypeName (qualify)

variable {owner : String} {parameters : List Parameter} {parameter : Parameter} {items : Json}

/-- The type of a parameter is an array of items that a schema describes, which names no primitive
type. -/
structure IsArrayOf (parameter : Parameter) (items : Json) : Prop where
  type : parameter.type = .array (some (.schema items))
  items : Typing.scalarType? items = none

/-- The name under which the array of a parameter with this name is declared. -/
def arrayName (name : String) : String :=
  let title := Identifier.title name
  Schema.rootName .null (if Text.isBlankText title then "ResponseType" else title) ""

/-- The declarations for the array of a parameter. -/
def arraySource (engine : Engine) (parameter : Parameter) (items : Json) :
    Except SchemaError String :=
  engine (Schema.normalizeEnums (Typing.arraySchema items)) (arrayName parameter.name)

/-- A root that is not blank has its name whatever is declared under it. -/
theorem rootName_of_not_blank {root : String} (h : Text.isBlankText root = false)
    (schema other : Json) (fallback otherwise : String) :
    Schema.rootName schema root fallback = Schema.rootName other root otherwise := by
  unfold Schema.rootName Schema.wantedName
  rw [h]
  rfl

theorem typeOf_array (engine : Engine) (h : IsArrayOf parameter items) :
    typeOf engine parameter =
      match arraySource engine parameter items with
      | .ok source => ⟨arrayName parameter.name, Schema.cleanExamples source⟩
      | .error _ => .plain "List[Dict]" := by
  let title := Identifier.title parameter.name
  let root := if Text.isBlankText title then "ResponseType" else title
  -- a title of blanks only is replaced, so the root always has a name
  have hroot : Text.isBlankText root = false := by
    by_cases hblank : Text.isBlankText title = true
    · rw [show root = "ResponseType" from if_pos hblank]
      decide
    · rw [show root = title from if_neg hblank]
      exact Bool.eq_false_iff.mpr hblank
  have hlist : typeOf engine parameter =
      Schema.render engine (Typing.arraySchema items) root "List[Dict]" := by
    unfold typeOf
    rw [h.type]
    simp only [Typing.withFallbackTitle, Typing.resolve, Typing.resolveItems, Typing.listOfSchema,
      h.items]
    rfl
  have hname : Schema.rootName (Typing.arraySchema items) root "List[Dict]" =
      arrayName parameter.name :=
    rootName_of_not_blank hroot (Typing.arraySchema items) .null "List[Dict]" ""
  rw [hlist, Schema.render, hname]
  rfl

theorem arrayName_ne_empty (name : String) : arrayName name ≠ "" := by
  unfold arrayName
  exact Schema.rootName_ne_empty _ _ _

theorem identifierChars_arrayName (name : String) :
    (arrayName name).toList.all Identifier.isIdentifierChar = true := by
  unfold arrayName
  exact Schema.identifierChars_rootName _ _ _

/-- The type of an array that can be declared is its name, and the declarations are as generated. -/
theorem typeOf_array_of_ok {source : String} (h : IsArrayOf parameter items)
    (hok : arraySource builtinEngine parameter items = .ok source) :
    typeOf builtinEngine parameter = ⟨arrayName parameter.name, source⟩ := by
  have hline := Schema.oneLine_of_identifierChars (identifierChars_arrayName parameter.name)
  rw [typeOf_array builtinEngine h, hok]
  exact congrArg _ (Schema.cleanExamples_of_generate hline hok)

theorem introducedIn_of_announces {source name : String} (h : Readable name)
    (hsource : Announces source name) : IntroducedIn source name :=
  ((DefinitionSet.declares_push_iff .empty source).mp
    (DefinitionSet.declares_push_of_announces h .empty hsource)).resolve_left
    (by simp [DefinitionSet.declares, DefinitionSet.empty])

/-- The sources behind the types of parameters. -/
def sourcesOf (parameters : List Parameter) : List String :=
  parameters.map fun parameter => (typeOf builtinEngine parameter).definition

/-- **Arrays share a type exactly if their names come to the same.** An array that cannot be
declared is one of mappings. Any other is annotated with its name, so that two such parameters have
different annotations if their arrays have different names. The name is declared, if it can be read
back: by what was generated for the array, unless the type of a parameter before introduces that
name, which is then declared by those. -/
theorem arrays_told_apart {i : Nat} (hi : parameters[i]? = some parameter)
    (harray : IsArrayOf parameter items) :
    let list := ofParameters builtinEngine owner parameters
    let name := arrayName parameter.name
    let earlier := (sourcesOf parameters).take i
    ∃ lines : List ParameterLine, list.lines = lines.map ParameterLine.text ∧
      let annotations := lines.filterMap ParameterLine.annotation?
      (∀ error, arraySource builtinEngine parameter items = .error error →
        annotations[i]? = some "List[Dict]") ∧
      ∀ source, arraySource builtinEngine parameter items = .ok source →
        annotations[i]? = some (qualify owner name) ∧
        (∀ (j : Nat) (other : Parameter) (otherItems : Json) (otherSource : String),
          parameters[j]? = some other → IsArrayOf other otherItems →
          arraySource builtinEngine other otherItems = .ok otherSource →
          (annotations[i]? = annotations[j]? ↔ name = arrayName other.name)) ∧
        (Readable name → ∃ d ∈ list.definitions.definitions, d.name = name ∧
          ((∃ taken ∈ earlier, IntroducedIn taken name) →
            d ∈ (earlier.foldl DefinitionSet.push .empty).definitions) ∧
          ((∀ free ∈ earlier, ¬ IntroducedIn free name) → DrawnFrom source d)) := by
  intro list name earlier
  obtain ⟨lines, hlines, hannotations⟩ := lines_ofParameters builtinEngine owner parameters
  refine ⟨lines, hlines, ?_⟩
  -- the annotations stand in the order of the parameters
  have hshown : ∀ {k : Nat} {one : Parameter}, parameters[k]? = some one →
      (lines.filterMap ParameterLine.annotation?)[k]? =
        some (qualify owner (typeOf builtinEngine one).expr) := by
    intro k one hk
    rw [hannotations, List.getElem?_map, hk, Option.map_some]
  have hnamed : ∀ {k : Nat} {one : Parameter} {oneItems : Json} {source : String},
      parameters[k]? = some one → IsArrayOf one oneItems →
      arraySource builtinEngine one oneItems = .ok source →
      (lines.filterMap ParameterLine.annotation?)[k]? =
        some (qualify owner (arrayName one.name)) := by
    intro k one oneItems source hk hone hok
    rw [hshown hk, typeOf_array_of_ok hone hok]
  dsimp only
  refine ⟨fun error herror => ?_, fun source hok => ⟨hnamed hi harray hok, ?_, fun hreadable => ?_⟩⟩
  · rw [hshown hi, typeOf_array builtinEngine harray, herror]
    refine congrArg some ((TypeName.qualify_list owner "Dict").trans ?_)
    rw [TypeName.qualify_identifier owner (by decide) (by decide), if_pos (by decide)]
    rfl
  · intro j other otherItems otherSource hj hother hotherOk
    rw [hnamed hi harray hok, hnamed hj hother hotherOk, Option.some_inj]
    exact TypeName.qualify_identifier_inj owner (arrayName_ne_empty _)
      (identifierChars_arrayName _) (arrayName_ne_empty _) (identifierChars_arrayName _)
  · have hline := Schema.oneLine_of_identifierChars (identifierChars_arrayName parameter.name)
    have hintroduced : IntroducedIn source name :=
      introducedIn_of_announces hreadable (Schema.announces_generate hline hok)
    have hsource : (sourcesOf parameters)[i]? = some source := by
      rw [sourcesOf, List.getElem?_map, hi, Option.map_some, typeOf_array_of_ok harray hok]
    obtain ⟨hlt, hget⟩ := List.getElem?_eq_some_iff.mp hsource
    -- the parameter is reached after those in front of it, and the first to introduce a name has it
    have hsplit :
        sourcesOf parameters = earlier ++ source :: (sourcesOf parameters).drop (i + 1) := by
      rw [← hget, List.getElem_cons_drop, List.take_append_drop]
    have hset : list.definitions = (sourcesOf parameters).foldl DefinitionSet.push .empty :=
      definitions_ofParameters builtinEngine owner parameters
    rw [hset, hsplit]
    exact DefinitionSet.declared_by_first hintroduced

/-- A required parameter with a name, an array of objects with a text under a key. -/
def arrayOf (name key : String) : Parameter :=
  .mk name "" true none (.array (some (.schema (textUnder key))))
where
  textUnder (key : String) : Json :=
    .obj [("type", .str "object"), ("properties", .obj [(key, .obj [("type", .str "string")])])]

theorem isArrayOf_arrayOf (name key : String) :
    IsArrayOf (arrayOf name key) (arrayOf.textUnder key) := ⟨rfl, rfl⟩

/-- Owners and pets have types of their own. -/
theorem arrays_told_apart_owners :
    ∃ lines : List ParameterLine, ∃ source,
      (ofParameters builtinEngine "assign" [arrayOf "owners" "id", arrayOf "pets" "id"]).lines =
        lines.map ParameterLine.text ∧
      arraySource builtinEngine (arrayOf "owners" "id") (arrayOf.textUnder "id") = .ok source ∧
      let annotations := lines.filterMap ParameterLine.annotation?
      annotations[0]? = some "_assign.Owners" ∧ annotations[0]? ≠ annotations[1]? ∧
      ∃ d ∈ (ofParameters builtinEngine "assign"
          [arrayOf "owners" "id", arrayOf "pets" "id"]).definitions.definitions,
        d.name = "Owners" ∧ DrawnFrom source d := by
  have hdeclared : ∀ name ∈ ["owners", "pets"],
      (arraySource builtinEngine (arrayOf name "id") (arrayOf.textUnder "id")).toOption.isSome =
        true := by decide +kernel
  obtain ⟨owners, howners⟩ := Option.isSome_iff_exists.mp (hdeclared "owners" (by simp))
  obtain ⟨pets, hpets⟩ := Option.isSome_iff_exists.mp (hdeclared "pets" (by simp))
  have howners := Result.eq_ok_of_toOption howners
  have hpets := Result.eq_ok_of_toOption hpets
  have hname : arrayName "owners" = "Owners" := by decide +kernel
  have hother : arrayName "owners" ≠ arrayName "pets" := by decide +kernel
  have hreadable : Readable "Owners" := by decide +kernel
  have hqualified : qualify "assign" "Owners" = "_assign.Owners" := by decide +kernel
  obtain ⟨lines, hlines, -, htyped⟩ := @arrays_told_apart "assign"
    [arrayOf "owners" "id", arrayOf "pets" "id"] _ _ 0 rfl (isArrayOf_arrayOf "owners" "id")
  obtain ⟨hshown, hshared, hdeclares⟩ := htyped owners howners
  obtain ⟨d, hd, hdname, -, hdrawn⟩ := hdeclares (hname ▸ hreadable)
  refine ⟨lines, owners, hlines, howners, ?_, fun heq => hother ?_, d, hd, hdname.trans hname,
    hdrawn fun _ hm => absurd hm List.not_mem_nil⟩
  · rw [hshown]
    exact congrArg some ((congrArg (qualify "assign") hname).trans hqualified)
  · exact (hshared 1 (arrayOf "pets" "id") _ pets rfl (isArrayOf_arrayOf "pets" "id") hpets).mp heq

/-- **Names that only differ in case share one type.** -/
theorem arrays_share_type :
    (ofParameters builtinEngine "greet" [arrayOf "id" "a", arrayOf "ID" "b"]).lines =
      ["    id: _greet.Id,", "    ID: _greet.Id,"] := by
  decide +kernel

end ParameterList

end StubGen
