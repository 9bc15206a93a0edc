import StubGen.Proofs.Schema.Layout
import StubGen.Proofs.Stub.Definitions
import StubGen.Proofs.Stub.TypeNames
import StubGen.Typing

/-!
# What a resolved type names

A declared type resolves to a type expression and to the source of the declarations that it
needs. With the engine of this library every name in the expression is basic or is written in
that source: `grounded_resolve`. The engine always writes the root it is asked for, and nothing
but a root's name and basic names get into an expression, so the induction over declared types
has one case for each way of building an expression.
-/

namespace StubGen

open DefinitionSet (Announces Begins)
open StubGen.TypeName (namesIn Written isBasic)
open Identifier (isIdentifierChar dropSpaces className)

namespace Schema

/-! ## The root of a schema -/

theorem className_ne_empty {title : String} {c : Char} (hm : c ∈ title.toList) (hc : c ≠ ' ') :
    className title ≠ "" := by
  have hkept : c ∈ (dropSpaces title).toList := by simp [dropSpaces, hm, hc]
  intro heq
  unfold className at heq
  dsimp only at heq
  split at heq
  · exact absurd (congrArg String.toList heq) (by simp)
  · rw [heq] at hkept
    exact absurd hkept (by simp)

theorem exists_mem_wantedName (schema : Json) (root fallback : String) :
    ∃ c ∈ (wantedName schema root fallback).toList, c ≠ ' ' := by
  unfold wantedName
  split
  · have hbase : ∃ c ∈ (if fallback == "List" then "List" else "Dict").toList, c ≠ ' ' := by
      split
      · exact ⟨'L', by decide⟩
      · exact ⟨'D', by decide⟩
    obtain ⟨c, hm, hc⟩ := hbase
    dsimp only
    split
    · exact ⟨c, by simp only [String.toList_append, List.mem_append]; exact .inl hm, hc⟩
    · exact ⟨c, by simp only [String.toList_append, List.mem_append]; exact .inr hm, hc⟩
  · rename_i hblank
    obtain ⟨c, hm, hc⟩ : ∃ c ∈ root.toList, Text.isBlank c = false := by
      simpa [Text.isBlankText] using hblank
    exact ⟨c, hm, fun heq => absurd (heq ▸ hc) (by decide)⟩

theorem sanitize_ne_empty (name : String) : Identifier.sanitize name ≠ "" := by
  intro heq
  have heq : Identifier.sanitizeChars name.toList = [] := by
    simpa [Identifier.sanitize] using congrArg String.toList heq
  unfold Identifier.sanitizeChars at heq
  split at heq
  · exact absurd heq (by decide)
  · split at heq <;> exact absurd heq (by simp)

theorem rootName_ne_empty (schema : Json) (root fallback : String) :
    rootName schema root fallback ≠ "" := by
  obtain ⟨c, hm, hc⟩ := exists_mem_wantedName schema root fallback
  unfold rootName
  dsimp only
  split
  · exact className_ne_empty hm hc
  · exact sanitize_ne_empty _

/-- A root's name is an identifier. -/
theorem identifierChars_rootName (schema : Json) (root fallback : String) :
    (rootName schema root fallback).toList.all isIdentifierChar = true := by
  unfold rootName
  dsimp only
  split
  · assumption
  · exact List.all_eq_true.mpr (Identifier.identifierChars_sanitize _)

/-- A root keeps its name, with an underscore behind it if the name is taken. -/
theorem rootName_of_identifierChars {name : String} (hne : name ≠ "")
    (hchars : ∀ c ∈ name.toList, isIdentifierChar c = true) (schema : Json) (fallback : String) :
    rootName schema name fallback =
      if Identifier.isReserved name then name ++ "_" else name := by
  have hwanted : wantedName schema name fallback = name := by
    have hblank : Text.isBlankText name = false := by
      obtain ⟨c, cs, hname⟩ := List.exists_cons_of_ne_nil fun hnil =>
        hne (String.toList_eq_nil_iff.mp hnil)
      have hloud : Text.isBlank c = false :=
        Text.isBlank_of_isIdentifierChar (hchars c (hname ▸ List.mem_cons_self))
      simp [Text.isBlankText, hname, hloud]
    rw [wantedName, hblank]
    rfl
  -- no space is dropped from an identifier, and no character of it is changed
  have hspaces : dropSpaces name = name := by
    have hkept : name.toList.filter (· ≠ ' ') = name.toList := by
      refine List.filter_eq_self.mpr fun c hm => decide_eq_true fun heq => ?_
      exact absurd (heq ▸ hchars c hm) (by decide)
    rw [dropSpaces, hkept, String.ofList_toList]
  have hclass : (className name).toList.all isIdentifierChar = true := by
    have hscore : isIdentifierChar '_' = true := by decide
    rw [className, hspaces]
    split
    · rw [String.toList_append, List.all_append, List.all_eq_true.mpr hchars]
      simp [hscore]
    · exact List.all_eq_true.mpr hchars
  unfold rootName
  rw [hwanted, if_pos hclass, className, hspaces]

/-- **A name that is an identifier and not taken is kept** as the name of a root. -/
theorem rootName_eq_self {name : String} (hne : name ≠ "")
    (hchars : ∀ c ∈ name.toList, isIdentifierChar c = true)
    (hfree : Identifier.isReserved name = false) (schema : Json) (fallback : String) :
    rootName schema name fallback = name := by
  rw [rootName_of_identifierChars hne hchars, hfree]
  rfl

theorem oneLine_of_identifierChars {name : String}
    (h : name.toList.all isIdentifierChar = true) : OneLine name := fun hm =>
  absurd (List.all_eq_true.mp h _ hm) (by decide)

/-- A text that opens with a name has a line that begins to declare it. -/
theorem Declaration.Opens.announces {name text : String} (hname : OneLine name)
    (h : Opens name text) : Announces text name := by
  obtain ⟨comment, opening, rest, rfl, hopening, hcomment⟩ := h
  -- the line that the opening begins goes on to the first line end of the rest
  obtain ⟨first, more, hrest⟩ :=
    List.exists_cons_of_ne_nil (Text.splitChars_ne_nil '\n' rest.toList)
  have hflat : '\n' ∉ opening.toList := by
    simp only [openings, List.mem_cons, List.not_mem_nil, or_false] at hopening
    have hname : '\n' ∉ name.toList := hname
    rcases hopening with rfl | rfl <;> simp [hname]
  have hbegins : Begins name (opening.toList ++ first) := by
    simp only [openings, List.mem_cons, List.not_mem_nil, or_false] at hopening
    rcases hopening with rfl | rfl
    · exact ⟨"class " ++ name ++ "(", by simp, "TypedDict, total=False):".toList ++ first, by simp⟩
    · exact ⟨name ++ " = ", by simp, first, by simp⟩
  refine ⟨opening.toList ++ first, ?_, hbegins⟩
  have hline := Text.splitChars_append_of_not_mem hflat hrest
  rcases hcomment with rfl | ⟨line, rfl, -⟩
  · rw [String.empty_append, String.toList_append, hline]
    exact List.mem_cons_self
  · have htext : ("# " ++ line ++ "\n" ++ opening ++ rest).toList =
        ("# " ++ line).toList ++ '\n' :: (opening.toList ++ rest.toList) := by simp
    rw [htext, Text.splitChars_append_sep, hline]
    exact List.mem_append_right _ List.mem_cons_self

/-- **The engine writes the root.** -/
theorem announces_generate {maxDepth : Nat} {schema : Json} {root source : String}
    (hroot : OneLine root) (h : generate maxDepth schema root = .ok source) :
    Announces source root := by
  obtain ⟨blocks, rfl, hopens, hclosed⟩ := generate_closed h
  have hm : root ∈ blocks.map Declaration.name :=
    List.count_pos_iff.mp (hclosed.root_once ▸ Nat.one_pos)
  obtain ⟨block, hblock, rfl⟩ := List.mem_map.mp hm
  obtain ⟨line, hline, hbegins⟩ := (hopens block hblock).announces hroot
  obtain ⟨c, hc, -⟩ := hbegins.exists_not_blank
  exact ⟨line, (Declaration.mem_lines_renderModule (List.ne_nil_of_mem hc) blocks).mpr
    (.inr ⟨block, hblock, hline⟩), hbegins⟩

/-- A schema is rendered under its root's name, or else the caller's fallback stands for it. -/
theorem render_cases (engine : Engine) (schema : Json) (root fallback : String) :
    (∃ source, engine (normalizeEnums schema) (rootName schema root fallback) = .ok source ∧
      render engine schema root fallback =
        ⟨rootName schema root fallback, cleanExamples source⟩) ∨
    render engine schema root fallback = .plain fallback := by
  unfold render
  dsimp only
  split
  · exact .inl ⟨_, ‹_›, rfl⟩
  · exact .inr rfl

end Schema

/-! ## Grounded resolutions -/

/-- Every name in the type expression is basic or written in the definition. -/
structure Resolution.Grounded (r : Resolution) : Prop where
  written : Written r.expr
  names : ∀ name ∈ namesIn r.expr, isBasic name = true ∨ Announces r.definition name

theorem Resolution.Grounded.list {r : Resolution} (h : r.Grounded) :
    Resolution.Grounded ⟨"List[" ++ r.expr ++ "]", r.definition⟩ := by
  refine ⟨h.written.list, fun name hm => ?_⟩
  rw [TypeName.namesIn_list] at hm
  rcases List.mem_cons.mp hm with rfl | hm
  · exact .inl (by decide)
  · exact h.names name hm

namespace Typing

open Schema (Engine builtinEngine)

theorem grounded_plain {expr : String} (hw : Written expr)
    (h : (namesIn expr).all isBasic = true) : (Resolution.plain expr).Grounded :=
  ⟨hw, fun name hm => .inl (List.all_eq_true.mp h name hm)⟩

theorem mem_basicTypes {name : String} (h : isBasic name = true) : name ∈ TypeName.basicTypes := by
  unfold isBasic at h
  exact List.contains_iff_mem.mp h

theorem written_of_isBasic {name : String} (h : isBasic name = true) : Written name := by
  have hall : (TypeName.basicTypes.all fun name =>
      name != "" && name.toList.all isIdentifierChar) = true := by decide
  have hname := List.all_eq_true.mp hall name (mem_basicTypes h)
  simp only [Bool.and_eq_true, bne_iff_ne] at hname
  exact .name hname.1 hname.2

theorem namesIn_of_isBasic {name : String} (h : isBasic name = true) : namesIn name = [name] := by
  have hall : (TypeName.basicTypes.all fun name => namesIn name == [name]) = true := by
    decide
  exact beq_iff_eq.mp (List.all_eq_true.mp hall name (mem_basicTypes h))

theorem grounded_basic {name : String} (h : isBasic name = true) :
    (Resolution.plain name).Grounded :=
  grounded_plain (written_of_isBasic h) (by simp [namesIn_of_isBasic h, h])

theorem isBasic_ofPrimitive (typeName : String) :
    isBasic (TypeName.ofPrimitive typeName) = true := by
  unfold TypeName.ofPrimitive
  cases h : TypeName.primitives.lookup typeName with
  | none => decide
  | some type =>
      have hall : (TypeName.primitives.all fun entry => isBasic entry.2) = true := by decide
      obtain ⟨before, behind, hmem, -⟩ := List.lookup_eq_some_iff.mp h
      exact List.all_eq_true.mp hall (typeName, type) (by simp [hmem])

theorem grounded_render (schema : Json) (root : String) {fallback : String}
    (h : (Resolution.plain fallback).Grounded) :
    (Schema.render builtinEngine schema root fallback).Grounded := by
  rcases Schema.render_cases builtinEngine schema root fallback with
    ⟨source, hok, hrender⟩ | hrender
  · have hsource : Schema.generate Schema.defaultMaxDepth (Schema.normalizeEnums schema)
        (Schema.rootName schema root fallback) = .ok source := hok
    have hchars := Schema.identifierChars_rootName schema root fallback
    have hne := Schema.rootName_ne_empty schema root fallback
    have hline := Schema.oneLine_of_identifierChars hchars
    have hannounced := Schema.announces_generate hline hsource
    rw [hrender, Schema.cleanExamples_of_generate hline hsource]
    generalize Schema.rootName schema root fallback = name at hne hchars hannounced
    refine ⟨.name hne hchars, fun other hm => .inr ?_⟩
    rw [TypeName.namesIn_identifier hne hchars, List.mem_singleton] at hm
    exact hm ▸ hannounced
  · rwa [hrender]

/-! ## Declared types -/

/-- The text of a callable's parameters and result loses no name with its spaces. -/
theorem written_callable {exprs : List String} {result : String}
    (h : ∀ expr ∈ exprs, Written expr) (hresult : Written result) :
    Written ("Callable[[" ++ Text.join ", " exprs ++ "], " ++ result ++ "]") ∧
      namesIn ("Callable[[" ++ Text.join ", " exprs ++ "], " ++ result ++ "]") =
        "Callable" :: (exprs.flatMap namesIn ++ namesIn result) := by
  have hnames (sep close : String) (hsep : sep ≠ "" ∧ sep.toList.all TypeName.isSeparator = true)
      (hclose : close ≠ "" ∧ close.toList.all TypeName.isSeparator = true) (exprs : List String)
      (result : String) : namesIn ("[" ++ Text.join sep exprs ++ close ++ result) =
        exprs.flatMap namesIn ++ namesIn result := by
    rw [TypeName.namesIn_append_append hclose.1 hclose.2, ← String.empty_append (s := "["),
      TypeName.namesIn_append_append (by decide) (by decide),
      TypeName.namesIn_join hsep.1 hsep.2]
    rfl
  have htext : "Callable[[" ++ Text.join ", " exprs ++ "], " ++ result ++ "]" =
      "Callable[" ++ ("[" ++ Text.join ", " exprs ++ "], " ++ result) ++ "]" := by
    rw [show "Callable[[" = "Callable[" ++ "[" by decide]
    simp only [String.append_assoc]
  -- the spaces all belong to the separators, so dropping them joins the same names
  have hspaces : dropSpaces ("[" ++ Text.join ", " exprs ++ "], " ++ result) =
      "[" ++ Text.join "," (exprs.map dropSpaces) ++ "]," ++ dropSpaces result := by
    simp only [TypeName.dropSpaces_append, TypeName.dropSpaces_join]
    rfl
  rw [htext, TypeName.namesIn_callable, hnames ", " "], " (by decide) (by decide)]
  refine ⟨.callable ?_, rfl⟩
  rw [hspaces, hnames "," "]," (by decide) (by decide), hnames ", " "], " (by decide) (by decide),
    hresult.withoutSpaces.2, List.flatMap_map, List.flatMap_def, List.flatMap_def,
    List.map_congr_left fun expr hm => (h expr hm).withoutSpaces.2]

/-- The result of a callable does not count: it is basic or gives way to any value. -/
theorem isBasic_callableResult (result : Resolution) :
    isBasic (if isBasic result.expr then result.expr else "Any") = true := by
  split
  · assumption
  · decide

theorem grounded_callable {parameters : List Resolution} (h : ∀ r ∈ parameters, r.Grounded)
    (result : Resolution) : (callable parameters result).Grounded := by
  have hreturn := isBasic_callableResult result
  have hexprs : ∀ expr ∈ parameters.map Resolution.expr, Written expr := by
    intro expr hm
    obtain ⟨r, hr, rfl⟩ := List.mem_map.mp hm
    exact (h r hr).written
  obtain ⟨hwritten, hnames⟩ := written_callable hexprs (written_of_isBasic hreturn)
  refine ⟨hwritten, fun name hm => ?_⟩
  have hm : name ∈ "Callable" :: _ := hnames ▸ hm
  rcases List.mem_cons.mp hm with rfl | hm
  · exact .inl (by decide)
  rcases List.mem_append.mp hm with hm | hm
  · obtain ⟨expr, hexpr, hm⟩ := List.mem_flatMap.mp hm
    obtain ⟨r, hr, rfl⟩ := List.mem_map.mp hexpr
    refine ((h r hr).names name hm).imp_right fun hannounced => ?_
    have hkept : r.hasDefinition = true := by simp [Resolution.hasDefinition, hannounced.not_blank]
    exact DefinitionSet.announces_join.mpr
      ⟨r.definition, List.mem_map_of_mem (List.mem_filter.mpr ⟨hr, hkept⟩), hannounced⟩
  · rw [namesIn_of_isBasic hreturn, List.mem_singleton] at hm
    exact .inl (hm ▸ hreturn)

/-- The name of a list as a class is the list without spaces. -/
theorem className_list (expr : String) :
    className ("List[" ++ expr ++ "]") = "List[" ++ dropSpaces expr ++ "]" := by
  have htext : dropSpaces ("List[" ++ expr ++ "]") = "List[" ++ dropSpaces expr ++ "]" := by
    rw [TypeName.dropSpaces_append, TypeName.dropSpaces_append]
    rfl
  have hreserved : Identifier.isReserved ("List[" ++ dropSpaces expr ++ "]") = false := by
    have hall : (∀ name ∈ Identifier.keywords, '[' ∉ name.toList) ∧
        ∀ name ∈ Identifier.preambleNames, '[' ∉ name.toList := by decide
    refine Bool.eq_false_iff.mpr fun h => ?_
    unfold Identifier.isReserved Identifier.isKeyword at h
    rcases Bool.or_eq_true _ _ ▸ h with h | h
    · exact hall.1 _ (List.contains_iff_mem.mp h) (by simp)
    · exact hall.2 _ (List.contains_iff_mem.mp h) (by simp)
  unfold className
  dsimp only
  rw [htext, hreserved]
  rfl

/-! ## All types -/

/-- A property of resolutions that each way of building an expression keeps: basic names, lists, a
list without its spaces, what an engine renders, and callables. -/
structure Compositional (engine : Engine) (good : Resolution → Prop) : Prop where
  basic : ∀ {name}, isBasic name = true → good (.plain name)
  list : ∀ {expr definition}, good ⟨expr, definition⟩ → good ⟨"List[" ++ expr ++ "]", definition⟩
  compact : ∀ {expr definition}, good ⟨expr, definition⟩ → good ⟨dropSpaces expr, definition⟩
  render : ∀ schema root {fallback}, good (.plain fallback) →
    good (Schema.render engine schema root fallback)
  callable : ∀ {parameters}, (∀ r ∈ parameters, good r) → ∀ result,
    good (callable parameters result)

namespace Compositional

variable {engine : Engine} {good : Resolution → Prop}

section Parts

variable (k : Compositional engine good)
include k

theorem ofPrimitive (typeName : String) : good (.plain (TypeName.ofPrimitive typeName)) :=
  k.basic (isBasic_ofPrimitive typeName)

theorem listOfPrimitive (typeName : String) :
    good (.plain ("List[" ++ TypeName.ofPrimitive typeName ++ "]")) :=
  k.list (k.ofPrimitive typeName)

theorem mapping : good (.plain "Dict") := k.basic (by decide)

theorem anyList : good (.plain "List") := k.basic (by decide)

theorem listOfMappings : good (.plain "List[Dict]") := k.list k.mapping

theorem listOfSchema (schema : Json) (fallbackTitle : String) :
    good (listOfSchema engine schema fallbackTitle) := by
  unfold Typing.listOfSchema
  split
  · exact k.listOfPrimitive _
  · exact k.render _ _ k.listOfMappings

theorem listOfTitled (schema items : Json) (fallbackTitle : String) :
    good (listOfTitled engine schema items fallbackTitle) := by
  unfold Typing.listOfTitled
  dsimp only
  split
  · exact k.anyList
  · split
    · exact k.list (k.render _ _ k.mapping)
    · exact k.listOfMappings

theorem untitledSchema (schema : Json) (fallbackTitle : String) :
    good (untitledSchema engine schema fallbackTitle) := by
  unfold Typing.untitledSchema
  split
  · exact k.render _ _ k.mapping
  · split
    · exact k.listOfTitled _ _ _
    · split
      · exact k.render _ _ k.mapping
      · exact k.mapping

theorem ofSchema (schema : Json) (fallbackTitle : String) :
    good (ofSchema engine schema fallbackTitle) := by
  unfold Typing.ofSchema
  dsimp only
  split
  · exact k.untitledSchema _ _
  · split
    · exact k.render _ _ k.anyList
    · split
      · exact k.ofPrimitive _
      · exact k.render _ _ k.mapping

theorem ofPlainName (name : String) : good (ofPlainName name) := by
  unfold Typing.ofPlainName
  split
  · exact k.listOfPrimitive _
  · exact k.ofPrimitive _

theorem listOfItem {item : Resolution} (h : good item) :
    good ⟨className ("List[" ++ item.expr ++ "]"), item.definition⟩ := by
  rw [className_list]
  exact k.list (k.compact h)

end Parts

mutual

/-- What each way of building an expression keeps holds of every declared type. -/
theorem resolve (k : Compositional engine good) : ∀ (type : DeclaredType) (fallbackTitle : String),
    good (resolve engine type fallbackTitle)
  | .void, _ => by rw [Typing.resolve]; exact k.basic (by decide)
  | .any, _ => by rw [Typing.resolve]; exact k.basic (by decide)
  | .primitive typeName, _ => by rw [Typing.resolve]; exact k.ofPrimitive typeName
  | .plain value, _ => by rw [Typing.resolve]; exact k.ofPlainName value
  | .array none, _ => by rw [Typing.resolve]; exact k.anyList
  | .array (some items), fallbackTitle => by
      rw [Typing.resolve]
      exact resolveItems k items fallbackTitle
  | .object none _ _, _ => by rw [Typing.resolve]; exact k.mapping
  | .object (some schema) _ _, fallbackTitle => by
      rw [Typing.resolve]
      exact k.ofSchema schema fallbackTitle
  | .function none, _ => by rw [Typing.resolve]; exact k.basic (by decide)
  | .function (some signature), _ => by
      rw [Typing.resolve]
      exact resolveSignature k signature

theorem resolveItems (k : Compositional engine good) : ∀ (items : ArrayItems)
    (fallbackTitle : String), good (resolveItems engine items fallbackTitle)
  | .schema schema, fallbackTitle => by
      rw [Typing.resolveItems]
      exact k.listOfSchema schema fallbackTitle
  | .type type, _ => by
      rw [Typing.resolveItems]
      exact k.listOfItem (resolve k type "")

theorem resolveSignature (k : Compositional engine good) : ∀ signature : Signature,
    good (resolveSignature engine signature)
  | .mk parameters _ _ => by
      rw [Typing.resolveSignature]
      exact k.callable (resolveParameters k parameters) _

theorem resolveParameters (k : Compositional engine good) : ∀ (parameters : List Parameter),
    ∀ r ∈ resolveParameters engine parameters, good r
  | [], _, hm => absurd hm (by simp [Typing.resolveParameters])
  | parameter :: rest, r, hm => by
      rw [Typing.resolveParameters] at hm
      rcases List.mem_cons.mp hm with rfl | hm
      · exact resolveParameter k parameter
      · exact resolveParameters k rest r hm

theorem resolveParameter (k : Compositional engine good) : ∀ parameter : Parameter,
    good (resolveParameter engine parameter)
  | .mk _ _ _ _ type => by
      rw [Typing.resolveParameter]
      exact resolve k type ""

end

end Compositional

theorem compositional_grounded : Compositional builtinEngine Resolution.Grounded where
  basic := grounded_basic
  list := Resolution.Grounded.list
  compact h := ⟨h.written.withoutSpaces.1, fun name hm =>
    h.names name (h.written.withoutSpaces.2 ▸ hm)⟩
  render := grounded_render
  callable := grounded_callable

/-- **A declared type resolves to an expression whose names are basic or written.** -/
theorem grounded_resolve (type : DeclaredType) (fallbackTitle : String) :
    (resolve builtinEngine type fallbackTitle).Grounded :=
  compositional_grounded.resolve type fallbackTitle

end Typing

end StubGen
