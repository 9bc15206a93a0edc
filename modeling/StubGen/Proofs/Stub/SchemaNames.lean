import StubGen.Proofs.Stub.Paths
import StubGen.Proofs.Stub.TopLevel

/-!
# The names that schemas bind

A declaration binds its own name and nothing else: the lines behind the one that its name stands in
are further in or list what is in brackets. So the stub of a schema binds the names of all its
declarations, those of nested objects and of definitions as well as its own: `names_schemaStub`.
-/

namespace StubGen

open Text (splitChars isBlank trimEndChars)
open Identifier (isIdentifierChar)

namespace TopLevel

variable {aliases : Bool} {within : Option Nat} {name : String}

/-! ## Names at the beginning of a line -/

theorem isNameChar_of_isBlank {c : Char} (h : isBlank c = true) : isNameChar c = false :=
  Text.eq_false_of_isBlank (by decide) h

theorem isNameChar_of_isIdentifierChar {c : Char} (h : isIdentifierChar c = true) :
    isNameChar c = true := by
  by_cases hc : c.toNat < 128
  · have hall := Text.ascii_forall (p := fun c => !isIdentifierChar c || isNameChar c)
      (by decide) hc
    simpa [h] using hall
  · unfold isNameChar
    rw [if_neg hc, Bool.not_eq_true']
    exact Text.isBlank_of_isIdentifierChar h

theorem isNameChar_of_mem_toUpper {c d : Char} (h : isNameChar c = true) (hm : d ∈ Text.toUpper c) :
    isNameChar d = true := by
  rcases Text.mem_toUpper hm with
    ⟨hc, rfl⟩ | ⟨-, rfl⟩ | ⟨entry, hentry, n, hn, rfl⟩ | ⟨run, hrun, k, hk, -, rfl⟩
  · have hall := Text.ascii_forall (p := fun c => !isNameChar c || isNameChar c.toUpper)
      (by decide +kernel) hc
    simpa [h] using hall
  · exact h
  · have hall : (Text.upperExpansions.all fun entry =>
        entry.2.all fun n => isNameChar (Char.ofNat n)) = true := by decide +kernel
    exact List.all_eq_true.mp (List.all_eq_true.mp hall entry hentry) n hn
  · have hall : (Text.upperRuns.all fun run => (List.range (run.last + 1 - run.first)).all fun k =>
        isNameChar (Char.ofNat (((run.first + k : Nat) : Int) + run.offset).toNat)) = true := by
      decide +kernel
    exact List.all_eq_true.mp (List.all_eq_true.mp hall run hrun) k (List.mem_range.mpr hk)

/-- A name that can be told from what stands behind it. -/
structure Legible (name : String) : Prop where
  nonempty : name ≠ ""
  chars : ∀ c ∈ name.toList, isNameChar c = true

theorem Legible.exists_cons (h : Legible name) :
    ∃ c cs, name.toList = c :: cs ∧ isBlank c = false ∧ isSilent [c] = false := by
  obtain ⟨c, cs, hname⟩ := List.exists_cons_of_ne_nil fun hnil =>
    h.nonempty (String.toList_eq_nil_iff.mp hnil)
  have hc : isNameChar c = true := h.chars c (hname ▸ List.mem_cons_self)
  refine ⟨c, cs, hname, Bool.eq_false_iff.mpr fun hblank => ?_, Bool.eq_false_iff.mpr fun hs => ?_⟩
  · rw [isNameChar_of_isBlank hblank] at hc
    exact Bool.noConfusion hc
  · simp only [isSilent, Bool.or_eq_true, beq_iff_eq] at hs
    rcases hs with ((rfl | rfl) | rfl) | rfl <;> exact absurd hc (by decide)

theorem Legible.takeWhile (h : Legible name) {c : Char} (hc : isNameChar c = false)
    (cs : List Char) : (name.toList ++ c :: cs).takeWhile isNameChar = name.toList := by
  rw [List.takeWhile_append_of_pos h.chars, List.takeWhile_cons_of_neg (by simp [hc]),
    List.append_nil]

theorem Legible.dropWhile (h : Legible name) {c : Char} (hc : isNameChar c = false)
    (cs : List Char) : (name.toList ++ c :: cs).dropWhile isNameChar = c :: cs := by
  rw [List.dropWhile_append_of_pos h.chars, List.dropWhile_cons_of_neg (by simp [hc])]

theorem Legible.name?_eq (h : Legible name) {c : Char} (hc : isNameChar c = false)
    (cs : List Char) : name? (name.toList ++ c :: cs) = some name.toList := by
  unfold name?
  rw [h.takeWhile hc]
  have hne : name.toList.isEmpty = false := by
    simpa using h.nonempty
  dsimp only
  rw [hne]
  rfl

/-! ## Lines of declarations -/

/-- A class is declared in the line that it begins with. -/
theorem read_class (h : Legible name) (aliases : Bool) (within : Option Nat) :
    read aliases within ("class " ++ name ++ "(TypedDict, total=False):").toList =
      (some 0, [name.toList]) := by
  let behind := name.toList ++ '(' :: "TypedDict, total=False):".toList
  have htext : ("class " ++ name ++ "(TypedDict, total=False):").toList =
      'c' :: ("lass ".toList ++ behind) := by simp [behind]
  have htrim : trimEndChars ("lass ".toList ++ behind) = "lass ".toList ++ behind := by
    have hbehind : "lass ".toList ++ behind =
        ("lass ".toList ++ name.toList ++ "(TypedDict, total=False)".toList) ++ [':'] := by
      simp [behind]
    rw [hbehind, Text.trimEndChars_append_of_self (by simp) (by decide)]
  have hname : name? behind = some name.toList := h.name?_eq (c := '(') (by decide) _
  have hdeclared : declared? ('c' :: ("lass ".toList ++ behind)) = some name.toList := by
    have hafter : Text.afterChars? "class ".toList ('c' :: ("lass ".toList ++ behind)) =
        some behind := rfl
    unfold declared?
    rw [List.findSome?_cons, List.findSome?_cons, List.findSome?_cons, hafter, Option.bind_some,
      hname]
    rfl
  rw [htext, read_margin (by decide) (by decide), htrim, hdeclared]

/-- A line that begins with a name and an equals sign declares no function or class. -/
theorem declared?_assignment (h : Legible name) (cs : List Char) :
    declared? (name.toList ++ ' ' :: '=' :: cs) = none := by
  have hdrop := h.dropWhile (c := ' ') (by decide) ('=' :: cs)
  unfold declared?
  rw [List.findSome?_eq_none_iff]
  intro keyword hm
  cases hafter : Text.afterChars? keyword.toList (name.toList ++ ' ' :: '=' :: cs) with
  | none => rfl
  | some rest =>
      -- the name would be a keyword with nothing that has a name behind it
      rw [Text.afterChars?_eq_some_iff.mp hafter] at hdrop
      simp only [List.mem_cons, List.not_mem_nil, or_false] at hm
      rcases hm with rfl | rfl | rfl
      · obtain rfl : rest = '=' :: cs := (List.cons.inj hdrop).2
        rfl
      · exact absurd (List.cons.inj (List.cons.inj hdrop).2).1 (by decide)
      · obtain rfl : rest = '=' :: cs := (List.cons.inj hdrop).2
        rfl

/-- **What begins with a name and an equals sign binds the name** where aliases count. -/
theorem read_assignment (h : Legible name) (within : Option Nat) {c : Char}
    (hc : isBlank c = false) (cs : List Char) :
    read true within (name.toList ++ " = ".toList ++ c :: cs) = (none, [name.toList]) := by
  obtain ⟨first, rest, hname, hblank, hloud⟩ := h.exists_cons
  have htext : first :: trimEndChars (rest ++ " = ".toList ++ c :: cs) =
      name.toList ++ ' ' :: '=' :: ' ' :: c :: trimEndChars cs := by
    rw [Text.trimEndChars_append hc, hname]
    simp
  have hbound : bound? true (name.toList ++ ' ' :: '=' :: ' ' :: c :: trimEndChars cs) =
      some name.toList := by
    -- behind the name there is an equals sign, and not what an import needs
    have himport : Text.afterChars? "from . import ".toList
        (name.toList ++ ' ' :: '=' :: ' ' :: c :: trimEndChars cs) = none := by
      rw [Option.eq_none_iff_forall_ne_some]
      intro child hchild
      have hdrop := h.dropWhile (c := ' ') (by decide) ('=' :: ' ' :: c :: trimEndChars cs)
      rw [Text.afterChars?_eq_some_iff.mp hchild] at hdrop
      exact absurd (List.cons.inj (List.cons.inj hdrop).2).1 (by decide)
    unfold bound? assigned?
    rw [himport, h.dropWhile (c := ' ') (by decide), h.name?_eq (c := ' ') (by decide)]
    rfl
  have hline : name.toList ++ " = ".toList ++ c :: cs =
      first :: (rest ++ " = ".toList ++ c :: cs) := by
    rw [hname, List.cons_append, List.cons_append]
  rw [hline, read_margin hblank hloud, htext, declared?_assignment h, hbound]
  rfl

/-- A key in quotes binds nothing. -/
theorem quiet_quoted (aliases : Bool) (cs : List Char) :
    Quiet aliases none ("    ".toList ++ '"' :: cs) := by
  have hassigned : assigned? ('"' :: trimEndChars cs) = none := rfl
  have hbound : bound? aliases ('"' :: trimEndChars cs) = none := by
    have himport : Text.afterChars? "from . import ".toList ('"' :: trimEndChars cs) = none := rfl
    unfold bound?
    rw [himport, hassigned]
    cases aliases <;> rfl
  have hdeclared : declared? ('"' :: trimEndChars cs) = none := rfl
  unfold Quiet
  rw [read_eq (List.all_eq_true.mp (by decide)) (by decide), hdeclared, hbound]
  rfl

end TopLevel

namespace Schema

open TopLevel

/-! ## Names of declarations -/

/-- The characters of names stay such when they are raised. -/
theorem alphabet_isNameChar : Alphabet (isNameChar · = true) where
  identifier _ := isNameChar_of_isIdentifierChar
  upper _ h _ hm := isNameChar_of_mem_toUpper h hm

/-- All names that a document makes can be told from what stands behind them. -/
theorem naming_legible : Naming Legible where
  definition key := ⟨Identifier.upperFirst_ne_empty (sanitize_ne_empty _),
    alphabet_isNameChar.naming.definition key⟩
  nested h property := ⟨by simp [nestedName], alphabet_isNameChar.naming.nested h.chars property⟩
  longer h hmore := ⟨by simp [h.nonempty], alphabet_isNameChar.naming.longer h.chars hmore⟩

theorem legible_rootName (schema : Json) (root fallback : String) :
    Legible (rootName schema root fallback) where
  nonempty := rootName_ne_empty schema root fallback
  chars c hm := isNameChar_of_isIdentifierChar
    (List.all_eq_true.mp (identifierChars_rootName schema root fallback) c hm)

/-! ## Texts of declarations -/

theorem TypeExpr.exists_cons_render (expr : TypeExpr) :
    ∃ c cs, expr.render.toList = c :: cs ∧ isBlank c = false := by
  cases expr <;>
    refine ⟨_, _, by rw [TypeExpr.render]; simp; exact ⟨rfl, rfl⟩, by decide⟩

theorem TypeExpr.exists_cons_renderAlias {expr : TypeExpr} (h : expr.Proper Legible) :
    ∃ c cs, expr.renderAlias.toList = c :: cs ∧ isBlank c = false := by
  unfold TypeExpr.renderAlias
  split
  · obtain ⟨c, cs, hname, hc, -⟩ := Legible.exists_cons h
    exact ⟨c, cs, hname, hc⟩
  · exact expr.exists_cons_render

namespace Declaration

variable {name : String} {fields : List Field}

theorem reads_classLines (hname : Legible name) (hline : OneLine name) (doc : Option String)
    (hfits : fitsClass fields = true) (htypes : ∀ field ∈ fields, field.type.Proper OneLine) :
    Reads true (splitChars '\n' (Text.join "\n" (classLines name doc fields)).toList)
      [name.toList] := by
  obtain ⟨body, hlines, hbody⟩ := classLines_eq name doc hfits htypes
  have hfirst : OneLine ("class " ++ name ++ "(TypedDict, total=False):") :=
    hline.between (by decide) (by decide)
  intro within
  rw [hlines, Text.splitChars_join (List.cons_ne_nil _ _), List.flatMap_cons,
    Text.splitChars_of_not_mem hfirst, List.singleton_append, namesFrom, read_class hname,
    namesFrom_quiet, List.append_nil]
  intro line hm
  obtain ⟨piece, hpiece, hline⟩ := List.mem_flatMap.mp hm
  rcases hbody piece hpiece with hinner | rfl
  · obtain ⟨rest, rfl⟩ := hinner line hline
    exact quiet_inner rest
  · rw [List.mem_singleton.mp hline]
    exact quiet_blank fun _ hm => absurd hm List.not_mem_nil

theorem reads_keyedLines (hname : Legible name) (hline : OneLine name) (doc : Option String)
    (htypes : ∀ field ∈ fields, field.type.Proper OneLine) :
    Reads true (splitChars '\n' (Text.join "\n" (keyedLines name doc fields)).toList)
      [name.toList] := by
  have hnil : ∀ c ∈ ([] : List Char), isBlank c = true := by simp
  -- the comment, the line with the name, and what is in the brackets
  let comment := (doc.map fun text => "# " ++ Quoting.comment text).toList
  let call := name ++ " = TypedDict(" ++ Quoting.literal name ++ ", \x7b"
  let entries := fields.flatMap keyedField ++ ["\x7d, total=False)"]
  have hpieces : keyedLines name doc fields = comment ++ (call :: entries) := by
    simp [keyedLines, comment, call, entries]
  have hcomment : Reads true (comment.flatMap fun piece => splitChars '\n' piece.toList) [] := by
    intro within
    refine namesFrom_quiet fun line hm => ?_
    obtain ⟨piece, hpiece, hm⟩ := List.mem_flatMap.mp hm
    obtain ⟨text, -, rfl⟩ := Option.map_eq_some_iff.mp (Option.mem_toList.mp hpiece)
    rw [Text.splitChars_of_not_mem (OneLine.append (by decide) (not_mem_comment text)),
      List.mem_singleton] at hm
    rw [hm, String.toList_append]
    exact @quiet_silent _ _ [] _ _ hnil (by decide) (by decide)
  have hentries : ∀ line ∈ entries.flatMap fun piece => splitChars '\n' piece.toList,
      Quiet true none line := by
    intro line hm
    obtain ⟨piece, hpiece, hm⟩ := List.mem_flatMap.mp hm
    rcases List.mem_append.mp hpiece with hpiece | hpiece
    · obtain ⟨field, hfield, hpiece⟩ := List.mem_flatMap.mp hpiece
      obtain ⟨hone, c, cs, htext, hc⟩ := keyedField_cases (htypes field hfield) piece hpiece
      rw [Text.splitChars_of_not_mem hone, List.mem_singleton] at hm
      rw [hm, htext]
      rcases hc with rfl | rfl
      · exact quiet_silent (List.all_eq_true.mp (by decide)) (by decide) (by decide)
      · exact quiet_quoted true cs
    · rw [List.mem_singleton.mp hpiece, Text.splitChars_of_not_mem (by decide),
        List.mem_singleton] at hm
      rw [hm]
      exact @quiet_silent _ _ [] _ _ hnil (by decide) (by decide)
  have hcall : Reads true ((call :: entries).flatMap fun piece => splitChars '\n' piece.toList)
      [name.toList] := by
    intro within
    have htext : call.toList = name.toList ++ " = ".toList ++
        'T' :: ("ypedDict(" ++ Quoting.literal name ++ ", \x7b").toList := by simp [call]
    rw [List.flatMap_cons, Text.splitChars_of_not_mem (oneLine_keyedHeader hline),
      List.singleton_append, namesFrom, htext, read_assignment hname within (by decide),
      namesFrom_quiet hentries]
    rfl
  rw [hpieces, Text.splitChars_join (by simp), List.flatMap_append]
  exact hcomment.append hcall

/-- **The text of a declaration binds its name** and nothing else. -/
theorem reads_render {d : Declaration} (hl : d.Proper Legible) (ho : d.Proper OneLine) :
    Reads true (splitChars '\n' d.render.toList) [d.name.toList] := by
  cases d with
  | «alias» name type =>
      obtain ⟨c, cs, htext, hc⟩ := TypeExpr.exists_cons_renderAlias hl.2
      have hline : OneLine (Declaration.alias name type).render :=
        (ho.1.append (by decide)).append (oneLine_renderAlias ho.2)
      have hrender : (Declaration.alias name type).render.toList =
          name.toList ++ " = ".toList ++ c :: cs := by
        simp [render, htext]
      intro within
      rw [Text.splitChars_of_not_mem hline, namesFrom, hrender, read_assignment hl.1 within hc]
      rfl
  | record name doc fields =>
      rw [render, Declaration.name]
      split
      · exact reads_classLines hl.1 ho.1 doc ‹_› ho.2
      · exact reads_keyedLines hl.1 ho.1 doc ho.2

theorem toList_header : ∃ rest, header.toList = 'f' :: rest ++ ['\n'] :=
  ⟨(header.toList.drop 1).dropLast, by decide⟩

/-- **A module of declarations binds their names.** -/
theorem reads_renderModule {ds : List Declaration} (hl : ∀ d ∈ ds, d.Proper Legible)
    (ho : ∀ d ∈ ds, d.Proper OneLine) :
    Reads true (splitChars '\n' (renderModule ds).toList) (ds.map fun d => d.name.toList) := by
  obtain ⟨rest, hheader⟩ := toList_header
  have htext : (renderModule ds).toList = 'f' :: rest ++
      '\n' :: ((Text.join "\n\n\n" (ds.map render)).toList ++ '\n' :: []) := by
    simp [renderModule, hheader]
  have himports : Reads true (splitChars '\n' ('f' :: rest)) [] := by
    have hnone : namesFrom true none (splitChars '\n' (header.toList.dropLast)) = [] := by
      decide
    rw [hheader, List.dropLast_concat] at hnone
    rw [← hnone]
    exact reads_of_margin (by decide) (by decide) rest
  have hblocks : Reads true (splitChars '\n' (Text.join "\n\n\n" (ds.map render)).toList)
      (ds.map fun d => d.name.toList) := by
    rw [← List.flatMap_singleton' (ds.map fun d => d.name.toList), List.flatMap_map]
    exact reads_join fun d hm => reads_render (hl d hm) (ho d hm)
  rw [htext, Text.splitChars_append_sep, Text.splitChars_append_sep]
  have hall := himports.append (hblocks.append reads_empty)
  rwa [List.nil_append, List.append_nil] at hall

theorem isBlankText_renderModule (ds : List Declaration) :
    Text.isBlankText (renderModule ds) = false := by
  obtain ⟨rest, hheader⟩ := toList_header
  rw [Text.isBlankText, renderModule, String.toList_append, String.toList_append, hheader]
  rfl

end Declaration

theorem reads_declarations {schema : Json} {root : String} {maxDepth : Nat}
    {ds : List Declaration} (h : declarations ⟨schema, root, maxDepth⟩ = .ok ds)
    (hl : Legible root) (ho : OneLine root) :
    Reads true (splitChars '\n' (Declaration.renderModule ds).toList)
      (ds.map fun d => d.name.toList) := by
  have hlegible := @proper_declarations _ naming_legible ⟨schema, root, maxDepth⟩ ds hl h
  have honeLine := @proper_declarations _ naming_oneLine ⟨schema, root, maxDepth⟩ ds ho h
  exact Declaration.reads_renderModule hlegible honeLine

/-- There is something behind a name if declarations are. -/
theorem hasDefinition_renderModule (name : String) (ds : List Declaration) :
    Resolution.hasDefinition ⟨name, Declaration.renderModule ds⟩ = true := by
  rw [Resolution.hasDefinition, Declaration.isBlankText_renderModule]
  rfl

section

variable {engine : Engine} {definition : Json} {leaf fallback source : String}

theorem render_of_error {e : SchemaError}
    (h : engine (normalizeEnums definition) (rootName definition leaf fallback) = .error e) :
    render engine definition leaf fallback = .plain fallback := by
  unfold render
  dsimp only
  rw [h]

theorem render_of_ok
    (h : engine (normalizeEnums definition) (rootName definition leaf fallback) = .ok source) :
    render engine definition leaf fallback =
      ⟨rootName definition leaf fallback, cleanExamples source⟩ := by
  unfold render
  dsimp only
  rw [h]

/-- A schema that can be declared is rendered to its declarations, of which nothing is cleaned
away. -/
theorem render_eq_ok {ds : List Declaration} (hline : OneLine (rootName definition leaf fallback))
    (h : declarations ⟨normalizeEnums definition, rootName definition leaf fallback,
      defaultMaxDepth⟩ = .ok ds) : render builtinEngine definition leaf fallback =
        ⟨rootName definition leaf fallback, Declaration.renderModule ds⟩ := by
  have hsource : builtinEngine (normalizeEnums definition) (rootName definition leaf fallback) =
      .ok (Declaration.renderModule ds) := by
    unfold builtinEngine generate
    rw [h]
    rfl
  rw [render_of_ok hsource, cleanExamples_of_generate hline hsource]

theorem render_eq_error {e : SchemaError}
    (h : declarations ⟨normalizeEnums definition, rootName definition leaf fallback,
      defaultMaxDepth⟩ = .error e) :
    render builtinEngine definition leaf fallback = .plain fallback := by
  have hsource : builtinEngine (normalizeEnums definition) (rootName definition leaf fallback) =
      .error e := by
    unfold builtinEngine generate
    rw [h]
    rfl
  exact render_of_error hsource

end

end Schema

/-! ## Stubs of schemas -/

namespace Renderer

open TopLevel (Reads Legible reads_empty read_assignment)
open Schema (rootName normalizeEnums defaultMaxDepth declarations)

variable {r : Renderer} {spec : Spec} {stub : Stub}

/-- The names that a schema declares: those of all its declarations, or the one that stands for any
mapping. -/
def schemaNames (definition : Json) (leaf : String) : List String :=
  let root := rootName definition leaf "Dict"
  match declarations ⟨normalizeEnums definition, root, defaultMaxDepth⟩ with
  | .ok ds => ds.map Schema.Declaration.name
  | .error _ => [root]

/-- No schema declares a name twice. -/
theorem nodup_schemaNames (definition : Json) (leaf : String) :
    (schemaNames definition leaf).Nodup := by
  unfold schemaNames
  dsimp only
  split
  · exact (Schema.closed_declarations ‹_›).distinct
  · exact List.pairwise_singleton _ _

/-- The declaration that allows any mapping binds its name. -/
theorem reads_fallback {name : String} (hname : Legible name) (hline : OneLine name) :
    Reads true (splitChars '\n' (name ++ " = Dict[str, Any]\n").toList) [name.toList] := by
  have htext : (name ++ " = Dict[str, Any]\n").toList =
      (name.toList ++ " = ".toList ++ 'D' :: "ict[str, Any]".toList) ++ '\n' :: [] := by simp
  have hfirst : '\n' ∉ name.toList ++ " = ".toList ++ 'D' :: "ict[str, Any]".toList := by
    have hname : '\n' ∉ name.toList := hline
    simp [hname]
  intro within
  rw [htext, Text.splitChars_append_sep, Text.splitChars_of_not_mem hfirst, List.singleton_append,
    TopLevel.namesFrom, read_assignment hname within (by decide)]
  rfl

/-- The stub of a schema reads the same wherever it stands: it has the names of all its
declarations, be they nested objects or definitions. -/
theorem reads_schemaStub (he : r.engine = Schema.builtinEngine) (h : r.schemaStub spec = .ok stub) :
    ∃ entry, spec.schemaEntry = .ok entry ∧
      Reads true (splitChars '\n' stub.source.toList)
        ((schemaNames (shapedDefinition entry.definition) (leafOf entry.name)).map
          String.toList) := by
  obtain ⟨entry, hentry, h⟩ := Result.bind_eq_ok_iff.mp h
  obtain ⟨path, -, h⟩ := Result.bind_eq_ok_iff.mp h
  obtain rfl := Result.pure_eq_ok_iff.mp h
  refine ⟨entry, hentry, ?_⟩
  dsimp only
  generalize shapedDefinition entry.definition = definition
  generalize leafOf entry.name = leaf
  have hroot := Schema.legible_rootName definition leaf "Dict"
  have hline := Schema.oneLine_of_identifierChars
    (Schema.identifierChars_rootName definition leaf "Dict")
  unfold schemaNames
  dsimp only
  rw [he]
  -- an engine that fails leaves one line, which binds the name of the root
  cases hds : declarations ⟨normalizeEnums definition, rootName definition leaf "Dict",
      defaultMaxDepth⟩ with
  | ok ds =>
      rw [Schema.render_eq_ok hline hds, if_pos (Schema.hasDefinition_renderModule _ ds)]
      dsimp only
      rw [List.map_map]
      exact Schema.reads_declarations hds hroot hline
  | error e =>
      rw [Schema.render_eq_error hds]
      exact reads_fallback hroot hline

/-- **A schema binds the names of all its declarations,** each of them once. -/
theorem names_schemaStub (he : r.engine = Schema.builtinEngine) (h : r.schemaStub spec = .ok stub) :
    ∃ entry, spec.schemaEntry = .ok entry ∧ TopLevel.names .schemas stub.source =
      schemaNames (shapedDefinition entry.definition) (leafOf entry.name) := by
  obtain ⟨entry, hentry, hreads⟩ := reads_schemaStub he h
  refine ⟨entry, hentry, ?_⟩
  have hread : TopLevel.namesFrom Section.schemas.hasAliases none
      (splitChars '\n' stub.source.toList) = _ := hreads none
  unfold TopLevel.names
  rw [hread, List.map_map]
  exact (List.map_congr_left fun name _ => String.ofList_toList).trans (List.map_id _)

end Renderer

end StubGen
