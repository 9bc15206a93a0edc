import StubGen.Proofs.Package.Beginning
import StubGen.Proofs.Package.TypeModules
import StubGen.Proofs.Reference.Apply
import StubGen.Proofs.Stub.SchemaNames

/-!
# Names that are bound once

The stubs of a directory are made one by one, and nothing tells whether a name is taken by another
one of them, by a directory that is imported, or by a module of types. So an aggregator binds each
name once where the stubs say so by themselves: where no two of the names that they declare there
are the same, and none is that of a module which is imported. That is all it takes, whatever has
been in the package before: `generate_names_once`.
-/

namespace StubGen

open Disk (Place)
open TopLevel (names)

namespace Renderer

variable {r : Renderer}

/-- The module at the top of a package imports every part of it once. -/
theorem names_topModule {baseUrl : String} {file : PackageFile} (hm : file ∈ r.packageFiles baseUrl)
    (hname : file.path = aggregatorName) :
    names .functions file.content = ["runtime", "poly", "vari", "schemas", "tabi"] := by
  have hruntime : "runtime.py" ≠ aggregatorName := by decide
  rcases List.mem_cons.mp hm with rfl | hm
  · decide +kernel
  · rw [List.mem_singleton.mp hm] at hname
    exact absurd hname hruntime

end Renderer

namespace PackageWriter

variable {w : PackageWriter} {root : Place} {start disk : Disk} {history : List Stub} {stub : Stub}

theorem typesOf_ne_top (root : Place) (stub : Stub) (name : String) :
    typesOf root stub ≠ root ++ [name] := by
  intro hsame
  have hlength := congrArg List.length hsame
  simp only [typesOf, placeIn, List.length_append, List.length_cons, List.length_nil] at hlength
  omega

/-- What is at the top of a package stays as it was begun. -/
theorem Wrote.text?_top (hready : Ready w root start) (h : Wrote w start history disk)
    (name : String) :
    disk.tree.text? (root ++ [name]) = start.tree.text? (root ++ [name]) := by
  induction h with
  | nothing => rfl
  | written hbefore hn hrun ih =>
      obtain ⟨-, hleaves⟩ := write_leaves (hbefore.ready hready) hn hrun
      rw [hleaves.others, ih]
      · exact fun above _ => (aggregatorIn_ne_top root _ _ name).symm
      · exact fun _ => (typesOf_ne_top root _ name).symm
  | failed hbefore hrun ih => rw [((hbefore.ready hready).write_error hrun).2, ih]

end PackageWriter

namespace Generator

open PackageWriter (Binds Ready Wrote Importable aggregatorIn importedIn declaredIn)

variable {g : Generator} {path : String} {root : Place} {start disk after : Disk}

/-- What batches attempt are the specs that they are given. -/
theorem mem_of_mem_attemptsOf {specs : List Spec} {sections : List Section} {spec : Spec}
    {attempt : Attempt} (h : (spec, attempt) ∈ attemptsOf (g.batches specs sections disk).1) :
    spec ∈ specs := by
  induction sections generalizing disk with
  | nil => exact absurd h List.not_mem_nil
  | cons sec sections ih =>
      have hall : attemptsOf (g.batches specs (sec :: sections) disk).1 =
          (g.batch sec specs disk).1.attempts ++
            attemptsOf (g.batches specs sections (g.batch sec specs disk).2).1 := rfl
      rw [hall] at h
      rcases List.mem_append.mp h with h | h
      · have hmine := List.mem_map_of_mem (f := Prod.fst) h
        rw [batch_attempts] at hmine
        exact (List.mem_filter.mp hmine).1
      · exact ih h

/-- **All that a run writes can be imported** where the contexts of the specs are one line each. -/
theorem importable_of_batches {specs : List Spec} {reports : List BatchReport}
    {begun : Disk} {sections : List Section} (hlines : ∀ spec ∈ specs, '\n' ∉ spec.context.toList)
    (hbatches : g.batches ((SchemaIndex.ofSpecs specs).apply specs).items sections begun =
      (reports, after)) :
    ∀ stub ∈ g.stubsOf (attemptsOf reports), ∀ segment ∈ stub.path.segments,
      Importable segment := by
  intro stub hm
  obtain ⟨spec, hspec, hrender⟩ := exists_of_mem_stubsOf hm
  have hitem : spec ∈ ((SchemaIndex.ofSpecs specs).apply specs).items :=
    mem_of_mem_attemptsOf (by rw [hbatches]; exact hspec)
  -- resolving references does not change a context
  rw [SchemaIndex.apply_eq] at hitem
  obtain ⟨given, hgiven, hresolved⟩ := List.mem_filterMap.mp hitem
  obtain ⟨hsame, -⟩ :=
    SchemaIndex.resolveSpec_eq_ok (SchemaIndex.survivor?_eq_some_iff.mp hresolved)
  refine Renderer.importable_of_render hrender ?_
  rw [hsame.context]
  exact hlines given hgiven

/-- The stub of a schema binds each of its names once. -/
theorem nodup_names_of_schema {r : Renderer} {spec : Spec} {stub : Stub}
    (he : r.engine = Schema.builtinEngine) (hcategory : spec.category = .schema)
    (h : r.render spec = .ok stub) : (names .schemas stub.source).Nodup := by
  unfold Renderer.render at h
  rw [hcategory] at h
  obtain ⟨entry, -, hnames⟩ := Renderer.names_schemaStub he h
  rw [hnames]
  exact Renderer.nodup_schemaNames _ _

/-- **Names are bound once** where the specs have names of their own. Take a disk that is reached,
from one on which the path of the package leads to an empty directory, by any runs. Where a further
run succeeds, the module at the top of the package binds each name once. So does every aggregator in
it for which the specs that have been written declare distinct names, of which none is that of a
directory or of a module of types that it imports for them. A schema has distinct names by itself,
those of nested objects and of definitions among them. -/
theorem generate_names_once (hv : Vacant start path root) (h : Reached path root start disk)
    (hg : g.root = path) (hc : disk.Candid) {query : Query} {baseUrl source : String}
    {fetched : List Spec} {generation : Generation}
    (hlines : ∀ spec ∈ fetched, '\n' ∉ spec.context.toList)
    (hrun : g.generate query baseUrl source fetched disk = (.ok generation, after)) :
    let stubs := g.stubsOf (attemptsOf generation.reports)
    (∃ content, after.tree.text? (root ++ [aggregatorName]) = some content ∧
      (names .functions content).Nodup) ∧
    (∀ sec namespaces content,
      after.tree.text? (aggregatorIn root sec namespaces) = some content →
      (declaredIn g.writer stubs sec namespaces).Nodup →
      (∀ name ∈ importedIn stubs sec namespaces, name ∉ declaredIn g.writer stubs sec namespaces) →
      (names sec content).Nodup) ∧
    (g.renderer.engine = Schema.builtinEngine →
      ∀ spec stub, spec.category = .schema → g.renderer.render spec = .ok stub →
        (names .schemas stub.source).Nodup) := by
  intro stubs
  obtain ⟨-, begun, hbegin, hbatches⟩ := generate_eq_ok hrun
  obtain ⟨hready, hbare, file, hfile, hname, htop⟩ := begin_eq_bare hv hg (h.confined hv) hc hbegin
  -- what has been written since the package was begun is told by the stubs of the reports
  have hwrote := wrote_batches (.nothing : Wrote g.writer begun [] begun)
    ((SchemaIndex.ofSpecs (select query fetched)).apply (select query fetched)).items
    (sectionsOf query)
  rw [hbatches, List.nil_append] at hwrote
  have himportable := importable_of_batches
    (fun spec hm => hlines spec (List.mem_filter.mp hm).1) hbatches
  refine ⟨⟨file.content, ?_, ?_⟩, fun sec namespaces content hcontent hdeclared himported => ?_,
    fun he spec stub hcategory hrender => nodup_names_of_schema he hcategory hrender⟩
  · rw [hwrote.text?_top hready, htop]
  · rw [Renderer.names_topModule hfile hname]
    decide
  · have hbinds : Binds sec (importedIn stubs sec namespaces)
        (declaredIn g.writer stubs sec namespaces)
        ((after.tree.text? (aggregatorIn root sec namespaces)).getD (g.writer.preamble sec)) :=
      hwrote.binds hready hbare himportable
    rw [hcontent, Option.getD_some] at hbinds
    exact hbinds.nodup hdeclared himported

/-- A spec whose stub is written is generated. -/
theorem attempt_of_write {spec : Spec} {stub : Stub} (hrender : g.renderer.render spec = .ok stub)
    (hsource : stub.isEmpty = false) (hwrite : g.writer.write stub disk = (.ok (), after)) :
    g.attempt spec disk = (.generated, after) := by
  unfold attempt
  rw [hrender]
  dsimp only
  rw [hsource, hwrite]
  rfl

/-! ### Schemas that make the same identifier -/

/-- A schema for texts. -/
def textSchema (name : String) : Spec :=
  { Spec.blank with
    name := name, category := .schema, definition := some (.obj [("type", .str "string")]) }

/-- The stub of such a schema whose name makes the identifier `pet_name`. -/
def textStub : Stub :=
  let definition := Renderer.shapedDefinition (.obj [("type", .str "string")])
  let type := Schema.render topGenerator.renderer.engine definition "pet_name" "Dict"
  { path := ⟨.schemas, [], "pet_name"⟩
    source :=
      if type.hasDefinition then type.definition
      else Schema.rootName definition "pet_name" "Dict" ++ " = Dict[str, Any]\n"
    typeDefs := "" }

theorem render_textSchema {name : String} (hleaf : Renderer.leafOf name = "pet_name") :
    topGenerator.renderer.render (textSchema name) = .ok textStub := by
  have hpath : Renderer.pathOf .schemas "" "pet_name" = .ok textStub.path :=
    Result.eq_ok_of_toOption (by decide)
  have hentry : (textSchema name).schemaEntry = .ok
      ⟨"", "", name, (textSchema name).qualifiedName, .obj [("type", .str "string")]⟩ := rfl
  have hschema : topGenerator.renderer.render (textSchema name) =
      topGenerator.renderer.schemaStub (textSchema name) := rfl
  rw [hschema]
  unfold Renderer.schemaStub
  rw [hentry, Result.ok_bind]
  dsimp only
  rw [hleaf, hpath, Result.ok_bind]
  rfl

/-- The stub binds the name of the schema, wherever it stands. -/
theorem reads_textStub :
    TopLevel.Reads true (Text.splitChars '\n' textStub.source.toList) ["pet_name".toList] := by
  have hleaf : Renderer.leafOf "pet_name" = "pet_name" := by decide
  have hschema : topGenerator.renderer.schemaStub (textSchema "pet_name") = .ok textStub :=
    render_textSchema hleaf
  have hentry' : (textSchema "pet_name").schemaEntry = .ok ⟨"", "", "pet_name",
      (textSchema "pet_name").qualifiedName, .obj [("type", .str "string")]⟩ := rfl
  have hnames : Renderer.schemaNames
      (Renderer.shapedDefinition (.obj [("type", .str "string")])) "pet_name" = ["pet_name"] := by
    decide +kernel
  obtain ⟨entry, hentry, hreads⟩ := Renderer.reads_schemaStub rfl hschema
  rw [← Except.ok.inj (hentry'.symm.trans hentry)] at hreads
  dsimp only at hreads
  rwa [hleaf, hnames] at hreads

theorem names_textStub : names .schemas textStub.source = ["pet_name"] := by
  have hread : TopLevel.namesFrom Section.schemas.hasAliases none
      (Text.splitChars '\n' textStub.source.toList) = _ := reads_textStub none
  unfold names
  rw [hread, List.map_singleton, String.ofList_toList]

/-- What binds a name is not blank. -/
theorem isEmpty_textStub : textStub.isEmpty = false := by
  have hnames := names_textStub
  rw [Bool.eq_false_iff]
  intro hblank
  have hnone := TopLevel.names_append_blank (List.all_eq_true.mp hblank) .schemas ""
  rw [String.empty_append, hnames] at hnone
  exact absurd hnone nofun

theorem write_textStub (disk : Disk) : topGenerator.writer.write textStub disk =
    Transaction.atomically (topGenerator.writer.writeIn textStub) disk := by
  unfold PackageWriter.write
  rw [isEmpty_textStub]
  rfl

/-- A schema that is written adds its name to those of the aggregator. -/
theorem names_attempt_textSchema {name : String} (hleaf : Renderer.leafOf name = "pet_name")
    (hready : Ready topGenerator.writer [] disk)
    (hwrite : topGenerator.writer.write textStub disk = (.ok (), after)) :
    topGenerator.attempt (textSchema name) disk = (.generated, after) ∧
      Ready topGenerator.writer [] after ∧
      ∃ content, after.tree.text? (aggregatorIn [] .schemas []) = some content ∧
        names .schemas content =
          names .schemas ((disk.tree.text? (aggregatorIn [] .schemas [])).getD
            (topGenerator.writer.preamble .schemas)) ++ ["pet_name"] := by
  have hrender := render_textSchema hleaf
  obtain ⟨hnext, hleaves⟩ := PackageWriter.write_leaves hready
    (PackageWriter.plain_of_render hrender) hwrite
  refine ⟨attempt_of_write hrender isEmpty_textStub hwrite, hnext, _, hleaves.declared, ?_⟩
  rw [@PackageWriter.names_withStub .schemas _ _ rfl reads_textStub, names_textStub]
  rfl

theorem vacant_emptyDisk : Vacant emptyDisk "" [] := ⟨Disk.Tree.wellFormed_empty, rfl, rfl⟩

/-- What batches attempt where all specs are schemas. -/
theorem batches_schemas {specs : List Spec}
    (hmine : specs.filter (fun spec => Section.schemas.holds spec.category) = specs)
    (hothers : ∀ sec ∈ [Section.functions, .variables, .tables],
      specs.filter (fun spec => sec.holds spec.category) = []) (disk : Disk) :
    attemptsOf (g.batches specs Section.all disk).1 = (g.attemptAll specs disk).1 ∧
      (g.batches specs Section.all disk).2 = (g.attemptAll specs disk).2 := by
  have hfunctions := hothers .functions (by simp)
  have hvariables := hothers .variables (by simp)
  have htables := hothers .tables (by simp)
  unfold Section.all
  simp [batches, batch, attemptsOf, hmine, hfunctions, hvariables, htables, attemptAll]

/-- A name of its own is bound once. -/
theorem generate_names_once_text :
    let specs := [textSchema "pet name"]
    ∃ generation after,
      Vacant emptyDisk "" [] ∧ Reached "" [] emptyDisk emptyDisk ∧ topGenerator.root = "" ∧
      emptyDisk.Candid ∧ (∀ spec ∈ specs, '\n' ∉ spec.context.toList) ∧
      topGenerator.generate .everything "" "" specs emptyDisk = (.ok generation, after) ∧
      (∃ content, after.tree.text? [aggregatorName] = some content ∧
        (names .functions content).Nodup) ∧
      ∀ content, after.tree.text? (aggregatorIn [] .schemas []) = some content →
        (names .schemas content).Nodup := by
  intro specs
  have hbegun : (topGenerator.begin "" (select .everything specs) emptyDisk).1.toBool = true := by
    decide +kernel
  obtain ⟨_, begun, hbegin⟩ := Result.run_of_toBool hbegun
  obtain ⟨generation, after, hrun⟩ := @generate_of_begin _ _ .everything "" "" specs rfl _ hbegin
  have hlines : ∀ spec ∈ specs, '\n' ∉ spec.context.toList := by decide
  have hcandid : emptyDisk.Candid := List.not_mem_nil
  obtain ⟨htop, honce, -⟩ :=
    generate_names_once vacant_emptyDisk .start rfl hcandid hlines hrun
  obtain ⟨-, begun, -, hbatches⟩ := generate_eq_ok hrun
  have hattempts : attemptsOf generation.reports =
      [(textSchema "pet name", (topGenerator.attempt (textSchema "pet name") begun).1)] := by
    have hall := (@batches_schemas topGenerator specs rfl (by decide) begun).1
    have hbatches : topGenerator.batches specs Section.all begun = (generation.reports, after) :=
      hbatches
    rw [hbatches] at hall
    exact hall
  -- there is at most the one stub, whose name is all that the aggregator binds
  have hpreamble : names .schemas (topGenerator.writer.preamble .schemas) = [] := by decide +kernel
  have hstubs : topGenerator.stubsOf (attemptsOf generation.reports) = [] ∨
      topGenerator.stubsOf (attemptsOf generation.reports) = [textStub] := by
    rw [hattempts]
    unfold stubsOf
    rw [List.filterMap_cons, List.filterMap_nil]
    dsimp only
    rw [@render_textSchema "pet name" (by decide)]
    split
    · exact .inl rfl
    · rename_i stub hstub
      split at hstub
      · exact .inr (congrArg (fun stub => [stub]) (Option.some.inj hstub).symm)
      · exact absurd hstub nofun
  refine ⟨generation, after, vacant_emptyDisk, .start, rfl, hcandid, hlines, hrun, htop,
    fun content hcontent => honce .schemas [] content hcontent ?_ ?_⟩
  · unfold declaredIn
    rw [hpreamble]
    rcases hstubs with hstubs | hstubs <;> rw [hstubs]
    · exact List.nodup_nil
    · have hdeclares : PackageWriter.declaresFor .schemas [] textStub = ["pet_name"] :=
        (if_pos ⟨rfl, rfl⟩).trans names_textStub
      rw [List.flatMap_singleton, hdeclares]
      decide
  · have himports : PackageWriter.importsFor .schemas [] textStub = [] := rfl
    unfold importedIn
    rcases hstubs with hstubs | hstubs <;> rw [hstubs]
    · exact nofun
    · rw [List.flatMap_singleton, himports]
      exact nofun

/-- **A name is bound twice** where the names of two schemas make the same identifier. -/
theorem generate_names_twice :
    let specs := [textSchema "pet name", textSchema "pet_name"]
    (specs.map fun spec => (spec.category, spec.context, spec.name)).Nodup ∧
      ∃ generation after content,
        topGenerator.generate .everything "" "" specs emptyDisk = (.ok generation, after) ∧
        after.tree.text? (aggregatorIn [] .schemas []) = some content ∧
        ¬ (names .schemas content).Nodup := by
  intro specs
  refine ⟨by decide, ?_⟩
  have hbegun : (topGenerator.begin "" (select .everything specs) emptyDisk).1.toBool = true := by
    decide +kernel
  obtain ⟨_, begun, hbegin⟩ := Result.run_of_toBool hbegun
  obtain ⟨generation, after, hrun⟩ := @generate_of_begin _ _ .everything "" "" specs rfl _ hbegin
  obtain ⟨-, begun', hbegin', hbatches⟩ := generate_eq_ok hrun
  obtain rfl : begun' = begun := (Prod.mk.inj (hbegin'.symm.trans hbegin)).2
  have hbegun' : begun' = (topGenerator.begin "" (select .everything specs) emptyDisk).2 := by
    rw [hbegin]
  have hready : Ready topGenerator.writer [] begun' :=
    (begin_eq_bare vacant_emptyDisk rfl vacant_emptyDisk.confined List.not_mem_nil hbegin).1
  -- both stubs are written
  have hfirst : (topGenerator.writer.write textStub begun').1.toBool = true := by
    rw [write_textStub, hbegun']
    decide +kernel
  have hsecond : (topGenerator.writer.write textStub
      (topGenerator.writer.write textStub begun').2).1.toBool = true := by
    rw [write_textStub, write_textStub, hbegun']
    decide +kernel
  obtain ⟨_, between, hfirst⟩ := Result.run_of_toBool hfirst
  rw [hfirst] at hsecond
  obtain ⟨_, last, hsecond⟩ := Result.run_of_toBool hsecond
  obtain ⟨hattempt, hbetween, first, hcontent, hnames⟩ :=
    @names_attempt_textSchema _ _ "pet name" (by decide) hready hfirst
  obtain ⟨hattempt', -, content, hboth, htwice⟩ :=
    @names_attempt_textSchema _ _ "pet_name" (by decide) hbetween hsecond
  obtain rfl : after = last := by
    have hall := (@batches_schemas topGenerator specs rfl (by decide) begun').2
    have hbatches : topGenerator.batches specs Section.all begun' = (generation.reports, after) :=
      hbatches
    rw [hbatches] at hall
    dsimp only at hall
    rw [hall, attemptAll_cons, hattempt, attemptAll_cons, hattempt']
    rfl
  rw [hcontent, Option.getD_some, hnames] at htwice
  refine ⟨generation, after, content, hrun, hboth, fun hnodup => ?_⟩
  rw [htwice, List.append_assoc] at hnodup
  exact absurd (List.nodup_append.mp hnodup).2.1 (by decide)

end Generator

end StubGen
