import StubGen.Proofs.Package.Contents
import StubGen.Proofs.Package.Isolation
import StubGen.Proofs.Stub.Paths

/-!
# Modules of types

The types of a stub stand in a module of their own beside the aggregator that the stub is declared
in, which imports that module. The module goes by the leaf of the stub, so another stub with types
takes its place if it has the same path, as two names may make the same identifier. Nothing else
touches it: what a module holds after a run are the types of the last stub at its path, which is
`batches_keep_types`. There is one leaf whose module would be the aggregator itself.
-/

namespace StubGen

open Disk (Place IsPlain)
open Renderer (importLine)
open Transaction (atomically writeFile)

namespace PackageWriter

variable {w : PackageWriter} {root : Place} {sec : Section} {namespaces : List String}
  {disk start : Disk} {old new : Disk.Tree} {stub other : Stub} {history : List Stub}

theorem typesOf_inj : typesOf root stub = typesOf root other ↔ stub.path = other.path := by
  have hname : Identifier.typeModule stub.path.leaf ++ ".py" =
      Identifier.typeModule other.path.leaf ++ ".py" ↔ stub.path.leaf = other.path.leaf := by
    unfold Identifier.typeModule
    rw [String.append_left_inj, String.append_right_inj]
  constructor
  · intro h
    obtain ⟨hplace, hlast⟩ := List.append_inj' h rfl
    obtain ⟨hroot, hnamespaces⟩ := placeIn_inj.mp hplace
    have hleaf := hname.mp (List.singleton_inj.mp hlast)
    cases hstub : stub.path
    cases hother : other.path
    simp_all
  · intro h
    unfold typesOf
    rw [h]

/-- The aggregator that a stub is declared in imports the module of its types. -/
def ImportsTypes (root : Place) (stub : Stub) (tree : Disk.Tree) : Prop :=
  ∃ content, tree.text? (homeOf root stub) = some content ∧
    hasLine content (importLine (Identifier.typeModule stub.path.leaf)) = true

/-- The module of a stub's types holds them and nothing else. -/
def HoldsTypes (root : Place) (stub : Stub) (tree : Disk.Tree) : Prop :=
  tree.text? (typesOf root stub) = some stub.typeDefs

/-! ## One stub -/

theorem Leaves.importsTypes (h : Leaves w root stub old new) (ht : stub.hasTypeDefs = true)
    (hc : Importable (Identifier.typeModule stub.path.leaf)) : ImportsTypes root stub new :=
  ⟨_, h.declared, hasLine_withStub ht hc _⟩

theorem Leaves.holdsTypes (h : Leaves w root stub old new) (ht : stub.hasTypeDefs = true)
    (hleaf : stub.path.leaf ≠ "_init__") : HoldsTypes root stub new :=
  h.typed ht fun hsame => hleaf (typesOf_eq_aggregatorIn_iff.mp hsame).1

/-- **No aggregator loses an import** to a stub. -/
theorem Leaves.imports_le (h : Leaves w root stub old new) {content : String}
    (hold : old.text? (aggregatorIn root sec namespaces) = some content) :
    ∃ content', new.text? (aggregatorIn root sec namespaces) = some content' ∧
      ∀ name, imports content name ≤ imports content' name := by
  obtain ⟨content', hnew, rfl | rfl | ⟨child, rfl⟩⟩ := h.aggregator hold
  · exact ⟨_, hnew, fun _ => Nat.le_refl _⟩
  · exact ⟨_, hnew, imports_le_withStub content stub⟩
  · exact ⟨_, hnew, imports_le_withImport content child⟩

theorem ImportsTypes.leaves (hi : ImportsTypes root stub old) (h : Leaves w root other old new) :
    ImportsTypes root stub new := by
  obtain ⟨content, hold, hline⟩ := hi
  obtain ⟨content', hnew, hle⟩ := h.imports_le hold
  rw [hasLine_iff] at hline
  exact ⟨content', hnew, hasLine_iff.mpr (Nat.lt_of_lt_of_le hline (hle _))⟩

/-- What is written for a stub with types. -/
theorem write_of_hasTypeDefs (h : stub.isEmpty = false) (ht : stub.hasTypeDefs = true) :
    w.write stub disk = atomically (do
      let directory ← w.enter stub.path.root w.root none stub.path.directories
      let aggregator := Disk.Path.join directory aggregatorName
      let content := closeLine (← readOrEmpty aggregator)
      let types := Identifier.typeModule stub.path.leaf
      writeFile (Disk.Path.join directory (types ++ ".py")) stub.typeDefs
      writeFile aggregator (withSource (withTypeImport content types) stub.source)) disk := by
  unfold write writeIn
  simp only [h, ht, Bool.false_eq_true, if_false, if_true]

/-- **Only a stub with types and the same path touches a module of types.** -/
theorem HoldsTypes.leaves (hh : HoldsTypes root stub old) (h : Leaves w root other old new)
    (hleaf : stub.path.leaf ≠ "_init__")
    (hother : other.hasTypeDefs = true → other.path ≠ stub.path) : HoldsTypes root stub new := by
  unfold HoldsTypes at *
  rw [h.others, hh]
  · exact fun above _ hsame => hleaf (typesOf_eq_aggregatorIn_iff.mp hsame).1
  · exact fun ht hsame => hother ht (typesOf_inj.mp hsame).symm

/-! ## Stub after stub -/

/-- Stubs whose modules of types can be imported. -/
def AllImportable (history : List Stub) : Prop :=
  ∀ stub ∈ history, Importable (Identifier.typeModule stub.path.leaf)

/-- **The types of a stub last** until those of another one with the same path take their place.
The induction is on the stubs that have been written: what is true of a stub once it is written
stays true, as `ImportsTypes.leaves` and `HoldsTypes.leaves` say of every later one. -/
theorem Wrote.keepsTypes (hready : Ready w root start) (h : Wrote w start history disk)
    (hc : AllImportable history) {earlier later : List Stub}
    (hstub : history = earlier ++ stub :: later) (ht : stub.hasTypeDefs = true) :
    ImportsTypes root stub disk.tree ∧
      (stub.path.leaf ≠ "_init__" →
        (∀ other ∈ later, other.hasTypeDefs = true → other.path ≠ stub.path) →
        HoldsTypes root stub disk.tree) := by
  induction h generalizing later with
  | nothing => exact absurd hstub.symm (by simp)
  | @written history disk after last hbefore hn hrun ih =>
      obtain ⟨-, hleaves⟩ := write_leaves (hbefore.ready hready) hn hrun
      rcases List.eq_nil_or_concat later with rfl | ⟨later, _, rfl⟩
      · -- the stub is the one that has just been written
        obtain ⟨rfl, hlast⟩ := List.append_inj' hstub rfl
        obtain rfl := List.singleton_inj.mp hlast
        exact ⟨hleaves.importsTypes ht (hc _ (List.mem_append_right _ List.mem_cons_self)),
          fun hleaf _ => hleaves.holdsTypes ht hleaf⟩
      · rw [List.concat_eq_append, ← List.cons_append, ← List.append_assoc] at hstub
        obtain ⟨hbefore, hlast⟩ := List.append_inj' hstub rfl
        obtain rfl := List.singleton_inj.mp hlast
        obtain ⟨himports, hholds⟩ :=
          ih (fun other hm => hc other (List.mem_append_left _ hm)) hbefore
        refine ⟨himports.leaves hleaves, fun hleaf hothers => ?_⟩
        rw [List.concat_eq_append] at hothers
        exact (hholds hleaf fun other hm => hothers other (List.mem_append_left _ hm)).leaves
          hleaves hleaf (hothers last (List.mem_append_right _ List.mem_cons_self))
  | failed hbefore hrun ih =>
      rw [((hbefore.ready hready).write_error hrun).2]
      exact ih hc hstub

end PackageWriter

/-! ## Batches -/

namespace Generator

open PackageWriter (Ready Wrote ImportsTypes HoldsTypes AllImportable typesOf)

variable {root : Place} {disk : Disk}

theorem importable_stubsOf (g : Generator) (attempts : List (Spec × Attempt)) :
    AllImportable (g.stubsOf attempts) := by
  intro stub hm
  obtain ⟨spec, -, hrender⟩ := exists_of_mem_stubsOf hm
  exact Renderer.importable_typeModule hrender

/-- **The types of a spec that a run reports as written last,** unless those of a later one take
their place. Wherever the package is and whatever is in it, after the batches the aggregator that
the spec is declared in imports the module of its types. And unless its leaf is the one whose
module would be the aggregator, the module holds exactly its types, if none of the specs that are
written behind it has types and the same path. -/
theorem batches_keep_types (g : Generator) (h : Ready g.writer root disk) (specs : List Spec)
    (sections : List Section) :
    let reports := (g.batches specs sections disk).1
    let after := (g.batches specs sections disk).2
    ∀ earlier later spec stub, attemptsOf reports = earlier ++ (spec, .generated) :: later →
      g.renderer.render spec = .ok stub → stub.hasTypeDefs = true →
      ImportsTypes root stub after.tree ∧
        (stub.path.leaf ≠ "_init__" →
          (∀ other ∈ g.stubsOf later, other.hasTypeDefs = true → other.path ≠ stub.path) →
          HoldsTypes root stub after.tree) := by
  intro reports after earlier later spec stub hattempts hrender ht
  have hwrote := wrote_batches (.nothing : Wrote g.writer disk [] disk) specs sections
  have hhistory : [] ++ g.stubsOf (attemptsOf reports) =
      g.stubsOf earlier ++ stub :: g.stubsOf later := by
    rw [List.nil_append, hattempts, stubsOf_append, stubsOf_cons hrender]
  exact hwrote.keepsTypes h (importable_stubsOf g _) hhistory ht

/-- A module of types has at least its imports. -/
theorem isBlankText_typeModule {definitions : DefinitionSet}
    (h : definitions.isEmpty = false) :
    Text.isBlankText (Renderer.typeModule definitions) = false := by
  have himports : Text.isBlankText
      "from typing_extensions import NotRequired, Required, TypedDict\n" = false := by decide
  unfold Renderer.typeModule
  rw [h]
  exact Template.isBlankText_fill (by decide) himports _

/-! ### Functions that make the same identifier -/

/-- A function that takes nothing. -/
def petFunction (name : String) (result : DeclaredType) : Spec :=
  { bareFunction .apiFunction "" name with signature := some (.mk [] result none) }

/-- The stub of such a function whose name makes the identifier `get_pet`. -/
def petStub (name : String) (result : DeclaredType) : Stub :=
  let body := topGenerator.renderer.apiBody (petFunction name result) "get_pet" (.mk [] result none)
  ⟨⟨.functions, [], "get_pet"⟩, body.source, Renderer.typeModule body.definitions⟩

section

variable {name : String} {result : DeclaredType}

theorem render_petFunction (hleaf : Renderer.leafOf name = "get_pet") :
    topGenerator.renderer.render (petFunction name result) = .ok (petStub name result) := by
  have hpath : Renderer.pathOf .functions "" "get_pet" = .ok ⟨.functions, [], "get_pet"⟩ :=
    Result.eq_ok_of_toOption (by decide)
  show topGenerator.renderer.functionStub (petFunction name result) = _
  unfold Renderer.functionStub
  rw [show (petFunction name result).name = name from rfl, hleaf,
    show (petFunction name result).context = "" from rfl]
  dsimp only
  rw [hpath]
  rfl

theorem path_petStub : (petStub name result).path = ⟨.functions, [], "get_pet"⟩ := rfl

theorem isEmpty_petStub : (petStub name result).isEmpty = false := by
  have hdef : Text.isBlankText "def " = false := by decide
  unfold Stub.isEmpty petStub Renderer.apiBody
  exact Template.isBlankText_fill (by decide) hdef _

/-- The wrapper of the response is a type of the function. -/
theorem hasTypeDefs_petStub : (petStub name result).hasTypeDefs = true := by
  have hreadable : DefinitionSet.Readable (Renderer.envelopeName "get_pet") := by decide
  have hannounces : ∀ type, DefinitionSet.Announces (Template.apiResponse.fill
      [("response_type", Renderer.envelopeName "get_pet"), ("data_type", type)])
      (Renderer.envelopeName "get_pet") :=
    fun type => Renderer.announces_envelope _ type (by decide)
  have hdefinitions : (topGenerator.renderer.apiBody (petFunction name result) "get_pet"
      (.mk [] result none)).definitions.isEmpty = false := by
    have hdeclares := fun type (set : DefinitionSet) =>
      DefinitionSet.declares_push_of_announces hreadable set (hannounces type)
    unfold Renderer.apiBody
    dsimp only
    exact DefinitionSet.isEmpty_of_declares (hdeclares _ _)
  unfold Stub.hasTypeDefs petStub
  dsimp only
  rw [isBlankText_typeModule hdefinitions]
  rfl

theorem attempt_petFunction (hleaf : Renderer.leafOf name = "get_pet")
    (hrun : (topGenerator.writer.write (petStub name result) disk).1.toBool = true) :
    topGenerator.attempt (petFunction name result) disk =
      (.generated, (topGenerator.writer.write (petStub name result) disk).2) := by
  obtain ⟨_, after, hwrite⟩ := Result.run_of_toBool hrun
  unfold attempt
  rw [render_petFunction hleaf]
  dsimp only
  rw [isEmpty_petStub, hwrite]
  rfl

end

/-- An empty disk. -/
def emptyDisk : Disk := ⟨Disk.Tree.empty, [], none, []⟩

theorem ready_emptyDisk : Ready topGenerator.writer [] emptyDisk :=
  ⟨Disk.Tree.wellFormed_empty, List.not_mem_nil, rfl⟩

/-- Both functions are written, one behind the other. -/
theorem attempts_generated : ∃ between after,
    topGenerator.attempt (petFunction "get pet" .any) emptyDisk = (.generated, between) ∧
      topGenerator.attempt (petFunction "get_pet" .void) between = (.generated, after) := by
  have hfirst : (petStub "get pet" .any).isEmpty = false := isEmpty_petStub
  have hsecond : (petStub "get_pet" .void).isEmpty = false := isEmpty_petStub
  refine ⟨_, _, attempt_petFunction (by decide) ?_,
    attempt_petFunction (by decide) ?_⟩
  · rw [PackageWriter.write_of_hasTypeDefs hfirst hasTypeDefs_petStub]
    decide +kernel
  · rw [PackageWriter.write_of_hasTypeDefs hfirst hasTypeDefs_petStub,
      PackageWriter.write_of_hasTypeDefs hsecond hasTypeDefs_petStub]
    decide +kernel

/-- What batches of functions make of two of them. -/
theorem attemptsOf_two {g : Generator} {first : Spec} (second : Spec) {outcome : Attempt}
    {between : Disk}
    (hmine : [first, second].filter (fun spec => Section.functions.holds spec.category) =
      [first, second]) (hfirst : g.attempt first disk = (outcome, between)) :
    attemptsOf (g.batches [first, second] [.functions] disk).1 =
      [(first, outcome), (second, (g.attempt second between).1)] := by
  have hall : (g.batches [first, second] [.functions] disk).1 =
      [⟨.functions, (g.attemptAll [first, second] disk).1⟩] := by
    unfold batches batch
    rw [hmine]
    rfl
  rw [hall, attemptAll_cons, attemptAll_cons, hfirst]
  rfl

/-- The types of a function last, whatever becomes of one with another name. -/
theorem batches_keep_types_pet :
    Ready topGenerator.writer [] emptyDisk ∧ ∃ reports after,
      topGenerator.batches [petFunction "get pet" .any, petFunction "get toy" .void] [.functions]
        emptyDisk = (reports, after) ∧
      topGenerator.renderer.render (petFunction "get pet" .any) = .ok (petStub "get pet" .any) ∧
      (petStub "get pet" .any).hasTypeDefs = true ∧
      ImportsTypes [] (petStub "get pet" .any) after.tree ∧
      HoldsTypes [] (petStub "get pet" .any) after.tree := by
  obtain ⟨between, -, hfirst, -⟩ := attempts_generated
  have hattempts := attemptsOf_two (petFunction "get toy" .void) rfl hfirst
  have hrender : topGenerator.renderer.render (petFunction "get pet" .any) =
      .ok (petStub "get pet" .any) := render_petFunction (by decide)
  have hkept := topGenerator.batches_keep_types ready_emptyDisk
    [petFunction "get pet" .any, petFunction "get toy" .void] [.functions] [] _ _ _ hattempts
    hrender hasTypeDefs_petStub
  obtain ⟨reports, after, hrun⟩ : ∃ reports after, topGenerator.batches
      [petFunction "get pet" .any, petFunction "get toy" .void] [.functions] emptyDisk =
        (reports, after) := ⟨_, _, (Prod.eta _).symm⟩
  rw [hrun] at hkept
  obtain ⟨himports, hholds⟩ := hkept
  refine ⟨ready_emptyDisk, reports, after, hrun, hrender, hasTypeDefs_petStub, himports,
    hholds (by decide) ?_⟩
  -- a stub of the other function has another leaf
  intro other hm _ hpath
  obtain ⟨spec, hspec, hrendered⟩ := exists_of_mem_stubsOf hm
  obtain ⟨rfl, -⟩ := Prod.mk.inj (List.mem_singleton.mp hspec)
  have hleaf := Renderer.leaf_of_render hrendered
  rw [hpath] at hleaf
  exact absurd hleaf (by decide)

/-- **Types are overwritten** where two names make the same identifier: of two functions that a run
reports as written, the first one has lost its types. -/
theorem types_overwritten : ∃ reports after,
    topGenerator.batches [petFunction "get pet" .any, petFunction "get_pet" .void] [.functions]
      emptyDisk = (reports, after) ∧
    attemptsOf reports =
      [(petFunction "get pet" .any, .generated), (petFunction "get_pet" .void, .generated)] ∧
    topGenerator.renderer.render (petFunction "get pet" .any) = .ok (petStub "get pet" .any) ∧
    (petStub "get pet" .any).hasTypeDefs = true ∧
    ¬ HoldsTypes [] (petStub "get pet" .any) after.tree := by
  obtain ⟨between, last, hfirst, hsecond⟩ := attempts_generated
  have hattempts := attemptsOf_two (petFunction "get_pet" .void) rfl hfirst
  rw [hsecond] at hattempts
  have hwrote := wrote_batches (.nothing : Wrote topGenerator.writer emptyDisk [] emptyDisk)
    [petFunction "get pet" .any, petFunction "get_pet" .void] [.functions]
  obtain ⟨reports, after, hrun⟩ : ∃ reports after, topGenerator.batches
      [petFunction "get pet" .any, petFunction "get_pet" .void] [.functions] emptyDisk =
        (reports, after) := ⟨_, _, (Prod.eta _).symm⟩
  rw [hrun] at hattempts hwrote
  have hrender : topGenerator.renderer.render (petFunction "get pet" .any) =
      .ok (petStub "get pet" .any) := render_petFunction (by decide)
  have hrender' : topGenerator.renderer.render (petFunction "get_pet" .void) =
      .ok (petStub "get_pet" .void) := render_petFunction (by decide)
  -- the module holds the types of the second one, which are others
  have hlost : ¬ HoldsTypes [] (petStub "get pet" .any) after.tree := by
    intro hholds
    have hhistory : [] ++ topGenerator.stubsOf (attemptsOf reports) =
        [petStub "get pet" .any] ++ petStub "get_pet" .void :: [] := by
      rw [hattempts, stubsOf_cons hrender, stubsOf_cons hrender', List.nil_append,
        List.singleton_append]
      rfl
    obtain ⟨-, hlast⟩ := hwrote.keepsTypes ready_emptyDisk (importable_stubsOf _ _) hhistory
      hasTypeDefs_petStub
    have hplace : typesOf [] (petStub "get pet" .any) = typesOf [] (petStub "get_pet" .void) :=
      PackageWriter.typesOf_inj.mpr (path_petStub.trans path_petStub.symm)
    have hlast := hlast (by decide) nofun
    unfold HoldsTypes at hholds hlast
    rw [hplace, hlast] at hholds
    exact absurd (Option.some.inj hholds) (by decide +kernel)
  exact ⟨reports, after, hrun, hattempts, hrender, hasTypeDefs_petStub, hlost⟩

end Generator

end StubGen
