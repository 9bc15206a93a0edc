import StubGen.Package.Batch
import StubGen.Package.SpecCache
import StubGen.Reference

/-!
# Generating a package

A run takes specs, keeps the wanted ones, replaces what a former run has left by a new package,
resolves the references between the specs and generates section by section. Nothing is touched
when no spec is wanted; once the package is begun, what goes wrong with a single spec is part of
the summary.
-/

namespace StubGen

/-- What a run has done. -/
structure Generation where
  root : String
  /-- How many specs there were. -/
  fetched : Nat
  /-- How many of them were wanted. -/
  selected : Nat
  /-- The specs whose references could not be resolved. -/
  dropped : List String
  reports : List BatchReport

namespace Generation

/-- How many specs were written. -/
def generated (g : Generation) : Nat := g.reports.foldl (fun n r => n + r.generated.length) 0

/-- How many specs failed. -/
def failed (g : Generation) : Nat := g.reports.foldl (fun n r => n + r.failures.length) 0

/-- Whether all specs fared well. -/
def isClean (g : Generation) : Bool := g.failed == 0 && g.dropped.isEmpty

end Generation

namespace Generator

/-- Whether the code of a spec can be part of the package. -/
def isUsable (spec : Spec) : Bool :=
  spec.category != .customFunction ||
    match spec.language with
    | some language => language.map Char.toLower == "python"
    | none => false

/-- The specs that a run works on. -/
def select (query : Query) (specs : List Spec) : List Spec :=
  specs.filter fun spec => query.accepts spec && isUsable spec

/-- The sections that a run generates, in order. -/
def sectionsOf (query : Query) : List Section :=
  if query.noTypes then [.functions, .variables, .tables] else Section.all

/-- A generator of the package in a directory. -/
def ofRenderer (renderer : Renderer) (root : String) : Generator :=
  ⟨renderer, .ofRenderer root renderer⟩

/-- The directory of the package. -/
def root (g : Generator) : String := g.writer.root

/-- A step on the disk that reports errors of the library. -/
abbrev OnDiskWithErrors := ExceptT Error (StateM Disk)

/-- A step on the package as a step of the library. -/
def onPackage {α : Type} (step : OnDisk α) : OnDiskWithErrors α :=
  ExceptT.adapt PackageError.toError step

/-- Replaces what a former run has left by an empty package and stores the specs beside it. -/
def begin (g : Generator) (baseUrl : String) (specs : List Spec) : OnDisk Unit := do
  let _ ← g.writer.removeOldLibrary
  ExceptT.mk (g.writer.init (g.renderer.packageFiles baseUrl))
  (SpecCache.ofPackage g.root).write specs

/-- Generates a package from fetched specs. -/
def generate (g : Generator) (query : Query) (baseUrl source : String) (fetched : List Spec) :
    OnDiskWithErrors Generation := do
  let selected := select query fetched
  if selected.isEmpty then throw (.resourceNotFound ("specs from " ++ source))
  onPackage (g.begin baseUrl selected)
  let outcome := (SchemaIndex.ofSpecs selected).apply selected
  let reports ← ExceptT.lift (g.batches outcome.items (sectionsOf query))
  return { root := g.root, fetched := fetched.length, selected := selected.length
           dropped := outcome.dropped, reports := reports }

/-- Removes the package in a directory and the specs beside it: says how many things that is. -/
def clear (root : String) : OnDisk Nat := do
  let removed ← (PackageWriter.mk root fun _ => "").removeOldLibrary
  let hadCache ← (SpecCache.ofPackage root).remove
  return removed + if hadCache then 1 else 0

end Generator

end StubGen
