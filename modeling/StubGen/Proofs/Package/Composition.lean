import StubGen.Package.Writer

/-!
# What a writer's steps are put together of

Writing a stub, starting a package and adding an import are all put together of a few
basic steps: looking at the disk, making a directory, writing a file. So a property of
steps that the basic ones have, and that goes from steps to what is put together of them,
is one of all that a writer does: `Compositional`.
-/

namespace StubGen.PackageWriter

open Transaction

/-- A property that the basic steps of a transaction have and that is handed on when steps are put
together. -/
structure Compositional (P : ∀ {α : Type}, Writing α → Prop) : Prop where
  ofPure : ∀ {α : Type} (a : α), P (pure a : Writing α)
  ofThrow : ∀ {α : Type} (e : PackageError), P (throw e : Writing α)
  bind : ∀ {α β : Type} {steps : Writing α} {next : α → Writing β},
    P steps → (∀ a, P (next a)) → P (steps >>= next)
  getBind : ∀ {α : Type} {next : Transaction → Writing α}, (∀ t, P (next t)) → P (get >>= next)
  look : ∀ {α : Type} (look : Disk → Except IoCause α),
    P (onDisk (.attempt fun disk => return (← look disk, disk)))
  createDirectory : ∀ path, P (Transaction.createDirectory path)
  writeFile : ∀ path content, P (Transaction.writeFile path content)

namespace Compositional

variable {P : ∀ {α : Type}, Writing α → Prop} (h : Compositional P) {w : PackageWriter}

include h

theorem forM {γ : Type} {step : γ → Writing PUnit} (hs : ∀ a, P (step a)) :
    ∀ items : List γ, P (items.forM step)
  | [] => h.ofPure _
  | a :: items => h.bind (hs a) fun _ => forM hs items

theorem createDirectories (path : String) : P (Transaction.createDirectories path) :=
  h.getBind fun _ => h.forM h.createDirectory _

theorem readOrEmpty (path : String) : P (readOrEmpty path) := by
  refine h.bind (h.look fun disk => disk.read path) fun found => ?_
  rcases found with cause | content
  · cases cause
    case notFound => exact h.ofPure ""
    all_goals exact h.ofThrow _
  · exact h.ofPure content

theorem appendImport (aggregator child : String) : P (appendImport aggregator child) := by
  refine h.bind (h.readOrEmpty aggregator) fun content => ?_
  dsimp only
  split
  · exact h.ofPure false
  · exact h.bind (h.writeFile _ _) fun _ => h.ofPure true

theorem ensureAggregator (directory : String) (root : Section) :
    P (w.ensureAggregator directory root) := by
  refine h.bind (h.createDirectories directory) fun _ => h.getBind fun t => ?_
  split
  · exact h.bind (h.writeFile _ _) fun _ => h.ofPure _
  · exact h.ofPure _

/-- A step for each directory, whichever of them are there. -/
theorem enter (root : Section) (directory : String) (parent : Option String)
    (names : List String) : P (w.enter root directory parent names) := by
  induction names generalizing directory parent with
  | nil => exact h.ofPure directory
  | cons name names ih =>
      refine h.bind (h.ensureAggregator _ root) fun aggregator => ?_
      cases parent with
      | none => exact ih _ _
      | some above => exact h.bind (h.appendImport above name) fun _ => ih _ _

theorem writeIn (stub : Stub) : P (w.writeIn stub) := by
  refine h.bind (h.enter _ _ _ _) fun directory => h.bind (h.readOrEmpty _) fun content => ?_
  dsimp only
  split
  · exact h.bind (h.writeFile _ _) fun _ => h.writeFile _ _
  · exact h.writeFile _ _

theorem writeOwnFile (file : PackageFile) : P (w.writeOwnFile file) := by
  have hinside : P (insidePath w.root file.path : Except PackageError String) := by
    cases insidePath w.root file.path with
    | error e => exact h.ofThrow e
    | ok path => exact h.ofPure path
  refine h.bind hinside fun path => ?_
  cases Disk.Path.parent? path with
  | none => exact h.writeFile _ _
  | some parent => exact h.bind (h.createDirectories parent) fun _ => h.writeFile _ _

theorem initIn (files : List PackageFile) : P (w.initIn files) :=
  h.bind (h.createDirectories w.root) fun _ =>
    h.bind (h.forM h.writeOwnFile files) fun _ =>
      h.forM (fun root => h.bind (h.ensureAggregator _ root) fun _ => h.ofPure _) Section.all

end Compositional

end StubGen.PackageWriter
