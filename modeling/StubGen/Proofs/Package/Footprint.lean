import StubGen.Package.Batch
import StubGen.Package.SpecCache
import StubGen.Proofs.Package.Runs

/-!
# Where a writer writes

A writer makes directories in the sections of its package, and writes the package's own files and
files in the sections; nothing else. So a property of steps holds of all that a writer does if it
holds of making such directories and of reading and writing such files, and goes from steps to
what is put together of them: `StaysIn`, which is `StaysWithin` for these directories and files.
Stubs are named by plain segments, which is what keeps them inside: `plain_of_render`.
-/

namespace StubGen

open Disk (Place IsPlain)
open Disk.Path (join isAbsolute)

variable {root path directory name : String} {names : List String}

/-! ## Paths of a package -/

namespace Disk.Path

/-- A path has all the names of another one, and more behind them. -/
structure Extends (root : String) (names : List String) (path : String) : Prop where
  isAbsolute_eq : isAbsolute path = isAbsolute root
  names_eq : Path.names path = Path.names root ++ names

theorem Extends.refl (root : String) : Extends root [] root := ⟨rfl, (List.append_nil _).symm⟩

theorem Extends.join (h : Extends root names path) (hn : IsPlain name) :
    Extends root (names ++ [name]) (join path name) :=
  ⟨(isAbsolute_join hn path).trans h.isAbsolute_eq, by
    rw [names_join hn, h.names_eq, List.append_assoc]⟩

end Disk.Path

open Disk.Path (Extends)

/-- A way over plain names leads further and further in. -/
theorem Disk.foldl_step_plain {place : Place} (hn : ∀ name ∈ names, IsPlain name) :
    names.foldl Tree.step place = place ++ names := by
  induction names generalizing place with
  | nil => exact (List.append_nil place).symm
  | cons name names ih =>
      have hplain := hn name List.mem_cons_self
      have hstep : Tree.step place name = place ++ [name] := by
        unfold Tree.step
        rw [if_neg hplain.ne_dot, if_neg hplain.ne_dots]
      rw [List.foldl_cons, hstep, ih fun other hm => hn other (List.mem_cons_of_mem _ hm),
        List.append_assoc, List.singleton_append]

theorem Disk.Path.Extends.startOf_eq (h : Extends root names path) (disk : Disk) :
    disk.startOf path = disk.startOf root := by
  unfold Disk.startOf
  rw [h.isAbsolute_eq]

/-- A path with plain names behind one that leads to a directory leads to a place in it. -/
theorem Disk.Path.Extends.placeOf_eq {disk : Disk} {place : Place} (h : Extends root names path)
    (hn : ∀ name ∈ names, IsPlain name) (hr : disk.Reaches root place) :
    disk.placeOf path = place ++ names := by
  unfold Disk.placeOf
  rw [h.startOf_eq, h.names_eq, List.foldl_append, Disk.foldl_step_plain hn, ← hr.placeOf_eq]
  rfl

namespace PackageWriter

/-- Names that lead into a section. -/
def InSection (names : List String) : Prop :=
  ∃ (sec : Section) (namespaces : List String),
    names = sec.directory :: namespaces ∧ ∀ namespace_ ∈ namespaces, IsPlain namespace_

/-- Names that lead to a file of a package: one of its own, or one in a section. -/
def LeadsToFile (names : List String) : Prop :=
  (∃ name ∈ rootFiles, names = [name]) ∨
    ∃ front name, InSection front ∧ IsPlain name ∧ names = front ++ [name]

theorem inSection_singleton (sec : Section) : InSection [sec.directory] := ⟨sec, [], rfl, nofun⟩

/-- On the way into a section there are only its directories. -/
theorem InSection.of_prefix {front : List String} (h : InSection names) (hf : front <+: names)
    (hne : front ≠ []) : InSection front := by
  obtain ⟨sec, namespaces, rfl, hall⟩ := h
  obtain ⟨first, rest, rfl⟩ := List.exists_cons_of_ne_nil hne
  obtain ⟨rfl, hrest⟩ := List.cons_prefix_cons.mp hf
  exact ⟨sec, rest, rfl, fun other hm => hall other (hrest.subset hm)⟩

theorem InSection.plain (h : InSection names) : ∀ name ∈ names, IsPlain name := by
  obtain ⟨sec, namespaces, rfl, hall⟩ := h
  intro name hm
  rcases List.mem_cons.mp hm with rfl | hm
  · exact isPlain_directory sec
  · exact hall name hm

theorem isPlain_of_mem_rootFiles (hm : name ∈ rootFiles) : IsPlain name := by
  have hruntime : IsPlain "runtime.py" := ⟨by decide, by decide, by decide, by decide⟩
  rcases List.mem_cons.mp hm with rfl | hm
  · exact isPlain_aggregatorName
  · exact List.mem_singleton.mp hm ▸ hruntime

theorem LeadsToFile.plain (h : LeadsToFile names) : ∀ name ∈ names, IsPlain name := by
  rcases h with ⟨name, hm, rfl⟩ | ⟨front, name, hf, hn, rfl⟩
  · exact fun other ho => List.mem_singleton.mp ho ▸ isPlain_of_mem_rootFiles hm
  · intro other ho
    rcases List.mem_append.mp ho with ho | ho
    · exact hf.plain other ho
    · exact List.mem_singleton.mp ho ▸ hn

/-- The directories that a writer makes, unless they are there: those of its sections, and those
around them. The empty path is the directory that paths are seen from. -/
inductive DirectoryOf (root : String) : String → Prop where
  | here : DirectoryOf root ""
  | around {path : String} : isAbsolute path = isAbsolute root →
      Disk.Path.names path <+: Disk.Path.names root → DirectoryOf root path
  | inside {path : String} {names : List String} : Extends root names path → InSection names →
      DirectoryOf root path

/-- The files that a writer reads and writes. -/
def FileOf (root path : String) : Prop := ∃ names, Extends root names path ∧ LeadsToFile names

theorem directoryOf_root (root : String) : DirectoryOf root root := .around rfl List.prefix_rfl

theorem fileOf_own (hm : name ∈ rootFiles) : FileOf root (join root name) :=
  ⟨[name], (Extends.refl root).join (isPlain_of_mem_rootFiles hm), .inl ⟨name, hm, rfl⟩⟩

theorem fileOf_join (h : Extends root names directory) (hs : InSection names) (hn : IsPlain name) :
    FileOf root (join directory name) :=
  ⟨names ++ [name], h.join hn, .inr ⟨names, name, hs, hn, rfl⟩⟩

/-- Whatever is around a directory of a package is one too. -/
theorem DirectoryOf.of_mem_ancestors {outer : String} (h : DirectoryOf root path)
    (hm : outer ∈ Disk.Path.ancestors path) : DirectoryOf root outer := by
  rw [Disk.Path.ancestors, Disk.Path.ancestorsFrom_eq_cons] at hm
  rcases List.mem_cons.mp hm with rfl | hm
  · exact h
  rcases Disk.Path.isOutside_of_mem_ancestorsFrom hm with rfl | ⟨habs, hnames⟩
  · exact .here
  have hshorter := hnames.trans (List.dropLast_prefix _)
  cases h with
  | here => exact absurd hm List.not_mem_nil
  | around habs' hnames' => exact .around (habs.trans habs') (hshorter.trans hnames')
  | @inside _ names he hs =>
      rw [he.names_eq] at hshorter
      rcases List.prefix_or_prefix_of_prefix hshorter (List.prefix_append _ names) with hout | hin
      · exact .around (habs.trans he.isAbsolute_eq) hout
      · obtain ⟨front, hfront⟩ := hin
        rw [← hfront, List.prefix_append_right_inj] at hshorter
        by_cases hnil : front = []
        · exact .around (habs.trans he.isAbsolute_eq) (by simp [← hfront, hnil])
        · exact .inside ⟨habs.trans he.isAbsolute_eq, hfront.symm⟩ (hs.of_prefix hshorter hnil)

/-- The directory of one of the package's own files is its own or around it. -/
theorem directoryOf_parent? {parent : String} (hn : IsPlain name)
    (hp : Disk.Path.parent? (join root name) = some parent) : DirectoryOf root parent := by
  rcases Disk.Path.isOutside_of_parent? hp with rfl | ⟨habs, hnames⟩
  · exact .here
  · rw [Disk.Path.names_join hn, List.dropLast_concat] at hnames
    exact .around (habs.trans (Disk.Path.isAbsolute_join hn root)) hnames

/-! ## What a writer's steps are put together of -/

open Transaction

/-- A property of steps that only make some directories and only read and write some files, handed
on when steps are put together. -/
structure StaysWithin (MayMake MayWrite : String → Prop)
    (P : ∀ {α : Type}, Writing α → Prop) : Prop where
  ofPure : ∀ {α : Type} (a : α), P (pure a : Writing α)
  ofThrow : ∀ {α : Type} (e : PackageError), P (throw e : Writing α)
  /-- What comes next need only be considered for what the first steps can give. -/
  bind : ∀ {α β : Type} {steps : Writing α} {next : α → Writing β}, P steps →
    (∀ a, (∃ t after, steps t = (.ok a, after)) → P (next a)) → P (steps >>= next)
  whether : ∀ {α : Type} {path : String} {yes no : Writing α}, MayWrite path → P yes → P no →
    P (get >>= fun t => if (!t.disk.isThere path) = true then yes else no)
  createDirectories : ∀ {path}, MayMake path → P (Transaction.createDirectories path)
  readOrEmpty : ∀ {path}, MayWrite path → P (readOrEmpty path)
  writeFile : ∀ {path} content, MayWrite path → P (Transaction.writeFile path content)

/-- A property of steps that read, make and write in a package only. -/
abbrev StaysIn (root : String) (P : ∀ {α : Type}, Writing α → Prop) : Prop :=
  StaysWithin (DirectoryOf root) (FileOf root) P

/-- An aggregator is named by its directory. -/
theorem ensureAggregator_value {w : PackageWriter} {sec : Section} {t after : Transaction}
    {aggregator : String} (h : w.ensureAggregator directory sec t = (.ok aggregator, after)) :
    aggregator = join directory aggregatorName := by
  obtain ⟨_, made, -, h⟩ := Result.run_bind_eq_ok h
  rw [Result.run_get_bind] at h
  split at h
  · obtain ⟨_, written, -, h⟩ := Result.run_bind_eq_ok h
    exact (Result.run_pure_eq_ok h).1.symm
  · exact (Result.run_pure_eq_ok h).1.symm

/-- The directory that is entered has the names of the way behind those of the first one. -/
theorem extends_of_enter {w : PackageWriter} {sec : Section} {start entered : String}
    {parent : Option String} {front : List String} {t after : Transaction}
    (hn : ∀ name ∈ names, IsPlain name) (hs : Extends root front start)
    (h : w.enter sec start parent names t = (.ok entered, after)) :
    Extends root (front ++ names) entered := by
  induction names generalizing start parent front t with
  | nil =>
      obtain ⟨rfl, -⟩ := Result.run_pure_eq_ok h
      rwa [List.append_nil]
  | cons name names ih =>
      have hinner := hs.join (hn name List.mem_cons_self)
      have hnames : ∀ other ∈ names, IsPlain other :=
        fun other hm => hn other (List.mem_cons_of_mem _ hm)
      obtain ⟨aggregator, made, -, h⟩ := Result.run_bind_eq_ok h
      rw [List.append_cons]
      cases parent with
      | none => exact ih hnames hinner h
      | some above =>
          obtain ⟨_, imported, -, h⟩ := Result.run_bind_eq_ok h
          exact ih hnames hinner h

namespace StaysWithin

variable {MayMake MayWrite : String → Prop} {P : ∀ {α : Type}, Writing α → Prop}
  {w : PackageWriter} (h : StaysWithin MayMake MayWrite P)

include h

theorem forM {γ : Type} {step : γ → Writing PUnit} {items : List γ}
    (hs : ∀ a ∈ items, P (step a)) : P (items.forM step) := by
  induction items with
  | nil => exact h.ofPure _
  | cons first items ih =>
      exact h.bind (hs first List.mem_cons_self) fun _ _ =>
        ih fun a hm => hs a (List.mem_cons_of_mem _ hm)

theorem appendImport {aggregator : String} (child : String) (hf : MayWrite aggregator) :
    P (appendImport aggregator child) := by
  refine h.bind (h.readOrEmpty hf) fun content _ => ?_
  dsimp only
  split
  · exact h.ofPure false
  · exact h.bind (h.writeFile _ hf) fun _ _ => h.ofPure true

theorem ensureAggregator (sec : Section) (hd : MayMake directory)
    (hf : MayWrite (join directory aggregatorName)) : P (w.ensureAggregator directory sec) := by
  refine h.bind (h.createDirectories hd) fun _ _ => ?_
  exact h.whether hf (h.bind (h.writeFile _ hf) fun _ _ => h.ofPure _) (h.ofPure _)

/-- The way down goes over directories that may be made, and over their aggregators. -/
theorem enter (sec : Section) {front : List String} {parent : Option String}
    (he : Extends root front directory) (hn : ∀ name ∈ names, IsPlain name)
    (hmay : ∀ way inner, way <+: names → way ≠ [] → Extends root (front ++ way) inner →
      MayMake inner ∧ MayWrite (join inner aggregatorName))
    (hp : ∀ above ∈ parent, MayWrite above) : P (w.enter sec directory parent names) := by
  induction names generalizing directory parent front with
  | nil => exact h.ofPure directory
  | cons name names ih =>
      have hinner := he.join (hn name List.mem_cons_self)
      have hnames : ∀ other ∈ names, IsPlain other :=
        fun other hm => hn other (List.mem_cons_of_mem _ hm)
      obtain ⟨hmake, hwrite⟩ := hmay [name] _ ⟨names, rfl⟩ (by simp) hinner
      -- a way on from the next directory is a way from here that begins with its name
      have hnext : ∀ way inner, way <+: names → way ≠ [] →
          Extends root (front ++ [name] ++ way) inner →
            MayMake inner ∧ MayWrite (join inner aggregatorName) := by
        intro way inner hway _ hext
        rw [List.append_assoc, List.singleton_append] at hext
        exact hmay (name :: way) inner (List.cons_prefix_cons.mpr ⟨rfl, hway⟩) (by simp) hext
      refine h.bind (h.ensureAggregator sec hmake hwrite) fun aggregator hgiven => ?_
      obtain ⟨t, after, hrun⟩ := hgiven
      obtain rfl := ensureAggregator_value hrun
      have hparent : ∀ above ∈ some (join (join directory name) aggregatorName),
          MayWrite above := by
        rintro _ ⟨⟩
        exact hwrite
      cases parent with
      | none => exact ih hinner hnames hnext hparent
      | some above =>
          exact h.bind (h.appendImport name (hp above rfl)) fun _ _ =>
            ih hinner hnames hnext hparent

theorem writeIn {stub : Stub} (hn : ∀ segment ∈ stub.path.segments, IsPlain segment)
    (hmay : ∀ way inner, way <+: stub.path.directories → way ≠ [] → Extends w.root way inner →
      MayMake inner ∧ MayWrite (join inner aggregatorName))
    (htypes : ∀ inner, Extends w.root stub.path.directories inner →
      MayWrite (join inner (Identifier.typeModule stub.path.leaf ++ ".py"))) :
    P (w.writeIn stub) := by
  have hnames : ∀ name ∈ stub.path.directories, IsPlain name := by
    intro name hm
    rcases List.mem_cons.mp hm with rfl | hm
    · exact isPlain_directory stub.path.root
    · exact hn name (List.mem_append_left _ hm)
  have hdown : P (w.enter stub.path.root w.root none stub.path.directories) :=
    h.enter _ (Extends.refl w.root) hnames hmay nofun
  refine h.bind hdown fun directory hgiven => ?_
  obtain ⟨t, after, hrun⟩ := hgiven
  -- only the names tell where the way has ended
  have he := extends_of_enter hnames (Extends.refl w.root) hrun
  rw [List.nil_append] at he
  obtain ⟨-, haggregator⟩ := hmay _ _ List.prefix_rfl (List.cons_ne_nil _ _) he
  refine h.bind (h.readOrEmpty haggregator) fun content _ => ?_
  dsimp only
  split
  · exact h.bind (h.writeFile _ (htypes directory he)) fun _ _ => h.writeFile _ haggregator
  · exact h.writeFile _ haggregator

theorem writeOwnFile {file : PackageFile} (hf : Disk.Path.isInside file.path = true →
      MayWrite (join w.root file.path) ∧
        ∀ parent ∈ Disk.Path.parent? (join w.root file.path), MayMake parent) :
    P (w.writeOwnFile file) := by
  have hinside : P (insidePath w.root file.path : Except PackageError String) := by
    cases insidePath w.root file.path with
    | error e => exact h.ofThrow e
    | ok path => exact h.ofPure path
  refine h.bind hinside fun path hgiven => ?_
  obtain ⟨t, after, hrun⟩ := hgiven
  unfold insidePath at hrun
  split at hrun
  · rename_i hin
    obtain rfl := (Result.run_pure_eq_ok hrun).1
    obtain ⟨hwrite, hmake⟩ := hf hin
    cases hparent : Disk.Path.parent? (join w.root file.path) with
    | none => exact h.writeFile _ hwrite
    | some parent =>
        exact h.bind (h.createDirectories (hmake parent hparent)) fun _ _ => h.writeFile _ hwrite
  · exact absurd (Prod.mk.inj hrun).1 nofun

theorem initIn {files : List PackageFile} (hroot : MayMake w.root)
    (hfiles : ∀ file ∈ files, Disk.Path.isInside file.path = true →
      MayWrite (join w.root file.path) ∧
        ∀ parent ∈ Disk.Path.parent? (join w.root file.path), MayMake parent)
    (hsections : ∀ sec : Section, MayMake (join w.root sec.directory) ∧
      MayWrite (join (join w.root sec.directory) aggregatorName)) : P (w.initIn files) :=
  h.bind (h.createDirectories hroot) fun _ _ =>
    h.bind (h.forM fun file hm => h.writeOwnFile (hfiles file hm)) fun _ _ =>
      h.forM fun sec _ =>
        h.bind (h.ensureAggregator sec (hsections sec).1 (hsections sec).2) fun _ _ => h.ofPure _

end StaysWithin

namespace StaysIn

variable {P : ∀ {α : Type}, Writing α → Prop} {w : PackageWriter} (h : StaysIn w.root P)

include h

theorem writeIn {stub : Stub} (hn : ∀ segment ∈ stub.path.segments, IsPlain segment) :
    P (w.writeIn stub) := by
  have hnames : InSection stub.path.directories :=
    ⟨stub.path.root, stub.path.namespaces, rfl, fun name hm => hn name (List.mem_append_left _ hm)⟩
  have hleaf := hn stub.path.leaf (List.mem_append_right _ List.mem_cons_self)
  refine StaysWithin.writeIn h hn (fun way inner hway hne he => ?_) fun inner he =>
    fileOf_join he hnames (isPlain_typeFile hleaf)
  have hin := hnames.of_prefix hway hne
  exact ⟨.inside he hin, fileOf_join he hin isPlain_aggregatorName⟩

theorem initIn {files : List PackageFile} (hm : ∀ file ∈ files, file.path ∈ rootFiles) :
    P (w.initIn files) := by
  refine StaysWithin.initIn h (directoryOf_root w.root) (fun file hf _ => ?_) fun sec => ?_
  · exact ⟨fileOf_own (hm file hf), fun parent hp =>
      directoryOf_parent? (isPlain_of_mem_rootFiles (hm file hf)) hp⟩
  · have he := (Extends.refl w.root).join (isPlain_directory sec)
    exact ⟨.inside he (inSection_singleton sec),
      fileOf_join he (inSection_singleton sec) isPlain_aggregatorName⟩

end StaysIn

end PackageWriter

/-! ## The paths of stubs -/

/-- **A stub goes by the section, the context and the name of its spec.** -/
theorem Renderer.path_of_render {r : Renderer} {spec : Spec} {stub : Stub}
    (h : r.render spec = .ok stub) :
    ∃ root : Section, root.holds spec.category = true ∧
      Renderer.pathOf root spec.context (Renderer.leafOf spec.name) = .ok stub.path := by
  unfold Renderer.render at h
  split at h
  -- variables, schemas and tables have a section of their own, and the other kinds share one
  · rename_i hcategory
    obtain ⟨entry, hentry, h⟩ := Result.bind_eq_ok_iff.mp h
    obtain ⟨path, hpath, h⟩ := Result.bind_eq_ok_iff.mp h
    obtain rfl := Result.pure_eq_ok_iff.mp h
    obtain ⟨_, -, hentry⟩ := Result.bind_eq_ok_iff.mp hentry
    obtain rfl := Result.pure_eq_ok_iff.mp hentry
    exact ⟨.variables, by rw [hcategory]; rfl, hpath⟩
  · rename_i hcategory
    obtain ⟨entry, hentry, h⟩ := Result.bind_eq_ok_iff.mp h
    obtain ⟨path, hpath, h⟩ := Result.bind_eq_ok_iff.mp h
    obtain rfl := Result.pure_eq_ok_iff.mp h
    obtain ⟨_, -, hentry⟩ := Result.bind_eq_ok_iff.mp hentry
    obtain rfl := Result.pure_eq_ok_iff.mp hentry
    exact ⟨.schemas, by rw [hcategory]; rfl, hpath⟩
  · rename_i hcategory
    obtain ⟨entry, hentry, h⟩ := Result.bind_eq_ok_iff.mp h
    obtain ⟨path, hpath, h⟩ := Result.bind_eq_ok_iff.mp h
    obtain ⟨properties, -, h⟩ := Result.bind_eq_ok_iff.mp h
    obtain rfl := Result.pure_eq_ok_iff.mp h
    obtain ⟨_, -, hentry⟩ := Result.bind_eq_ok_iff.mp hentry
    split at hentry
    · exact absurd hentry (by simp)
    · obtain rfl := Result.pure_eq_ok_iff.mp hentry
      exact ⟨.tables, by rw [hcategory]; rfl, hpath⟩
  · obtain ⟨path, hpath, h⟩ := Result.bind_eq_ok_iff.mp h
    split at h
    · rename_i body hbody
      obtain rfl := Result.pure_eq_ok_iff.mp h
      refine ⟨.functions, ?_, hpath⟩
      unfold Renderer.functionBody? at hbody
      split at hbody
      case h_6 | h_7 | h_8 => exact absurd hbody (by simp)
      all_goals
        rename_i hcategory
        rw [hcategory]
        rfl
    · exact absurd h Result.throw_ne_ok

/-- **A stub that is rendered goes into the package:** the segments of its path are plain. -/
theorem PackageWriter.plain_of_render {r : Renderer} {spec : Spec} {stub : Stub}
    (h : r.render spec = .ok stub) : ∀ segment ∈ stub.path.segments, IsPlain segment := by
  obtain ⟨root, -, hpath⟩ := Renderer.path_of_render h
  have hcontext := Result.mapError_eq_ok_iff.mp hpath
  exact fun segment hm => isPlain_of_isSegment (segments_of_ofContext hcontext segment hm).1

end StubGen
