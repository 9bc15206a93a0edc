import StubGen.Proofs.Package.Aggregation
import StubGen.Proofs.Package.AllOrNothing

/-!
# Runs of a writer

A package is started in an empty directory, and stubs are written to it, some of which fail. In
every state that is reached the aggregators are complete: each directory is imported by the
one around it, and all that has been written is there. That is `aggregators_complete`; it
follows from the invariant `Kept`, which the start of a package establishes and every
stub keeps, the ones that fail because they change nothing.
-/

namespace StubGen.PackageWriter

open Disk (Place Node IsPlain)
open Disk.Path (join)
open Transaction

variable {w : PackageWriter} {root : Place} {history : List Stub} {disk after : Disk}
  {t t' : Transaction} {stub : Stub}

/-! ## The names in a path -/

/-- A stub that can be told from the imports around it: its path is one of a context and a name, the
segments are one line each, and its source imports nothing. -/
structure Fits (stub : Stub) : Prop where
  named : ∃ context name, NamespacePath.ofContext stub.path.root context name = .ok stub.path
  oneLine : ∀ segment ∈ stub.path.segments, '\n' ∉ segment.toList
  importless : Importless stub.source

theorem trimEnd_trim (s : String) : Text.trimEnd (Text.trim s) = Text.trim s := by
  unfold Text.trimEnd Text.trim Text.trimChars
  rw [String.toList_ofList, Text.trimEndChars_trimEndChars]

/-- The namespaces that a context stands for. -/
def namespacesOf (context : String) : List String :=
  ((Text.split '.' context).map Text.trim).filter fun segment => !segment.isEmpty

/-- A path is that of a context and a name, if all of its segments can name directories. -/
theorem ofContext_eq_ok {sec : Section} {context name : String} {path : NamespacePath}
    (h : NamespacePath.ofContext sec context name = .ok path) :
    path = ⟨sec, namespacesOf context, Text.trim name⟩ ∧
      ∀ segment ∈ path.segments, NamespacePath.isSegment segment = true := by
  unfold NamespacePath.ofContext NamespacePath.ofSegments at h
  dsimp only at h
  rw [List.getLast?_concat] at h
  dsimp only at h
  split at h
  · exact absurd h (by simp)
  split at h
  · exact absurd h (by simp)
  · rename_i hall
    rw [List.dropLast_concat] at h
    obtain rfl := Except.ok.inj h
    exact ⟨rfl, fun segment hm => by simpa using List.find?_eq_none.mp hall segment hm⟩

/-- The segments of a path can name directories, and have no white space at their ends. -/
theorem segments_of_ofContext {sec : Section} {context name : String} {path : NamespacePath}
    (h : NamespacePath.ofContext sec context name = .ok path) :
    ∀ segment ∈ path.segments,
      NamespacePath.isSegment segment = true ∧ Text.trimEnd segment = segment := by
  obtain ⟨rfl, hall⟩ := ofContext_eq_ok h
  intro segment hm
  refine ⟨hall segment hm, ?_⟩
  rcases List.mem_append.mp hm with hm | hm
  · obtain ⟨piece, -, rfl⟩ := List.mem_map.mp (List.mem_filter.mp hm).1
    exact trimEnd_trim piece
  · rw [List.mem_singleton.mp hm]
    exact trimEnd_trim name

theorem isPlain_of_isSegment {segment : String} (h : NamespacePath.isSegment segment = true) :
    IsPlain segment := by
  simp only [NamespacePath.isSegment, Bool.and_eq_true, Bool.not_eq_true', bne_iff_ne,
    List.all_eq_true, decide_eq_true_eq] at h
  obtain ⟨⟨⟨hempty, hdot⟩, hdots⟩, hall⟩ := h
  exact ⟨by simpa using hempty, hdot, hdots, fun hm => (hall _ hm).1 rfl⟩

theorem Fits.segment (h : Fits stub) {segment : String} (hm : segment ∈ stub.path.segments) :
    IsPlain segment ∧ Importable segment := by
  obtain ⟨context, name, hnamed⟩ := h.named
  obtain ⟨hsegment, htrimmed⟩ := segments_of_ofContext hnamed segment hm
  have hplain := isPlain_of_isSegment hsegment
  exact ⟨hplain, hplain.ne_empty, h.oneLine segment hm, htrimmed⟩

/-- The module of types can be imported. -/
theorem Fits.importable_typeModule (h : Fits stub) :
    Importable (Identifier.typeModule stub.path.leaf) :=
  (h.segment (List.mem_append_right stub.path.namespaces List.mem_cons_self)).2.typeModule

/-- The file of the module of types has a plain name. -/
theorem isPlain_typeFile {leaf : String} (h : IsPlain leaf) :
    IsPlain (Identifier.typeModule leaf ++ ".py") := by
  have hchars : (Identifier.typeModule leaf ++ ".py").toList =
      '_' :: (leaf.toList ++ ['.', 'p', 'y']) := by
    unfold Identifier.typeModule
    rw [String.toList_append, String.toList_append]
    rfl
  have hfirst : ∀ other : String, other.toList.head? ≠ some '_' →
      Identifier.typeModule leaf ++ ".py" ≠ other := by
    rintro _ hother rfl
    exact hother (by rw [hchars]; rfl)
  refine ⟨hfirst "" (by decide), hfirst "." (by decide), hfirst ".." (by decide), ?_⟩
  have hflat := h.flat
  rw [hchars]
  simp [hflat]

theorem Fits.isPlain_typeFile (h : Fits stub) :
    IsPlain (Identifier.typeModule stub.path.leaf ++ ".py") :=
  PackageWriter.isPlain_typeFile
    (h.segment (List.mem_append_right stub.path.namespaces List.mem_cons_self)).1

/-! ## Writing a stub -/

theorem sourcesIn_concat_self (history : List Stub) (stub : Stub) :
    sourcesIn (history ++ [stub]) stub.path.root stub.path.namespaces =
      sourcesIn history stub.path.root stub.path.namespaces ++ [Text.trimEnd stub.source] := by
  simp [sourcesIn]

theorem sourcesIn_concat_of_ne (history : List Stub) {sec : Section} {namespaces : List String}
    (h : ¬ (sec = stub.path.root ∧ namespaces = stub.path.namespaces)) :
    sourcesIn (history ++ [stub]) sec namespaces = sourcesIn history sec namespaces := by
  have hnot : ¬ (stub.path.root = sec ∧ stub.path.namespaces = namespaces) :=
    fun heq => h ⟨heq.1.symm, heq.2.symm⟩
  simp [sourcesIn, hnot]

/-- **The declaration of a stub goes into the aggregator of its directory.** -/
theorem Kept.declare (h : Kept w root history none disk) (hf : Fits stub) {old : String}
    (hd : disk.tree.get? (placeIn root stub.path.root stub.path.namespaces) = some .directory)
    (hold : disk.tree.get? (placeIn root stub.path.root stub.path.namespaces ++ [aggregatorName]) =
      some (.file old))
    (hb : disk.Becomes (disk.tree.put
      (placeIn root stub.path.root stub.path.namespaces ++ [aggregatorName])
      (.file (withStub old stub))) after) :
    Kept w root (history ++ [stub]) none after := by
  obtain ⟨content, hg, haggregates⟩ := h.aggregated _ _ hd
  obtain rfl : old = content := by simpa using hold.symm.trans hg
  have hnew := haggregates.withStub hf.importless fun _ => hf.importable_typeModule
  rw [← sourcesIn_concat_self] at hnew
  refine h.putAggregator hd hold hb hnew (imports_le_withStub old stub)
    (fun sec namespaces hne => sourcesIn_concat_of_ne history hne) (fun other hm => ?_) (by simp)
  rcases List.mem_append.mp hm with hm | hm
  · exact .inl hm
  · rw [List.mem_singleton.mp hm]
    exact .inr ⟨rfl, rfl⟩

theorem isPlain_directory (sec : Section) : IsPlain sec.directory := by
  cases sec <;> exact ⟨by decide, by decide, by decide, by decide⟩

/-- What becomes of a disk when a stub is declared in a directory: the module of its types is
written, if it has types, and the aggregator after that, which held a content before. -/
def Declares (stub : Stub) (place : Place) (content : String) (disk after : Disk) : Prop :=
  ∃ typed : Disk,
    (stub.hasTypeDefs = true ∧
        disk.tree.get? (place ++ [Identifier.typeModule stub.path.leaf ++ ".py"]) ≠
          some .directory ∧
        disk.Becomes (disk.tree.put (place ++ [Identifier.typeModule stub.path.leaf ++ ".py"])
          (.file stub.typeDefs)) typed ∨
      stub.hasTypeDefs = false ∧ typed = disk) ∧
    typed.tree.get? (place ++ [aggregatorName]) ≠ some .directory ∧
    typed.Becomes (typed.tree.put (place ++ [aggregatorName]) (.file (withStub content stub)))
      after

/-- **Writing a stub** goes down to the directory of its section and from there to its own, reads
the aggregator, and declares the stub. -/
theorem writeIn_eq_ok (ht : IsPlain (Identifier.typeModule stub.path.leaf ++ ".py"))
    (hrun : w.writeIn stub t = (.ok (), t')) :
    ∃ aggregator made directory entered content looked,
      w.ensureAggregator (join w.root stub.path.root.directory) stub.path.root t =
        (.ok aggregator, made) ∧
      w.enter stub.path.root (join w.root stub.path.root.directory) (some aggregator)
        stub.path.namespaces made = (.ok directory, entered) ∧
      readOrEmpty (join directory aggregatorName) entered = (.ok content, looked) ∧
      ∀ place, looked.disk.Reaches directory place →
        Declares stub place content looked.disk t'.disk := by
  obtain ⟨directory, entered, henter, hrest⟩ := Result.run_bind_eq_ok hrun
  obtain ⟨aggregator, made, hmake, hdown⟩ := Result.run_bind_eq_ok henter
  obtain ⟨content, looked, hread, hrest⟩ := Result.run_bind_eq_ok hrest
  refine ⟨aggregator, made, directory, entered, content, looked, hmake, hdown, hread,
    fun place hr => ?_⟩
  dsimp only at hrest
  split at hrest
  · rename_i htypes
    obtain ⟨_, typed, hwriteTypes, hdeclare⟩ := Result.run_bind_eq_ok hrest
    obtain ⟨hfree, hb⟩ := writeFile_join ht hr hwriteTypes
    -- the directory is still there when the aggregator is written
    have hr' := hb.reaches (Disk.Tree.keepsDirectories_put hfree) hr
    obtain ⟨hfree', hb'⟩ := writeFile_join isPlain_aggregatorName hr' hdeclare
    rw [← show withStub content stub = _ from if_pos htypes] at hb'
    exact ⟨typed.disk, .inl ⟨htypes, hfree, hb⟩, hfree', hb'⟩
  · rename_i htypes
    obtain ⟨hfree, hb⟩ := writeFile_join isPlain_aggregatorName hr hrest
    rw [← show withStub content stub = _ from if_neg htypes] at hb
    exact ⟨looked.disk, .inr ⟨Bool.eq_false_iff.mpr htypes, rfl⟩, hfree, hb⟩

/-- **The declaration of a stub goes into the aggregator of its directory,** after its types. -/
theorem Kept.declares (h : Kept w root history none disk) (hf : Fits stub) {old : String}
    (hd : disk.tree.get? (placeIn root stub.path.root stub.path.namespaces) = some .directory)
    (hold : disk.tree.get? (placeIn root stub.path.root stub.path.namespaces ++ [aggregatorName]) =
      some (.file old))
    (hdeclares : Declares stub (placeIn root stub.path.root stub.path.namespaces) old disk after) :
    Kept w root (history ++ [stub]) none after := by
  obtain ⟨typed, ⟨-, hfree, hb⟩ | ⟨-, rfl⟩, -, hb'⟩ := hdeclares
  · by_cases hsame : Identifier.typeModule stub.path.leaf ++ ".py" = aggregatorName
    · -- the types take the place of the aggregator for a moment
      rw [hb.tree_eq, hsame, Disk.Tree.put_put] at hb'
      exact h.declare hf hd hold (hb.trans hb')
    · have hne : ∀ sec namespaces, placeIn root sec namespaces ++ [aggregatorName] ≠
          placeIn root stub.path.root stub.path.namespaces ++
            [Identifier.typeModule stub.path.leaf ++ ".py"] := fun sec namespaces heq =>
        hsame (by simpa using (List.append_inj' heq rfl).2.symm)
      have htyped := h.putElsewhere hb (by rwa [List.dropLast_concat]) hfree hne
      have hd' : typed.tree.get? (placeIn root stub.path.root stub.path.namespaces) =
          some .directory := by
        rw [hb.tree_eq]
        exact Disk.Tree.keepsDirectories_put hfree _ hd
      refine htyped.declare hf hd' ?_ hb'
      rw [hb.tree_eq, Disk.Tree.get?_put_of_ne (hne _ _), hold]
  · exact h.declare hf hd hold hb'

/-- **A stub goes into the aggregator of its directory,** and what it needs is made on the way. -/
theorem Kept.writeIn (h : Kept w root history none t.disk) (hf : Fits stub)
    (hp : Importless (w.preamble stub.path.root))
    (hrun : w.writeIn stub t = (.ok (), t')) :
    Kept w root (history ++ [stub]) none t'.disk := by
  have hnames : ∀ name ∈ stub.path.namespaces, IsPlain name ∧ Importable name :=
    fun name hm => hf.segment (List.mem_append_left _ hm)
  obtain ⟨aggregator, made, directory, entered, read, looked, hmake, hdown, hread, hdeclares⟩ :=
    writeIn_eq_ok hf.isPlain_typeFile hrun
  -- nothing imports the directory of the section
  obtain ⟨rfl, hreached, hmade⟩ :=
    h.ensureAggregator (isPlain_directory _) h.reached rfl hp hmake
  obtain ⟨hkept, hr⟩ := hmade.settle.enter hp hnames hreached hdown
  obtain ⟨old, hold, -⟩ := hkept.aggregated _ _ hr.get?_eq
  obtain ⟨rfl, hlooked⟩ := readOrEmpty_join isPlain_aggregatorName hkept.candid hr hold hread
  have hr := hlooked.reaches (fun _ hd => hd) hr
  rw [← hlooked.tree_eq] at hold
  exact (hkept.becomes hlooked).declares hf hr.get?_eq hold (hdeclares _ hr)

/-- A stub that is written is part of the package. -/
theorem Kept.write_ok (h : Kept w root history none disk) (hf : Fits stub)
    (hp : Importless (w.preamble stub.path.root)) (hrun : w.write stub disk = (.ok (), after)) :
    Kept w root (history ++ [stub]) none after := by
  unfold write at hrun
  split at hrun
  · exact absurd (Prod.mk.inj hrun).1 (by simp)
  · obtain ⟨t, hsteps, rfl⟩ := run_of_atomically hrun
    exact Kept.writeIn h hf hp hsteps

/-- A stub that is not written changes nothing. -/
theorem Kept.write_error (h : Kept w root history none disk) {e : PackageError}
    (hrun : w.write stub disk = (.error e, after)) : Kept w root history none after := by
  have hleft := w.refusals_suffix_write stub disk
  rw [hrun] at hleft
  exact h.becomes ⟨_, hleft, untouched_of_write h.wellFormed hrun⟩

/-! ## Starting a package -/

/-- A disk with an empty directory for a package. -/
structure Fresh (w : PackageWriter) (root : Place) (disk : Disk) : Prop where
  wellFormed : disk.tree.WellFormed
  candid : disk.Candid
  reached : disk.Reaches w.root root
  empty : disk.tree.hasChildren root = false

theorem Fresh.kept (h : Fresh w root disk) : Kept w root [] none disk := by
  have hnone : ∀ sec namespaces,
      disk.tree.get? (placeIn root sec namespaces) ≠ some .directory := by
    intro sec namespaces hd
    have hthere : (disk.tree.get? (placeIn root sec namespaces)).isSome := by
      rw [hd]
      rfl
    have hchild := Disk.Tree.hasChildren_of_get? (List.prefix_append root _)
      (show placeIn root sec namespaces ≠ root by simp [placeIn]) hthere
    rw [h.empty] at hchild
    exact Bool.noConfusion hchild
  exact ⟨h.wellFormed, h.candid, h.reached, fun sec namespaces hd => absurd hd (hnone _ _),
    fun sec namespaces child content hd => absurd hd (hnone _ _), by simp⟩

/-- A file of the package itself is written once there is a directory for it. -/
theorem exists_writeFile_of_writeOwnFile {file : PackageFile}
    (hrun : w.writeOwnFile file t = (.ok (), t')) :
    ∃ made : Transaction, writeFile (join w.root file.path) file.content made = (.ok (), t') ∧
      (made = t ∨ ∃ parent, Disk.Path.parent? (join w.root file.path) = some parent ∧
        createDirectories parent t = (.ok (), made)) := by
  obtain ⟨path, begun, hinside, hrest⟩ := Result.run_bind_eq_ok hrun
  obtain ⟨rfl, rfl⟩ : path = join w.root file.path ∧ t = begun := by
    unfold insidePath at hinside
    split at hinside
    · obtain ⟨hpath, hbegun⟩ := Result.run_pure_eq_ok hinside
      exact ⟨hpath.symm, hbegun⟩
    · exact absurd (Prod.mk.inj hinside).1 nofun
  dsimp only at hrest
  cases hparent : Disk.Path.parent? (join w.root file.path) with
  | none =>
      rw [hparent] at hrest
      exact ⟨t, hrest, .inl rfl⟩
  | some parent =>
      rw [hparent] at hrest
      obtain ⟨_, made, hmake, hwrite⟩ := Result.run_bind_eq_ok hrest
      exact ⟨made, hwrite, .inr ⟨parent, rfl, hmake⟩⟩

/-- A file of the package itself goes into the package's directory, which is there. -/
theorem writeOwnFile_eq_ok {file : PackageFile} (hr : t.disk.Reaches w.root root)
    (hn : IsPlain file.path) (hrun : w.writeOwnFile file t = (.ok (), t')) :
    t.disk.tree.get? (root ++ [file.path]) ≠ some .directory ∧
      t.disk.Becomes (t.disk.tree.put (root ++ [file.path]) (.file file.content)) t'.disk := by
  obtain ⟨made, hwrite, hmade⟩ := exists_writeFile_of_writeOwnFile hrun
  have hmade : t.disk.Becomes t.disk.tree made.disk := by
    obtain rfl | ⟨parent, hparent, hmake⟩ := hmade
    · exact ⟨_, List.suffix_rfl, rfl⟩
    · exact createDirectories_of_reaches (Disk.reaches_of_parent?_join hn hr hparent) hmake
  obtain ⟨hfree, hb⟩ := writeFile_join hn (hmade.reaches (fun _ hd => hd) hr) hwrite
  rw [hmade.tree_eq] at hfree hb
  exact ⟨hfree, hmade.trans hb⟩

/-- A file of the package itself is no aggregator of a directory in it. -/
theorem Kept.writeOwnFile {file : PackageFile} (h : Kept w root history none t.disk)
    (hn : IsPlain file.path) (hrun : w.writeOwnFile file t = (.ok (), t')) :
    Kept w root history none t'.disk := by
  obtain ⟨hfree, hb⟩ := writeOwnFile_eq_ok h.reached hn hrun
  refine h.putElsewhere hb ?_ hfree fun sec namespaces heq => ?_
  · rw [List.dropLast_concat]
    exact h.reached.get?_eq
  · have hlen := congrArg List.length heq
    simp [placeIn] at hlen

/-- **A package that is started in an empty directory is in good order.** -/
theorem Fresh.init (h : Fresh w root disk) (hp : ∀ sec, Importless (w.preamble sec))
    {files : List PackageFile} (hn : ∀ file ∈ files, IsPlain file.path)
    (hrun : w.init files disk = (.ok (), after)) : Kept w root [] none after := by
  obtain ⟨t, hsteps, rfl⟩ := run_of_atomically hrun
  obtain ⟨_, made, hmake, hrest⟩ := Result.run_bind_eq_ok hsteps
  obtain ⟨_, filled, hfill, hsections⟩ := Result.run_bind_eq_ok hrest
  have hmade : Kept w root [] none made.disk :=
    h.kept.becomes (createDirectories_of_reaches (.inr ⟨root, h.reached⟩) hmake)
  have hfilled : Kept w root [] none filled.disk :=
    Result.forM_keeps (P := fun t => Kept w root [] none t.disk)
      (fun file hm _ _ hkept => hkept.writeOwnFile (hn file hm)) hmade hfill
  refine Result.forM_keeps (P := fun t => Kept w root [] none t.disk)
    (fun sec _ t t' hkept hsec => ?_) hfilled hsections
  obtain ⟨_, ensured, hensure, hend⟩ := Result.run_bind_eq_ok hsec
  obtain ⟨-, -, hensured⟩ :=
    hkept.ensureAggregator (isPlain_directory sec) hkept.reached rfl (hp sec) hensure
  rw [← (Result.run_pure_eq_ok hend).2]
  exact hensured.settle

theorem isPlain_of_mem_packageFiles {renderer : Renderer} {baseUrl : String} {file : PackageFile}
    (hm : file ∈ renderer.packageFiles baseUrl) : IsPlain file.path := by
  rcases List.mem_cons.mp hm with rfl | hm
  · exact isPlain_aggregatorName
  · have hruntime : IsPlain "runtime.py" := ⟨by decide, by decide, by decide, by decide⟩
    rw [List.mem_singleton.mp hm]
    exact hruntime

/-! ## Whole runs -/

/-- The disks that are reached when a package is started in an empty directory and stubs are
written to it, with those that have been written. -/
inductive Reached (w : PackageWriter) (root : Place) : List Stub → Disk → Prop where
  | init {disk after : Disk} {files : List PackageFile} :
      Fresh w root disk →
      files = [] ∨ (∃ (renderer : Renderer) (baseUrl : String),
        files = renderer.packageFiles baseUrl) →
      w.init files disk = (.ok (), after) → Reached w root [] after
  | written {history : List Stub} {disk after : Disk} {stub : Stub} :
      Reached w root history disk → Fits stub → w.write stub disk = (.ok (), after) →
      Reached w root (history ++ [stub]) after
  | failed {history : List Stub} {disk after : Disk} {stub : Stub} {e : PackageError} :
      Reached w root history disk → w.write stub disk = (.error e, after) →
      Reached w root history after

theorem Reached.kept (hp : ∀ sec, Importless (w.preamble sec)) (h : Reached w root history disk) :
    Kept w root history none disk := by
  induction h with
  | init hfresh hfiles hrun =>
      refine hfresh.init hp (fun file hm => ?_) hrun
      rcases hfiles with rfl | ⟨renderer, baseUrl, rfl⟩
      · exact absurd hm List.not_mem_nil
      · exact isPlain_of_mem_packageFiles hm
  | written _ hf hrun ih => exact ih.write_ok hf (hp _) hrun
  | failed _ hrun ih => exact ih.write_error hrun

/-- **Aggregators are complete** in every state of a package. The directory of a namespace has an
aggregator that begins with the preamble of its section, behind which stand the sources of all
stubs that have been written there, one behind the other in the order in which they were written.
A directory in another one is imported on one line of the aggregator of that one. And what has
been written has a directory. -/
theorem aggregators_complete (hp : ∀ sec, Importless (w.preamble sec))
    (h : Reached w root history disk) :
    (∀ sec namespaces, disk.tree.get? (placeIn root sec namespaces) = some .directory →
      ∃ rest, disk.tree.get? (placeIn root sec namespaces ++ [aggregatorName]) =
          some (.file (w.preamble sec ++ rest)) ∧
        InOrder (sourcesIn history sec namespaces) rest) ∧
    (∀ sec namespaces child,
      disk.tree.get? (placeIn root sec (namespaces ++ [child])) = some .directory →
      ∃ content, disk.tree.get? (placeIn root sec namespaces ++ [aggregatorName]) =
          some (.file content) ∧ imports content child = 1) ∧
    (∀ stub ∈ history,
      disk.tree.get? (placeIn root stub.path.root stub.path.namespaces) = some .directory) := by
  have hkept := h.kept hp
  refine ⟨fun sec namespaces hd => ?_, fun sec namespaces child hd => ?_, hkept.written⟩
  · obtain ⟨content, hg, haggregates⟩ := hkept.aggregated sec namespaces hd
    obtain ⟨rest, rfl, hrest⟩ := haggregates.begins
    exact ⟨rest, hg, hrest⟩
  · obtain ⟨content, hg, -⟩ := hkept.aggregated sec namespaces (hkept.outer hd)
    exact ⟨content, hg, hkept.imported sec namespaces child content hd (by simp) hg⟩

/-- A text is without imports if no line of it begins like one. -/
theorem importless_of_lines {text : String}
    (h : (Text.lines text).all (fun line =>
      !Text.startsWith "from . import " (Text.trimEnd line)) = true) : Importless text := by
  intro name
  refine List.countP_eq_zero.mpr fun line hm heq => ?_
  have hline : Text.trimEnd line = "from . import " ++ name := beq_iff_eq.mp heq
  have hnot := List.all_eq_true.mp h line hm
  rw [hline] at hnot
  have hstarts : Text.startsWith "from . import " ("from . import " ++ name) = true := by
    unfold Text.startsWith Text.after?
    rw [Option.isSome_map, Option.isSome_iff_exists]
    exact ⟨name.toList, Text.afterChars?_eq_some_iff.mpr String.toList_append⟩
  rw [hstarts] at hnot
  exact Bool.noConfusion hnot

/-- A namespace in a package that has been started at the top of an empty disk. -/
theorem aggregators_complete_shop :
    let w : PackageWriter := ⟨"", fun _ => "# poly\n"⟩
    let stub : Stub := ⟨⟨.functions, ["shop"], "getPet"⟩, "def getPet(): ...", "class Pet: ..."⟩
    ∃ disk, Reached w [] [stub] disk ∧
      ∃ content, disk.tree.get? ["poly", aggregatorName] = some (.file content) ∧
        imports content "shop" = 1 := by
  intro w stub
  let start : Disk := ⟨Disk.Tree.empty, [], none, []⟩
  have hfresh : Fresh w [] start :=
    ⟨Disk.Tree.wellFormed_empty, List.not_mem_nil, rfl, rfl⟩
  have hpreamble : Importless "# poly\n" := importless_of_lines (by decide +kernel)
  have hfits : Fits stub :=
    ⟨⟨"shop", "getPet", Result.eq_ok_of_toOption (by decide +kernel)⟩, by decide +kernel,
      importless_of_lines (by decide +kernel)⟩
  have hboth : ((w.init [] start).1.toBool &&
      (w.write stub (w.init [] start).2).1.toBool) = true := by decide +kernel
  obtain ⟨hstarted, hwritten⟩ := Bool.and_eq_true_iff.mp hboth
  obtain ⟨_, begun, hinit⟩ := Result.run_of_toBool hstarted
  rw [hinit] at hwritten
  obtain ⟨_, disk, hwrite⟩ := Result.run_of_toBool hwritten
  have hreached := (Reached.init hfresh (.inl rfl) hinit).written hfits hwrite
  have hcomplete := aggregators_complete (fun _ => hpreamble) hreached
  exact ⟨disk, hreached,
    hcomplete.2.1 .functions [] "shop" (hcomplete.2.2 stub List.mem_cons_self)⟩

end StubGen.PackageWriter
