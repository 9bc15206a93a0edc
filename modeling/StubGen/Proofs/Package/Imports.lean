import StubGen.Proofs.Package.TypeModules
import StubGen.Proofs.Schema.Legality

/-!
# Imports

What a writer adds to aggregators is imports: of the directories on the way of a stub and of the
module of its types. A line imports something only if it is one line with an identifier. For the
module of types it is, since the leaf has been made into an identifier; the segments of a context
are imported as they stand, so there it depends on them: `write_imports`.

The package need not be there yet. The directories on the way to it are made first, and once they
are there, the steps are those of a writer whose package is there: `write_leaves_anywhere`.
-/

namespace StubGen

open Disk (Place IsPlain)
open Disk.Path (join)
open Renderer (importLine)

/-! ## Packages that are not there yet -/

namespace Transaction

variable {t t' : Transaction} {directory name : String} {place : Place}

/-- Directories that are made change no text. -/
theorem createDirectories_eq_ok (h : createDirectories directory t = (.ok (), t')) :
    t.disk.Onward t'.disk ∧ ∀ q, t'.disk.tree.text? q = t.disk.tree.text? q := by
  unfold createDirectories at h
  rw [Result.run_get_bind] at h
  refine Result.forM_keeps
    (P := fun s => t.disk.Onward s.disk ∧ ∀ q, s.disk.tree.text? q = t.disk.tree.text? q)
    (fun path _ s after hs hmake => ?_) ⟨.refl _, fun _ => rfl⟩ h
  rcases createDirectory_eq_ok hmake with hb | ⟨place, -, hnone, hb⟩
  · refine ⟨hs.1.trans hb.onward, fun q => ?_⟩
    rw [hb.tree_eq, hs.2]
  · refine ⟨hs.1.trans (hb.onward_put (by simp [hnone])), fun q => ?_⟩
    rw [hb.tree_eq, Disk.Tree.text?_put_directory hnone, hs.2]

/-- Nothing is made of a directory that is there. -/
theorem createDirectories_of_there (hr : t.disk.Reaches directory place)
    (hc : Disk.checkPath directory = .ok ()) : createDirectories directory t = (.ok (), t) := by
  have hthere : t.disk.isDirectory directory = true := by
    unfold Disk.isDirectory
    rw [Disk.find_of_reaches hr hc]
  unfold createDirectories
  rw [Result.run_get_bind, missing, Disk.Path.ancestors, Disk.Path.ancestorsFrom_eq_cons,
    List.takeWhile_cons_of_neg (by simp [hthere])]
  rfl

end Transaction

namespace PackageWriter

open Transaction

variable {w : PackageWriter} {sec : Section} {t t' : Transaction} {stub : Stub}
  {directory aggregator : String} {disk after : Disk}

/-- **A directory that gets an aggregator is there as soon as it has been made,** so that the rest
is the same when it begins there. -/
theorem ensureAggregator_again (hne : directory ≠ "")
    (hrun : w.ensureAggregator directory sec t = (.ok aggregator, t')) :
    ∃ made place, t.disk.Onward made.disk ∧
      (∀ q, made.disk.tree.text? q = t.disk.tree.text? q) ∧ made.disk.Reaches directory place ∧
      w.ensureAggregator directory sec made = w.ensureAggregator directory sec t := by
  obtain ⟨_, made, hmake, hrest⟩ := Result.run_bind_eq_ok hrun
  obtain ⟨honward, htexts⟩ := createDirectories_eq_ok hmake
  obtain ⟨place, hr, hc⟩ : ∃ place, made.disk.Reaches directory place ∧
      Disk.checkPath (join directory aggregatorName) = .ok () := by
    rw [Result.run_get_bind] at hrest
    split at hrest
    · obtain ⟨_, _, hwrite, -⟩ := Result.run_bind_eq_ok hrest
      obtain ⟨_, hw, -⟩ := writeFile_eq_ok hwrite
      obtain ⟨place, hr⟩ := Disk.reaches_of_place? isPlain_aggregatorName hw.entry
      exact ⟨place, hr, Disk.checkPath_of_place? hw.entry⟩
    · rename_i hthere
      have hthere : made.disk.isThere (join directory aggregatorName) = true := by
        simpa using hthere
      obtain ⟨place, hr, -⟩ := Disk.reaches_of_isThere isPlain_aggregatorName hthere
      exact ⟨place, hr, Disk.checkPath_of_isThere hthere⟩
  -- what is there is not made again
  have hagain := createDirectories_of_there hr
    (Disk.checkPath_of_join isPlain_aggregatorName hne hc)
  refine ⟨made, place, honward, htexts, hr, ?_⟩
  unfold ensureAggregator
  rw [Result.run_bind, Result.run_bind, hagain, hmake]

theorem Leaves.of_texts {root : Place} {old other new : Disk.Tree}
    (h : Leaves w root stub other new) (hsame : ∀ q, other.text? q = old.text? q) :
    Leaves w root stub old new := by
  refine ⟨?_, fun above child below hnames => ?_, h.typed, fun q hq hq' => ?_⟩
  · rw [h.declared, hsame]
  · rw [h.passed above child below hnames, hsame]
  · rw [h.others q hq hq', hsame]

/-- **Wherever the package is,** also if it is not there yet, a stub that is written goes into the
files that it belongs in. -/
theorem write_leaves_anywhere (hn : ∀ segment ∈ stub.path.segments, IsPlain segment)
    (hc : disk.Candid) (hrun : w.write stub disk = (.ok (), after)) :
    ∃ root, after.Reaches w.root root ∧ Leaves w root stub disk.tree after.tree := by
  unfold write at hrun
  split at hrun
  · exact absurd (Prod.mk.inj hrun).1 (by simp)
  obtain ⟨t, hsteps, rfl⟩ := run_of_atomically hrun
  obtain ⟨_, entered, henter, -⟩ := Result.run_bind_eq_ok hsteps
  obtain ⟨_, _, hmake, -⟩ := Result.run_bind_eq_ok henter
  have hplain := isPlain_directory stub.path.root
  have hne := Disk.Path.join_ne_empty hplain w.root
  obtain ⟨made, place, honward, htexts, hr, hagain⟩ := ensureAggregator_again hne hmake
  obtain ⟨root, hroot, rfl⟩ := Disk.reaches_outer hplain hr
  -- the steps are the same ones from where the section's directory is there
  have hsame : w.writeIn stub made = (.ok (), t) := by
    rw [← hsteps]
    have hdown : w.enter stub.path.root w.root none stub.path.directories made =
        w.enter stub.path.root w.root none stub.path.directories (start disk) := by
      unfold NamespacePath.directories enter
      rw [Result.run_bind, Result.run_bind, hagain]
    unfold writeIn
    rw [Result.run_bind, Result.run_bind, hdown]
  obtain ⟨hafter, hleaves⟩ := writeIn_leaves hn (honward.candid hc) hroot hsame
  exact ⟨root, hafter.reaches _ _ hroot, hleaves.of_texts htexts⟩

end PackageWriter


/-! ## Names that can be imported -/

namespace Identifier

/-- A name of letters, digits and underscores that does not begin with a digit and is no keyword. -/
structure IsIdentifier (name : String) : Prop where
  starts : Schema.startsWell name = true
  chars : ∀ c ∈ name.toList, isIdentifierChar c = true
  free : isKeyword name = false

theorem isIdentifier_iff {name : String} : IsIdentifier name ↔ Schema.startsWell name = true ∧
    name.toList.all isIdentifierChar = true ∧ isKeyword name = false :=
  ⟨fun h => ⟨h.starts, List.all_eq_true.mpr h.chars, h.free⟩,
    fun h => ⟨h.1, List.all_eq_true.mp h.2.1, h.2.2⟩⟩

instance (name : String) : Decidable (IsIdentifier name) := decidable_of_iff' _ isIdentifier_iff

theorem IsIdentifier.not_isBlank {name : String} (h : IsIdentifier name) {c : Char}
    (hm : c ∈ name.toList) : Text.isBlank c = false :=
  Text.isBlank_of_isIdentifierChar (h.chars c hm)

theorem IsIdentifier.ne_empty {name : String} (h : IsIdentifier name) : name ≠ "" := by
  rintro rfl
  exact Bool.noConfusion h.starts

theorem IsIdentifier.trimEnd_eq {name : String} (h : IsIdentifier name) :
    Text.trimEnd name = name := by
  have hne : name.toList ≠ [] := fun hnil => h.ne_empty (String.toList_eq_nil_iff.mp hnil)
  rw [Text.trimEnd, (Text.trimEndChars_eq_self_iff hne).mpr (h.not_isBlank (List.getLast_mem hne)),
    String.ofList_toList]

/-- **The module of types goes by an identifier** if the leaf has the characters of one, whatever
it begins with. -/
theorem isIdentifier_typeModule {leaf : String}
    (h : ∀ c ∈ leaf.toList, isIdentifierChar c = true) : IsIdentifier (typeModule leaf) := by
  have hchars : (typeModule leaf).toList = '_' :: leaf.toList := String.toList_append
  refine ⟨?_, fun c hm => ?_, ?_⟩
  · rw [Schema.startsWell, hchars]
    rfl
  · rw [hchars] at hm
    rcases List.mem_cons.mp hm with rfl | hm
    · decide
    · exact h c hm
  · have hall : ∀ name ∈ keywords, name.toList.head? ≠ some '_' := by decide
    rw [Bool.eq_false_iff]
    intro hkeyword
    unfold isKeyword at hkeyword
    exact hall _ (List.contains_iff_mem.mp hkeyword) (by rw [hchars]; rfl)

end Identifier

/-! ## Imports behind a text -/

namespace PackageWriter

open Identifier (IsIdentifier)

/-- A text is another one, its last line ended, with one line behind it, which imports a module by
an identifier. -/
def AddsImport (former content : String) : Prop :=
  ∃ name, IsIdentifier name ∧
    Text.lines content = Text.lines (closeLine former) ++ [importLine name]

/-- The lines that an import is written in. -/
theorem lines_withLine (former line : String) :
    Text.lines (withLine former line) =
      Text.lines (closeLine former) ++ Text.lines (line ++ "\n") := by
  rw [withLine, String.append_assoc, Text.lines_append (lineClosed_closeLine former)]

/-- **An import is one of an identifier exactly if the name is an identifier,** however many lines
the name has, if no white space is at its end. -/
theorem addsImport_withLine_iff {child : String} (hne : child ≠ "")
    (htrimmed : Text.trimEnd child = child) (former : String) :
    AddsImport former (withLine former (importLine child)) ↔ IsIdentifier child := by
  unfold AddsImport
  rw [lines_withLine, Text.lines_newline]
  constructor
  · rintro ⟨name, hname, hsame⟩
    -- the import is one piece, so it has no line end
    have hpieces := List.append_cancel_left hsame
    obtain ⟨piece, hpiece⟩ : ∃ piece, Text.splitChars '\n' (importLine child).toList = [piece] := by
      simpa [List.length_eq_one_iff] using congrArg List.length hpieces
    have hwhole := Text.joinChars_splitChars '\n' (importLine child).toList
    rw [hpiece] at hpieces hwhole
    obtain rfl : piece = (importLine child).toList := hwhole
    have hreturn : Text.dropReturn (importLine child).toList = (importLine name).toList := by
      have hfirst := congrArg String.toList (List.singleton_inj.mp hpieces)
      rwa [String.toList_ofList] at hfirst
    have htrim := congrArg Text.trimEndChars hreturn
    rw [Text.trimEndChars_dropReturn, trimEndChars_importLine hne htrimmed,
      trimEndChars_importLine hname.ne_empty hname.trimEnd_eq, toList_importLine,
      toList_importLine, List.append_cancel_left_eq, String.toList_inj] at htrim
    rwa [htrim]
  · intro hchild
    have hlead : '\n' ∉ "from . import ".toList ∧ '\r' ∉ "from . import ".toList := by decide
    have hflat : ∀ c ∈ (importLine child).toList, c ≠ '\n' ∧ c ≠ '\r' := by
      intro c hm
      rw [toList_importLine] at hm
      rcases List.mem_append.mp hm with hm | hm
      · exact ⟨fun heq => hlead.1 (heq ▸ hm), fun heq => hlead.2 (heq ▸ hm)⟩
      · have hblank := hchild.not_isBlank hm
        constructor <;> rintro rfl <;> exact absurd hblank (by decide)
    refine ⟨child, hchild, ?_⟩
    rw [Text.splitChars_of_not_mem fun hm => (hflat _ hm).1 rfl, List.map_singleton,
      Text.dropReturn_of_not_mem fun hm => (hflat _ hm).2 rfl, List.map_singleton,
      String.ofList_toList]

/-- What an aggregator held, or begins with if it is new. -/
def former (w : PackageWriter) (place : Place) (sec : Section) (tree : Disk.Tree) : String :=
  (tree.text? place).getD (w.preamble sec)

/-- **Every import that a stub brings is one line with an identifier,** but for those of its
context. Wherever the package is, a stub that is written leaves the files as they were but for those
that it belongs in. An aggregator on the way gets the import of the next directory, unless it has
it, and the directory goes by a segment of the context: one line with an identifier is added exactly
if that segment is an identifier. The aggregator that the stub is declared in gets the import of the
module of its types, and that is one line with an identifier whatever the spec is called. -/
theorem write_imports {r : Renderer} {spec : Spec} (hc : disk.Candid)
    (hrender : r.render spec = .ok stub) (hwrite : w.write stub disk = (.ok (), after)) :
    stub.path.namespaces = namespacesOf spec.context ∧
      ∃ root, after.Reaches w.root root ∧ Leaves w root stub disk.tree after.tree ∧
        (∀ above child below, stub.path.namespaces = above ++ child :: below →
          let aggregator := aggregatorIn root stub.path.root above
          let old := former w aggregator stub.path.root disk.tree
          ∃ content, after.tree.text? aggregator = some content ∧
            (content = old ∨ (AddsImport old content ↔ IsIdentifier child))) ∧
        let old := former w (homeOf root stub) stub.path.root disk.tree
        ∃ content, after.tree.text? (homeOf root stub) = some (withSource content stub.source) ∧
          (content = closeLine old ∨ stub.hasTypeDefs = true ∧ AddsImport old content) := by
  have hplain := plain_of_render hrender
  obtain ⟨root, hreaches, hleaves⟩ := write_leaves_anywhere hplain hc hwrite
  obtain ⟨sec, -, hpath⟩ := Renderer.path_of_render hrender
  have hpath := Result.mapError_eq_ok_iff.mp hpath
  have hnamespaces := congrArg NamespacePath.namespaces (ofContext_eq_ok hpath).1
  refine ⟨hnamespaces, root, hreaches, hleaves, ?_, ?_⟩
  · intro above child below hnames aggregator old
    refine ⟨_, hleaves.passed above child below hnames, ?_⟩
    have hm : child ∈ stub.path.segments := List.mem_append_left _ (by simp [hnames])
    obtain ⟨-, htrimmed⟩ := segments_of_ofContext hpath child hm
    have hiff := addsImport_withLine_iff (hplain child hm).ne_empty htrimmed old
    unfold withImport
    split
    · exact .inl rfl
    · exact .inr hiff
  · intro old
    -- the name of the module is an underscore and the leaf, which has identifier characters only
    have htypes : IsIdentifier (Identifier.typeModule stub.path.leaf) :=
      Identifier.isIdentifier_typeModule (Renderer.leaf_of_render hrender ▸
        List.all_eq_true.mp (Renderer.identifierChars_leafOf spec.name))
    have hdeclared := hleaves.declared
    unfold withStub at hdeclared
    split at hdeclared
    · rename_i hdefs
      refine ⟨_, hdeclared, ?_⟩
      unfold withTypeImport
      dsimp only
      split
      · exact .inl rfl
      · exact .inr ⟨hdefs, (addsImport_withLine_iff htypes.ne_empty htypes.trimEnd_eq old).mpr
          htypes⟩
    · exact ⟨_, hdeclared, .inl rfl⟩

end PackageWriter

namespace Generator

open PackageWriter
open Identifier (IsIdentifier)

/-- A function in a context. -/
def shopFunction (context : String) : Spec := { petFunction "get pet" .any with context := context }

/-- Its stub, in a directory. -/
def shopStub (directory : String) : Stub where
  path := ⟨.functions, [directory], "get_pet"⟩
  source := (petStub "get pet" .any).source
  typeDefs := (petStub "get pet" .any).typeDefs

/-- The code does not depend on the context. -/
theorem apiBody_shopFunction (context : String) (signature : Signature) :
    topGenerator.renderer.apiBody (shopFunction context) "get_pet" signature =
      topGenerator.renderer.apiBody (petFunction "get pet" .any) "get_pet" signature := by
  unfold Renderer.apiBody shopFunction
  dsimp only

theorem render_shopFunction {context directory : String}
    (h : Renderer.pathOf .functions context "get_pet" = .ok (shopStub directory).path) :
    topGenerator.renderer.render (shopFunction context) = .ok (shopStub directory) := by
  have hleaf : Renderer.leafOf "get pet" = "get_pet" := by decide
  have hbody : ∀ path, topGenerator.renderer.functionBody? (shopFunction context) "get_pet" path =
      some (topGenerator.renderer.apiBody (petFunction "get pet" .any) "get_pet"
        (.mk [] .any none)) :=
    fun _ => congrArg some (apiBody_shopFunction context _)
  show topGenerator.renderer.functionStub (shopFunction context) = _
  unfold Renderer.functionStub
  rw [show (shopFunction context).name = "get pet" from rfl, hleaf,
    show (shopFunction context).context = context from rfl]
  dsimp only
  rw [h, Result.ok_bind, hbody]
  unfold shopStub petStub
  dsimp only
  rfl

theorem isEmpty_shopStub (directory : String) : (shopStub directory).isEmpty = false := by
  have hpet : (petStub "get pet" .any).isEmpty = false := isEmpty_petStub
  unfold Stub.isEmpty at hpet ⊢
  unfold shopStub
  dsimp only
  exact hpet

theorem hasTypeDefs_shopStub (directory : String) : (shopStub directory).hasTypeDefs = true := by
  have hpet : (petStub "get pet" .any).hasTypeDefs = true := hasTypeDefs_petStub
  unfold Stub.hasTypeDefs at hpet ⊢
  unfold shopStub
  dsimp only
  exact hpet

/-- A writer in whose package aggregators begin with nothing. -/
def bareWriter : PackageWriter := ⟨"", fun _ => ""⟩

theorem ready_bareWriter : Ready bareWriter [] emptyDisk :=
  ⟨Disk.Tree.wellFormed_empty, List.not_mem_nil, rfl⟩

/-- The stub is written whether its directory goes by an identifier or not. -/
theorem write_shopStub {directory : String}
    (hm : directory ∈ ["shop", "my-shop", "shop\nimport os"]) :
    ∃ after, bareWriter.write (shopStub directory) emptyDisk = (.ok (), after) := by
  have hrun : (bareWriter.write (shopStub directory) emptyDisk).1.toBool = true := by
    rw [PackageWriter.write_of_hasTypeDefs (isEmpty_shopStub _) (hasTypeDefs_shopStub _)]
    simp only [List.mem_cons, List.not_mem_nil, or_false] at hm
    rcases hm with rfl | rfl | rfl
    · decide +kernel
    · decide +kernel
    · decide +kernel
  obtain ⟨_, after, hrun⟩ := Result.run_of_toBool hrun
  exact ⟨after, hrun⟩

/-- The imports that a function in a context brings to an empty package. -/
theorem write_imports_shop : ∃ after, emptyDisk.Candid ∧
    topGenerator.renderer.render (shopFunction "shop") = .ok (shopStub "shop") ∧
    bareWriter.write (shopStub "shop") emptyDisk = (.ok (), after) ∧
    ["shop"] = namespacesOf "shop" ∧
      ∃ root, after.Reaches "" root ∧
        Leaves bareWriter root (shopStub "shop") emptyDisk.tree after.tree ∧
        (∀ above child below, ["shop"] = above ++ child :: below →
          let aggregator := aggregatorIn root .functions above
          let old := former bareWriter aggregator .functions emptyDisk.tree
          ∃ content, after.tree.text? aggregator = some content ∧
            (content = old ∨ (AddsImport old content ↔ IsIdentifier child))) ∧
        let old := former bareWriter (homeOf root (shopStub "shop")) .functions emptyDisk.tree
        ∃ content, after.tree.text? (homeOf root (shopStub "shop")) =
            some (withSource content (shopStub "shop").source) ∧
          (content = closeLine old ∨
            (shopStub "shop").hasTypeDefs = true ∧ AddsImport old content) := by
  have hrender : topGenerator.renderer.render (shopFunction "shop") = .ok (shopStub "shop") :=
    render_shopFunction (Result.eq_ok_of_toOption (by decide))
  have hm : "shop" ∈ ["shop", "my-shop", "shop\nimport os"] := by decide
  obtain ⟨after, hwrite⟩ := write_shopStub hm
  exact ⟨after, ready_emptyDisk.candid, hrender, hwrite,
    write_imports ready_emptyDisk.candid hrender hwrite⟩

/-- A function under the context is rendered and written, and the line its aggregator gets is no
line that imports the context, nor any other name. -/
def BreaksImport (context : String) : Prop :=
  ∃ stub after, topGenerator.renderer.render (shopFunction context) = .ok stub ∧
    bareWriter.write stub emptyDisk = (.ok (), after) ∧
    after.tree.text? (aggregatorIn [] .functions []) = some (importLine context ++ "\n") ∧
    ¬ AddsImport "" (importLine context ++ "\n")

theorem breaksImport_of_mem {context : String} (hm : context ∈ ["my-shop", "shop\nimport os"]) :
    BreaksImport context := by
  have hpath : Renderer.pathOf .functions context "get_pet" = .ok (shopStub context).path := by
    refine Result.eq_ok_of_toOption ?_
    simp only [List.mem_cons, List.not_mem_nil, or_false] at hm
    rcases hm with rfl | rfl <;> decide
  have hrender := render_shopFunction hpath
  obtain ⟨after, hwrite⟩ := write_shopStub (List.mem_cons_of_mem _ hm)
  have hplain := PackageWriter.plain_of_render hrender
  obtain ⟨-, hleaves⟩ := PackageWriter.write_leaves ready_bareWriter hplain hwrite
  refine ⟨_, after, hrender, hwrite, hleaves.passed [] context [] rfl, ?_⟩
  have htrimmed : context ≠ "" ∧ Text.trimEnd context = context ∧ ¬ IsIdentifier context := by
    simp only [List.mem_cons, List.not_mem_nil, or_false] at hm
    rcases hm with rfl | rfl <;> decide
  have hiff := addsImport_withLine_iff htrimmed.1 htrimmed.2.1 ""
  exact fun h => htrimmed.2.2 (hiff.mp h)

/-- **A context is imported as it stands:** with a hyphen in it, or with a line end and another
statement behind that. -/
theorem write_breaks_import : BreaksImport "my-shop" ∧ BreaksImport "shop\nimport os" :=
  ⟨breaksImport_of_mem (by decide), breaksImport_of_mem (by decide)⟩

end Generator

end StubGen
