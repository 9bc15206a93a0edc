import StubGen.Proofs.Package.Clearing
import StubGen.Proofs.Package.Lockstep

/-!
# Regeneration forgets the past

Whatever runs there have been in a directory that was empty, a further run that succeeds leaves
the tree that it would have left in the empty directory. Former runs are confined to the places of
the package; the further run clears all of them but the specs, and then goes the way that it would
have gone, in step with a run in the empty directory, until the specs are stored over what was
left of them: `begin_forgets`. From there on the two disks are the same: `generate_forgets`.
-/

namespace StubGen

open Disk (Place)

variable {path : String} {root : Place} {hidden : Place → Prop}
  {start disk disk' after : Disk} {α : Type}

/-! ## Whole transactions -/

namespace Transaction

open PackageWriter (OnlySpecs Untouched untouched_of_atomically atomically_cases)

/-- Steps that go together go together as one change, which leaves the disks alike also where it
fails. -/
theorem atomically_together {steps : Writing α} (hs : Lockstep path root hidden steps)
    (hsafe : ∀ start, Safe start steps) (hw : disk.tree.WellFormed) (hw' : disk'.tree.WellFormed)
    (h : disk.Alike hidden disk') (hr : disk.Reaches path root) :
    Together (fun a after a' after' => a = a' ∧ after.Alike hidden after')
      (fun after after' => after.Alike hidden after')
      (atomically steps disk) (atomically steps disk') := by
  have hrun := hs (.start disk) (.start disk') ⟨h, hr, rfl⟩
  -- steps that fail together are taken back on both disks
  rcases atomically_cases steps disk with ⟨a, t, hsteps, heq⟩ | ⟨e, t, hsteps, heq⟩ <;>
  rcases atomically_cases steps disk' with ⟨a', t', hsteps', heq'⟩ | ⟨e', t', hsteps', heq'⟩ <;>
  rw [hsteps, hsteps'] at hrun <;> rw [heq, heq']
  · cases hrun with
    | both hboth => exact .both ⟨hboth.1, hboth.2.alike⟩
  · exact absurd hrun nofun
  · exact absurd hrun nofun
  · cases hrun with
    | neither hleft =>
        have hback : Untouched disk t.rollback := untouched_of_atomically hw (hsafe disk) heq
        have hback' : Untouched disk' t'.rollback := untouched_of_atomically hw' (hsafe disk') heq'
        refine .neither ?_
        rw [hback, hback']
        refine ⟨h.tree, h.workingDirectory, ?_⟩
        show t.rollback.refusals = t'.rollback.refusals
        rw [rollback_refusals, rollback_refusals]
        exact hleft

end Transaction

/-- Nothing is hidden. -/
def Nowhere : Place → Prop := fun _ => False

namespace PackageWriter

open Transaction

theorem onlySpecs_nowhere : OnlySpecs Nowhere root := fun _ h => False.elim h

/-- A package is started on both disks or on neither. -/
theorem init_together {w : PackageWriter} (hw : w.root = path) {files : List PackageFile}
    (hm : ∀ file ∈ files, file.path ∈ rootFiles) (hh : OnlySpecs hidden root)
    (hv : Vacant start path root) (hc : Confined root start disk) (hc' : Confined root start disk')
    (h : disk.Alike hidden disk') :
    Together (fun a after a' after' => a = a' ∧ after.Alike hidden after')
      (fun after after' => after.Alike hidden after') (w.init files disk) (w.init files disk') := by
  subst hw
  exact atomically_together ((staysIn_lockstep hh).initIn hm) (fun _ => safe_initIn files)
    hc.wellFormed hc'.wellFormed h (hc.reaches hv)

/-- A stub is written on both disks or on neither. -/
theorem write_together {w : PackageWriter} (hw : w.root = path) {stub : Stub}
    (hn : ∀ segment ∈ stub.path.segments, Disk.IsPlain segment) (hh : OnlySpecs hidden root)
    (hv : Vacant start path root) (hc : Confined root start disk) (hc' : Confined root start disk')
    (h : disk.Alike hidden disk') :
    Together (fun a after a' after' => a = a' ∧ after.Alike hidden after')
      (fun after after' => after.Alike hidden after') (w.write stub disk) (w.write stub disk') := by
  subst hw
  unfold write
  split
  · exact .neither h
  · exact atomically_together ((staysIn_lockstep hh).writeIn hn) (fun _ => safe_writeIn stub)
      hc.wellFormed hc'.wellFormed h (hc.reaches hv)

end PackageWriter

namespace Generator

open PackageWriter (OnlySpecs onlySpecs_nowhere)

variable {g : Generator}

/-! ## The disks that runs reach -/

/-- The disks that are reached from another one by runs that generate or clear the package at a
path, each with any generator, query and specs, and however it ends. What is refused from outside
may change at any time, and a removal may stop halfway, with some of what the package has gone. -/
inductive Reached (path : String) (root : Place) (start : Disk) : Disk → Prop where
  | start : Reached path root start start
  | refused {disk : Disk} (refusals : List (Option IoCause)) : Reached path root start disk →
      Reached path root start { disk with refusals := refusals }
  | halfway {disk : Disk} {tree : Disk.Tree} : Reached path root start disk → tree.WellFormed →
      (∀ q, tree.get? q = disk.tree.get? q ∨ IsOwned root q ∧ tree.get? q = none) →
      Reached path root start { disk with tree := tree }
  | generate {disk : Disk} {g : Generator} (query : Query) (baseUrl source : String)
      (fetched : List Spec) : g.root = path → Reached path root start disk →
      Reached path root start (g.generate query baseUrl source fetched disk).2
  | clear {disk : Disk} : Reached path root start disk →
      Reached path root start (clear path disk).2

/-- **What runs touch is the package.** -/
theorem Reached.confined (hv : Vacant start path root) (h : Reached path root start disk) :
    Confined root start disk := by
  induction h with
  | start => exact hv.confined
  | refused refusals _ ih => exact ih.turned refusals
  | halfway _ hw hget ih => exact ih.remove hw hget
  | generate query baseUrl source fetched hg _ ih =>
      exact confined_generate hv hg query baseUrl source fetched ih
  | clear _ ih => exact confined_clear hv ih

/-! ## The beginning of a run -/

/-- Disks from which all of a package but the specs has gone are alike. -/
theorem alike_of_cleared {cleared cleared' : Disk}
    (h : PackageWriter.Removes root start disk cleared)
    (h' : PackageWriter.Removes root start disk' cleared')
    (hr : disk.refusals = disk'.refusals)
    (hgone : ∀ q, IsOwned root q → q ≠ root ++ [SpecCache.fileName] → cleared.tree.get? q = none)
    (hgone' : ∀ q, IsOwned root q → q ≠ root ++ [SpecCache.fileName] →
      cleared'.tree.get? q = none) :
    cleared.Alike (fun q => q = root ++ [SpecCache.fileName]) cleared' := by
  refine ⟨⟨fun q hq => ?_, ?_, ?_⟩, ?_, ?_⟩
  · by_cases ho : IsOwned root q
    · rw [hgone q ho hq, hgone' q ho hq]
    · rw [h.confined.outside q ho, h'.confined.outside q ho]
  · rintro _ rfl
    exact h.confined.files _ List.mem_cons_self
  · rintro _ rfl
    exact h'.confined.files _ List.mem_cons_self
  · rw [h.confined.workingDirectory, h'.confined.workingDirectory]
  · rw [h.refusals, h'.refusals, hr]

theorem rootFiles_of_packageFiles (r : Renderer) (baseUrl : String) :
    ∀ name ∈ rootFiles, ∃ file ∈ r.packageFiles baseUrl, file.path = name := by
  intro name hm
  rcases List.mem_cons.mp hm with rfl | hm
  · exact ⟨_, List.mem_cons_self, rfl⟩
  · rw [List.mem_singleton.mp hm]
    exact ⟨_, List.mem_cons_of_mem _ List.mem_cons_self, rfl⟩

/-- Two disks that hold the same, with what a package may have. -/
structure Twins (root : Place) (start disk disk' : Disk) : Prop where
  alike : disk.Alike Nowhere disk'
  left : Confined root start disk
  right : Confined root start disk'

/-- The specs are stored on both disks, over what was hidden. -/
theorem write_reveals {specs : List Spec} {begun : Disk} (hr : disk.Reaches path root)
    (hh : OnlySpecs hidden root) (h : disk.Alike hidden disk')
    (hrun : (SpecCache.ofPackage path).write specs disk = (.ok (), begun)) :
    ∃ begun', (SpecCache.ofPackage path).write specs disk' = (.ok (), begun') ∧
      begun.Alike Nowhere begun' := by
  obtain ⟨result, hparent⟩ := SpecCache.createParent_eq path
  rcases SpecCache.write_cases hr specs with ⟨e, herror⟩ | ⟨hmade, hw, hwrite⟩
  · rw [hrun] at herror
    exact absurd (Prod.mk.inj herror).1 nofun
  · obtain rfl := (Prod.mk.inj ((hparent disk root hr).symm.trans hmade)).1
    obtain rfl := (Prod.mk.inj (hrun.symm.trans hwrite)).2
    refine ⟨_, SpecCache.write_of_writes specs (hparent disk' root (h.reaches hr)) (h.writes hw),
      ?_, h.workingDirectory, h.refusals⟩
    exact h.tree.reveal (by simp) hh

/-- A package that is begun is cleared, started and given its specs, for which its paths can be
used. -/
theorem begin_eq_ok (hv : Vacant start path root) (hg : g.root = path)
    (h : Confined root start disk) {baseUrl : String} {specs : List Spec} {begun : Disk}
    (hrun : g.begin baseUrl specs disk = (.ok (), begun)) :
    PackageWriter.Usable path ∧ ∃ cleared started, PackageWriter.Removes root start disk cleared ∧
      (∀ q, IsOwned root q → q ≠ root ++ [SpecCache.fileName] → cleared.tree.get? q = none) ∧
      g.writer.init (g.renderer.packageFiles baseUrl) cleared = (.ok (), started) ∧
      (SpecCache.ofPackage path).write specs started = (.ok (), begun) := by
  have hw : g.writer.root = path := hg
  obtain ⟨_, cleared, hclear, hrest⟩ := Result.run_bind_eq_ok hrun
  obtain ⟨_, started, hinit, hwrite⟩ := Result.run_bind_eq_ok hrest
  have hinit : g.writer.init (g.renderer.packageFiles baseUrl) cleared = (.ok (), started) := hinit
  -- the run has succeeded, so that the paths can be used by which a former package is cleared
  have hu := PackageWriter.init_usable (rootFiles_of_packageFiles g.renderer baseUrl) hinit
  rw [hw] at hu
  obtain ⟨count, found, hcount, hremoves, hgone⟩ :=
    PackageWriter.removeOldLibrary_clears hv h hu hw
  obtain rfl : found = cleared := (Prod.mk.inj (hcount.symm.trans hclear)).2
  rw [hg] at hwrite
  exact ⟨hu, found, started, hremoves, hgone, hinit, hwrite⟩

/-- **A package that is begun anew is as new.** -/
theorem begin_forgets (hv : Vacant start path root) (hg : g.root = path)
    (h : Confined root start disk) (h' : Confined root start disk')
    (hr : disk.refusals = disk'.refusals) {baseUrl : String} {specs : List Spec} {begun : Disk}
    (hrun : g.begin baseUrl specs disk = (.ok (), begun)) :
    ∃ begun', g.begin baseUrl specs disk' = (.ok (), begun') ∧ Twins root start begun begun' := by
  have hw : g.writer.root = path := hg
  have hm := packageFiles_mem_rootFiles g.renderer baseUrl
  have hbegun := confined_begin hv hg baseUrl specs h
  have hbegun' := confined_begin hv hg baseUrl specs h'
  obtain ⟨hu, cleared, started, hremoves, hgone, hinit, hwrite⟩ := begin_eq_ok hv hg h hrun
  rw [hrun] at hbegun
  obtain ⟨count', cleared', hclear', hremoves', hgone'⟩ :=
    PackageWriter.removeOldLibrary_clears hv h' hu hw
  have halike := alike_of_cleared hremoves hremoves' hr hgone hgone'
  -- what is left of the specs does not matter to what is started
  have hstarted := PackageWriter.confined_init hv hw hm hremoves.confined
  have htogether := PackageWriter.init_together hw hm (fun _ hq => hq) hv hremoves.confined
    hremoves'.confined halike
  rw [hinit] at hstarted htogether
  generalize hinit' : g.writer.init (g.renderer.packageFiles baseUrl) cleared' = run at htogether
  cases htogether with
  | @both _ _ _ started' hstartedAlike =>
      obtain ⟨begun', hwrite', hrevealed⟩ :=
        write_reveals (hstarted.reaches hv) (fun _ hq => hq) hstartedAlike.2 hwrite
      have hrun' : g.begin baseUrl specs disk' = (.ok (), begun') := by
        have hlifted : (ExceptT.mk (g.writer.init (g.renderer.packageFiles baseUrl)) : OnDisk Unit)
            cleared' = (.ok (), started') := hinit'
        unfold begin
        rw [Result.run_bind, hclear']
        dsimp only
        rw [Result.run_bind, hlifted]
        dsimp only
        rw [hg]
        exact hwrite'
      rw [hrun'] at hbegun'
      exact ⟨begun', hrun', hrevealed, hbegun, hbegun'⟩

/-! ## The specs of a run -/

section

variable (hv : Vacant start path root) (hg : g.root = path)

include hv hg

theorem Twins.attempt (h : Twins root start disk disk') (spec : Spec) :
    Twins root start (g.attempt spec disk).2 (g.attempt spec disk').2 := by
  refine ⟨?_, confined_attempt hv hg spec h.left, confined_attempt hv hg spec h.right⟩
  unfold Generator.attempt
  cases hrender : g.renderer.render spec with
  | error e => exact h.alike
  | ok stub =>
      dsimp only
      split
      · exact h.alike
      · have htogether := PackageWriter.write_together (w := g.writer) hg
          (PackageWriter.plain_of_render hrender) onlySpecs_nowhere hv h.left h.right h.alike
        generalize g.writer.write stub disk = run, g.writer.write stub disk' = run' at htogether
        cases htogether with
        | both hboth => exact hboth.2
        | neither hneither => exact hneither

theorem Twins.attemptAll (h : Twins root start disk disk') (specs : List Spec) :
    Twins root start (g.attemptAll specs disk).2 (g.attemptAll specs disk').2 := by
  induction specs generalizing disk disk' with
  | nil => exact h
  | cons spec specs ih => exact ih (h.attempt hv hg spec)

theorem Twins.batches (h : Twins root start disk disk') (specs : List Spec)
    (sections : List Section) :
    Twins root start (g.batches specs sections disk).2 (g.batches specs sections disk').2 := by
  induction sections generalizing disk disk' with
  | nil => exact h
  | cons sec sections ih => exact ih (h.attemptAll hv hg _)

end

/-! ## Whole runs -/

/-- A run that succeeds has begun the package and generated the wanted specs in batches. -/
theorem generate_eq_ok {query : Query} {baseUrl source : String} {fetched : List Spec}
    {generation : Generation}
    (hrun : g.generate query baseUrl source fetched disk = (.ok generation, after)) :
    (select query fetched).isEmpty = false ∧ ∃ begun,
      g.begin baseUrl (select query fetched) disk = (.ok (), begun) ∧
      g.batches ((SchemaIndex.ofSpecs (select query fetched)).apply (select query fetched)).items
        (sectionsOf query) begun = (generation.reports, after) := by
  unfold generate at hrun
  dsimp only at hrun
  split at hrun
  · exact absurd (Prod.mk.inj hrun).1 nofun
  · rename_i hselected
    obtain ⟨_, begun, hbegin, hrest⟩ := Result.run_bind_eq_ok hrun
    obtain ⟨reports, last, hbatches, hend⟩ := Result.run_bind_eq_ok hrest
    obtain ⟨hgeneration, rfl⟩ := Result.run_pure_eq_ok hend
    rw [onPackage_eq] at hbegin
    obtain ⟨hresult, hbegun⟩ := Prod.mk.inj hbegin
    obtain ⟨hreports, hlast⟩ := Prod.mk.inj hbatches
    refine ⟨Bool.eq_false_iff.mpr hselected, begun,
      Prod.ext (Result.mapError_eq_ok_iff.mp hresult) hbegun, Prod.ext ?_ hlast⟩
    rw [← hgeneration]
    exact Except.ok.inj hreports

/-- A run that has begun the package succeeds, whatever becomes of the specs. -/
theorem generate_of_begin {query : Query} {baseUrl source : String} {fetched : List Spec}
    (hselected : (select query fetched).isEmpty = false) {begun : Disk}
    (hbegin : g.begin baseUrl (select query fetched) disk = (.ok (), begun)) :
    ∃ generation after, g.generate query baseUrl source fetched disk = (.ok generation, after) := by
  unfold generate
  dsimp only
  rw [if_neg (Bool.eq_false_iff.mp hselected), Result.run_bind, onPackage_eq, hbegin]
  exact ⟨_, _, rfl⟩

/-- **Regeneration forgets the past.** Take a disk that is reached, from one on which the path of
the package leads to an empty directory, by any runs that generate or clear the package. Where a
further run succeeds, the same run succeeds in the empty directory, and leaves the same at every
place. -/
theorem generate_forgets (hv : Vacant start path root) (h : Reached path root start disk)
    (hg : g.root = path) {query : Query} {baseUrl source : String} {fetched : List Spec}
    {generation : Generation}
    (hrun : g.generate query baseUrl source fetched disk = (.ok generation, after)) :
    ∃ again fresh, g.generate query baseUrl source fetched
        { start with refusals := disk.refusals } = (.ok again, fresh) ∧
      ∀ place, after.tree.get? place = fresh.tree.get? place := by
  have hstart : Confined root start { start with refusals := disk.refusals } :=
    hv.confined.turned disk.refusals
  obtain ⟨hselected, begun, hbegin, hbatches⟩ := generate_eq_ok hrun
  obtain ⟨begun', hbegin', htwins⟩ := begin_forgets hv hg (h.confined hv) hstart rfl hbegin
  have hlast := htwins.batches hv hg
    ((SchemaIndex.ofSpecs (select query fetched)).apply (select query fetched)).items
    (sectionsOf query)
  rw [hbatches] at hlast
  unfold generate
  dsimp only
  rw [if_neg (Bool.eq_false_iff.mp hselected), Result.run_bind, onPackage_eq, hbegin']
  exact ⟨_, _, rfl, fun place => hlast.alike.tree.same place not_false⟩

/-- A type for pets. -/
def petType : Spec :=
  { Spec.blank with
    id := "2", name := "Pet", category := .schema
    definition := some (.obj [("type", .str "object")]) }

/-- A table without columns, for which nothing can be generated. -/
def columnless : Spec := { Spec.blank with id := "3", name := "pets", category := .table }

/-- A run that generates nothing but the beginning of a package leaves nothing of the type for pets
that the run before it has written. -/
theorem generate_forgets_pet :
    let g : Generator := .ofRenderer ⟨"shop", Schema.builtinEngine, fun _ => ""⟩ ""
    let start : Disk := ⟨Disk.Tree.empty, [], none, []⟩
    let disk := (g.generate .everything "" "" [petType] start).2
    ∃ generation after again fresh,
      g.generate .everything "" "" [columnless] disk = (.ok generation, after) ∧
      g.generate .everything "" "" [columnless] { start with refusals := disk.refusals } =
        (.ok again, fresh) ∧
      ∀ place, after.tree.get? place = fresh.tree.get? place := by
  intro g start disk
  have hvacant : Vacant start "" [] := ⟨Disk.Tree.wellFormed_empty, rfl, rfl⟩
  have hreached : Reached "" [] start disk := .generate _ _ _ _ rfl .start
  have hsucceeds : (g.generate .everything "" "" [columnless] disk).1.toBool = true := by
    decide +kernel
  obtain ⟨generation, after, hrun⟩ := Result.run_of_toBool hsucceeds
  obtain ⟨again, fresh, hfresh, hsame⟩ := generate_forgets hvacant hreached rfl hrun
  exact ⟨generation, after, again, fresh, hrun, hfresh, hsame⟩

end Generator

end StubGen
