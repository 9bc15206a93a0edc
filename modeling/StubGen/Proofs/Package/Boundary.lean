import StubGen.Proofs.Package.Footprint

/-!
# A writer stays inside

Writing a stub changes nothing but what is in the section that the stub goes into, besides
directories that are missing on the way there; starting a package nothing but what is in the
package, besides such directories, whatever files it is given. This is so on every disk, and
whether it succeeds or fails: what a step makes or writes is on the way to a target or below it
(`Around`), so that it changes a place that may change (`Permits`) or none, and so does taking back
what has been logged.
-/

namespace StubGen

open Disk (Place Node IsPlain)
open Disk.Path (join isAbsolute Extends)

variable {target path : String} {names : List String} {place : Place} {start disk : Disk}

/-! ## Paths on the way to a target, and below it -/

/-- A path that goes on from another one and never back. -/
def Below (target path : String) : Prop := ∃ names, Extends target names path ∧ ".." ∉ names

/-- A path on the way to another one, or below that. -/
inductive Around (target : String) : String → Prop where
  | here : Around target ""
  | outside {path : String} : isAbsolute path = isAbsolute target →
      Disk.Path.names path <+: Disk.Path.names target → Around target path
  | inside {path : String} : Below target path → Around target path

theorem not_mem_dots_of_plain (hn : ∀ name ∈ names, IsPlain name) : ".." ∉ names :=
  fun hm => (hn _ hm).ne_dots rfl

theorem Below.join {name : String} (h : Below target path) (hn : IsPlain name) :
    Below target (join path name) := by
  obtain ⟨names, he, hdots⟩ := h
  refine ⟨names ++ [name], he.join hn, fun hm => ?_⟩
  rcases List.mem_append.mp hm with hm | hm
  · exact hdots hm
  · exact hn.ne_dots (List.mem_singleton.mp hm).symm

/-- What a path below a target is in is around the target. -/
theorem Below.around_of_isOutside {outer : String} (h : Below target path)
    (ho : Disk.Path.IsOutside outer path) : Around target outer := by
  obtain ⟨names, he, hdots⟩ := h
  obtain ⟨habs, hnames⟩ := ho
  have hshorter := hnames.trans (List.dropLast_prefix _)
  rw [he.names_eq] at hshorter
  rcases List.prefix_or_prefix_of_prefix hshorter (List.prefix_append _ names) with hout | hin
  · exact .outside (habs.trans he.isAbsolute_eq) hout
  · obtain ⟨front, hfront⟩ := hin
    rw [← hfront, List.prefix_append_right_inj] at hshorter
    exact .inside ⟨front, ⟨habs.trans he.isAbsolute_eq, hfront.symm⟩,
      fun hm => hdots (hshorter.subset hm)⟩

/-- So is what a path around the target is in. -/
theorem Around.of_mem_ancestors {outer : String} (h : Around target path)
    (hm : outer ∈ Disk.Path.ancestors path) : Around target outer := by
  rw [Disk.Path.ancestors, Disk.Path.ancestorsFrom_eq_cons] at hm
  rcases List.mem_cons.mp hm with rfl | hm
  · exact h
  rcases Disk.Path.isOutside_of_mem_ancestorsFrom hm with rfl | ho
  · exact .here
  cases h with
  | here => exact absurd hm List.not_mem_nil
  | outside habs hnames =>
      exact .outside (ho.1.trans habs) ((ho.2.trans (List.dropLast_prefix _)).trans hnames)
  | inside hb => exact hb.around_of_isOutside ho

/-! ## The places that may change -/

/-- A place at a target or below it, or one on the way there at which nothing is. -/
def Permits (start : Disk) (target : String) (place : Place) : Prop :=
  start.placeOf target <+: place ∨
    (place ∈ start.placesAlong target ∧ start.tree.get? place = none)

/-- A way that never goes back leads further in or stays. -/
theorem Disk.prefix_foldl_step (hdots : ".." ∉ names) (place : Place) :
    place <+: names.foldl Tree.step place := by
  induction names generalizing place with
  | nil => exact List.prefix_rfl
  | cons name names ih =>
      have hstep : place <+: Tree.step place name := by
        unfold Tree.step
        split
        · exact List.prefix_rfl
        · have hne : name ≠ ".." := by
            rintro rfl
            exact hdots List.mem_cons_self
          rw [if_neg hne]
          exact List.prefix_append _ _
      exact hstep.trans (ih (fun hm => hdots (List.mem_cons_of_mem _ hm)) _)

theorem Below.placeOf (h : Below target path) (start : Disk) :
    start.placeOf target <+: start.placeOf path := by
  obtain ⟨names, he, hdots⟩ := h
  unfold Disk.placeOf
  rw [he.startOf_eq, he.names_eq, List.foldl_append]
  exact Disk.prefix_foldl_step hdots _

theorem Below.permits (h : Below target path) (start : Disk) :
    Permits start target (start.placeOf path) := .inl (h.placeOf start)

/-- What is made around a target is made where it may be. -/
theorem Around.permits (h : Around target path) (hne : path ≠ "")
    (hnone : start.tree.get? (start.placeOf path) = none) :
    Permits start target (start.placeOf path) := by
  cases h with
  | here => exact absurd rfl hne
  | outside habs hnames =>
      refine .inr ⟨List.mem_map.mpr ⟨(Disk.Path.names path).length, ?_, ?_⟩, hnone⟩
      · exact List.mem_range.mpr (Nat.lt_succ_of_le hnames.length_le)
      · rw [← List.prefix_iff_eq_take.mp hnames]
        unfold Disk.placeOf Disk.startOf
        rw [habs]
  | inside hb => exact hb.permits start

/-! ## Steps of a transaction -/

/-- A disk that differs from another one at places that may change only. -/
structure Spares (start : Disk) (target : String) (disk : Disk) : Prop where
  workingDirectory : disk.workingDirectory = start.workingDirectory
  outside : ∀ place, ¬ Permits start target place → disk.tree.get? place = start.tree.get? place

/-- A transaction that has spared what may not change, and will do so if it is taken back. -/
structure Within (start : Disk) (target : String) (t : Transaction) : Prop where
  spares : Spares start target t.disk
  logged : ∀ change ∈ t.log, Permits start target (start.placeOf change.path)

namespace Spares

theorem refl (start : Disk) (target : String) : Spares start target start := ⟨rfl, fun _ _ => rfl⟩

theorem placeOf_eq (h : Spares start target disk) (path : String) :
    disk.placeOf path = start.placeOf path := by
  unfold Disk.placeOf Disk.startOf
  rw [h.workingDirectory]

theorem turned (h : Spares start target disk) (refusals : List (Option IoCause)) :
    Spares start target (disk.turned disk.tree refusals) := ⟨h.workingDirectory, h.outside⟩

theorem put (h : Spares start target disk) (hp : Permits start target place) (node : Node)
    (refusals : List (Option IoCause)) :
    Spares start target (disk.turned (disk.tree.put place node) refusals) := by
  refine ⟨h.workingDirectory, fun other hother => ?_⟩
  have hne : other ≠ place := fun heq => hother (heq ▸ hp)
  exact (Disk.Tree.get?_put_of_ne hne).trans (h.outside other hother)

theorem erase (h : Spares start target disk) (hp : Permits start target place) :
    Spares start target (disk.withTree (disk.tree.erase place)) := by
  refine ⟨h.workingDirectory, fun other hother => ?_⟩
  have hne : other ≠ place := fun heq => hother (heq ▸ hp)
  exact (Disk.Tree.get?_erase_of_ne hne).trans (h.outside other hother)

/-- A file is written at the place of its path or not at all. -/
theorem writeFile (h : Spares start target disk)
    (hp : Permits start target (start.placeOf path)) (content : String) :
    Spares start target (OnDisk.writeFile path content disk).2 := by
  rcases OnDisk.writeFile_cases path content disk with
    ⟨e, refusals, hrun⟩ | ⟨place, refusals, hw, hrun⟩
  · rw [hrun]
    exact h.turned refusals
  · rw [hrun]
    rw [← h.placeOf_eq, Disk.placeOf_of_place? hw.entry] at hp
    exact h.put hp _ refusals

/-- Taking back a change touches the place of its path only. -/
theorem undo {change : Change} (h : Spares start target disk)
    (hp : Permits start target (start.placeOf change.path)) :
    Spares start target (Transaction.undo disk change) := by
  unfold Transaction.undo
  -- whatever is taken back is at the place of the change, or nothing happens
  cases change with
  | createdDirectory path =>
      dsimp only
      cases hrun : disk.removeDirectory path with
      | error cause => exact h
      | ok after =>
          obtain ⟨place, he, -, -, rfl⟩ := Disk.removeDirectory_eq_ok hrun
          have hplace : start.placeOf path = place :=
            (h.placeOf_eq path).symm.trans (Disk.placeOf_of_place? he)
          exact h.erase (hplace ▸ hp)
  | createdFile path =>
      dsimp only
      cases hrun : disk.removeFile path with
      | error cause => exact h
      | ok after =>
          obtain ⟨place, content, he, -, -, rfl⟩ := Disk.removeFile_eq_ok hrun
          have hplace : start.placeOf path = place :=
            (h.placeOf_eq path).symm.trans (Disk.placeOf_of_place? he)
          exact h.erase (hplace ▸ hp)
  | replacedFile path former =>
      have hwritten : Spares start target
          (OnDisk.writeFile path former { disk with refusals := [] }).2 :=
        (h.turned []).writeFile hp former
      unfold Disk.writeAtomic OnDisk.unhindered
      dsimp only
      cases hrun : OnDisk.writeFile path former { disk with refusals := [] } with
      | mk result after =>
          rw [hrun] at hwritten
          cases result with
          | error e => exact h
          | ok _ => exact hwritten.turned disk.refusals

end Spares

namespace Within

theorem begin (start : Disk) (target : String) : Within start target (.start start) :=
  ⟨.refl start target, fun _ hm => absurd hm List.not_mem_nil⟩

theorem turned {t : Transaction} (h : Within start target t) (refusals : List (Option IoCause)) :
    Within start target { t with disk := t.disk.turned t.disk.tree refusals } :=
  ⟨h.spares.turned refusals, h.logged⟩

/-- **Taking back what is logged** spares what may not change. -/
theorem rollback {t : Transaction} (h : Within start target t) :
    Spares start target t.rollback := by
  unfold Transaction.rollback
  exact List.foldlRecOn t.log Transaction.undo h.spares
    fun disk hdisk change hm => hdisk.undo (h.logged change hm)

end Within

namespace PackageWriter

open Transaction

/-- Steps that spare what may not change, whether they succeed or fail. -/
def KeepsWithin (start : Disk) (target : String) {α : Type} (steps : Writing α) : Prop :=
  ∀ t, Within start target t → Within start target (steps t).2

theorem keepsWithin_createDirectory (ha : Around target path) (hne : path ≠ "") :
    KeepsWithin start target (Transaction.createDirectory path) := by
  intro t h
  unfold Transaction.createDirectory
  rw [Result.run_bind]
  unfold onDisk
  rcases OnDisk.attempt_cases (fun disk => return ((), ← disk.createDirectory path)) t.disk with
    ⟨cause, hrun⟩ | ⟨_, after, hmake, hrun⟩
  · rw [hrun]
    cases cause <;> exact h.turned _
  · rw [hrun]
    obtain ⟨made, hcreate, hmake⟩ := Result.bind_eq_ok_iff.mp hmake
    obtain ⟨-, rfl⟩ := Prod.mk.inj (Result.pure_eq_ok_iff.mp hmake)
    obtain ⟨place, he, hnone, rfl⟩ := Disk.createDirectory_eq_ok hcreate
    have hplace : start.placeOf path = place :=
      (h.spares.placeOf_eq path).symm.trans (Disk.placeOf_of_place? he)
    -- what is not there now was not there before, unless it may change anyway
    have hp : Permits start target place := Classical.byContradiction fun hnot => by
      rw [← hplace] at hnot
      refine hnot (ha.permits hne ?_)
      rw [← h.spares.outside _ hnot, hplace]
      exact hnone
    exact ⟨h.spares.put hp .directory _, List.forall_mem_cons.mpr ⟨hplace ▸ hp, h.logged⟩⟩

theorem keepsWithin_writeFile (hb : Below target path) (content : String) :
    KeepsWithin start target (Transaction.writeFile path content) := by
  intro t h
  have hp := hb.permits start
  unfold Transaction.writeFile
  rw [Result.run_bind]
  rcases remember_cases path t with ⟨e, refusals, hrun⟩ | ⟨remembered, hremembers, hrun⟩
  · rw [hrun]
    exact h.turned refusals
  · rw [hrun]
    have hremembered : Within start target remembered := by
      cases hremembers with
      | already _ _ => exact h
      | former refusals _ =>
          exact ⟨h.spares.turned refusals, List.forall_mem_cons.mpr ⟨hp, h.logged⟩⟩
      | absent _ => exact ⟨h.spares, List.forall_mem_cons.mpr ⟨hp, h.logged⟩⟩
    exact ⟨hremembered.spares.writeFile hp content, hremembered.logged⟩

/-- **What is made around a target and written below it** spares what may not change. -/
theorem staysWithin_keepsWithin :
    StaysWithin (Around target) (Below target) fun {_} steps => KeepsWithin start target steps where
  ofPure a t h := h
  ofThrow e t h := h
  bind {_ _ steps next} hsteps hnext t h := by
    have hfirst := hsteps t h
    rw [Result.run_bind]
    cases hrun : steps t with
    | mk result between =>
        rw [hrun] at hfirst
        cases result with
        | error e => exact hfirst
        | ok a => exact hnext a ⟨t, between, hrun⟩ between hfirst
  whether _ hyes hno t h := by
    rw [Result.run_get_bind]
    split
    · exact hyes t h
    · exact hno t h
  createDirectories ha t h := by
    unfold Transaction.createDirectories
    rw [Result.run_get_bind]
    refine Result.forM_leaves (P := Within start target) (fun made hm t h => ?_) h
    have hm := List.mem_reverse.mp hm
    -- only the directories of a path are made, and none of them is the empty path
    have hne : made ≠ "" := by
      rintro rfl
      simpa using List.all_eq_true.mp List.all_takeWhile _ hm
    exact keepsWithin_createDirectory
      (ha.of_mem_ancestors ((List.takeWhile_sublist _).subset hm)) hne t h
  readOrEmpty _ t h := by
    refine Result.bind_leaves (P := Within start target) ?_ fun found between hbetween => ?_
    · unfold onDisk
      rcases OnDisk.attempt_cases (fun disk => return (← disk.read _, disk)) t.disk with
        ⟨cause, hrun⟩ | ⟨content, after, hread, hrun⟩
      · rw [hrun]
        exact h.turned _
      · rw [hrun]
        obtain ⟨_, -, hread⟩ := Result.bind_eq_ok_iff.mp hread
        obtain ⟨-, rfl⟩ := Prod.mk.inj (Result.pure_eq_ok_iff.mp hread)
        exact h.turned _
    · rcases found with cause | content
      · cases cause <;> exact hbetween
      · exact hbetween
  writeFile content hb := keepsWithin_writeFile hb content

/-- Steps that spare what may not change do so as one change, too. -/
theorem spares_atomically {α : Type} {steps : Writing α} (h : KeepsWithin start target steps) :
    Spares start target (atomically steps start).2 := by
  have hend := h (.start start) (.begin start target)
  rcases atomically_cases steps start with ⟨value, t, hrun, heq⟩ | ⟨e, t, hrun, heq⟩
  · rw [hrun] at hend
    rw [heq]
    exact hend.spares
  · rw [hrun] at hend
    rw [heq]
    exact hend.rollback

end PackageWriter

/-! ## Paths that are made of texts -/

namespace NamespacePath

/-- A path is made of a section, a context and a name, or read from its text. -/
def IsMade (path : NamespacePath) : Prop :=
  (∃ root context name, ofContext root context name = .ok path) ∨
    ∃ dotted, parse dotted = .ok path

theorem isSegment_of_ofSegments {root : Section} {segments : List String} {path : NamespacePath}
    (h : ofSegments root segments = .ok path) :
    ∀ segment ∈ path.segments, isSegment segment = true := by
  unfold ofSegments at h
  split at h
  · exact absurd h (by simp)
  · rename_i leaf hlast
    split at h
    · exact absurd h (by simp)
    split at h
    · exact absurd h (by simp)
    · rename_i hall
      obtain rfl := Except.ok.inj h
      obtain ⟨front, rfl⟩ := List.getLast?_eq_some_iff.mp hlast
      intro segment hm
      rw [NamespacePath.segments, List.dropLast_concat] at hm
      simpa using List.find?_eq_none.mp hall segment hm

/-- **No segment leads out of the directory** that it is in. -/
theorem IsMade.plain {path : NamespacePath} (h : path.IsMade) :
    ∀ segment ∈ path.segments, IsPlain segment := by
  obtain ⟨root, segments, hmade⟩ : ∃ root segments, ofSegments root segments = .ok path := by
    rcases h with ⟨root, context, name, hmade⟩ | ⟨dotted, hmade⟩
    · exact ⟨root, _, hmade⟩
    · unfold parse at hmade
      split at hmade
      · exact absurd hmade (by simp)
      · split at hmade
        · exact absurd hmade (by simp)
        · exact ⟨_, _, hmade⟩
  exact fun segment hm =>
    PackageWriter.isPlain_of_isSegment (isSegment_of_ofSegments hmade segment hm)

end NamespacePath

namespace PackageWriter

open Transaction

variable {w : PackageWriter}

/-- A way that begins with a section leads below it. -/
theorem below_of_extends {root : String} {sec : Section} {inner : String}
    (hn : ∀ name ∈ names, IsPlain name) (he : Extends root (sec.directory :: names) inner) :
    Below (join root sec.directory) inner := by
  have hsec := isPlain_directory sec
  refine ⟨names, ⟨?_, ?_⟩, not_mem_dots_of_plain hn⟩
  · rw [he.isAbsolute_eq, Disk.Path.isAbsolute_join hsec]
  · rw [he.names_eq, Disk.Path.names_join hsec, List.append_assoc, List.singleton_append]

theorem keepsWithin_writeIn {stub : Stub} (hn : ∀ segment ∈ stub.path.segments, IsPlain segment) :
    KeepsWithin start (join w.root stub.path.root.directory) (w.writeIn stub) := by
  have hnames : ∀ name ∈ stub.path.namespaces, IsPlain name :=
    fun name hm => hn name (List.mem_append_left _ hm)
  have hleaf := hn stub.path.leaf (List.mem_append_right _ List.mem_cons_self)
  refine staysWithin_keepsWithin.writeIn hn (fun way inner hway hne he => ?_) fun inner he => ?_
  · obtain ⟨first, rest, rfl⟩ := List.exists_cons_of_ne_nil hne
    obtain ⟨rfl, hrest⟩ := List.cons_prefix_cons.mp hway
    have hb := below_of_extends (fun name hm => hnames name (hrest.subset hm)) he
    exact ⟨.inside hb, hb.join isPlain_aggregatorName⟩
  · exact (below_of_extends hnames he).join (isPlain_typeFile hleaf)

/-- A path inside a package is below its root, and what it is in is around it. -/
theorem below_of_isInside {root file : String} (h : Disk.Path.isInside file = true) :
    Below root (join root file) ∧
      ∀ parent ∈ Disk.Path.parent? (join root file), Around root parent := by
  obtain ⟨-, hrel, hdots⟩ := Disk.Path.isInside_iff.mp h
  have hb : Below root (join root file) :=
    ⟨_, ⟨Disk.Path.isAbsolute_join_of_relative hrel root,
      Disk.Path.names_join_of_relative hrel root⟩, hdots⟩
  refine ⟨hb, fun parent hp => ?_⟩
  rcases Disk.Path.isOutside_of_parent? hp with rfl | ho
  · exact .here
  · exact hb.around_of_isOutside ho

theorem keepsWithin_initIn (files : List PackageFile) :
    KeepsWithin start w.root (w.initIn files) := by
  refine staysWithin_keepsWithin.initIn (.outside rfl List.prefix_rfl)
    (fun file _ hin => below_of_isInside hin) fun sec => ?_
  have hb : Below w.root (join w.root sec.directory) :=
    ⟨_, (Extends.refl w.root).join (isPlain_directory sec),
      not_mem_dots_of_plain fun name hm => List.mem_singleton.mp hm ▸ isPlain_directory sec⟩
  exact ⟨.inside hb, hb.join isPlain_aggregatorName⟩

/-- **A writer stays inside.** Whether a stub is written or not, nothing changes but what is in its
section, besides directories that are missing on the way there; whether a package is started or
not, nothing but what is in the package, besides such directories. -/
theorem stays_inside (w : PackageWriter) (disk : Disk) :
    (∀ stub : Stub, stub.path.IsMade → ∀ place,
      ¬ Permits disk (join w.root stub.path.root.directory) place →
        (w.write stub disk).2.tree.get? place = disk.tree.get? place) ∧
    ∀ (files : List PackageFile) (place : Place), ¬ Permits disk w.root place →
      (w.init files disk).2.tree.get? place = disk.tree.get? place := by
  refine ⟨fun stub hmade => ?_, fun files => (spares_atomically (keepsWithin_initIn files)).outside⟩
  unfold write
  split
  · exact fun _ _ => rfl
  · exact (spares_atomically (keepsWithin_writeIn hmade.plain)).outside

/-- A function beside a file that is not part of the package. -/
theorem stays_inside_shop :
    let w : PackageWriter := ⟨"out/../lib", fun _ => ""⟩
    let stub : Stub := ⟨⟨.functions, ["shop"], "getPet"⟩, "def getPet(): ...", ""⟩
    let disk : Disk := ⟨⟨[(["notes"], .file "mine")]⟩, [], none, []⟩
    (w.write stub disk).2.tree.get? ["notes"] = some (.file "mine") ∧
      (w.init [⟨"../notes", "yours"⟩] disk).2.tree.get? ["notes"] = some (.file "mine") := by
  intro w stub disk
  have hmade : stub.path.IsMade :=
    .inl ⟨.functions, "shop", "getPet", Result.eq_ok_of_toOption (by decide +kernel)⟩
  have hsection : ¬ Permits disk (join w.root Section.functions.directory) ["notes"] := by
    unfold Permits
    decide +kernel
  have hroot : ¬ Permits disk w.root ["notes"] := by
    unfold Permits
    decide +kernel
  have hinside := stays_inside w disk
  exact ⟨hinside.1 stub hmade _ hsection, hinside.2 _ _ hroot⟩

end PackageWriter

end StubGen
