import StubGen.Proofs.Package.Effects

/-!
# Directories that are made with those around them

What is missing on the way to a path is made from the outside in. One attempt makes the entry that a
path names or nothing at all, `createDirectory_cases`; so what several of them have made is a list
that has only grown, in which every directory stands behind the one it is in, and which is what has
been logged (`Makes`, however the attempts end). That something is there already counts as done.
So in the end something is at the path, and where a path leads to something, directories are all
around it. But what is at the path may be a file: `createDirectories_reports`.
-/

namespace StubGen

open Disk (Place Node)

variable {disk : Disk} {tree : Disk.Tree} {path outer : String} {place : Place}
  {t between after : Transaction}

namespace Disk

/-! ## The directories around a path -/

namespace Path

/-- A path and the directories around it, however far outside. -/
inductive Around : String → String → Prop where
  | self (path : String) : Around path path
  | outside {path above outer : String} :
      parent? path = some above → Around above outer → Around path outer

theorem prefix_dropSilent (pieces : List String) : dropSilent pieces <+: pieces := by
  cases pieces with
  | nil => exact List.prefix_rfl
  | cons first rest =>
      obtain ⟨kept, hkept, hprefix, -⟩ := dropSilent_cons first rest
      rw [hkept]
      exact (List.prefix_cons_inj first).mpr hprefix

/-- The first pieces of a path are a beginning of its text. -/
theorem prefix_join {pieces : List String} (h : pieces <+: Text.split '/' path) :
    (Text.join "/" pieces).toList <+: path.toList := by
  have hpath := Text.join_segments '/' path
  obtain ⟨rest, hrest⟩ := h
  rw [← hrest] at hpath
  by_cases hpieces : pieces = []
  · rw [hpieces]
    exact List.nil_prefix
  by_cases hnil : rest = []
  · rw [hnil, List.append_nil] at hpath
    rw [← hpath]
    exact List.prefix_rfl
  · rw [← hpath, Text.join_append '/' hpieces hnil, String.toList_append, String.toList_append,
      List.append_assoc]
    exact List.prefix_append _ _

/-- The text of the directory that a path is in is a beginning of that of the path. -/
theorem prefix_of_parent? (h : parent? path = some outer) : outer.toList <+: path.toList := by
  unfold parent? at h
  split at h
  · cases h
  split at h
  · cases h
  · split at h
    · cases h
    · rw [← Option.some.inj h]
      exact List.nil_prefix
  · rename_i hne _ _ _
    -- all that is left out stands at the end of the pieces
    have habove := ((prefix_dropSilent _).trans (List.dropLast_prefix _)).trans
      (prefix_dropSilent (Text.split '/' path))
    split at h
    · rename_i hroot
      rw [hroot] at habove
      obtain ⟨rest, hrest⟩ := habove
      have habs : isAbsolute path = true := by
        rw [isAbsolute_iff_split (by simpa using hne), ← hrest]
        rfl
      obtain ⟨more, hmore⟩ := isAbsolute_iff.mp habs
      rw [← Option.some.inj h, hmore]
      exact ⟨more, rfl⟩
    · rw [← Option.some.inj h]
      exact prefix_join habove

namespace Around

theorem prefix_toList (h : Around path outer) : outer.toList <+: path.toList := by
  induction h with
  | self => exact List.prefix_rfl
  | outside hparent _ ih => exact ih.trans (prefix_of_parent? hparent)

/-- Nothing is around the directory that paths are seen from. -/
theorem eq_empty (h : Around "" outer) : outer = "" := by
  cases h with
  | self => rfl
  | outside hparent _ => cases hparent

/-- What is around a path has fewer of its names. -/
theorem isOutside (h : Around path outer) : outer = path ∨ outer = "" ∨ IsOutside outer path := by
  induction h with
  | self => exact .inl rfl
  | outside hparent hfar ih =>
      right
      rcases isOutside_of_parent? hparent with rfl | hnear
      · exact .inl hfar.eq_empty
      rcases ih with rfl | rfl | ⟨habs, hnames⟩
      · exact .inr hnear
      · exact .inl rfl
      · exact .inr ⟨habs.trans hnear.1,
          hnames.trans ((List.dropLast_prefix _).trans hnear.2)⟩

end Around

theorem around_of_mem_ancestorsFrom {steps : Nat} (h : outer ∈ ancestorsFrom steps path) :
    Around path outer := by
  induction steps generalizing path with
  | zero => exact List.mem_singleton.mp h ▸ .self _
  | succ steps ih =>
      rcases List.mem_cons.mp h with rfl | h
      · exact .self _
      · split at h
        · exact .outside ‹_› (ih h)
        · exact absurd h List.not_mem_nil

end Path

theorem checkPath_of_around (h : Path.Around path outer) (hne : outer ≠ "")
    (hc : checkPath path = .ok ()) : checkPath outer = .ok () := by
  obtain ⟨rest, hrest⟩ := h.prefix_toList
  have hpath : path = outer ++ String.ofList rest := by
    rw [← String.toList_inj, String.toList_append, String.toList_ofList, hrest]
  obtain ⟨hnul, -, hsize⟩ := checkPath_eq_ok_iff.mp hc
  rw [hpath, String.toList_append, List.mem_append, not_or] at hnul
  rw [hpath, String.utf8ByteSize_append] at hsize
  exact checkPath_eq_ok_iff.mpr ⟨hnul.1, hne, by omega⟩

/-! ## Directories that are there -/

theorem isDirectory_iff :
    disk.isDirectory path = true ↔ checkPath path = .ok () ∧ ∃ place, disk.Reaches path place := by
  constructor
  · intro h
    unfold isDirectory at h
    split at h
    · rename_i hfind
      obtain ⟨⟨_, node⟩, hwalk, hnode⟩ := Result.map_eq_ok_iff.mp hfind
      obtain rfl : node = some .directory := hnode
      obtain ⟨_, hc, hwalk⟩ := Result.bind_eq_ok_iff.mp hwalk
      obtain ⟨⟨place, node⟩, htree, hwalk⟩ := Result.bind_eq_ok_iff.mp hwalk
      dsimp only at hwalk
      split at hwalk
      · split at hwalk
        · obtain ⟨_, hthrow, -⟩ := Result.bind_eq_ok_iff.mp hwalk
          exact absurd hthrow Result.throw_ne_ok
        · cases Result.pure_eq_ok_iff.mp hwalk
      · obtain rfl := (Prod.mk.inj (Result.pure_eq_ok_iff.mp hwalk)).2
        exact ⟨hc, place, htree⟩
    · exact Bool.noConfusion h
  · rintro ⟨hc, place, hr⟩
    unfold isDirectory
    rw [find_of_reaches hr hc]

/-- What is around a directory that is there is there. -/
theorem isDirectory_of_around (h : Path.Around path outer) (hne : outer ≠ "")
    (hdir : disk.isDirectory path = true) : disk.isDirectory outer = true := by
  obtain ⟨hc, place, hr⟩ := isDirectory_iff.mp hdir
  refine isDirectory_iff.mpr ⟨checkPath_of_around h hne hc, ?_⟩
  rcases h.isOutside with rfl | rfl | ⟨habs, hnames⟩
  · exact ⟨place, hr⟩
  · exact absurd rfl hne
  · exact hr.of_isOutside habs (hnames.trans (List.dropLast_prefix _))

/-- A path that names an entry, or that ends in dots or is the top, leads over directories that are
there, and so does everything around it. -/
theorem isDirectory_of_place? {entry : Option Place} (h : disk.place? path = .ok entry)
    (ho : Path.Around path outer) (hpath : outer ≠ path) (hne : outer ≠ "") :
    disk.isDirectory outer = true := by
  unfold place? at h
  dsimp only at h
  obtain ⟨_, hc, h⟩ := Result.bind_eq_ok_iff.mp h
  obtain ⟨⟨directory, node⟩, hwalk, h⟩ := Result.bind_eq_ok_iff.mp h
  obtain rfl : node = some .directory := by
    dsimp only at h
    split at h
    · exact absurd h Result.throw_ne_ok
    · exact absurd h Result.throw_ne_ok
    · rfl
    · rfl
  obtain ⟨habs, others, hothers⟩ := (ho.isOutside.resolve_left hpath).resolve_left hne
  refine isDirectory_iff.mpr ⟨checkPath_of_around ho hne hc, ?_⟩
  unfold Reaches startOf
  rw [← hothers] at hwalk
  rw [habs]
  exact Tree.walk_append hwalk

/-- In a well-formed tree a path that ends in dots or is the top is that of a directory. -/
theorem isDirectory_of_place?_none (hwf : disk.tree.WellFormed) (h : disk.place? path = .ok none) :
    disk.isDirectory path = true := by
  unfold place? at h
  dsimp only at h
  obtain ⟨_, hc, h⟩ := Result.bind_eq_ok_iff.mp h
  obtain ⟨⟨directory, node⟩, hwalk, h⟩ := Result.bind_eq_ok_iff.mp h
  refine isDirectory_iff.mpr ⟨hc, ?_⟩
  have hthere := (Tree.walk_eq_ok hwalk).2
  dsimp only at h
  split at h
  · exact absurd h Result.throw_ne_ok
  · exact absurd h Result.throw_ne_ok
  · rename_i hlast
    rw [List.getLast?_eq_none_iff.mp hlast] at hwalk
    refine ⟨directory, ?_⟩
    unfold Reaches
    rw [List.getLast?_eq_none_iff.mp hlast]
    exact hwalk
  · rename_i name hlast
    -- one dot leads back to a directory that has been walked to, two to the one around it
    obtain ⟨names, hnames⟩ := List.getLast?_eq_some_iff.mp hlast
    rw [hnames, List.dropLast_concat] at hwalk
    unfold Reaches
    rw [hnames, Tree.walk_concat, hwalk]
    dsimp only
    split at h
    · rename_i hdots
      rcases Bool.or_eq_true _ _ ▸ hdots with hdot | hdot
      · obtain rfl := of_decide_eq_true hdot
        refine ⟨directory, ?_⟩
        rw [if_neg (by decide), Tree.step, if_pos rfl, hthere]
      · obtain rfl := of_decide_eq_true hdot
        refine ⟨directory.dropLast, ?_⟩
        rw [if_neg (by decide), Tree.step, if_neg (by decide), if_pos rfl]
        by_cases htop : directory = []
        · rw [htop]
          rfl
        · rw [hwf directory .directory htop hthere.symm]
    · split at h
      · exact absurd h Result.throw_ne_ok
      · cases Result.pure_eq_ok_iff.mp h

/-! ## Growing trees -/

namespace Tree

/-- A tree with directories put at places, one after the other. -/
def withDirectories (tree : Tree) (places : List Place) : Tree :=
  places.foldl (fun tree place => tree.put place .directory) tree

theorem get?_withDirectories (places : List Place) (place : Place) :
    (tree.withDirectories places).get? place =
      if place ∈ places then some .directory else tree.get? place := by
  induction places generalizing tree with
  | nil => rfl
  | cons first places ih =>
      rw [withDirectories, List.foldl_cons]
      refine ih.trans ?_
      by_cases hfirst : place = first
      · subst hfirst
        have hput : (tree.put place .directory).get? place = some .directory := by
          by_cases htop : place = []
          · rw [htop]
            rfl
          · exact get?_put_self htop
        rw [hput, ite_self, if_pos List.mem_cons_self]
      · rw [get?_put_of_ne hfirst]
        simp [hfirst]

theorem walk_ne_alreadyExists (start : Place) (names : List String) :
    tree.walk start names ≠ .error .alreadyExists := by
  induction names generalizing start with
  | nil => exact fun h => by cases h
  | cons name names ih =>
      rw [walk]
      split
      · exact fun h => by cases h
      · exact fun h => by cases h
      · split
        · exact fun h => by cases h
        · exact ih _

end Tree

/-- Only a step that makes something finds that it is there already. -/
theorem place?_ne_alreadyExists (disk : Disk) (path : String) :
    disk.place? path ≠ .error .alreadyExists := by
  intro h
  unfold place? at h
  dsimp only at h
  rcases Result.bind_eq_error_iff.mp h with hcheck | ⟨_, -, h⟩
  · unfold checkPath at hcheck
    repeat' split at hcheck
    all_goals cases hcheck
  rcases Result.bind_eq_error_iff.mp h with hwalk | ⟨⟨directory, node⟩, -, h⟩
  · exact Tree.walk_ne_alreadyExists _ _ hwalk
  dsimp only at h
  repeat' split at h
  all_goals cases h

/-- A path ends in dots, is the top, or names an entry that is there. -/
def IsTaken (disk : Disk) (path : String) : Prop :=
  disk.place? path = .ok none ∨
    ∃ place node, disk.place? path = .ok (some place) ∧ disk.tree.get? place = some node

theorem isTaken_of_createDirectory (h : disk.createDirectory path = .error .alreadyExists) :
    disk.IsTaken path := by
  unfold createDirectory at h
  rcases Result.bind_eq_error_iff.mp h with hplace | ⟨entry, hplace, h⟩
  · exact absurd hplace (place?_ne_alreadyExists disk path)
  cases entry with
  | none => exact .inl hplace
  | some place =>
      cases hg : disk.tree.get? place with
      | some node => exact .inr ⟨place, node, hplace, hg⟩
      | none =>
          simp only [hg] at h
          cases h

theorem IsTaken.isDirectory_of_around (h : disk.IsTaken path) (ho : Path.Around path outer)
    (hpath : outer ≠ path) (hne : outer ≠ "") : disk.isDirectory outer = true := by
  rcases h with h | ⟨_, _, h, -⟩
  · exact isDirectory_of_place? h ho hpath hne
  · exact isDirectory_of_place? h ho hpath hne

/-- What is taken and is no file is a directory. -/
theorem IsTaken.isDirectory (h : disk.IsTaken path) (hwf : disk.tree.WellFormed)
    (hfile : ∀ content, disk.tree.get? (disk.placeOf path) ≠ some (.file content)) :
    disk.isDirectory path = true := by
  rcases h with h | ⟨place, node, hplace, hg⟩
  · exact isDirectory_of_place?_none hwf h
  · rw [placeOf_of_place? hplace, hg] at hfile
    cases node with
    | file content => exact absurd rfl (hfile content)
    | directory =>
        unfold Disk.isDirectory
        rw [find_of_place? hplace, hg]

end Disk

namespace Transaction

/-! ## Making one directory -/

/-- Making a directory leaves everything as it is, or it makes the entry that the path names, where
nothing was, and logs it. It ends well in vain only where something is there or is said to be. -/
theorem createDirectory_cases (path : String) (t : Transaction) :
    (∃ result, createDirectory path t =
        (result, ⟨t.disk.turned t.disk.tree t.disk.refusals.tail, t.log⟩) ∧
      (result = .ok () → some .alreadyExists ∈ t.disk.refusals ∨ t.disk.IsTaken path)) ∨
    ∃ place, t.disk.place? path = .ok (some place) ∧ t.disk.tree.get? place = none ∧
      createDirectory path t =
        (.ok (), ⟨t.disk.turned (t.disk.tree.put place .directory) t.disk.refusals.tail,
          .createdDirectory path :: t.log⟩) := by
  have hattempt := OnDisk.attempt_eq (fun disk => return ((), ← disk.createDirectory path)) t.disk
  unfold createDirectory
  rw [Result.run_bind]
  unfold onDisk
  rw [hattempt]
  -- of all causes only that something is there already is no failure
  cases hrefusal : t.disk.nextRefusal.1 with
  | some cause =>
      refine .inl ?_
      cases cause
      case alreadyExists =>
        exact ⟨.ok (), rfl, fun _ => .inl (mem_refusals_of_nextRefusal hrefusal)⟩
      all_goals exact ⟨_, rfl, fun h => by cases h⟩
  | none =>
      cases hmade : (t.disk.turned t.disk.tree t.disk.refusals.tail).createDirectory path with
      | error cause =>
          refine .inl ?_
          cases cause
          case alreadyExists =>
            have htaken := Disk.isTaken_of_createDirectory hmade
            exact ⟨.ok (), rfl, fun _ => .inr htaken⟩
          all_goals exact ⟨_, rfl, fun h => by cases h⟩
      | ok made =>
          obtain ⟨place, hplace, hg, rfl⟩ := Disk.createDirectory_eq_ok hmade
          exact .inr ⟨place, hplace, hg, rfl⟩

/-- What has been made is there, and what could not be made was there. -/
theorem isTaken_of_createDirectory_ok (h : createDirectory path t = (.ok (), after))
    (hcandid : some .alreadyExists ∉ t.disk.refusals) : after.disk.IsTaken path := by
  rcases createDirectory_cases path t with ⟨result, hrun, htaken⟩ | ⟨place, hplace, hg, hrun⟩
  · obtain ⟨rfl, rfl⟩ := Prod.mk.inj (hrun.symm.trans h)
    exact (htaken rfl).resolve_left hcandid
  · obtain ⟨-, rfl⟩ := Prod.mk.inj (hrun.symm.trans h)
    have hfree : t.disk.tree.get? place ≠ some .directory := by simp [hg]
    exact .inr ⟨place, .directory, Disk.place?_mono (Disk.Tree.keepsDirectories_put hfree) hplace,
      Disk.Tree.get?_put_self (Disk.ne_nil_of_place? hplace)⟩

/-! ## Making several -/

/-- Directories have been made at places where nothing was, in this order, each in a directory that
was there before or had been made by then, and they have been logged. Nothing else has changed. -/
structure Makes (t : Transaction) (made : List (String × Place)) (after : Transaction) : Prop where
  becomes : t.disk.Becomes (t.disk.tree.withDirectories (made.map Prod.snd)) after.disk
  log_eq : after.log = (made.map fun m => .createdDirectory m.1).reverse ++ t.log
  leads : ∀ m ∈ made, t.disk.placeOf m.1 = m.2
  free : ∀ m ∈ made, t.disk.tree.get? m.2 = none
  distinct : (made.map Prod.snd).Nodup
  inside : ∀ front m back, made = front ++ m :: back →
    t.disk.tree.get? m.2.dropLast = some .directory ∨ m.2.dropLast ∈ front.map Prod.snd

variable {made : List (String × Place)}

namespace Makes

theorem start (t : Transaction) : Makes t [] t where
  becomes := ⟨t.disk.refusals, List.suffix_rfl, rfl⟩
  log_eq := rfl
  leads _ hm := absurd hm List.not_mem_nil
  free _ hm := absurd hm List.not_mem_nil
  distinct := List.nodup_nil
  inside front m back h := absurd h (by simp)

theorem get?_eq (h : Makes t made after) (place : Place) :
    after.disk.tree.get? place =
      if place ∈ made.map Prod.snd then some .directory else t.disk.tree.get? place := by
  rw [h.becomes.tree_eq, Disk.Tree.get?_withDirectories]

/-- No entry is changed. -/
theorem keeps (h : Makes t made after) {node : Node} (hg : t.disk.tree.get? place = some node) :
    after.disk.tree.get? place = some node := by
  rw [h.get?_eq, if_neg, hg]
  intro hplace
  obtain ⟨m, hm, rfl⟩ := List.mem_map.mp hplace
  exact absurd (hg.symm.trans (h.free m hm)) (by simp)

theorem placeOf_eq (h : Makes t made after) (path : String) :
    after.disk.placeOf path = t.disk.placeOf path := by
  obtain ⟨refusals, -, hdisk⟩ := h.becomes
  rw [hdisk]
  rfl

theorem wellFormed (h : Makes t made after) (hwf : t.disk.tree.WellFormed) :
    after.disk.tree.WellFormed := by
  intro place node htop hg
  rw [h.get?_eq] at hg ⊢
  split at hg
  · rename_i hplace
    obtain ⟨m, hm, rfl⟩ := List.mem_map.mp hplace
    obtain ⟨front, back, hsplit⟩ := List.append_of_mem hm
    rcases h.inside front m back hsplit with hbefore | hmade
    · rw [hbefore, ite_self]
    · rw [if_pos (by rw [hsplit, List.map_append]; exact List.mem_append_left _ hmade)]
  · rw [hwf place node htop hg, ite_self]

/-- One directory more is made where nothing is. -/
theorem snoc (h : Makes t made between) (hplace : between.disk.place? path = .ok (some place))
    (hg : between.disk.tree.get? place = none) :
    Makes t (made ++ [(path, place)])
      ⟨between.disk.turned (between.disk.tree.put place .directory) between.disk.refusals.tail,
        .createdDirectory path :: between.log⟩ := by
  have hmore : (made ++ [(path, place)]).map Prod.snd = made.map Prod.snd ++ [place] := by simp
  have hnew : place ∉ made.map Prod.snd ∧ t.disk.tree.get? place = none := by
    rw [h.get?_eq] at hg
    split at hg
    · cases hg
    · exact ⟨‹_›, hg⟩
  constructor
  case becomes =>
    have hput : between.disk.Becomes (between.disk.tree.put place .directory)
        (between.disk.turned (between.disk.tree.put place .directory)
          between.disk.refusals.tail) := ⟨_, List.tail_suffix _, rfl⟩
    have hgrown : t.disk.tree.withDirectories ((made ++ [(path, place)]).map Prod.snd) =
        between.disk.tree.put place .directory := by
      rw [hmore, h.becomes.tree_eq, Disk.Tree.withDirectories, List.foldl_append]
      rfl
    rw [hgrown]
    exact h.becomes.trans hput
  case log_eq =>
    rw [List.map_append, List.reverse_append, h.log_eq]
    rfl
  case leads =>
    intro m hm
    rcases List.mem_append.mp hm with hm | hm
    · exact h.leads m hm
    · rw [List.mem_singleton.mp hm, ← h.placeOf_eq, Disk.placeOf_of_place? hplace]
  case free =>
    intro m hm
    rcases List.mem_append.mp hm with hm | hm
    · exact h.free m hm
    · rw [List.mem_singleton.mp hm]
      exact hnew.2
  case distinct =>
    rw [hmore, List.nodup_append]
    refine ⟨h.distinct, List.pairwise_singleton _ _, fun a ha b hb hab => hnew.1 ?_⟩
    rwa [← List.mem_singleton.mp hb, ← hab]
  case inside =>
    intro front m back hsplit
    -- the split is at the new directory, or all of it is among the older ones
    rcases List.eq_nil_or_concat back with rfl | ⟨init, last, rfl⟩
    · obtain ⟨rfl, hlast⟩ := List.append_inj' hsplit rfl
      obtain ⟨rfl, -⟩ := List.cons.inj hlast
      have houter := Disk.get?_dropLast_of_place? hplace
      rw [h.get?_eq] at houter
      split at houter
      · exact .inr ‹_›
      · exact .inl houter
    · rw [List.concat_eq_append, ← List.cons_append, ← List.append_assoc] at hsplit
      exact h.inside front m init (List.append_inj' hsplit rfl).1

/-- One more attempt makes one more directory, or none. -/
theorem after_createDirectory (h : Makes t made between) (path : String) :
    ∃ more, Makes t (made ++ more) (createDirectory path between).2 ∧ ∀ m ∈ more, m.1 = path := by
  rcases createDirectory_cases path between with ⟨result, hrun, -⟩ | ⟨place, hplace, hg, hrun⟩
  · refine ⟨[], ?_, fun m hm => absurd hm List.not_mem_nil⟩
    rw [List.append_nil, hrun]
    have hsame : between.disk.Becomes (t.disk.tree.withDirectories (made.map Prod.snd))
        (between.disk.turned between.disk.tree between.disk.refusals.tail) :=
      ⟨_, List.tail_suffix _, by rw [h.becomes.tree_eq]⟩
    exact { h with becomes := h.becomes.trans hsame }
  · refine ⟨[(path, place)], ?_, fun m hm => by rw [List.mem_singleton.mp hm]⟩
    rw [hrun]
    exact h.snoc hplace hg

end Makes

/-- **However an attempt to make several directories ends**, those that it has made are logged. -/
theorem makes_forM (paths : List String) (t : Transaction) :
    ∃ made, Makes t made (paths.forM createDirectory t).2 ∧ ∀ m ∈ made, m.1 ∈ paths := by
  refine Result.forM_leaves (P := fun s => ∃ made, Makes t made s ∧ ∀ m ∈ made, m.1 ∈ paths)
    (fun path hpath between hbetween => ?_) ⟨[], .start t, fun m hm => absurd hm List.not_mem_nil⟩
  obtain ⟨made, hmakes, hpaths⟩ := hbetween
  obtain ⟨more, hmore, hpath'⟩ := hmakes.after_createDirectory path
  refine ⟨made ++ more, hmore, fun m hm => ?_⟩
  rcases List.mem_append.mp hm with hm | hm
  · exact hpaths m hm
  · exact hpath' m hm ▸ hpath

/-- Nothing is missing if the directory is there; else it is itself missing. -/
theorem missing_cases (disk : Disk) (path : String) :
    (missing disk path = [] ∧ (path = "" ∨ disk.isDirectory path = true)) ∨
      ∃ others, missing disk path = path :: others := by
  unfold missing Disk.Path.ancestors
  rw [Disk.Path.ancestorsFrom_eq_cons, List.takeWhile_cons]
  split
  · exact .inr ⟨_, rfl⟩
  · rename_i hthere
    refine .inl ⟨rfl, ?_⟩
    by_cases hempty : path = ""
    · exact .inl hempty
    · exact .inr (by simpa [hempty] using hthere)

/-- Where an attempt ends well, something is at the end of the path. -/
theorem isTaken_of_createDirectories (h : createDirectories path t = (.ok (), after))
    (hcandid : some .alreadyExists ∉ t.disk.refusals) :
    path = "" ∨ after.disk.isDirectory path = true ∨ after.disk.IsTaken path := by
  unfold createDirectories at h
  rw [Result.run_get_bind] at h
  rcases missing_cases t.disk path with ⟨hnone, hthere⟩ | ⟨others, hothers⟩
  · rw [hnone] at h
    obtain rfl := (Prod.mk.inj h).2
    exact hthere.imp_right .inl
  · have happend : (others.reverse ++ [path]).forM createDirectory =
        (others.reverse.forM createDirectory >>= fun _ => [path].forM createDirectory) :=
      List.forM_append
    rw [hothers, List.reverse_cons, happend] at h
    obtain ⟨_, between, hfirst, hlast⟩ := Result.run_bind_eq_ok h
    obtain ⟨_, final, hcreate, hend⟩ := Result.run_bind_eq_ok hlast
    obtain rfl := (Prod.mk.inj hend).2
    obtain ⟨made, hmakes, -⟩ := makes_forM others.reverse t
    rw [hfirst] at hmakes
    obtain ⟨refusals, hleft, hdisk⟩ := hmakes.becomes
    refine .inr (.inr (isTaken_of_createDirectory_ok hcreate fun hm => hcandid (hleft.subset ?_)))
    rwa [hdisk] at hm

theorem makes_createDirectories (h : (createDirectories path t).2 = after) :
    ∃ made, Makes t made after ∧ ∀ m ∈ made, Disk.Path.Around path m.1 := by
  unfold createDirectories at h
  rw [Result.run_get_bind] at h
  obtain ⟨made, hmakes, hpaths⟩ := makes_forM (missing t.disk path).reverse t
  refine ⟨made, h ▸ hmakes, fun m hm => ?_⟩
  have hmissing := List.mem_reverse.mp (hpaths m hm)
  exact Disk.Path.around_of_mem_ancestorsFrom ((List.takeWhile_sublist _).subset hmissing)

/-- Where an attempt ends well, directories are all around the path. -/
theorem isDirectory_around (h : createDirectories path t = (.ok (), after))
    (hcandid : some .alreadyExists ∉ t.disk.refusals) (ho : Disk.Path.Around path outer)
    (hpath : outer ≠ path) (hne : outer ≠ "") : after.disk.isDirectory outer = true := by
  rcases isTaken_of_createDirectories h hcandid with rfl | hdirectory | htaken
  · exact absurd ho.eq_empty hne
  · exact Disk.isDirectory_of_around ho hne hdirectory
  · exact htaken.isDirectory_of_around ho hpath hne

/-- The path is one too where no file was. -/
theorem isDirectory_self (hwf : t.disk.tree.WellFormed) (hmakes : Makes t made after)
    (h : createDirectories path t = (.ok (), after))
    (hcandid : some .alreadyExists ∉ t.disk.refusals) (hne : path ≠ "")
    (hfile : ∀ content, t.disk.tree.get? (t.disk.placeOf path) ≠ some (.file content)) :
    after.disk.isDirectory path = true := by
  rcases isTaken_of_createDirectories h hcandid with rfl | hdirectory | htaken
  · exact absurd rfl hne
  · exact hdirectory
  · refine htaken.isDirectory (hmakes.wellFormed hwf) fun content hg => ?_
    rw [hmakes.placeOf_eq, hmakes.get?_eq] at hg
    split at hg
    · cases hg
    · exact hfile content hg

/-- A directory that is there now was there or has been made. -/
theorem Makes.get?_of_isDirectory (h : Makes t made after)
    (hdirectory : after.disk.isDirectory path = true) :
    after.disk.tree.get? (t.disk.placeOf path) = some .directory := by
  obtain ⟨-, place, hr⟩ := Disk.isDirectory_iff.mp hdirectory
  rw [← h.placeOf_eq, hr.placeOf_eq, hr.get?_eq]

/-- **What making a directory reports.** However it ends, what it has made is what it has logged,
each directory behind the one it is in, and no entry is changed. If it ends well, and nobody from
outside has said that something is there already, then all around the path are directories, the path
is one too unless there is a file, and nothing that was missing has been left out. -/
theorem createDirectories_reports {result : Except PackageError Unit}
    (hwf : t.disk.tree.WellFormed) (hrun : createDirectories path t = (result, after)) :
    ∃ made : List (String × Place), Makes t made after ∧
      (∀ m ∈ made, Disk.Path.Around path m.1) ∧
      (∀ place node, t.disk.tree.get? place = some node →
        after.disk.tree.get? place = some node) ∧
      (result = .ok () → some .alreadyExists ∉ t.disk.refusals →
        (∀ outer, Disk.Path.Around path outer → outer ≠ path → outer ≠ "" →
          after.disk.isDirectory outer = true) ∧
        (path ≠ "" → (after.disk.isDirectory path = true ↔
          ∀ content, t.disk.tree.get? (t.disk.placeOf path) ≠ some (.file content))) ∧
        ∀ outer, Disk.Path.Around path outer → outer ≠ "" →
          t.disk.tree.get? (t.disk.placeOf outer) = none →
          t.disk.placeOf outer ∈ made.map Prod.snd) := by
  obtain ⟨made, hmakes, haround⟩ := makes_createDirectories (congrArg Prod.snd hrun)
  refine ⟨made, hmakes, haround, fun _ _ => hmakes.keeps, ?_⟩
  rintro rfl hcandid
  have hself (hne : path ≠ "")
      (hfile : ∀ content, t.disk.tree.get? (t.disk.placeOf path) ≠ some (.file content)) :=
    isDirectory_self hwf hmakes hrun hcandid hne hfile
  refine ⟨fun outer => isDirectory_around hrun hcandid,
    fun hne => ⟨fun h content hg => ?_, hself hne⟩, fun outer ho hne hmissing => ?_⟩
  · cases (hmakes.keeps hg).symm.trans (hmakes.get?_of_isDirectory h)
  · -- what is a directory now and was missing before has been made
    have hdirectory : after.disk.isDirectory outer = true := by
      by_cases hpath : outer = path
      · exact hpath ▸ hself (hpath ▸ hne) fun content => by simp [← hpath, hmissing]
      · exact isDirectory_around hrun hcandid ho hpath hne
    have hmade := hmakes.get?_of_isDirectory hdirectory
    rw [hmakes.get?_eq, hmissing] at hmade
    split at hmade
    · assumption
    · cases hmade

/-- Behind two dots the way goes on beside the directory that has been made first. -/
theorem createDirectories_reports_dotted :
    let t := start ⟨Disk.Tree.empty, [], none, []⟩
    t.disk.tree.WellFormed ∧ ∃ after, createDirectories "a/../b/c" t = (.ok (), after) ∧
      after.log =
        [.createdDirectory "a/../b/c", .createdDirectory "a/../b", .createdDirectory "a"] ∧
      (∃ made : List (String × Place), Makes t made after) ∧
      after.disk.isDirectory "a/../b/c" = true ∧
      ∀ outer, Disk.Path.Around "a/../b/c" outer → outer ≠ "a/../b/c" → outer ≠ "" →
        after.disk.isDirectory outer = true := by
  intro t
  have hwf : t.disk.tree.WellFormed := Disk.Tree.wellFormed_empty
  have hlog : (createDirectories "a/../b/c" t).2.log =
      [.createdDirectory "a/../b/c", .createdDirectory "a/../b", .createdDirectory "a"] := by
    decide +kernel
  obtain ⟨_, after, hrun⟩ := Result.run_of_toBool
    (show (createDirectories "a/../b/c" t).1.toBool = true by decide +kernel)
  rw [hrun] at hlog
  obtain ⟨made, hmakes, -, -, hreport⟩ := createDirectories_reports hwf hrun
  obtain ⟨houter, hself, -⟩ := hreport rfl List.not_mem_nil
  have hfree : t.disk.tree.get? (t.disk.placeOf "a/../b/c") = none := by decide +kernel
  exact ⟨hwf, after, hrun, hlog, ⟨made, hmakes⟩,
    (hself (by decide)).mpr fun content => by simp [hfree], houter⟩

/-- **A file in the place of the directory is taken for it.** -/
theorem createDirectories_over_file :
    ¬ ∀ (t : Transaction) (path : String), t.disk.tree.WellFormed → t.disk.refusals = [] →
      (createDirectories path t).1 = .ok () → path ≠ "" →
      (createDirectories path t).2.disk.isDirectory path = true := by
  intro h
  let t := start ⟨Disk.Tree.empty.put ["a"] (.file "x"), [], none, []⟩
  have hwf : t.disk.tree.WellFormed := Disk.Tree.wellFormed_empty.put rfl (by decide)
  obtain ⟨_, _, hend⟩ := Result.run_of_toBool
    (show (createDirectories "a" t).1.toBool = true by decide +kernel)
  have hok : (createDirectories "a" t).1 = .ok () := congrArg Prod.fst hend
  have hfile : (createDirectories "a" t).2.disk.isDirectory "a" = false := by decide +kernel
  have hdirectory := h t "a" hwf rfl hok (by decide)
  rw [hfile] at hdirectory
  exact Bool.false_ne_true hdirectory

end Transaction

end StubGen
