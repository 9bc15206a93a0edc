import StubGen.Disk.Basic
import StubGen.Proofs.Disk.Tree
import StubGen.Proofs.Result
import StubGen.Proofs.Text.Lines

/-!
# Where paths lead

A path leads to an entry only over directories, so which entry it is depends on the
directories of the tree and on nothing else: `place?_mono`. In particular it is the
same entry before and after a file has been written somewhere. The place of the entry
does not depend on the tree at all, but only on the parts of the path, and two texts
with the same parts name the same place: `place_eq_of_same`.
-/

namespace StubGen.Disk

open StubGen.Disk.Tree (WellFormed)

variable {disk : Disk} {path : String} {place : Place}

/-! ## Walking -/

namespace Tree

/-- All directories of one tree are directories of another one. -/
def KeepsDirectories (old new : Tree) : Prop :=
  ∀ place, old.get? place = some .directory → new.get? place = some .directory

theorem keepsDirectories_put {tree : Tree} {p : Place} {node : Node}
    (h : tree.get? p ≠ some .directory) : KeepsDirectories tree (tree.put p node) := by
  intro q hq
  have hne : q ≠ p := fun he => h (he ▸ hq)
  rw [get?_put_of_ne hne, hq]

theorem keepsDirectories_of_put {tree : Tree} {p : Place} {content : String} :
    KeepsDirectories (tree.put p (.file content)) tree := by
  intro q hq
  by_cases hp : p = []
  · by_cases hqn : q = []
    · rw [hqn]
      rfl
    · rwa [get?_put_of_ne (by rw [hp]; exact hqn)] at hq
  · have hne : q ≠ p := by
      rintro rfl
      rw [get?_put_self hp] at hq
      exact absurd hq (by simp)
    rwa [get?_put_of_ne hne] at hq

theorem keepsDirectories_of_erase {tree : Tree} {p : Place} :
    KeepsDirectories (tree.erase p) tree := by
  intro q hq
  by_cases hqp : q = p
  · by_cases hqn : q = []
    · rw [hqn]
      rfl
    · rw [hqp, get?_erase_self (hqp ▸ hqn)] at hq
      exact absurd hq (by simp)
  · rwa [get?_erase_of_ne hqp] at hq

/-- A walk ends where its steps lead, with what is there. -/
theorem walk_eq_ok {tree : Tree} {start place : Place} {node : Option Node} {names : List String}
    (h : tree.walk start names = .ok (place, node)) :
    place = names.foldl step start ∧ node = tree.get? place := by
  induction names generalizing start with
  | nil =>
      injection h with h
      injection h with h1 h2
      subst h1
      exact ⟨rfl, h2.symm⟩
  | cons name rest ih =>
      unfold walk at h
      split at h
      · exact absurd h (by simp)
      · exact absurd h (by simp)
      · split at h
        · exact absurd h (by simp)
        · exact ih h

/-- A walk that ends can be taken in any tree with the same directories. -/
theorem walk_mono {old new : Tree} (hk : KeepsDirectories old new) {start place : Place}
    {names : List String} (h : old.walk start names = .ok (place, some .directory)) :
    new.walk start names = .ok (place, some .directory) := by
  induction names generalizing start with
  -- by induction on the names: each step asks for a directory, which the other tree has too
  | nil =>
      injection h with h
      injection h with h1 h2
      subst h1
      rw [walk, hk _ h2]
  | cons name rest ih =>
      unfold walk at h
      split at h
      · exact absurd h (by simp)
      · exact absurd h (by simp)
      · rename_i hd
        split at h
        · exact absurd h (by simp)
        · rename_i hlen
          rw [walk, hk _ hd]
          dsimp only
          rw [if_neg hlen]
          exact ih h

/-- A walk along names is a walk to the directory before the last one, and a step from there. -/
theorem walk_concat {tree : Tree} {start : Place} {names : List String} {name : String} :
    tree.walk start (names ++ [name]) =
      match tree.walk start names with
      | .error cause => .error cause
      | .ok (directory, none) => (fun _ => .error .notFound) directory
      | .ok (directory, some (.file _)) => (fun _ => .error .notADirectory) directory
      | .ok (directory, some .directory) =>
        if nameLimit < name.utf8ByteSize then .error .nameTooLong
        else .ok (step directory name, tree.get? (step directory name)) := by
  induction names generalizing start with
  -- a walk looks at what it stands on before each step, so the last step looks at the directory
  | nil =>
      rw [List.nil_append, walk, walk]
      cases tree.get? start with
      | none => rfl
      | some node => cases node <;> rfl
  | cons first rest ih =>
      rw [List.cons_append, walk, walk]
      cases tree.get? start with
      | none => rfl
      | some node =>
          cases node with
          | file _ => rfl
          | directory =>
              dsimp only
              split
              · rfl
              · exact ih

end Tree

open StubGen.Disk.Tree (KeepsDirectories)

/-! ## Entries -/

/-- A name that stands for an entry of a directory. -/
def IsName (name : String) : Prop :=
  name ≠ "." ∧ name ≠ ".." ∧ name.utf8ByteSize ≤ Tree.nameLimit

theorem step_of_isName {name : String} (h : IsName name) (directory : Place) :
    Tree.step directory name = directory ++ [name] := by
  unfold Tree.step
  rw [if_neg h.1, if_neg h.2.1]

/-- A path leads over directories to an entry of the last one. -/
structure LeadsTo (disk : Disk) (path : String) (names : List String) (name : String)
    (directory : Place) : Prop where
  checked : checkPath path = .ok ()
  names_eq : Path.names path = names ++ [name]
  isName : IsName name
  walk_eq : disk.tree.walk (disk.startOf path) names = .ok (directory, some .directory)

theorem LeadsTo.place?_eq {names : List String} {name : String} {directory : Place}
    (h : LeadsTo disk path names name directory) :
    disk.place? path = .ok (some (directory ++ [name])) := by
  unfold place?
  simp [h.checked, h.names_eq, h.walk_eq, h.isName.1, h.isName.2.1, Nat.not_lt.mpr h.isName.2.2,
    bind, Except.bind, pure, Except.pure]

/-- Whatever entry a path names, it leads there. -/
theorem leadsTo_of_place? (h : disk.place? path = .ok (some place)) :
    ∃ names name directory, LeadsTo disk path names name directory ∧
      place = directory ++ [name] := by
  unfold place? at h
  dsimp only at h
  obtain ⟨_, hc, h⟩ := Result.bind_eq_ok_iff.mp h
  obtain ⟨⟨directory, node⟩, hw, h⟩ := Result.bind_eq_ok_iff.mp h
  dsimp only at h
  split at h
  · exact absurd h Result.throw_ne_ok
  · exact absurd h Result.throw_ne_ok
  · exact absurd h (by simp)
  · rename_i name hn
    split at h
    · exact absurd h (by simp)
    · -- a last name that is neither dots nor too long is an entry of the directory
      rename_i hdots
      split at h
      · exact absurd h Result.throw_ne_ok
      · rename_i hlen
        obtain ⟨names, hsplit⟩ := List.getLast?_eq_some_iff.mp hn
        rw [hsplit, List.dropLast_concat] at hw
        simp only [Bool.or_eq_true, decide_eq_true_eq, not_or] at hdots
        have hplace : directory ++ [name] = place := by simpa using h
        exact ⟨names, name, directory,
          ⟨hc, hsplit, ⟨hdots.1, hdots.2, Nat.not_lt.mp hlen⟩, hw⟩, hplace.symm⟩

/-- The entry that a path names is the same in every tree with the same directories. -/
theorem place?_mono {old new : Tree} (hk : KeepsDirectories old new)
    (h : (disk.withTree old).place? path = .ok (some place)) :
    (disk.withTree new).place? path = .ok (some place) := by
  obtain ⟨names, name, directory, hl, rfl⟩ := leadsTo_of_place? h
  exact LeadsTo.place?_eq ⟨hl.checked, hl.names_eq, hl.isName, Tree.walk_mono hk hl.walk_eq⟩

theorem get?_dropLast_of_place? (h : disk.place? path = .ok (some place)) :
    disk.tree.get? place.dropLast = some .directory := by
  obtain ⟨names, name, directory, hl, rfl⟩ := leadsTo_of_place? h
  rw [List.dropLast_concat]
  exact (Tree.walk_eq_ok hl.walk_eq).2.symm

theorem ne_nil_of_place? (h : disk.place? path = .ok (some place)) : place ≠ [] := by
  obtain ⟨names, name, directory, -, rfl⟩ := leadsTo_of_place? h
  simp

/-- A directory is made where nothing is. -/
theorem createDirectory_eq_ok {after : Disk} (h : disk.createDirectory path = .ok after) :
    ∃ place, disk.place? path = .ok (some place) ∧ disk.tree.get? place = none ∧
      after = disk.withTree (disk.tree.put place .directory) := by
  unfold createDirectory at h
  obtain ⟨found, he, h⟩ := Result.bind_eq_ok_iff.mp h
  cases found with
  | none => exact absurd h Result.throw_ne_ok
  | some place =>
      refine ⟨place, he, ?_⟩
      cases hg : disk.tree.get? place with
      | none =>
          simp only [hg] at h
          exact ⟨rfl, (Result.pure_eq_ok_iff.mp h).symm⟩
      | some node =>
          simp only [hg] at h
          exact absurd h Result.throw_ne_ok

/-- The place that the parts of a path lead to. -/
def placeOf (disk : Disk) (path : String) : Place :=
  (Path.names path).foldl Tree.step (disk.startOf path)

theorem placeOf_of_place? (h : disk.place? path = .ok (some place)) :
    disk.placeOf path = place := by
  obtain ⟨names, name, directory, hl, rfl⟩ := leadsTo_of_place? h
  unfold placeOf
  rw [hl.names_eq, List.foldl_append, ← (Tree.walk_eq_ok hl.walk_eq).1]
  exact step_of_isName hl.isName directory

/-- What is removed with all that is in it is what the path leads to. -/
theorem removeAll_eq_ok {after : Disk} (h : disk.removeAll path = .ok after) :
    after = disk.withTree (disk.tree.eraseBelow (disk.placeOf path)) := by
  unfold removeAll walk at h
  obtain ⟨⟨found, node⟩, hwalk, h⟩ := Result.bind_eq_ok_iff.mp h
  obtain ⟨_, -, hwalk⟩ := Result.bind_eq_ok_iff.mp hwalk
  obtain ⟨⟨place, there⟩, htree, hwalk⟩ := Result.bind_eq_ok_iff.mp hwalk
  have hplace : place = found := by
    dsimp only at hwalk
    split at hwalk
    · split at hwalk
      · obtain ⟨_, hthrow, -⟩ := Result.bind_eq_ok_iff.mp hwalk
        exact absurd hthrow Result.throw_ne_ok
      · exact (Prod.mk.inj (Result.pure_eq_ok_iff.mp hwalk)).1
    · exact (Prod.mk.inj (Result.pure_eq_ok_iff.mp hwalk)).1
  rw [← Result.pure_eq_ok_iff.mp h, ← hplace, (Tree.walk_eq_ok htree).1]
  rfl

/-! ## Reading what a path leads to -/

/-- What a path leads to is what its entry holds, but a file is not found by a path that asks for
a directory. -/
theorem find_of_place? (h : disk.place? path = .ok (some place)) :
    disk.find path =
      match disk.tree.get? place with
      | some (.file content) =>
        if Path.saysDirectory path then .error .notADirectory else .ok (some (.file content))
      | node => .ok node := by
  obtain ⟨names, name, directory, hl, rfl⟩ := leadsTo_of_place? h
  have hwalk : disk.tree.walk (disk.startOf path) (Path.names path) =
      .ok (directory ++ [name], disk.tree.get? (directory ++ [name])) := by
    rw [hl.names_eq, Tree.walk_concat, hl.walk_eq]
    dsimp only
    rw [if_neg (Nat.not_lt.mpr hl.isName.2.2), step_of_isName hl.isName]
  unfold find walk
  rw [hl.checked, hwalk]
  -- only a file makes a difference to a path that asks for a directory
  cases disk.tree.get? (directory ++ [name]) with
  | none => rfl
  | some node =>
      cases node with
      | directory => rfl
      | file content =>
          by_cases hs : Path.saysDirectory path <;> simp [hs, bind, Except.bind, Except.map, pure,
            Except.pure, throw, throwThe, MonadExceptOf.throw]

/-- A path that is there and asks for no directory in vain leads to what its entry holds. -/
theorem isThere_of_place? (h : disk.place? path = .ok (some place))
    (hn : (disk.tree.get? place).isSome)
    (hs : ∀ content, disk.tree.get? place = some (.file content) →
      Path.saysDirectory path = false) : disk.isThere path = true := by
  unfold isThere
  rw [find_of_place? h]
  cases hg : disk.tree.get? place with
  | none => simp [hg] at hn
  | some node =>
      cases node with
      | directory => rfl
      | file content => simp [hs content hg]

theorem get?_of_not_isThere (h : disk.place? path = .ok (some place))
    (hs : Path.saysDirectory path = false) (hgone : disk.isThere path = false) :
    disk.tree.get? place = none := by
  cases hg : disk.tree.get? place with
  | none => rfl
  | some node =>
      have hthere := isThere_of_place? h (by simp [hg]) fun _ _ => hs
      rw [hgone] at hthere
      exact Bool.noConfusion hthere

/-- The walk behind what a path leads to, if that is a file. -/
theorem walk_of_read {content : String} (h : disk.read path = .ok content) :
    checkPath path = .ok () ∧ Path.saysDirectory path = false ∧
      ∃ place, disk.tree.walk (disk.startOf path) (Path.names path) =
        .ok (place, some (.file content)) := by
  unfold read find walk at h
  obtain ⟨node, hf, h⟩ := Result.bind_eq_ok_iff.mp h
  have hnode : node = some (.file content) := by
    split at h
    · exact absurd h Result.throw_ne_ok
    · exact absurd h Result.throw_ne_ok
    · rw [Result.pure_eq_ok_iff.mp h]
  subst hnode
  -- if a check or a step of the walk failed, nothing would be read
  cases hc : checkPath path with
  | error cause => simp [hc, bind, Except.bind, Except.map] at hf
  | ok _ =>
      cases hw : disk.tree.walk (disk.startOf path) (Path.names path) with
      | error cause => simp [hc, hw, bind, Except.bind, Except.map] at hf
      | ok found =>
          obtain ⟨place, node⟩ := found
          cases hs : Path.saysDirectory path with
          | true =>
              rcases node with _ | _ | _ <;>
                simp [hc, hw, hs, bind, Except.bind, Except.map, pure, Except.pure, throw,
                  throwThe, MonadExceptOf.throw] at hf
          | false =>
              refine ⟨rfl, rfl, place, ?_⟩
              rcases node with _ | _ | _ <;>
                simp [hc, hw, hs, bind, Except.bind, Except.map, pure, Except.pure] at hf
              rw [hf]

/-! ## Parts of paths -/

namespace Path

/-- The pieces of a path begin with nothing if the path is absolute, else with a name. -/
theorem split_cases (hne : path ≠ "") :
    (isAbsolute path = true ∧ ∃ rest, Text.split '/' path = "" :: rest) ∨
      (isAbsolute path = false ∧ ∃ first rest, Text.split '/' path = first :: rest ∧
        first ≠ "" ∧ first ≠ "/") := by
  unfold isAbsolute Text.startsWith Text.after? Text.split
  -- the first piece has no slash in it, so it is no slash itself
  have hmem : ∀ piece ∈ Text.splitChars '/' path.toList, '/' ∉ piece :=
    fun _ h => Text.not_mem_of_mem_splitChars h
  cases hcs : path.toList with
  | nil => exact absurd (String.toList_eq_nil_iff.mp hcs) hne
  | cons c cs =>
      rw [hcs] at hmem
      by_cases hc : c = '/'
      · left
        simp [Text.splitChars, hc, Text.afterChars?]
      · right
        have hc' : ('/' : Char) ≠ c := fun h => hc h.symm
        refine ⟨by simp [Text.afterChars?, hc'], ?_⟩
        unfold Text.splitChars at hmem ⊢
        rw [if_neg hc] at hmem ⊢
        split at hmem
        · rename_i heq
          exact absurd heq (Text.splitChars_ne_nil '/' cs)
        · rename_i first rest heq
          refine ⟨String.ofList (c :: first), rest.map String.ofList, by simp, by simp, ?_⟩
          intro h
          have := congrArg String.toList h
          simp at this
          exact hc this.1

end Path

/-- Where parts lead. -/
def follow (disk : Disk) : List String → Place
  | [] => disk.workingDirectory
  | first :: rest =>
    if first = "/" then rest.foldl Tree.step []
    else (first :: rest).foldl Tree.step disk.workingDirectory

/-- Parts that stand for nothing lead nowhere. -/
theorem foldl_step_filter (start : Place) (pieces : List String) :
    (pieces.filter fun name => name != "").foldl Tree.step start =
      (pieces.filter fun part => !Path.isSilent part).foldl Tree.step start := by
  induction pieces generalizing start with
  | nil => rfl
  | cons piece rest ih =>
      by_cases h1 : piece = ""
      · simp [h1, Path.isSilent, ih]
      · by_cases h2 : piece = "."
        · simp [h2, Path.isSilent, ih, Tree.step]
        · simp [h1, h2, Path.isSilent, ih]

/-- Where a path leads is said by its parts. -/
theorem placeOf_eq_follow (disk : Disk) (hne : path ≠ "") :
    disk.placeOf path = disk.follow (Path.parts path) := by
  unfold placeOf startOf Path.parts Path.names
  have hempty : ¬ path.isEmpty = true := by simpa using hne
  rw [if_neg hempty]
  rcases Path.split_cases hne with ⟨habs, rest, hsplit⟩ | ⟨habs, first, rest, hsplit, h1, h2⟩
  · rw [habs, hsplit]
    simp [Path.partsOf, follow, foldl_step_filter]
  · rw [habs, hsplit]
    have hparts : Path.partsOf (first :: rest) =
        first :: rest.filter fun part => !Path.isSilent part := by
      unfold Path.partsOf
      split
      · rename_i heq
        exact absurd heq (by simp)
      · rename_i heq
        exact absurd (List.cons.inj heq).1 h1
      · rename_i heq
        rw [(List.cons.inj heq).1, (List.cons.inj heq).2]
    rw [hparts, List.filter_cons_of_pos (by simpa using h1)]
    simp only [follow, h2, if_false, List.foldl_cons, Bool.false_eq_true, foldl_step_filter]

theorem ne_empty_of_place? (h : disk.place? path = .ok (some place)) : path ≠ "" := by
  rintro rfl
  obtain ⟨_, _, _, hl, _⟩ := leadsTo_of_place? h
  have := hl.checked
  simp [checkPath] at this

/-- **Two texts of the same path name the same entry**, even in trees that differ. -/
theorem place_eq_of_same {tree : Tree} {other : String} {place' : Place}
    (h : disk.place? path = .ok (some place))
    (h' : (disk.withTree tree).place? other = .ok (some place'))
    (hs : Path.same path other = true) : place = place' := by
  have hparts : Path.parts path = Path.parts other := by simpa [Path.same] using hs
  rw [← placeOf_of_place? h, ← placeOf_of_place? h', placeOf_eq_follow _ (ne_empty_of_place? h),
    placeOf_eq_follow _ (ne_empty_of_place? h'), hparts]
  rfl

theorem names_ne_nil (hne : path ≠ "") (hrel : Path.isAbsolute path = false) :
    Path.names path ≠ [] := by
  rcases Path.split_cases hne with ⟨habs, -⟩ | ⟨-, first, rest, hsplit, h1, -⟩
  · rw [hrel] at habs
    exact Bool.noConfusion habs
  · unfold Path.names
    rw [hsplit, List.filter_cons_of_pos (by simpa using h1)]
    simp

/-- In a well-formed tree, a file that can be read is an entry. -/
theorem place?_of_read {content : String} (hwf : disk.tree.WellFormed)
    (h : disk.read path = .ok content) :
    ∃ place, disk.place? path = .ok (some place) ∧
      disk.tree.get? place = some (.file content) ∧ Path.saysDirectory path = false := by
  obtain ⟨hc, hs, place, hw⟩ := walk_of_read h
  have hne : path ≠ "" := by
    rintro rfl
    simp [checkPath] at hc
  rcases List.eq_nil_or_concat (Path.names path) with hnil | ⟨names, name, hsplit⟩
  · -- only the path of the top has no names, and the top is a directory
    have habs : Path.isAbsolute path = true := by
      cases habs : Path.isAbsolute path with
      | true => rfl
      | false => exact absurd hnil (names_ne_nil hne habs)
    rw [hnil] at hw
    have := (Tree.walk_eq_ok hw).2
    rw [(Tree.walk_eq_ok hw).1] at this
    simp [startOf, habs] at this
  · rw [hsplit, List.concat_eq_append, Tree.walk_concat] at hw
    split at hw
    · exact absurd hw (by simp)
    · exact absurd hw (by simp)
    · exact absurd hw (by simp)
    · rename_i directory hdir
      split at hw
      · exact absurd hw (by simp)
      · rename_i hlen
        have hd : disk.tree.get? directory = some .directory := (Tree.walk_eq_ok hdir).2.symm
        have hfile : disk.tree.get? (Tree.step directory name) = some (.file content) := by
          injection hw with hw
          exact (Prod.mk.inj hw).2
        -- after a dot, or two, there would be a directory and no file
        have h1 : name ≠ "." := by
          rintro rfl
          rw [show Tree.step directory "." = directory from rfl, hd] at hfile
          exact absurd hfile (by simp)
        have h2 : name ≠ ".." := by
          rintro rfl
          rw [show Tree.step directory ".." = directory.dropLast from rfl] at hfile
          by_cases hnil : directory = []
          · rw [hnil] at hfile
            exact absurd hfile (by simp)
          · rw [hwf directory _ hnil hd] at hfile
            exact absurd hfile (by simp)
        have hname : IsName name := ⟨h1, h2, Nat.not_lt.mp hlen⟩
        rw [step_of_isName hname] at hfile
        have hlead : LeadsTo disk path names name directory :=
          ⟨hc, by rw [hsplit, List.concat_eq_append], hname, hdir⟩
        exact ⟨directory ++ [name], hlead.place?_eq, hfile, hs⟩

end StubGen.Disk
