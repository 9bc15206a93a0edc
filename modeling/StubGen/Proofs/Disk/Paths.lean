import StubGen.Proofs.Disk.Walk
import StubGen.Proofs.Text.Segments

/-!
# Paths that are put together

A plain name behind a path leads from the directory that the path reaches to the entry of that
name. All directories around the new path are then among those on the way to the directory, so
none of them is missing: `reaches_of_mem_ancestors_join`.
-/

namespace StubGen.Disk

open StubGen.Disk.Tree (KeepsDirectories)

variable {disk : Disk} {path directory name : String} {place : Place}

/-! ## Names behind paths -/

/-- A name that stands for an entry in every directory. -/
structure IsPlain (name : String) : Prop where
  ne_empty : name ≠ ""
  ne_dot : name ≠ "."
  ne_dots : name ≠ ".."
  flat : '/' ∉ name.toList

namespace Path

theorem isAbsolute_iff : isAbsolute path = true ↔ ∃ rest, path.toList = '/' :: rest := by
  unfold isAbsolute Text.startsWith Text.after?
  rw [Option.isSome_map, Option.isSome_iff_exists]
  exact exists_congr fun rest => Text.afterChars?_eq_some_iff

theorem saysDirectory_iff : saysDirectory path = true ↔ ['/'] <:+ path.toList :=
  Text.before?_isSome_iff

/-- A relative path stands at the end of a path, behind what leads to the directory. -/
theorem join_cases_of_relative (hrel : isAbsolute name = false) (directory : String) :
    (directory = "" ∧ join directory name = name) ∨
      (∃ init, directory.toList = init ++ ['/'] ∧
        (join directory name).toList = init ++ '/' :: name.toList) ∨
      (directory ≠ "" ∧ (join directory name).toList = directory.toList ++ '/' :: name.toList) := by
  unfold join
  rw [hrel, Bool.false_or]
  by_cases hempty : directory = ""
  · exact .inl ⟨hempty, if_pos (by simp [hempty])⟩
  right
  rw [if_neg (by simpa using hempty)]
  by_cases hs : (Text.before? "/" directory).isSome = true
  · rw [if_pos hs]
    obtain ⟨init, hinit⟩ := Text.before?_isSome_iff.mp hs
    have hinit : init ++ ['/'] = directory.toList := hinit
    exact .inl ⟨init, hinit.symm, by rw [String.toList_append, ← hinit, List.append_assoc]; rfl⟩
  · rw [if_neg hs]
    exact .inr ⟨hempty, by simp⟩

theorem isAbsolute_of_isPlain (h : IsPlain name) : isAbsolute name = false := by
  rw [← Bool.not_eq_true, isAbsolute_iff]
  rintro ⟨rest, hname⟩
  exact h.flat (hname ▸ List.mem_cons_self)

theorem join_cases (h : IsPlain name) (directory : String) :
    (directory = "" ∧ join directory name = name) ∨
      (∃ init, directory.toList = init ++ ['/'] ∧
        (join directory name).toList = init ++ '/' :: name.toList) ∨
      (directory ≠ "" ∧ (join directory name).toList = directory.toList ++ '/' :: name.toList) :=
  join_cases_of_relative (isAbsolute_of_isPlain h) directory

/-- The pieces of a path with a plain name at its end. -/
theorem split_join (h : IsPlain name) (directory : String) :
    ∃ pieces, Text.split '/' (join directory name) = pieces ++ [name] ∧
      pieces.filter (fun piece => piece != "") = names directory := by
  have hname : Text.splitChars '/' name.toList = [name.toList] :=
    Text.splitChars_of_not_mem h.flat
  unfold names Text.split
  rcases join_cases h directory with ⟨rfl, hj⟩ | ⟨init, hinit, hj⟩ | ⟨-, hj⟩
  · rw [hj, hname]
    exact ⟨[], by simp, rfl⟩
  · rw [hj, hinit, Text.splitChars_append_sep, Text.splitChars_append_sep, hname]
    refine ⟨(Text.splitChars '/' init).map String.ofList, by simp, ?_⟩
    simp [Text.splitChars]
  · rw [hj, Text.splitChars_append_sep, hname]
    exact ⟨(Text.splitChars '/' directory.toList).map String.ofList, by simp, rfl⟩

theorem names_join (h : IsPlain name) (directory : String) :
    names (join directory name) = names directory ++ [name] := by
  obtain ⟨pieces, hsplit, hnames⟩ := split_join h directory
  unfold names at *
  rw [hsplit, List.filter_append, hnames, List.filter_cons_of_pos (by simpa using h.ne_empty)]
  rfl

theorem names_join_of_relative (hrel : isAbsolute name = false) (directory : String) :
    names (join directory name) = names directory ++ names name := by
  unfold names Text.split
  rcases join_cases_of_relative hrel directory with ⟨rfl, hj⟩ | ⟨init, hinit, hj⟩ | ⟨-, hj⟩
  · rw [hj]
    rfl
  · rw [hj, hinit, Text.splitChars_append_sep, Text.splitChars_append_sep]
    simp [Text.splitChars]
  · rw [hj, Text.splitChars_append_sep, List.map_append, List.filter_append]

theorem isAbsolute_join_of_relative (hrel : isAbsolute name = false) (directory : String) :
    isAbsolute (join directory name) = isAbsolute directory := by
  rcases join_cases_of_relative hrel directory with ⟨rfl, hj⟩ | ⟨init, hinit, hj⟩ | ⟨hne, hj⟩
  · rw [hj, hrel]
    rfl
  · rw [Bool.eq_iff_iff, isAbsolute_iff, isAbsolute_iff, hj, hinit]
    cases init <;> simp
  · rw [Bool.eq_iff_iff, isAbsolute_iff, isAbsolute_iff, hj]
    obtain ⟨c, cs, hcs⟩ :=
      List.exists_cons_of_ne_nil fun hnil => hne (String.toList_eq_nil_iff.mp hnil)
    simp [hcs]

theorem isAbsolute_join (h : IsPlain name) (directory : String) :
    isAbsolute (join directory name) = isAbsolute directory :=
  isAbsolute_join_of_relative (isAbsolute_of_isPlain h) directory

theorem isInside_iff : isInside path = true ↔
    path ≠ "" ∧ isAbsolute path = false ∧ ".." ∉ names path := by
  have hparts : path ≠ "" → (".." ∈ parts path ↔ ".." ∈ names path) := by
    intro hne
    obtain ⟨first, rest, hsplit⟩ :=
      List.exists_cons_of_ne_nil (l := Text.split '/' path)
        (by simp [Text.split, Text.splitChars_ne_nil])
    unfold parts names
    rw [if_neg (by simpa using hne), hsplit]
    unfold partsOf
    split <;> simp_all [isSilent]
  unfold isInside
  by_cases hne : path = ""
  · simp [hne]
  · simp [hne, ← hparts hne]

theorem saysDirectory_join (h : IsPlain name) (directory : String) :
    saysDirectory (join directory name) = false := by
  have hbehind : ∃ front, (join directory name).toList = front ++ name.toList := by
    rcases join_cases h directory with ⟨-, hj⟩ | ⟨init, -, hj⟩ | ⟨-, hj⟩
    · exact ⟨[], by rw [hj]; rfl⟩
    · exact ⟨init ++ ['/'], by rw [hj, List.append_assoc]; rfl⟩
    · exact ⟨directory.toList ++ ['/'], by rw [hj, List.append_assoc]; rfl⟩
  obtain ⟨front, hfront⟩ := hbehind
  rw [← Bool.not_eq_true, saysDirectory_iff, hfront]
  rintro ⟨init, hinit⟩
  obtain ⟨front', last, hname⟩ : ∃ front' last, name.toList = front' ++ [last] :=
    ⟨_, _, (List.dropLast_concat_getLast fun hnil =>
      h.ne_empty (String.toList_eq_nil_iff.mp hnil)).symm⟩
  rw [hname, ← List.append_assoc] at hinit
  have hlast := (List.append_inj' hinit rfl).2
  exact h.flat (by rw [hname, ← List.head_eq_of_cons_eq hlast]; simp)

/-! ## The directories around a path -/

theorem dropSilent_cons (first : String) (rest : List String) :
    ∃ kept, dropSilent (first :: rest) = first :: kept ∧ kept <+: rest ∧
      (∀ last ∈ kept.getLast?, isSilent last = false) := by
  refine ⟨_, rfl, ?_, fun last hlast => ?_⟩
  · rw [← List.reverse_suffix, List.reverse_reverse]
    exact List.dropWhile_suffix _
  · rw [List.getLast?_reverse] at hlast
    have hnot := List.head?_dropWhile_not isSilent rest.reverse
    rw [Option.mem_def.mp hlast] at hnot
    simpa using hnot

theorem prefix_dropLast_of_concat {α : Type} {front items : List α} {last : α}
    (h : front ++ [last] <+: items) : front <+: items.dropLast := by
  obtain ⟨behind, rfl⟩ := h
  rw [List.append_assoc, List.singleton_append, List.dropLast_append_of_ne_nil (by simp)]
  exact List.prefix_append _ _

/-- A path has some of the names of another one, from the front and without the last. -/
def IsOutside (outer path : String) : Prop :=
  isAbsolute outer = isAbsolute path ∧ names outer <+: (names path).dropLast

theorem isAbsolute_iff_split (hne : path ≠ "") :
    isAbsolute path = true ↔ (Text.split '/' path).head? = some "" := by
  rcases split_cases hne with ⟨habs, rest, hsplit⟩ | ⟨hrel, first, rest, hsplit, hfirst, -⟩
  · simp [habs, hsplit]
  · simp [hrel, hsplit, hfirst]

/-- The directory that a path is in has fewer of its pieces: the last one that tells anything is
left out, and so is what tells nothing in front of it. If only one piece tells anything, the path
stands in the directory that paths are seen from. -/
theorem pieces_of_parent? {outer first : String} {rest : List String}
    (h : parent? path = some outer) (hne : path ≠ "")
    (hsplit : Text.split '/' path = first :: rest) :
    outer = "" ∨ ∃ front last more, front ++ [last] <+: rest ∧ isSilent last = false ∧
      more <+: front ∧
      (outer = "/" ∧ first :: more = [""] ∨ outer = Text.join "/" (first :: more)) := by
  obtain ⟨kept, hkept, hprefix, hlast⟩ := dropSilent_cons first rest
  unfold parent? at h
  rw [if_neg (by simpa using hne), hsplit, hkept] at h
  rcases List.eq_nil_or_concat kept with rfl | ⟨front, last, rfl⟩
  · left
    dsimp only at h
    split at h
    · exact absurd h (by simp)
    · exact (Option.some.inj h).symm
  · rw [List.concat_eq_append] at hprefix hlast h
    obtain ⟨more, hmore, hshort, -⟩ := dropSilent_cons first front
    refine .inr ⟨front, last, more, hprefix, hlast last (by simp), hshort, ?_⟩
    -- something is left once the last piece is taken away, so what is tried next is its front
    obtain ⟨second, others, hcons⟩ :=
      List.exists_cons_of_ne_nil (show front ++ [last] ≠ [] by simp)
    rw [hcons] at h
    dsimp only at h
    rw [← hcons, ← List.cons_append, List.dropLast_concat, hmore] at h
    split at h
    · rename_i heq
      exact .inl ⟨(Option.some.inj h).symm, heq⟩
    · exact .inr (Option.some.inj h).symm

/-- Pieces from the front, without one that tells something, have no more names than all but the
last one. -/
theorem filter_prefix_names {first last : String} {front more rest : List String}
    (hsplit : Text.split '/' path = first :: rest) (hfront : front ++ [last] <+: rest)
    (hlast : isSilent last = false) (hmore : more <+: front) :
    (first :: more).filter (fun piece => piece != "") <+: (names path).dropLast := by
  have hloud : [last].filter (fun piece => piece != "") = [last] := by
    simp only [isSilent, Bool.or_eq_false_iff, beq_eq_false_iff_ne] at hlast
    simp [hlast.1]
  have hall := ((List.prefix_cons_inj first).mpr hfront).filter fun piece => piece != ""
  rw [← List.cons_append, List.filter_append, hloud] at hall
  unfold names
  rw [hsplit]
  exact (((List.prefix_cons_inj first).mpr hmore).filter _).trans (prefix_dropLast_of_concat hall)

/-- The directory that a path is in has fewer of its names. -/
theorem isOutside_of_parent? {outer : String} (h : parent? path = some outer) :
    outer = "" ∨ IsOutside outer path := by
  by_cases hempty : path = ""
  · simp [parent?, hempty] at h
  obtain ⟨first, rest, hsplit⟩ : ∃ first rest, Text.split '/' path = first :: rest := by
    rcases split_cases hempty with ⟨-, rest, hsplit⟩ | ⟨-, first, rest, hsplit, -⟩
    · exact ⟨_, _, hsplit⟩
    · exact ⟨_, _, hsplit⟩
  have hfirst : isAbsolute path = true ↔ first = "" := by
    rw [isAbsolute_iff_split hempty, hsplit]
    simp
  obtain hhere | ⟨front, last, more, hprefix, hlast, hmore, houter⟩ :=
    pieces_of_parent? h hempty hsplit
  · exact .inl hhere
  have hnames := filter_prefix_names hsplit hprefix hlast hmore
  rcases houter with ⟨rfl, hpieces⟩ | hjoin
  · obtain ⟨rfl, -⟩ := List.cons.inj hpieces
    exact .inr ⟨(hfirst.mpr rfl).symm, List.nil_prefix⟩
  -- what is joined again has the pieces that it was made of
  by_cases hgone : outer = ""
  · exact .inl hgone
  have hpieces : Text.split '/' outer = first :: more := by
    rw [hjoin]
    refine Text.split_join (List.cons_ne_nil _ _) fun piece hm => ?_
    have hsub : first :: more ⊆ first :: rest :=
      List.cons_subset_cons first
        (List.Subset.trans hmore.subset
          (List.Subset.trans (List.subset_append_left _ _) hprefix.subset))
    exact Text.not_mem_of_mem_split (hsplit ▸ hsub hm)
  refine .inr ⟨?_, ?_⟩
  · rw [Bool.eq_iff_iff, hfirst, isAbsolute_iff_split hgone, hpieces]
    simp
  · unfold names
    rwa [hpieces]

theorem ancestorsFrom_eq_cons (steps : Nat) (path : String) :
    ancestorsFrom steps path = path :: (ancestorsFrom steps path).tail := by
  cases steps <;> rfl

/-- All directories around a path have fewer of its names. -/
theorem isOutside_of_mem_ancestorsFrom {outer : String} {steps : Nat}
    (h : outer ∈ (ancestorsFrom steps path).tail) : outer = "" ∨ IsOutside outer path := by
  induction steps generalizing path with
  | zero => exact absurd h (by simp [ancestorsFrom])
  | succ steps ih =>
      unfold ancestorsFrom at h
      rw [List.tail_cons] at h
      split at h
      · rename_i above habove
        rw [ancestorsFrom_eq_cons] at h
        rcases List.mem_cons.mp h with rfl | h
        · exact isOutside_of_parent? habove
        rcases ih h with rfl | hfar
        · exact .inl rfl
        rcases isOutside_of_parent? habove with rfl | hnear
        · -- nothing is around the directory that paths are seen from
          cases steps <;> exact absurd h List.not_mem_nil
        · exact .inr ⟨hfar.1.trans hnear.1,
            hfar.2.trans ((List.dropLast_prefix _).trans hnear.2)⟩
      · exact absurd h List.not_mem_nil

end Path

/-! ## Directories that paths reach -/

/-- A path leads over directories to a directory. -/
def Reaches (disk : Disk) (path : String) (place : Place) : Prop :=
  disk.tree.walk (disk.startOf path) (Path.names path) = .ok (place, some .directory)

namespace Tree

/-- A walk that ends in a directory leads over directories. -/
theorem walk_append {tree : Tree} {start : Place} {names others : List String}
    (h : tree.walk start (names ++ others) = .ok (place, some .directory)) :
    ∃ between, tree.walk start names = .ok (between, some .directory) := by
  induction names generalizing start with
  -- by induction on the names in front: every step but the last one starts in a directory
  | nil =>
      refine ⟨start, ?_⟩
      cases others with
      | nil =>
          obtain ⟨-, hnode⟩ := Prod.mk.inj (Except.ok.inj h)
          rw [walk, hnode]
      | cons name others =>
          rw [List.nil_append, walk] at h
          split at h
          · exact absurd h (by simp)
          · exact absurd h (by simp)
          · rename_i hstart
            rw [walk, hstart]
  | cons name names ih =>
      rw [List.cons_append, walk] at h
      rw [walk]
      split at h
      · exact absurd h (by simp)
      · exact absurd h (by simp)
      · split at h
        · exact absurd h (by simp)
        · rename_i hlen
          rw [if_neg hlen]
          exact ih h

end Tree

namespace Reaches

theorem get?_eq (h : disk.Reaches path place) : disk.tree.get? place = some .directory :=
  (Tree.walk_eq_ok h).2.symm

theorem placeOf_eq (h : disk.Reaches path place) : disk.placeOf path = place :=
  (Tree.walk_eq_ok h).1.symm

theorem mono {tree : Tree} (h : disk.Reaches path place) (hk : KeepsDirectories disk.tree tree) :
    (disk.withTree tree).Reaches path place := Tree.walk_mono hk h

theorem of_isOutside {outer : String} (h : disk.Reaches directory place)
    (habs : Path.isAbsolute outer = Path.isAbsolute directory)
    (hnames : Path.names outer <+: Path.names directory) : ∃ around, disk.Reaches outer around := by
  obtain ⟨others, hothers⟩ := hnames
  unfold Reaches startOf at *
  rw [← hothers, ← habs] at h
  exact Tree.walk_append h

end Reaches

/-! ## Entries of directories that paths reach -/

section

variable (hn : IsPlain name)

include hn

theorem startOf_join (disk : Disk) (directory : String) :
    disk.startOf (Path.join directory name) = disk.startOf directory := by
  unfold startOf
  rw [Path.isAbsolute_join hn]

theorem placeOf_join (h : disk.Reaches directory place) :
    disk.placeOf (Path.join directory name) = place ++ [name] := by
  have hstep : Tree.step place name = place ++ [name] := by
    unfold Tree.step
    rw [if_neg hn.ne_dot, if_neg hn.ne_dots]
  rw [← hstep, ← h.placeOf_eq]
  unfold placeOf
  rw [startOf_join hn, Path.names_join hn, List.foldl_append]
  rfl

/-- A path that reaches a directory with a plain name behind it names that entry. -/
theorem place?_join {found : Place} (h : disk.Reaches directory place)
    (he : disk.place? (Path.join directory name) = .ok (some found)) : found = place ++ [name] := by
  rw [← placeOf_of_place? he, placeOf_join hn h]

/-- What leads to something leads over directories. -/
theorem reaches_of_walk {found : Place} {node : Option Node}
    (h : disk.tree.walk (disk.startOf (Path.join directory name))
      (Path.names (Path.join directory name)) = .ok (found, node)) :
    ∃ around, disk.Reaches directory around := by
  rw [startOf_join hn, Path.names_join hn, Tree.walk_concat] at h
  split at h
  · exact absurd h (by simp)
  · exact absurd h (by simp)
  · exact absurd h (by simp)
  · exact ⟨_, ‹_›⟩

/-- A directory that is reached stands in one that is reached. -/
theorem reaches_outer (h : disk.Reaches (Path.join directory name) place) :
    ∃ around, disk.Reaches directory around ∧ place = around ++ [name] := by
  obtain ⟨around, hr⟩ := reaches_of_walk hn h
  exact ⟨around, hr, by rw [← h.placeOf_eq, placeOf_join hn hr]⟩

theorem reaches_of_place? {found : Place}
    (he : disk.place? (Path.join directory name) = .ok (some found)) :
    ∃ around, disk.Reaches directory around := by
  obtain ⟨names, last, around, hl, -⟩ := leadsTo_of_place? he
  have hnames := hl.names_eq
  rw [Path.names_join hn] at hnames
  obtain ⟨hnames, -⟩ := List.append_inj' hnames rfl
  have hwalk := hl.walk_eq
  rw [← hnames, startOf_join hn] at hwalk
  exact ⟨around, hwalk⟩

theorem checkPath_join_ne_notFound (directory : String) :
    checkPath (Path.join directory name) ≠ .error .notFound := by
  have hempty : (Path.join directory name).isEmpty = false := by
    have hnames := Path.names_join hn directory
    by_cases h : Path.join directory name = ""
    · rw [h] at hnames
      exact absurd hnames (by simp [Path.names, Text.split, Text.splitChars])
    · simpa using h
  unfold checkPath
  rw [hempty]
  repeat' split
  all_goals simp_all

/-- What is found in a directory that a path reaches, unless the path is too long or the like. -/
theorem find_join_cases (h : disk.Reaches directory place) :
    disk.find (Path.join directory name) = .ok (disk.tree.get? (place ++ [name])) ∨
      ∃ cause, cause ≠ .notFound ∧ disk.find (Path.join directory name) = .error cause := by
  have hwalk : disk.tree.walk (disk.startOf (Path.join directory name))
      (Path.names (Path.join directory name)) =
      if Tree.nameLimit < name.utf8ByteSize then .error .nameTooLong
      else .ok (place ++ [name], disk.tree.get? (place ++ [name])) := by
    have hstep : Tree.step place name = place ++ [name] := by
      unfold Tree.step
      rw [if_neg hn.ne_dot, if_neg hn.ne_dots]
    rw [startOf_join hn, Path.names_join hn, Tree.walk_concat, h]
    dsimp only
    rw [hstep]
  have hplain := Path.saysDirectory_join hn directory
  have hchecked := checkPath_join_ne_notFound hn directory
  unfold find walk
  rw [hwalk, hplain]
  -- a path that is refused at once is refused for another cause than that something is missing
  cases hc : checkPath (Path.join directory name) with
  | error cause =>
      rw [hc] at hchecked
      exact .inr ⟨cause, fun hcause => hchecked (hcause ▸ rfl), rfl⟩
  | ok _ =>
      by_cases hlen : Tree.nameLimit < name.utf8ByteSize
      · rw [if_pos hlen]
        exact .inr ⟨.nameTooLong, by simp, rfl⟩
      · rw [if_neg hlen]
        left
        rcases disk.tree.get? (place ++ [name]) with _ | _ | _ <;> rfl

theorem read_join {content : String} (h : disk.Reaches directory place)
    (hg : disk.tree.get? (place ++ [name]) = some (.file content)) :
    disk.read (Path.join directory name) = .ok content ∨
      ∃ cause, cause ≠ .notFound ∧ disk.read (Path.join directory name) = .error cause := by
  unfold read
  rcases find_join_cases hn h with hf | ⟨cause, hc, hf⟩
  · rw [hf, hg]
    exact .inl rfl
  · rw [hf]
    exact .inr ⟨cause, hc, rfl⟩

theorem reaches_of_isThere (h : disk.isThere (Path.join directory name) = true) :
    ∃ around, disk.Reaches directory around ∧ (disk.tree.get? (around ++ [name])).isSome := by
  have hwalk : ∃ found, disk.tree.walk (disk.startOf (Path.join directory name))
      (Path.names (Path.join directory name)) = .ok found := by
    unfold isThere find walk at h
    cases hc : checkPath (Path.join directory name) with
    | error cause =>
        rw [hc] at h
        exact absurd h (by simp [bind, Except.bind, Except.map])
    | ok _ =>
        cases hw : disk.tree.walk (disk.startOf (Path.join directory name))
            (Path.names (Path.join directory name)) with
        | error cause =>
            rw [hc, hw] at h
            exact absurd h (by simp [bind, Except.bind, Except.map])
        | ok found => exact ⟨found, rfl⟩
  -- a walk that ends has been over the directory in front of the last name
  obtain ⟨⟨found, node⟩, hwalk⟩ := hwalk
  obtain ⟨around, hr⟩ := reaches_of_walk hn hwalk
  refine ⟨around, hr, ?_⟩
  unfold isThere at h
  rcases find_join_cases hn hr with hf | ⟨cause, -, hf⟩
  · rw [hf] at h
    cases hg : disk.tree.get? (around ++ [name]) with
    | none => simp [hg] at h
    | some node => rfl
  · simp [hf] at h

/-- What a path with a plain name behind it is in is there if its directory is. -/
theorem reaches_of_isOutside_join {outer : String} (h : disk.Reaches directory place)
    (ho : Path.IsOutside outer (Path.join directory name)) :
    ∃ around, disk.Reaches outer around := by
  obtain ⟨habs, hnames⟩ := ho
  rw [Path.isAbsolute_join hn] at habs
  rw [Path.names_join hn, List.dropLast_concat] at hnames
  exact h.of_isOutside habs hnames

/-- All directories around a path are there if its directory is. -/
theorem reaches_of_mem_ancestors_join {outer : String} (h : disk.Reaches directory place)
    (hm : outer ∈ (Path.ancestors (Path.join directory name)).tail) (hne : outer ≠ "") :
    ∃ around, disk.Reaches outer around :=
  reaches_of_isOutside_join hn h ((Path.isOutside_of_mem_ancestorsFrom hm).resolve_left hne)

theorem reaches_of_parent?_join {outer : String} (h : disk.Reaches directory place)
    (hp : Path.parent? (Path.join directory name) = some outer) :
    outer = "" ∨ ∃ around, disk.Reaches outer around :=
  (Path.isOutside_of_parent? hp).imp_right (reaches_of_isOutside_join hn h)

end

/-- All directories around one that is there are there. -/
theorem Reaches.of_mem_ancestors {outer : String} (h : disk.Reaches path place)
    (hm : outer ∈ Path.ancestors path) (hne : outer ≠ "") :
    ∃ around, disk.Reaches outer around := by
  rw [Path.ancestors, Path.ancestorsFrom_eq_cons] at hm
  rcases List.mem_cons.mp hm with rfl | hm
  · exact ⟨place, h⟩
  · obtain ⟨habs, hnames⟩ := (Path.isOutside_of_mem_ancestorsFrom hm).resolve_left hne
    exact h.of_isOutside habs (hnames.trans (List.dropLast_prefix _))

/-- The path of a directory that is there names its entry, unless it ends in dots. -/
theorem place?_of_reaches {outer : String} (h : disk.Reaches outer place)
    (hc : checkPath outer = .ok ()) :
    disk.place? outer = .ok none ∨ disk.place? outer = .ok (some place) := by
  unfold Reaches at h
  unfold place?
  dsimp only
  rw [hc]
  rcases List.eq_nil_or_concat (Path.names outer) with hnil | ⟨names, name, hsplit⟩
  · rw [hnil] at h ⊢
    rw [List.dropLast_nil, h]
    exact .inl rfl
  · rw [hsplit, List.concat_eq_append] at h ⊢
    rw [List.dropLast_concat, List.getLast?_concat]
    rw [Tree.walk_concat] at h
    split at h
    · exact absurd h (by simp)
    · exact absurd h (by simp)
    · exact absurd h (by simp)
    · rename_i directory hdirectory
      split at h
      · exact absurd h (by simp)
      · rename_i hlen
        have hplace : Tree.step directory name = place := (Prod.mk.inj (Except.ok.inj h)).1
        unfold Tree.step at hplace
        rw [hdirectory]
        -- a path that ends in dots leads to a directory, but names no entry
        by_cases hdot : name = "."
        · exact .inl (by simp [hdot, bind, Except.bind, pure, Except.pure])
        by_cases hdots : name = ".."
        · exact .inl (by simp [hdots, bind, Except.bind, pure, Except.pure])
        rw [if_neg hdot, if_neg hdots] at hplace
        exact .inr (by simp [hdot, hdots, hlen, hplace, bind, Except.bind, pure, Except.pure])

theorem find_of_reaches {outer : String} (h : disk.Reaches outer place)
    (hc : checkPath outer = .ok ()) : disk.find outer = .ok (some .directory) := by
  unfold find walk
  rw [hc, show disk.tree.walk _ _ = _ from h]
  rfl

/-- A directory that is there is not made again, whether its path can be used or not. -/
theorem createDirectories_of_reaches {outer : String} (h : disk.Reaches outer place)
    (hne : outer ≠ "") : disk.createDirectories outer = (checkPath outer, disk) := by
  have hempty : ¬ outer.isEmpty = true := by simpa using hne
  unfold createDirectories Path.ancestors
  rw [Path.ancestorsFrom_eq_cons]
  unfold createWithParents
  rw [if_neg hempty]
  unfold createDirectory isDirectory
  cases hc : checkPath outer with
  | error cause =>
      -- only what is missing would have the directories around it made first
      have hmissing : cause ≠ .notFound := by
        rintro rfl
        unfold checkPath at hc
        rw [if_neg hempty] at hc
        repeat' split at hc
        all_goals simp at hc
      have hplace : disk.place? outer = .error cause := by
        unfold place?
        rw [hc]
        rfl
      have hfind : disk.find outer = .error cause := by
        unfold find walk
        rw [hc]
        rfl
      rw [hplace, hfind]
      cases cause
      case notFound => exact absurd rfl hmissing
      all_goals rfl
  | ok _ =>
      rw [find_of_reaches h hc]
      rcases place?_of_reaches h hc with hplace | hplace
      · rw [hplace]
        rfl
      · rw [hplace]
        simp [h.get?_eq, bind, Except.bind, throw, throwThe, MonadExceptOf.throw]

/-! ## Paths that can be used -/

theorem checkPath_eq_ok_iff :
    checkPath path = .ok () ↔
      '\x00' ∉ path.toList ∧ path ≠ "" ∧ path.utf8ByteSize < Path.sizeLimit := by
  unfold checkPath
  split
  · simp_all
  · split
    · simp_all
    · split
      · simp_all
      · simp_all

theorem checkPath_of_place? (h : disk.place? path = .ok (some place)) :
    checkPath path = .ok () := by
  obtain ⟨_, _, _, hl, -⟩ := leadsTo_of_place? h
  exact hl.checked

theorem checkPath_of_isThere (h : disk.isThere path = true) : checkPath path = .ok () := by
  cases hc : checkPath path with
  | ok _ => rfl
  | error cause =>
      unfold isThere find walk at h
      rw [hc] at h
      exact absurd h (by simp [bind, Except.bind, Except.map])

theorem Path.join_ne_empty (hn : IsPlain name) (directory : String) :
    Path.join directory name ≠ "" := by
  intro hempty
  have hnames := Path.names_join hn directory
  rw [hempty] at hnames
  exact absurd hnames (by simp [Path.names, Text.split, Text.splitChars])

/-- What is in a directory has a longer path than the directory. -/
theorem checkPath_of_join (hn : IsPlain name) (hne : directory ≠ "")
    (h : checkPath (Path.join directory name) = .ok ()) : checkPath directory = .ok () := by
  obtain ⟨rest, hrest⟩ : ∃ rest, Path.join directory name = directory ++ rest := by
    rcases Path.join_cases hn directory with ⟨hempty, -⟩ | ⟨init, hinit, hj⟩ | ⟨-, hj⟩
    · exact absurd hempty hne
    · exact ⟨name, String.toList_inj.mp (by rw [hj, String.toList_append, hinit]; simp)⟩
    · exact ⟨"/" ++ name, String.toList_inj.mp (by rw [hj]; simp)⟩
  obtain ⟨hnul, -, hsize⟩ := checkPath_eq_ok_iff.mp h
  rw [hrest, String.toList_append, List.mem_append, not_or] at hnul
  rw [hrest, String.utf8ByteSize_append] at hsize
  exact checkPath_eq_ok_iff.mpr ⟨hnul.1, hne, by omega⟩

/-- A path that can be used names the entry of a directory that is there. -/
theorem place?_join_of_checkPath (hr : disk.Reaches directory place) (hn : IsPlain name)
    (hlen : name.utf8ByteSize ≤ Tree.nameLimit)
    (hc : checkPath (Path.join directory name) = .ok ()) :
    disk.place? (Path.join directory name) = .ok (some (place ++ [name])) := by
  refine LeadsTo.place?_eq ⟨hc, Path.names_join hn directory, ⟨hn.ne_dot, hn.ne_dots, hlen⟩, ?_⟩
  rw [startOf_join hn]
  exact hr

end StubGen.Disk
