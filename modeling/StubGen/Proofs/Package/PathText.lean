import StubGen.Proofs.Package.Boundary
import StubGen.Proofs.Text.Segments

/-!
# Paths in text

A path is written with dots between its segments and read by cutting at dots. Reading takes a
segment apart if a dot is in it. The namespaces of a path never have one, since contexts are cut at
dots as well; but a leaf made of a name is taken as it stands. So a path comes back exactly if
there is no dot in its leaf, while what is read from a text is always written as that text:
`parse_render_iff`.
-/

namespace StubGen

namespace Section

theorem ofDirectory?_eq_some_iff {name : String} {root : Section} :
    ofDirectory? name = some root ↔ name = root.directory := by
  constructor
  · intro h
    have hfound := List.find?_some h
    exact (beq_iff_eq.mp hfound).symm
  · rintro rfl
    cases root <;> decide

theorem directory_dotless (root : Section) : '.' ∉ root.directory.toList := by
  cases root <;> decide

end Section

namespace NamespacePath

variable {root : Section} {segments : List String} {path : NamespacePath} {dotted : String}

/-! ## Reading -/

/-- Segments make a path, the last one its leaf, exactly if each of them can name a directory. -/
theorem ofSegments_eq_ok_iff :
    ofSegments root segments = .ok path ↔
      path.root = root ∧ path.segments = segments ∧
        ∀ segment ∈ segments, isSegment segment = true := by
  constructor
  · intro h
    have hall := isSegment_of_ofSegments h
    unfold ofSegments at h
    split at h
    · exact absurd h (by simp)
    rename_i leaf hlast
    split at h
    · exact absurd h (by simp)
    split at h
    · exact absurd h (by simp)
    obtain ⟨front, rfl⟩ := List.getLast?_eq_some_iff.mp hlast
    obtain rfl := Except.ok.inj h
    have hsegments : (⟨root, (front ++ [leaf]).dropLast, leaf⟩ : NamespacePath).segments =
        front ++ [leaf] := by rw [NamespacePath.segments, List.dropLast_concat]
    exact ⟨rfl, hsegments, hsegments ▸ hall⟩
  · obtain ⟨root', namespaces, leaf⟩ := path
    rintro ⟨rfl, rfl, hall⟩
    -- an empty leaf would be no segment
    have hleaf : leaf ≠ "" := by
      rintro rfl
      exact absurd (hall "" (by simp [NamespacePath.segments])) (by decide)
    have hnone : (namespaces ++ [leaf]).find? (fun segment => !isSegment segment) = none :=
      List.find?_eq_none.mpr fun segment hm => by simp [hall segment hm]
    simp [ofSegments, NamespacePath.segments, hleaf, hnone]

theorem parse_of_split (h : Text.split '.' dotted = root.directory :: segments) :
    parse dotted = ofSegments root segments := by
  simp only [parse, h, Section.ofDirectory?_eq_some_iff.mpr rfl]

/-- A text is read as the path that its pieces spell, if they can name directories. -/
theorem parse_eq_ok_iff :
    parse dotted = .ok path ↔
      Text.split '.' dotted = path.root.directory :: path.segments ∧
        ∀ segment ∈ path.segments, isSegment segment = true := by
  constructor
  · intro h
    unfold parse at h
    split at h
    · exact absurd h (by simp)
    rename_i head rest hsplit
    split at h
    · exact absurd h (by simp)
    rename_i root hroot
    obtain ⟨rfl, rfl, hall⟩ := ofSegments_eq_ok_iff.mp h
    exact ⟨by rw [hsplit, Section.ofDirectory?_eq_some_iff.mp hroot], hall⟩
  · rintro ⟨hsplit, hall⟩
    rw [parse_of_split hsplit]
    exact ofSegments_eq_ok_iff.mpr ⟨rfl, rfl, hall⟩

/-! ## Writing -/

/-- What is written is cut where a dot stands between segments, and in them. -/
theorem split_render (path : NamespacePath) :
    Text.split '.' path.render = path.root.directory :: path.segments.flatMap (Text.split '.') := by
  have hflat : Text.split '.' path.render =
      (path.root.directory :: path.segments).flatMap (Text.split '.') :=
    Text.split_join_eq_flatMap (List.cons_ne_nil path.root.directory path.segments)
  rw [hflat, List.flatMap_cons, Text.split_of_not_mem path.root.directory_dotless]
  rfl

/-! ## Dots -/

/-- What is made of a context is cut at dots. -/
theorem dotless_namespacesOf (context : String) :
    ∀ segment ∈ PackageWriter.namespacesOf context, '.' ∉ segment.toList := by
  intro segment hm hdot
  obtain ⟨piece, hpiece, rfl⟩ := List.mem_map.mp (List.mem_filter.mp hm).1
  rw [Text.trim, String.toList_ofList] at hdot
  exact Text.not_mem_of_mem_split hpiece (Text.trimChars_subset _ hdot)

/-- There is no dot in a namespace of a path, whichever way it has been made. -/
theorem IsMade.dotless (h : path.IsMade) : ∀ segment ∈ path.namespaces, '.' ∉ segment.toList := by
  rcases h with ⟨root, context, name, h⟩ | ⟨dotted, h⟩
  · obtain ⟨rfl, -⟩ := PackageWriter.ofContext_eq_ok h
    exact dotless_namespacesOf context
  · intro segment hm
    refine Text.not_mem_of_mem_split (s := dotted) ?_
    rw [(parse_eq_ok_iff.mp h).1]
    exact List.mem_cons_of_mem _ (List.mem_append_left _ hm)

theorem dotless_leaf_of_parse (h : parse dotted = .ok path) : '.' ∉ path.leaf.toList := by
  refine Text.not_mem_of_mem_split (s := dotted) ?_
  rw [(parse_eq_ok_iff.mp h).1]
  exact List.mem_cons_of_mem _ (List.mem_append_right _ List.mem_cons_self)

theorem IsMade.isSegment (h : path.IsMade) :
    ∀ segment ∈ path.segments, isSegment segment = true := by
  rcases h with ⟨root, context, name, h⟩ | ⟨dotted, h⟩
  · exact (PackageWriter.ofContext_eq_ok h).2
  · exact (parse_eq_ok_iff.mp h).2

/-- Reading what a path is written as takes its leaf apart at dots and nothing else. -/
theorem IsMade.parse_render (h : path.IsMade) :
    parse path.render =
      ofSegments path.root (path.namespaces ++ Text.split '.' path.leaf) := by
  refine parse_of_split ?_
  rw [split_render, segments, List.flatMap_append, Text.flatMap_split h.dotless,
    List.flatMap_singleton]

theorem IsMade.parse_render_eq_ok_iff (h : path.IsMade) :
    parse path.render = .ok path ↔ '.' ∉ path.leaf.toList := by
  refine ⟨dotless_leaf_of_parse, fun hleaf => ?_⟩
  rw [h.parse_render, Text.split_of_not_mem hleaf]
  exact ofSegments_eq_ok_iff.mpr ⟨rfl, rfl, h.isSegment⟩

/-- **A path comes back exactly if there is no dot in its leaf.** Reading what a path is written as
gives its section, its namespaces and the pieces of its leaf; so it gives the path itself if the
leaf is one piece, and two such paths are never written alike. A path that has been read from a
text is such a path, and is written as that text. -/
theorem parse_render_iff (h : path.IsMade) :
    parse path.render = ofSegments path.root (path.namespaces ++ Text.split '.' path.leaf) ∧
      (parse path.render = .ok path ↔ '.' ∉ path.leaf.toList) ∧
      (∀ other : NamespacePath, other.IsMade → '.' ∉ path.leaf.toList → '.' ∉ other.leaf.toList →
        path.render = other.render → path = other) ∧
      ∀ dotted, parse dotted = .ok path → path.render = dotted ∧ '.' ∉ path.leaf.toList := by
  refine ⟨h.parse_render, h.parse_render_eq_ok_iff, fun other hother hdot hdot' heq => ?_,
    fun dotted hparse => ⟨?_, dotless_leaf_of_parse hparse⟩⟩
  · have hread := h.parse_render_eq_ok_iff.mpr hdot
    have hread' := hother.parse_render_eq_ok_iff.mpr hdot'
    rw [heq] at hread
    exact Except.ok.inj (hread.symm.trans hread')
  · exact (Text.split_eq_iff.mp (parse_eq_ok_iff.mp hparse).1).2.2

/-- White space around segments and empty segments of a context are not part of a path, so that they
do not have to come back. -/
theorem parse_render_iff_spaced : ∃ path,
    ofContext .functions " billing .. für alle." " create\u00a0" = .ok path ∧
      parse "poly.billing.für alle.create" = .ok path ∧
      path.render = "poly.billing.für alle.create" ∧ parse path.render = .ok path := by
  have hmade : ofContext .functions " billing .. für alle." " create\u00a0" =
      .ok ⟨.functions, ["billing", "für alle"], "create"⟩ :=
    Result.eq_ok_of_toOption (by decide +kernel)
  have hread : parse "poly.billing.für alle.create" =
      .ok ⟨.functions, ["billing", "für alle"], "create"⟩ :=
    Result.eq_ok_of_toOption (by decide +kernel)
  obtain ⟨-, hback, hsame, hwritten⟩ := parse_render_iff (.inl ⟨_, _, _, hmade⟩)
  have hdot : '.' ∉ "create".toList := by decide
  have heq := hsame _ (.inr ⟨_, hread⟩) hdot hdot rfl
  exact ⟨_, hmade, heq ▸ hread, (hwritten _ hread).1, hback.mpr hdot⟩

/-- **A dot in a name does not come back.** The name is read as a context and another name, whose
path is written alike. -/
theorem render_merges_dotted_name : ∃ path other,
    ofContext .functions "" "a.b" = .ok path ∧ ofContext .functions "a" "b" = .ok other ∧
      path ≠ other ∧ path.render = other.render ∧ parse path.render = .ok other :=
  ⟨⟨.functions, [], "a.b"⟩, ⟨.functions, ["a"], "b"⟩,
    Result.eq_ok_of_toOption (by decide +kernel), Result.eq_ok_of_toOption (by decide +kernel),
    by decide, by decide, Result.eq_ok_of_toOption (by decide +kernel)⟩

end NamespacePath

end StubGen
