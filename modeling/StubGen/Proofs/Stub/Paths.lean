import StubGen.Proofs.Package.Footprint
import StubGen.Proofs.Stub.Annotations

/-!
# The paths that stubs go by

The leaf of a stub is the name of its spec made into an identifier: `leaf_of_render`. It is one line
without white space, so that the module of the stub's types can be imported.
-/

namespace StubGen.Renderer

open PackageWriter (Importable)

variable {r : Renderer} {spec : Spec} {stub : Stub}

/-- White space is cut off a leaf in vain. -/
theorem trim_leafOf (name : String) : Text.trim (leafOf name) = leafOf name := by
  rw [Text.trim, TypeName.trimChars_identifier (identifierChars_leafOf name), String.ofList_toList]

theorem leaf_of_pathOf {root : Section} {context leaf : String} {path : NamespacePath}
    (h : pathOf root context leaf = .ok path) : path.root = root ∧ path.leaf = Text.trim leaf := by
  obtain ⟨rfl, -⟩ := PackageWriter.ofContext_eq_ok (Result.mapError_eq_ok_iff.mp h)
  exact ⟨rfl, rfl⟩

theorem leaf_of_render (h : r.render spec = .ok stub) : stub.path.leaf = leafOf spec.name := by
  obtain ⟨root, -, hpath⟩ := path_of_render h
  rw [(leaf_of_pathOf hpath).2, trim_leafOf]

/-- The segments of a path are cut out of its context and its leaf. -/
theorem subset_of_pathOf {root : Section} {context leaf : String} {path : NamespacePath}
    (h : pathOf root context leaf = .ok path) :
    ∀ segment ∈ path.segments, segment.toList ⊆ context.toList ++ leaf.toList := by
  have htrim : ∀ text : String, (Text.trim text).toList ⊆ text.toList := by
    intro text c hm
    rw [Text.trim, String.toList_ofList, Text.trimChars, Text.trimEndChars, List.mem_reverse] at hm
    have hm := List.mem_reverse.mp ((List.dropWhile_sublist _).subset hm)
    exact (List.dropWhile_sublist _).subset hm
  obtain ⟨rfl, -⟩ := PackageWriter.ofContext_eq_ok (Result.mapError_eq_ok_iff.mp h)
  intro segment hm
  rcases List.mem_append.mp hm with hm | hm
  · obtain ⟨piece, hpiece, rfl⟩ := List.mem_map.mp (List.mem_filter.mp hm).1
    obtain ⟨chars, hchars, rfl⟩ := List.mem_map.mp hpiece
    have hcut := htrim (String.ofList chars)
    rw [String.toList_ofList] at hcut
    exact fun c hc => List.mem_append_left _ (Text.subset_of_mem_splitChars hchars (hcut hc))
  · rw [List.mem_singleton.mp hm]
    exact fun c hc => List.mem_append_right _ (htrim leaf hc)

/-- A leaf is one line without white space at its end. -/
theorem importable_leafOf (name : String) : Importable (leafOf name) where
  nonempty := leafOf_ne_empty name
  oneLine hm := absurd (List.all_eq_true.mp (identifierChars_leafOf name) _ hm) (by decide)
  trimmed := by
    rw [← trim_leafOf name]
    exact PackageWriter.trimEnd_trim _

/-- **The module of a stub's types can be imported.** -/
theorem importable_typeModule (h : r.render spec = .ok stub) :
    Importable (Identifier.typeModule stub.path.leaf) := by
  rw [leaf_of_render h]
  exact (importable_leafOf spec.name).typeModule

/-- **All that stands in the path of a stub can be imported,** if its context is one line. -/
theorem importable_of_render (h : r.render spec = .ok stub) (hc : '\n' ∉ spec.context.toList) :
    ∀ segment ∈ stub.path.segments, Importable segment := by
  obtain ⟨root, -, hpath⟩ := path_of_render h
  intro segment hm
  obtain ⟨hsegment, htrimmed⟩ := PackageWriter.segments_of_ofContext
    (Result.mapError_eq_ok_iff.mp hpath) segment hm
  refine ⟨(PackageWriter.isPlain_of_isSegment hsegment).ne_empty, fun hline => ?_, htrimmed⟩
  rcases List.mem_append.mp (subset_of_pathOf hpath segment hm hline) with hline | hline
  · exact hc hline
  · exact (importable_leafOf spec.name).oneLine hline

end StubGen.Renderer
