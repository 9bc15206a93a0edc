import StubGen.Proofs.Text.Lines

/-!
# Segments

The pieces of a text between separators are its segments. Cutting and joining undo each other: a
list of segments is that of a text exactly if none of them holds a separator and they make up the
text (`split_eq_iff`). The segments of one text are the first ones of another exactly if the other
text is the same or goes on behind it with a separator (`split_prefix_iff`).
-/

namespace StubGen.Text

variable {sep : Char} {s t : String}

/-! ## Characters -/

theorem joinChars_cons (sep : Char) (piece : List Char) {pieces : List (List Char)}
    (hne : pieces ≠ []) :
    joinChars [sep] (piece :: pieces) = piece ++ sep :: joinChars [sep] pieces := by
  obtain ⟨next, pieces, rfl⟩ := List.exists_cons_of_ne_nil hne
  simp [joinChars]

theorem joinChars_append (sep : Char) {front back : List (List Char)} (hfront : front ≠ [])
    (hback : back ≠ []) :
    joinChars [sep] (front ++ back) = joinChars [sep] front ++ sep :: joinChars [sep] back := by
  induction front with
  | nil => exact absurd rfl hfront
  | cons piece front ih =>
      by_cases hnil : front = []
      · rw [hnil, List.singleton_append, joinChars_cons sep piece hback, joinChars]
      · rw [List.cons_append, joinChars_cons sep piece (by simp [hnil]), ih hnil,
          joinChars_cons sep piece hnil, List.append_assoc, List.cons_append]

theorem splitChars_prefix_iff {ws cs : List Char} :
    splitChars sep ws <+: splitChars sep cs ↔ cs = ws ∨ ∃ rest, cs = ws ++ sep :: rest := by
  constructor
  · rintro ⟨more, hmore⟩
    have hcs := joinChars_splitChars sep cs
    rw [← hmore] at hcs
    by_cases hnil : more = []
    · rw [hnil, List.append_nil, joinChars_splitChars] at hcs
      exact .inl hcs.symm
    · rw [joinChars_append sep (splitChars_ne_nil sep ws) hnil, joinChars_splitChars] at hcs
      exact .inr ⟨_, hcs.symm⟩
  · rintro (rfl | ⟨rest, rfl⟩)
    · exact List.prefix_rfl
    · rw [splitChars_append_sep]
      exact List.prefix_append _ _

/-! ## Texts -/

theorem split_ne_nil (sep : Char) (s : String) : split sep s ≠ [] := by
  simpa [split] using splitChars_ne_nil sep s.toList

theorem not_mem_of_mem_split {piece : String} (h : piece ∈ split sep s) : sep ∉ piece.toList := by
  obtain ⟨chars, hm, rfl⟩ := List.mem_map.mp h
  rw [String.toList_ofList]
  exact not_mem_of_mem_splitChars hm

theorem map_toList_split (sep : Char) (s : String) :
    (split sep s).map String.toList = splitChars sep s.toList := by
  rw [split, List.map_map]
  exact List.map_id'' (fun _ => String.toList_ofList) _

/-- The segments of a text make up the text. -/
theorem join_segments (sep : Char) (s : String) :
    join (String.singleton sep) (split sep s) = s := by
  rw [join, map_toList_split, String.toList_singleton, joinChars_splitChars, String.ofList_toList]

/-- Texts set side by side with separators are cut into the segments of each of them. -/
theorem split_join_eq_flatMap {pieces : List String} (hne : pieces ≠ []) :
    split sep (join (String.singleton sep) pieces) = pieces.flatMap (split sep) := by
  have hchars : pieces.map String.toList ≠ [] := by simpa using hne
  rw [split, join, String.toList_ofList, String.toList_singleton,
    splitChars_joinChars_eq_flatMap hchars, List.flatMap_map, List.map_flatMap]
  rfl

theorem split_of_not_mem (h : sep ∉ s.toList) : split sep s = [s] := by
  rw [split, splitChars_of_not_mem h, List.map_singleton, String.ofList_toList]

theorem flatMap_split {pieces : List String} (h : ∀ piece ∈ pieces, sep ∉ piece.toList) :
    pieces.flatMap (split sep) = pieces := by
  have hcut : ∀ piece ∈ pieces, split sep piece = [piece] := fun piece hm =>
    split_of_not_mem (h piece hm)
  rw [List.flatMap_def, List.map_congr_left hcut, ← List.flatMap_def, List.flatMap_singleton']

/-- Segments without a separator are those of the text that they make up. -/
theorem split_join {pieces : List String} (hne : pieces ≠ [])
    (h : ∀ piece ∈ pieces, sep ∉ piece.toList) :
    split sep (join (String.singleton sep) pieces) = pieces := by
  rw [split_join_eq_flatMap hne, flatMap_split h]

/-- The segments of a text are the only ones without a separator that make it up. -/
theorem split_eq_iff {pieces : List String} :
    split sep s = pieces ↔
      pieces ≠ [] ∧ (∀ piece ∈ pieces, sep ∉ piece.toList) ∧
        join (String.singleton sep) pieces = s := by
  constructor
  · rintro rfl
    exact ⟨split_ne_nil sep s, fun _ => not_mem_of_mem_split, join_segments sep s⟩
  · rintro ⟨hne, hfree, rfl⟩
    exact split_join hne hfree

theorem join_singleton (sep piece : String) : join sep [piece] = piece := by
  simp [join, joinChars]

theorem join_append (sep : Char) {front back : List String} (hfront : front ≠ [])
    (hback : back ≠ []) :
    join (String.singleton sep) (front ++ back) =
      join (String.singleton sep) front ++ String.singleton sep ++
        join (String.singleton sep) back := by
  have hfront' : front.map String.toList ≠ [] := by simpa using hfront
  have hback' : back.map String.toList ≠ [] := by simpa using hback
  have hchars := joinChars_append sep hfront' hback'
  apply String.toList_injective
  simp [join, hchars]

theorem split_append_sep (s t : String) :
    split sep (s ++ String.singleton sep ++ t) = split sep s ++ split sep t := by
  have hchars : (s ++ String.singleton sep ++ t).toList = s.toList ++ sep :: t.toList := by simp
  rw [split, hchars, splitChars_append_sep, List.map_append]
  rfl

/-- What is set behind a text without a separator belongs to its last segment. -/
theorem split_append_of_not_mem (s : String) (h : sep ∉ t.toList) :
    ∃ front last, split sep s = front ++ [last] ∧ split sep (s ++ t) = front ++ [last ++ t] := by
  obtain ⟨front, last, first, rest, hs, ht, happend⟩ := splitChars_append sep s.toList t.toList
  rw [splitChars_of_not_mem h] at ht
  obtain ⟨rfl, rfl⟩ := List.cons.inj ht
  refine ⟨front.map String.ofList, String.ofList last, ?_, ?_⟩
  · rw [split, hs, List.map_append, List.map_singleton]
  · rw [split, String.toList_append, happend, List.map_append, List.map_singleton,
      String.ofList_append, String.ofList_toList]

theorem join_concat_append (between : String) (front : List String) (last tail : String) :
    join between (front ++ [last ++ tail]) = join between (front ++ [last]) ++ tail := by
  induction front with
  | nil => rw [List.nil_append, List.nil_append, join_singleton, join_singleton]
  | cons piece front ih =>
      cases front with
      | nil =>
          simp only [List.cons_append, List.nil_append, join_cons_cons, join_singleton,
            String.append_assoc]
      | cons next front =>
          rw [List.cons_append, List.cons_append, join_cons_cons, ← List.cons_append, ih,
            List.cons_append, List.cons_append, List.cons_append, join_cons_cons,
            String.append_assoc, String.append_assoc, String.append_assoc]

/-- Segments that are indented from the second one on, behind a lead. -/
theorem split_join_indented {pieces : List String} {piece lead indent : String}
    (h : ∀ other ∈ piece :: pieces, sep ∉ other.toList) (hlead : sep ∉ lead.toList)
    (hindent : sep ∉ indent.toList) :
    split sep (lead ++ join (String.singleton sep ++ indent) (piece :: pieces)) =
      (lead ++ piece) :: pieces.map (indent ++ ·) := by
  induction pieces generalizing lead piece with
  | nil =>
      have hfirst : sep ∉ (lead ++ piece).toList := by simpa using ⟨hlead, h piece (by simp)⟩
      rw [join_singleton, split_of_not_mem hfirst, List.map_nil]
  | cons next pieces ih =>
      have hfirst : sep ∉ (lead ++ piece).toList := by simpa using ⟨hlead, h piece (by simp)⟩
      have hrest := @ih next indent (fun other hm => h other (List.mem_cons_of_mem _ hm)) hindent
      have hcut : lead ++ join (String.singleton sep ++ indent) (piece :: next :: pieces) =
          (lead ++ piece) ++ String.singleton sep ++
            (indent ++ join (String.singleton sep ++ indent) (next :: pieces)) := by
        simp only [join_cons_cons, String.append_assoc]
      rw [hcut, split_append_sep, split_of_not_mem hfirst, hrest, List.map_cons]
      rfl

/-- The segments of a text are the first ones of another exactly if that is the same text or goes
on with a separator behind it. -/
theorem split_prefix_iff :
    split sep s <+: split sep t ↔ t = s ∨ ∃ rest, t = s ++ String.singleton sep ++ rest := by
  constructor
  · intro h
    have hchars := h.map String.toList
    rw [map_toList_split, map_toList_split, splitChars_prefix_iff] at hchars
    rcases hchars with heq | ⟨rest, heq⟩
    · exact .inl (String.toList_injective heq)
    · exact .inr ⟨String.ofList rest, String.toList_injective (by simp [heq])⟩
  · rintro (rfl | ⟨rest, rfl⟩)
    · exact List.prefix_rfl
    · rw [split_append_sep]
      exact List.prefix_append _ _

/-- What follows a lead in a text. -/
theorem after?_eq_some_iff {lead rest : String} : after? lead s = some rest ↔ s = lead ++ rest := by
  rw [after?, Option.map_eq_some_iff]
  constructor
  · rintro ⟨chars, hchars, rfl⟩
    exact String.toList_injective (by simp [afterChars?_eq_some_iff.mp hchars])
  · rintro rfl
    exact ⟨rest.toList, afterChars?_eq_some_iff.mpr String.toList_append, String.ofList_toList⟩

theorem startsWith_iff {lead : String} : startsWith lead s = true ↔ ∃ rest, s = lead ++ rest := by
  simp only [startsWith, Option.isSome_iff_exists, after?_eq_some_iff]

end StubGen.Text
