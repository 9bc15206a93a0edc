import StubGen.Query
import StubGen.Proofs.Text.Segments

/-!
# The contexts that a query wants

A query goes by the characters of a context: it has to be a wanted one, or to go on behind one with
a dot. That comes to the same as going by its segments: `matchesContext_iff`. So no context is
wanted because its name begins like that of another one, and an empty context is one like any
other, with a single empty segment.
-/

namespace StubGen.Query

/-- A context is within another exactly if its segments begin with those of the other. -/
theorem isWithin_iff {context wanted : String} :
    isWithin context wanted = true ↔ Text.split '.' wanted <+: Text.split '.' context := by
  rw [Text.split_prefix_iff, isWithin, Bool.or_eq_true, beq_iff_eq]
  refine or_congr_right ?_
  constructor
  · intro h
    split at h
    · rename_i behind hbehind
      obtain ⟨rest, rfl⟩ := Text.startsWith_iff.mp h
      rw [Text.after?_eq_some_iff.mp hbehind]
      exact ⟨rest, by rw [String.append_assoc]; rfl⟩
    · exact absurd h (by simp)
  · rintro ⟨rest, rfl⟩
    rw [Text.after?_eq_some_iff.mpr (String.append_assoc ..)]
    exact Text.startsWith_iff.mpr ⟨rest, rfl⟩

/-- **A query goes by whole segments.** A context is wanted exactly if the query names no contexts,
or one whose segments are the first ones of the context. -/
theorem matchesContext_iff (query : Query) (context : String) :
    query.matchesContext context = true ↔
      query.contexts = [] ∨
        ∃ wanted ∈ query.contexts, Text.split '.' wanted <+: Text.split '.' context := by
  simp only [matchesContext, Bool.or_eq_true, List.isEmpty_iff, List.any_eq_true, isWithin_iff]

example : ({ everything with contexts := ["a."] } : Query).matchesContext "a..b" = true := by decide

example : ({ everything with contexts := ["a."] } : Query).matchesContext "a.b" = false := by decide

end StubGen.Query
