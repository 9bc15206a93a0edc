import StubGen.Template.Basic
import StubGen.Text.Blank

/-!
# Filled templates

A template is filled piece by piece: `fill_append`. So what its own text says is in what it is
filled to, whatever the values are.
-/

namespace StubGen.Template

variable {template : Template} {text : String}

theorem fill_append (values : List (String × String)) (template more : Template) :
    fill values (template ++ more) = fill values template ++ fill values more := by
  unfold fill
  rw [List.map_append, String.join_append]

/-- A template is filled piece by piece, so it may be cut anywhere. -/
theorem fill_cut (values : List (String × String)) (template : Template) (n : Nat) :
    fill values template = fill values (template.take n) ++ fill values (template.drop n) := by
  rw [← fill_append, List.take_append_drop]

/-- A template with a text of its own is never blank. -/
theorem isBlankText_fill (hm : Piece.text text ∈ template) (h : Text.isBlankText text = false)
    (values : List (String × String)) : Text.isBlankText (fill values template) = false := by
  obtain ⟨before, behind, rfl⟩ := List.append_of_mem hm
  have htext : fill values [.text text] = text := by simp [fill]
  unfold Text.isBlankText at *
  rw [← List.singleton_append, fill_append, fill_append, htext, String.toList_append,
    String.toList_append, List.all_append, List.all_append, h]
  simp

end StubGen.Template
