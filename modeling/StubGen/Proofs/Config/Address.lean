import Mathlib.Data.List.DropRight
import StubGen.Config.Address
import StubGen.Proofs.Text.Segments

/-!
# Addresses without slashes at their end

An accepted address is still accepted without the slashes at its end: `isAccepted_trimSlashes`. The
patterns of local hosts and hosted tenants allow for one slash, behind which none is left to take
away. That of other hosts allows for any number of them, but not right behind `https://`, where a
character of the host stands in the way.
-/

namespace StubGen.Address

variable {address : String} {cs : List Char} {c : Char}

theorem toList_trimSlashes (address : String) :
    (trimSlashes address).toList = address.toList.rdropWhile (· = '/') := by
  rw [trimSlashes, String.toList_ofList]
  rfl

theorem trimSlashes_trimSlashes (address : String) :
    trimSlashes (trimSlashes address) = trimSlashes address := by
  apply String.toList_injective
  simp only [toList_trimSlashes, List.rdropWhile_idempotent]

/-! ## One slash -/

theorem rdropWhile_eq_self (h : cs.getLast? ≠ some '/') : cs.rdropWhile (· = '/') = cs := by
  rw [List.rdropWhile_eq_self_iff]
  intro hne hlast
  exact h (by rw [List.getLast?_eq_some_getLast hne, of_decide_eq_true hlast])

/-- Where one slash at most stands at the end, dropping it is all there is to trim. -/
theorem rdropWhile_eq_dropSlash (h : (dropSlash cs).getLast? ≠ some '/') :
    cs.rdropWhile (· = '/') = dropSlash cs := by
  unfold dropSlash at h ⊢
  split
  · rename_i hlast
    obtain ⟨front, rfl⟩ := List.getLast?_eq_some_iff.mp hlast
    rw [if_pos hlast] at h
    rw [List.rdropWhile_concat_pos _ _ _ (by simp), List.dropLast_concat]
    rw [List.dropLast_concat] at h
    exact rdropWhile_eq_self h
  · rename_i hlast
    exact rdropWhile_eq_self hlast

theorem dropSlash_trimSlashes (h : (dropSlash address.toList).getLast? ≠ some '/') :
    dropSlash (trimSlashes address).toList = dropSlash address.toList := by
  rw [toList_trimSlashes, rdropWhile_eq_dropSlash h]
  exact if_neg h

/-- The address of a tenant ends in its domain. -/
theorem isTenant_trimSlashes (h : isTenant address = true) :
    isTenant (trimSlashes address) = true := by
  obtain ⟨region, hregion, heq⟩ := List.any_eq_true.mp h
  -- no address of a tenant has a second slash at its end that would be left
  have hlast : ∀ region ∈ regions,
      ("https://" ++ region ++ ".polyapi.io").toList.getLast? ≠ some '/' := by decide
  have hone := hlast region hregion
  rw [← of_decide_eq_true heq] at hone
  unfold isTenant
  rw [dropSlash_trimSlashes hone]
  exact h

/-- An endpoint ends in a digit, if there is one. -/
theorem ne_slash_of_isEndpoint (h : isEndpoint cs = true) : cs.getLast? ≠ some '/' := by
  cases cs with
  | nil => exact fun hlast => absurd hlast (by simp)
  | cons c digits =>
      simp only [isEndpoint, Bool.and_eq_true, Bool.not_eq_true', decide_eq_true_eq,
        List.isEmpty_eq_false_iff, List.all_eq_true] at h
      obtain ⟨⟨-, hne⟩, hdigits⟩ := h
      rw [List.getLast?_cons_of_ne_nil hne]
      intro hlast
      exact absurd (hdigits '/' (List.mem_of_getLast? hlast)) (by decide)

/-- The address of a local host ends in the name of the host or in a digit. -/
theorem isLocal_trimSlashes (h : isLocal address = true) :
    isLocal (trimSlashes address) = true := by
  have hone : (dropSlash address.toList).getLast? ≠ some '/' := by
    obtain ⟨start, hstart, hrest⟩ := List.any_eq_true.mp h
    split at hrest
    · rename_i rest heq
      rw [Text.afterChars?_eq_some_iff.mp heq, List.getLast?_append]
      have hlast : ∀ start ∈ ["http://localhost", "https://localhost", "http://127.0.0.1",
          "https://127.0.0.1"], start.toList.getLast? ≠ some '/' := by decide
      cases hend : rest.getLast? with
      | none => exact hlast start hstart
      | some c =>
          have hdigit := ne_slash_of_isEndpoint hrest
          rwa [hend] at hdigit
    · exact Bool.noConfusion hrest
  unfold isLocal
  rw [dropSlash_trimSlashes hone]
  exact h

/-! ## Any number of slashes -/

/-- What is in front of the last character that is no slash stays. -/
theorem rdropWhile_append_cons (hc : c ≠ '/') (front : List Char) (cs : List Char) :
    (front ++ c :: cs).rdropWhile (· = '/') = front ++ c :: cs.rdropWhile (· = '/') := by
  simp only [List.rdropWhile, List.reverse_append, List.reverse_cons, List.append_assoc,
    List.singleton_append, List.dropWhile_append]
  split
  · rename_i hnil
    rw [List.isEmpty_iff.mp hnil]
    simp [hc]
  · simp

/-- The address of any host keeps a character of the host. -/
theorem isSecure_trimSlashes (h : isSecure address = true) :
    isSecure (trimSlashes address) = true := by
  unfold isSecure at h
  split at h
  · exact Bool.noConfusion h
  · rename_i rest heq
    simp only [Bool.and_eq_true, Bool.not_eq_true', List.isEmpty_eq_false_iff,
      List.all_eq_true] at h
    obtain ⟨hhost, hblank⟩ := h
    -- the first character of the host keeps the slashes in front of it from being trimmed
    obtain ⟨c, more, rfl, hc⟩ : ∃ c more, rest = c :: more ∧ c ≠ '/' := by
      cases rest with
      | nil => exact absurd rfl hhost
      | cons c more =>
          refine ⟨c, more, rfl, ?_⟩
          rintro rfl
          exact hhost rfl
    have htrim : (trimSlashes address).toList =
        "https://".toList ++ c :: more.rdropWhile (· = '/') := by
      rw [toList_trimSlashes, Text.afterChars?_eq_some_iff.mp heq, rdropWhile_append_cons hc]
    have hsubset := (List.rdropWhile_prefix (· = '/') more).subset
    have hkept : ∀ d ∈ c :: more.rdropWhile (· = '/'), Text.isBlank d = false := fun d hd =>
      hblank d (List.cons_subset_cons c hsubset hd)
    rw [isSecure, Text.afterChars?_eq_some_iff.mpr htrim]
    simpa [hc] using hkept

/-- **An accepted address is accepted without the slashes at its end.** -/
theorem isAccepted_trimSlashes {allowsCustomHosts : Bool}
    (h : isAccepted allowsCustomHosts address = true) :
    isAccepted allowsCustomHosts (trimSlashes address) = true := by
  simp only [isAccepted, Bool.or_eq_true, Bool.and_eq_true] at h ⊢
  rcases h with (hlocal | htenant) | ⟨hallowed, hsecure⟩
  · exact .inl (.inl (isLocal_trimSlashes hlocal))
  · exact .inl (.inr (isTenant_trimSlashes htenant))
  · exact .inr ⟨hallowed, isSecure_trimSlashes hsecure⟩

end StubGen.Address
