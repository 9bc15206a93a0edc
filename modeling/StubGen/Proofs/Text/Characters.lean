import StubGen.Identifier
import StubGen.Text.Word

/-!
# Classes of characters

White space has no part in words or identifiers, which is decided for the white space
characters one by one. What is raised to upper case is never a line end, and a letter is raised to
a letter. Sanitizing leaves identifier characters only.
-/

namespace StubGen

namespace Text

/-- The code points of white space. -/
def blankCodes : List Nat :=
  [9, 10, 11, 12, 13, 0x20, 0x85, 0xa0, 0x1680, 0x2000, 0x2001, 0x2002, 0x2003, 0x2004, 0x2005,
   0x2006, 0x2007, 0x2008, 0x2009, 0x200a, 0x2028, 0x2029, 0x202f, 0x205f, 0x3000]

theorem mem_blankCodes {c : Char} (h : isBlank c = true) : c.toNat ∈ blankCodes := by
  unfold isBlank at h
  simp only [blankCodes, List.mem_cons, List.not_mem_nil, or_false]
  split at h
  · simp only [Bool.or_eq_true, Bool.and_eq_true, decide_eq_true_eq, beq_iff_eq] at h
    rcases h with rfl | h
    · decide
    · omega
  · simp only [inRanges, blankRanges, List.any_cons, List.any_nil, Bool.or_eq_true,
      Bool.and_eq_true, decide_eq_true_eq, Bool.false_eq_true, or_false] at h
    omega

/-- What does not hold of any white space character, one by one. -/
theorem eq_false_of_isBlank {p : Char → Bool}
    (hall : (blankCodes.all fun n => !p (Char.ofNat n)) = true) {c : Char}
    (h : isBlank c = true) : p c = false := by
  have hc := List.all_eq_true.mp hall c.toNat (mem_blankCodes h)
  rw [Char.ofNat_toNat] at hc
  simpa using hc

/-- What holds of each ASCII character, one by one. -/
theorem ascii_forall {p : Char → Bool} (h : ((List.range 128).all fun n => p (Char.ofNat n)) = true)
    {c : Char} (hc : c.toNat < 128) : p c = true := by
  have hp := List.all_eq_true.mp h c.toNat (List.mem_range.mpr hc)
  rwa [Char.ofNat_toNat] at hp

/-- White space is no part of a word. -/
theorem isWord_of_isBlank {c : Char} (h : isBlank c = true) : isWord c = false :=
  eq_false_of_isBlank (by decide +kernel) h

/-- White space is no part of an identifier. -/
theorem isIdentifierChar_of_isBlank {c : Char} (h : isBlank c = true) :
    Identifier.isIdentifierChar c = false :=
  eq_false_of_isBlank (by decide +kernel) h

theorem isBlank_of_isIdentifierChar {c : Char} (h : Identifier.isIdentifierChar c = true) :
    isBlank c = false :=
  Bool.eq_false_iff.mpr fun hblank =>
    Bool.noConfusion ((isIdentifierChar_of_isBlank hblank).symm.trans h)

/-! ## Upper case -/

theorem ofNat_ne_newline {n : Nat} (h : n ≠ 10) : Char.ofNat n ≠ '\n' := by
  intro heq
  by_cases hvalid : n.isValidChar
  · rw [Char.ofNat, dif_pos hvalid] at heq
    exact h (congrArg Char.toNat heq)
  · rw [Char.ofNat, dif_neg hvalid] at heq
    exact absurd heq (by decide)

theorem toUpper_ne_newline {c : Char} (h : c ≠ '\n') : c.toUpper ≠ '\n' := by
  unfold Char.toUpper
  split
  · rename_i hlower
    intro heq
    have hval := congrArg (fun d : Char => d.val) heq
    simp only [UInt32.le_iff_toNat_le, ← UInt32.toNat_inj] at hlower hval
    simp at hlower hval
    omega
  · exact h

/-- What a character is raised to stands in the tables, or else it is the character itself. -/
theorem toUpper_cases (c : Char) :
    (c.toNat < 128 ∧ toUpper c = [c.toUpper]) ∨ (128 ≤ c.toNat ∧ toUpper c = [c]) ∨
      (∃ entry ∈ upperExpansions, toUpper c = entry.2.map Char.ofNat) ∨
      ∃ run ∈ upperRuns, ∃ k < run.last + 1 - run.first, k % run.step = 0 ∧
        toUpper c = [Char.ofNat (((run.first + k : Nat) : Int) + run.offset).toNat] := by
  unfold toUpper
  split
  -- first ASCII, then the characters that come to several, then the runs with one offset
  · exact .inl ⟨‹_›, rfl⟩
  · rename_i hlarge
    unfold mapCase
    split
    · rename_i image hlookup
      obtain ⟨before, behind, hmem, -⟩ := List.lookup_eq_some_iff.mp hlookup
      exact .inr (.inr (.inl ⟨(c.toNat, image), by simp [hmem], rfl⟩))
    · split
      · rename_i run hfind
        have hrange := List.find?_some hfind
        simp only [Bool.and_eq_true, decide_eq_true_eq, beq_iff_eq] at hrange
        -- the run is entered at the distance of the character from its first
        have hcode : run.first + (c.toNat - run.first) = c.toNat := by omega
        refine .inr (.inr (.inr ⟨run, List.mem_of_find?_eq_some hfind, c.toNat - run.first,
          by omega, hrange.2, ?_⟩))
        rw [hcode]
      · exact .inr (.inl ⟨by omega, rfl⟩)

/-- Every character is raised to something. -/
theorem toUpper_ne_nil (c : Char) : toUpper c ≠ [] := by
  rcases toUpper_cases c with ⟨-, h⟩ | ⟨-, h⟩ | ⟨entry, hentry, h⟩ | ⟨run, -, k, -, -, h⟩
  · rw [h]
    exact List.cons_ne_nil _ _
  · rw [h]
    exact List.cons_ne_nil _ _
  · have hall : (upperExpansions.all fun entry => !entry.2.isEmpty) = true := by decide
    have himage := List.all_eq_true.mp hall entry hentry
    rw [h]
    simpa using himage
  · rw [h]
    exact List.cons_ne_nil _ _

theorem mem_toUpper {c d : Char} (h : d ∈ toUpper c) :
    (c.toNat < 128 ∧ d = c.toUpper) ∨ (128 ≤ c.toNat ∧ d = c) ∨
      (∃ entry ∈ upperExpansions, ∃ n ∈ entry.2, d = Char.ofNat n) ∨
      ∃ run ∈ upperRuns, ∃ k < run.last + 1 - run.first, k % run.step = 0 ∧
        d = Char.ofNat (((run.first + k : Nat) : Int) + run.offset).toNat := by
  rcases toUpper_cases c with
    ⟨hc, heq⟩ | ⟨hc, heq⟩ | ⟨entry, hentry, heq⟩ | ⟨run, hrun, k, hk, hstep, heq⟩
  · rw [heq] at h
    exact .inl ⟨hc, List.mem_singleton.mp h⟩
  · rw [heq] at h
    exact .inr (.inl ⟨hc, List.mem_singleton.mp h⟩)
  · rw [heq] at h
    obtain ⟨n, hn, rfl⟩ := List.mem_map.mp h
    exact .inr (.inr (.inl ⟨entry, hentry, n, hn, rfl⟩))
  · rw [heq] at h
    exact .inr (.inr (.inr ⟨run, hrun, k, hk, hstep, List.mem_singleton.mp h⟩))

/-- No character but a line end is raised to one. -/
theorem newline_not_mem_toUpper {c : Char} (h : c ≠ '\n') : '\n' ∉ toUpper c := by
  intro hm
  rcases mem_toUpper hm with
    ⟨-, hd⟩ | ⟨-, hd⟩ | ⟨entry, hentry, n, hn, hd⟩ | ⟨run, hrun, k, -, -, hd⟩
  · exact toUpper_ne_newline h hd.symm
  · exact h hd.symm
  · have hall : (upperExpansions.all fun entry => entry.2.all (· ≠ 10)) = true := by decide
    have hcode := List.all_eq_true.mp (List.all_eq_true.mp hall entry hentry) n hn
    exact ofNat_ne_newline (of_decide_eq_true hcode) hd.symm
  · have hall : (upperRuns.all fun run => 10 < run.first + run.offset) = true := by decide
    have hlarge := of_decide_eq_true (List.all_eq_true.mp hall run hrun)
    exact ofNat_ne_newline (by omega) hd.symm

theorem isLower_iff {c : Char} : c.isLower = true ↔ 97 ≤ c.toNat ∧ c.toNat ≤ 122 :=
  Bool.and_eq_true_iff.trans (and_congr decide_eq_true_iff decide_eq_true_iff)

theorem isUpper_iff {c : Char} : c.isUpper = true ↔ 65 ≤ c.toNat ∧ c.toNat ≤ 90 :=
  decide_eq_true_iff

theorem isDigit_iff {c : Char} : c.isDigit = true ↔ 48 ≤ c.toNat ∧ c.toNat ≤ 57 :=
  Bool.and_eq_true_iff.trans (and_congr decide_eq_true_iff decide_eq_true_iff)

theorem isAlpha_iff {c : Char} : c.isAlpha = true ↔ c.isUpper = true ∨ c.isLower = true :=
  Bool.or_eq_true_iff

/-- The small ASCII letters are those from 97 to 122. -/
theorem isLower_eq_false {c : Char} (h : c.toNat < 97 ∨ 122 < c.toNat) : c.isLower = false := by
  refine Bool.eq_false_iff.mpr fun hlower => ?_
  have hrange := isLower_iff.mp hlower
  omega

/-- What is raised to is no small ASCII letter. -/
theorem isLower_of_mem_toUpper {c d : Char} (h : d ∈ toUpper c) : d.isLower = false := by
  rcases mem_toUpper h with
    ⟨hc, rfl⟩ | ⟨hc, rfl⟩ | ⟨entry, hentry, n, hn, rfl⟩ | ⟨run, hrun, k, hk, -, rfl⟩
  -- each table is checked once as a whole
  · have hall := ascii_forall (p := fun c => !c.toUpper.isLower) (by decide +kernel) hc
    rwa [Bool.not_eq_true'] at hall
  · exact isLower_eq_false (.inr (by omega))
  · have hall : (upperExpansions.all fun entry =>
        entry.2.all fun n => !(Char.ofNat n).isLower) = true := by decide +kernel
    simpa using List.all_eq_true.mp (List.all_eq_true.mp hall entry hentry) n hn
  · have hall : (upperRuns.all fun run =>
        decide ((run.last : Int) + run.offset < 97) || decide (122 < run.first + run.offset)) =
          true := by decide
    have hrange := List.all_eq_true.mp hall run hrun
    simp only [Bool.or_eq_true, decide_eq_true_eq] at hrange
    -- an image that is no character would be read as the character 0
    by_cases hvalid : ((((run.first + k : Nat) : Int) + run.offset).toNat).isValidChar
    · have hcode : (Char.ofNat (((run.first + k : Nat) : Int) + run.offset).toNat).toNat =
          (((run.first + k : Nat) : Int) + run.offset).toNat := by
        rw [Char.ofNat, dif_pos hvalid]
        rfl
      refine isLower_eq_false ?_
      rw [hcode]
      omega
    · rw [Char.ofNat, dif_neg hvalid]
      decide

/-! ## Letters -/

theorem isAlphabetic_ofNat {n : Nat} (h : inRanges alphabeticRanges n = true) :
    isAlphabetic (Char.ofNat n) = true := by
  have hall : (alphabeticRanges.all fun r => Nat.ble 128 r.1 &&
      (Nat.ble r.2 0xd7ff || Nat.ble 0xe000 r.1 && Nat.ble r.2 0x10ffff)) = true := by
    decide +kernel
  obtain ⟨r, hr, hn⟩ := List.any_eq_true.mp h
  have hvalid := List.all_eq_true.mp hall r hr
  simp only [Bool.and_eq_true, Bool.or_eq_true, decide_eq_true_eq, Nat.ble_eq] at hn hvalid
  have hchar : n.isValidChar := by
    unfold Nat.isValidChar
    omega
  have hcode : (Char.ofNat n).toNat = n := by
    rw [Char.ofNat, dif_pos hchar]
    rfl
  unfold isAlphabetic
  rw [hcode, if_neg (by omega)]
  exact h

/-- Whether the characters that a run maps to are letters: all code points between the first and
the last one are in one range of letters, or each of them is. -/
def raisesToLetters (run : CaseRun) : Bool :=
  let low := ((run.first : Int) + run.offset).toNat
  let high := ((run.last : Int) + run.offset).toNat
  (alphabeticRanges.any fun r => Nat.ble r.1 low && Nat.ble high r.2) ||
    (List.range (run.last + 1 - run.first)).all fun k =>
      k % run.step != 0 ||
        isAlphabetic (Char.ofNat (((run.first + k : Nat) : Int) + run.offset).toNat)

theorem isAlphabetic_of_upperRun {run : CaseRun} {k : Nat} (hrun : run ∈ upperRuns)
    (hk : k < run.last + 1 - run.first) (hstep : k % run.step = 0) :
    isAlphabetic (Char.ofNat (((run.first + k : Nat) : Int) + run.offset).toNat) = true := by
  have hall : (upperRuns.all raisesToLetters) = true := by decide +kernel
  have hletters := List.all_eq_true.mp hall run hrun
  simp only [raisesToLetters, Bool.or_eq_true] at hletters
  rcases hletters with hspan | heach
  · obtain ⟨r, hr, hspan⟩ := List.any_eq_true.mp hspan
    simp only [Bool.and_eq_true, Nat.ble_eq] at hspan
    refine isAlphabetic_ofNat (List.any_eq_true.mpr ⟨r, hr, ?_⟩)
    simp only [Bool.and_eq_true, decide_eq_true_eq]
    omega
  · simpa [hstep] using List.all_eq_true.mp heach k (List.mem_range.mpr hk)

end Text

namespace Identifier

theorem isIdentifierChar_of_isAlphanum {c : Char} (h : c.isAlphanum = true) :
    isIdentifierChar c = true := by
  unfold isIdentifierChar Text.isAlphanumeric
  rcases Bool.or_eq_true _ _ ▸ h with h | h
  · simp [Text.isAlphabetic_of_isAlpha h]
  · have hlt : c.toNat < 128 := by
      simp only [Char.isDigit, Bool.and_eq_true, decide_eq_true_eq, UInt32.le_iff_toNat_le] at h
      exact Nat.lt_of_le_of_lt h.2 (by decide)
    simp [Text.isNumeric, hlt, h]

theorem identifierChars_sanitize (name : String) :
    ∀ c ∈ (sanitize name).toList, isIdentifierChar c = true := by
  have hmap : ∀ c ∈ (Text.trimChars name.toList).map fun c => if isIdentifierChar c then c else '_',
      isIdentifierChar c = true := by
    intro c hm
    obtain ⟨d, -, rfl⟩ := List.mem_map.mp hm
    split
    · assumption
    · decide
  unfold sanitize sanitizeChars
  rw [String.toList_ofList]
  split
  · exact List.all_eq_true.mp (by decide)
  · rename_i c rest heq
    rw [heq] at hmap
    split
    · intro d hm
      rcases List.mem_cons.mp hm with rfl | hm
      · decide
      · exact hmap d hm
    · exact hmap

theorem upperFirst_ne_empty {name : String} (h : name ≠ "") : upperFirst name ≠ "" := by
  obtain ⟨c, cs, hname⟩ := List.exists_cons_of_ne_nil fun hnil =>
    h (String.toList_eq_nil_iff.mp hnil)
  intro hempty
  have hchars := String.toList_eq_nil_iff.mpr hempty
  rw [upperFirst, String.toList_ofList, hname, upperFirstChars] at hchars
  exact Text.toUpper_ne_nil c (List.append_eq_nil_iff.mp hchars).1

end Identifier

end StubGen
