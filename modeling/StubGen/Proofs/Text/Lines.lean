import StubGen.Text.Blank
import StubGen.Text.Split

/-!
# Lines of a text that grows

Two texts set one behind the other have the pieces of both, only that the last piece of the
first and the first piece of the second become one: `splitChars_append`. So when the
first text ends with a line end, the lines that are a given one are counted in each text for
itself: `occurrences_append`. White space at the end of lines does not count, nor does it
matter when it is taken from the end of the text: `occurrences_trimEndChars`.
-/

namespace StubGen.Text

variable {sep : Char} {cs ds line : List Char}

/-- A text has a part before a tail when it ends with it. -/
theorem before?_isSome_iff {tail s : String} :
    (before? tail s).isSome = true ↔ tail.toList <:+ s.toList := by
  unfold before? beforeChars?
  rw [Option.isSome_map, Option.isSome_map, Option.isSome_iff_exists]
  constructor
  · rintro ⟨rest, h⟩
    have h := congrArg List.reverse (afterChars?_eq_some_iff.mp h)
    rw [List.reverse_reverse, List.reverse_append, List.reverse_reverse] at h
    exact ⟨rest.reverse, h.symm⟩
  · rintro ⟨init, h⟩
    exact ⟨init.reverse, afterChars?_eq_some_iff.mpr (by rw [← h, List.reverse_append])⟩

/-! ## White space at the end -/

theorem trimEndChars_append_blank (h : ∀ c ∈ ds, isBlank c = true) (cs : List Char) :
    trimEndChars (cs ++ ds) = trimEndChars cs := by
  unfold trimEndChars
  rw [List.reverse_append, List.dropWhile_append_of_pos fun c hc => h c (List.mem_reverse.mp hc)]

/-- White space is all that is taken from the end. -/
theorem exists_blank_of_trimEndChars (cs : List Char) :
    ∃ blank, (∀ c ∈ blank, isBlank c = true) ∧ cs = trimEndChars cs ++ blank := by
  refine ⟨(cs.reverse.takeWhile isBlank).reverse, fun c hc => ?_, ?_⟩
  · exact List.all_eq_true.mp List.all_takeWhile c (List.mem_reverse.mp hc)
  · unfold trimEndChars
    rw [← List.reverse_append, List.takeWhile_append_dropWhile, List.reverse_reverse]

/-- Nothing is taken from characters of which the last one is not white space. -/
theorem trimEndChars_eq_self_iff (hne : cs ≠ []) :
    trimEndChars cs = cs ↔ isBlank (cs.getLast hne) = false := by
  obtain ⟨init, last, rfl⟩ : ∃ init last, cs = init ++ [last] :=
    ⟨_, _, (List.dropLast_concat_getLast hne).symm⟩
  unfold trimEndChars
  rw [List.reverse_concat, List.dropWhile_cons, List.getLast_concat]
  cases hb : isBlank last with
  | false => simp
  | true =>
      refine ⟨fun h => ?_, fun h => absurd h (by simp)⟩
      have hlen := congrArg List.length h
      have hle := (List.dropWhile_sublist (p := isBlank) (l := init.reverse)).length_le
      simp at hlen hle
      omega

/-- Nothing is taken from the end if nothing is taken from a part of it. -/
theorem trimEndChars_append_of_self (hne : ds ≠ []) (h : trimEndChars ds = ds) (cs : List Char) :
    trimEndChars (cs ++ ds) = cs ++ ds := by
  have hne' : cs ++ ds ≠ [] := by simp [hne]
  rw [trimEndChars_eq_self_iff hne', List.getLast_append_of_ne_nil hne' hne]
  exact (trimEndChars_eq_self_iff hne).mp h

theorem trimEndChars_trimEndChars (cs : List Char) :
    trimEndChars (trimEndChars cs) = trimEndChars cs := by
  obtain ⟨blank, hb, hcs⟩ := exists_blank_of_trimEndChars cs
  conv => rhs; rw [hcs, trimEndChars_append_blank hb]

/-- What is taken from the end leaves the first character that is not white space. -/
theorem trimEndChars_cons {c : Char} (hc : isBlank c = false) (cs : List Char) :
    trimEndChars (c :: cs) = c :: trimEndChars cs := by
  unfold trimEndChars
  rw [List.reverse_cons, List.dropWhile_append]
  split
  · rename_i hnil
    rw [List.isEmpty_iff.mp hnil, List.dropWhile_cons_of_neg (by simp [hc])]
    rfl
  · rw [List.reverse_append]
    rfl

/-- What stands in front of a text that is not blank stays as it is. -/
theorem trimEndChars_append {c : Char} (hc : isBlank c = false) (cs ds : List Char) :
    trimEndChars (cs ++ c :: ds) = cs ++ c :: trimEndChars ds := by
  have htail := trimEndChars_cons hc ds
  unfold trimEndChars at *
  rw [List.reverse_append, List.dropWhile_append, if_neg, List.reverse_append,
    List.reverse_reverse, htail]
  intro hnil
  rw [List.isEmpty_iff.mp hnil] at htail
  exact absurd htail (List.cons_ne_nil _ _).symm

theorem trimChars_blank_append {lead : List Char} (hlead : ∀ b ∈ lead, isBlank b = true)
    (cs : List Char) : trimChars (lead ++ cs) = trimChars cs := by
  rw [trimChars, trimStartChars, List.dropWhile_append_of_pos hlead]
  rfl

/-- White space is taken from the front up to the first other character. -/
theorem trimChars_append {lead : List Char} {c : Char} (hlead : ∀ b ∈ lead, isBlank b = true)
    (hc : isBlank c = false) (cs : List Char) :
    trimChars (lead ++ c :: cs) = c :: trimEndChars cs := by
  unfold trimChars trimStartChars
  rw [List.dropWhile_append_of_pos hlead, List.dropWhile_cons_of_neg (by simp [hc]),
    trimEndChars_cons hc]

/-- A carriage return is white space. -/
theorem trimEndChars_dropReturn (cs : List Char) :
    trimEndChars (dropReturn cs) = trimEndChars cs := by
  unfold dropReturn
  split
  · rename_i rest h
    have hcs : cs = rest.reverse ++ ['\r'] := by
      rw [← List.reverse_reverse cs, h, List.reverse_cons]
    rw [hcs, trimEndChars_append_blank fun c hc => by rw [List.mem_singleton.mp hc]; rfl]
  · rfl

theorem trimChars_dropReturn (cs : List Char) :
    trimChars (dropReturn cs) = trimChars cs := by
  have hblank : ∀ c ∈ ['\r'], isBlank c = true := List.all_eq_true.mp (by decide)
  rcases List.eq_nil_or_concat cs with rfl | ⟨init, last, rfl⟩
  · rfl
  · rw [List.concat_eq_append]
    by_cases hlast : last = '\r'
    · subst hlast
      have hdrop : dropReturn (init ++ ['\r']) = init := by simp [dropReturn]
      rw [hdrop, trimChars, trimChars, trimStartChars, trimStartChars,
        List.dropWhile_append]
      split
      · rename_i hnil
        rw [List.isEmpty_iff.mp hnil]
        decide
      · rw [trimEndChars_append_blank hblank]
    · have hdrop : dropReturn (init ++ [last]) = init ++ [last] := by
        simp [dropReturn, hlast]
      rw [hdrop]

theorem trimChars_subset (cs : List Char) : trimChars cs ⊆ cs := by
  intro c hm
  have hm := (List.dropWhile_sublist _).subset (List.mem_reverse.mp hm)
  exact (List.dropWhile_sublist _).subset (List.mem_reverse.mp hm)

/-! ## Pieces -/

theorem splitChars_cons_of_ne {c : Char} {first : List Char} {rest : List (List Char)}
    (hc : c ≠ sep) (h : splitChars sep cs = first :: rest) :
    splitChars sep (c :: cs) = (c :: first) :: rest := by
  rw [splitChars, if_neg hc, h]

theorem not_mem_of_mem_splitChars {piece : List Char}
    (h : piece ∈ splitChars sep cs) : sep ∉ piece := by
  induction cs generalizing piece with
  | nil =>
      simp only [splitChars, List.mem_singleton] at h
      simp [h]
  | cons c cs ih =>
      unfold splitChars at h
      -- a separator begins a new piece, any other character goes to the front of the first
      split at h
      · rcases List.mem_cons.mp h with h' | h'
        · simp [h']
        · exact ih h'
      · rename_i hc
        split at h
        · rename_i heq
          exact absurd heq (splitChars_ne_nil sep cs)
        · rename_i first rest heq
          rcases List.mem_cons.mp h with h' | h'
          · have hfirst : sep ∉ first := ih (heq ▸ List.mem_cons_self)
            rw [h']
            simp [hfirst, Ne.symm hc]
          · exact ih (heq ▸ List.mem_cons_of_mem _ h')

theorem subset_of_mem_splitChars {piece : List Char} (h : piece ∈ splitChars sep cs) :
    piece ⊆ cs := by
  induction cs generalizing piece with
  | nil => simpa [splitChars] using h
  | cons c cs ih =>
      by_cases hc : c = sep
      · rw [splitChars, if_pos hc] at h
        rcases List.mem_cons.mp h with rfl | h
        · exact List.nil_subset _
        · exact List.subset_cons_of_subset c (ih h)
      · obtain ⟨first, rest, hcs⟩ := List.exists_cons_of_ne_nil (splitChars_ne_nil sep cs)
        rw [splitChars_cons_of_ne hc hcs] at h
        rw [hcs] at ih
        rcases List.mem_cons.mp h with rfl | h
        · exact List.cons_subset_cons c (ih List.mem_cons_self)
        · exact List.subset_cons_of_subset c (ih (List.mem_cons_of_mem _ h))

/-- The pieces of two texts set one behind the other: two of them become one. -/
theorem splitChars_append (sep : Char) (cs ds : List Char) :
    ∃ init last first rest, splitChars sep cs = init ++ [last] ∧
      splitChars sep ds = first :: rest ∧
      splitChars sep (cs ++ ds) = init ++ (last ++ first) :: rest := by
  induction cs with
  | nil =>
      obtain ⟨first, rest, h⟩ := List.exists_cons_of_ne_nil (splitChars_ne_nil sep ds)
      exact ⟨[], [], first, rest, rfl, h, h⟩
  | cons c cs ih =>
      obtain ⟨init, last, first, rest, h, hd, ha⟩ := ih
      by_cases hc : c = sep
      · refine ⟨[] :: init, last, first, rest, ?_, hd, ?_⟩
        · rw [splitChars, if_pos hc, h, List.cons_append]
        · rw [List.cons_append, splitChars, if_pos hc, ha, List.cons_append]
      · cases init with
        | nil => exact ⟨[], c :: last, first, rest, splitChars_cons_of_ne hc h, hd,
            splitChars_cons_of_ne hc ha⟩
        | cons piece init => exact ⟨(c :: piece) :: init, last, first, rest,
            splitChars_cons_of_ne hc h, hd, splitChars_cons_of_ne hc ha⟩

theorem splitChars_append_sep (sep : Char) (cs ds : List Char) :
    splitChars sep (cs ++ sep :: ds) = splitChars sep cs ++ splitChars sep ds := by
  obtain ⟨init, last, first, rest, hc, hd, ha⟩ := splitChars_append sep cs (sep :: ds)
  rw [splitChars, if_pos rfl] at hd
  obtain ⟨rfl, rfl⟩ := List.cons.inj hd
  rw [ha, hc, List.append_nil, List.append_assoc, List.singleton_append]

theorem splitChars_of_not_mem (h : sep ∉ cs) : splitChars sep cs = [cs] := by
  induction cs with
  | nil => rfl
  | cons c cs ih =>
      have hc : c ≠ sep := fun hc => h (hc ▸ List.mem_cons_self)
      exact splitChars_cons_of_ne hc (ih fun hm => h (List.mem_cons_of_mem _ hm))

/-- Texts set side by side with separators are cut into the pieces of each of them. -/
theorem splitChars_joinChars_eq_flatMap {pieces : List (List Char)} (hne : pieces ≠ []) :
    splitChars sep (joinChars [sep] pieces) = pieces.flatMap (splitChars sep) := by
  induction pieces with
  | nil => exact absurd rfl hne
  | cons piece pieces ih =>
      cases pieces with
      | nil => rw [joinChars, List.flatMap_singleton]
      | cons next pieces =>
          rw [joinChars, List.append_assoc, List.singleton_append, splitChars_append_sep,
            ih (List.cons_ne_nil _ _)]
          · rfl
          · exact List.cons_ne_nil _ _

/-- Pieces without a separator, set side by side with separators, come back when they are cut. -/
theorem splitChars_joinChars {pieces : List (List Char)} (hne : pieces ≠ [])
    (h : ∀ piece ∈ pieces, sep ∉ piece) : splitChars sep (joinChars [sep] pieces) = pieces := by
  rw [splitChars_joinChars_eq_flatMap hne]
  have hcut : ∀ piece ∈ pieces, splitChars sep piece = [piece] := fun piece hm =>
    splitChars_of_not_mem (h piece hm)
  rw [List.flatMap_def, List.map_congr_left hcut, ← List.flatMap_def, List.flatMap_singleton']

theorem mem_splitChars_replicate_append (hne : line ≠ []) (k : Nat) (cs : List Char) :
    line ∈ splitChars sep (List.replicate k sep ++ cs) ↔ line ∈ splitChars sep cs := by
  induction k with
  | zero => rfl
  | succ k ih =>
      rw [List.replicate_succ, List.cons_append, splitChars, if_pos rfl, List.mem_cons, ih]
      exact or_iff_right hne

/-- The pieces of texts set side by side, several separators apart, are those of each text but for
empty ones. -/
theorem mem_splitChars_joinChars (hne : line ≠ []) (k : Nat) (texts : List (List Char)) :
    line ∈ splitChars sep (joinChars (List.replicate (k + 1) sep) texts) ↔
      ∃ text ∈ texts, line ∈ splitChars sep text := by
  induction texts with
  | nil => simp [joinChars, splitChars, hne]
  | cons text texts ih =>
      cases texts with
      | nil => simp [joinChars]
      | cons next texts =>
          have happend (cs : List Char) : text ++ List.replicate (k + 1) sep ++ cs =
              text ++ sep :: (List.replicate k sep ++ cs) := by simp [List.replicate_succ]
          rw [joinChars, happend, splitChars_append_sep, List.mem_append,
            mem_splitChars_replicate_append hne, ih]
          · simp
          · exact List.cons_ne_nil _ _

/-- A text in front that has no separator becomes part of the first piece. -/
theorem splitChars_append_of_not_mem {first : List Char} {rest : List (List Char)} (h : sep ∉ cs)
    (hds : splitChars sep ds = first :: rest) :
    splitChars sep (cs ++ ds) = (cs ++ first) :: rest := by
  obtain ⟨init, last, first', rest', hc, hd, ha⟩ := splitChars_append sep cs ds
  rw [splitChars_of_not_mem h] at hc
  obtain ⟨rfl, rfl⟩ := List.cons.inj (hds.symm.trans hd)
  cases init with
  | nil =>
      obtain rfl : cs = last := by simpa using hc
      exact ha
  | cons piece init => simp at hc

/-- A text up to its first separator, and from there on. -/
theorem span_append_sep (h : sep ∉ cs) (ds : List Char) :
    (cs ++ sep :: ds).takeWhile (· ≠ sep) = cs ∧
      (cs ++ sep :: ds).dropWhile (· ≠ sep) = sep :: ds := by
  have hne : ∀ c ∈ cs, decide (c ≠ sep) = true :=
    fun c hc => decide_eq_true fun heq => h (heq ▸ hc)
  rw [List.takeWhile_append_of_pos hne, List.dropWhile_append_of_pos hne]
  simp

/-- A text is cut at its first separator in one way. -/
theorem eq_of_append_sep {cs' ds' : List Char} (h : sep ∉ cs) (h' : sep ∉ cs')
    (heq : cs ++ sep :: ds = cs' ++ sep :: ds') : cs = cs' ∧ ds = ds' := by
  have hfront : cs = cs' := by
    rw [← (span_append_sep h ds).1, heq, (span_append_sep h' ds').1]
  rw [hfront] at heq
  exact ⟨hfront, (List.cons.inj (List.append_cancel_left heq)).2⟩

/-! ## Joining -/

theorem mem_joinChars {c : Char} {sep : List Char} {pieces : List (List Char)}
    (h : c ∈ joinChars sep pieces) : c ∈ sep ∨ ∃ piece ∈ pieces, c ∈ piece := by
  induction pieces with
  | nil => exact absurd h List.not_mem_nil
  | cons piece pieces ih =>
      cases pieces with
      | nil => exact .inr ⟨piece, List.mem_cons_self, h⟩
      | cons next pieces =>
          simp only [joinChars, List.mem_append] at h
          rcases h with (h | h) | h
          · exact .inr ⟨piece, List.mem_cons_self, h⟩
          · exact .inl h
          · exact (ih h).imp_right fun ⟨other, hm, hc⟩ => ⟨other, List.mem_cons_of_mem _ hm, hc⟩

/-- The pieces of a text make up the text again. -/
theorem joinChars_splitChars (sep : Char) (cs : List Char) :
    joinChars [sep] (splitChars sep cs) = cs := by
  induction cs with
  | nil => rfl
  | cons c cs ih =>
      obtain ⟨first, rest, hcs⟩ := List.exists_cons_of_ne_nil (splitChars_ne_nil sep cs)
      by_cases hc : c = sep
      · rw [splitChars, if_pos hc, hcs, joinChars, ← hcs, ih, hc]
        · rfl
        · exact List.cons_ne_nil _ _
      · rw [hcs] at ih
        rw [splitChars_cons_of_ne hc hcs]
        cases rest with
        | nil => rw [joinChars] at ih ⊢; rw [ih]
        | cons next rest =>
            rw [joinChars] at ih ⊢
            · rw [← ih]
              simp
            · exact List.cons_ne_nil _ _
            · exact List.cons_ne_nil _ _

theorem join_split (s : String) : join "\n" (split '\n' s) = s := by
  have hpieces : ((splitChars '\n' s.toList).map String.ofList).map String.toList =
      splitChars '\n' s.toList := by
    rw [List.map_map]
    exact List.map_id'' (fun _ => String.toList_ofList) _
  unfold join split
  rw [hpieces]
  exact (congrArg String.ofList (joinChars_splitChars '\n' s.toList)).trans String.ofList_toList

theorem join_cons (sep piece : String) (pieces : List String) :
    ∃ rest, join sep (piece :: pieces) = piece ++ rest := by
  cases pieces with
  | nil => exact ⟨"", by simp [join, joinChars]⟩
  | cons next pieces =>
      refine ⟨sep ++ join sep (next :: pieces), ?_⟩
      simp [join, joinChars, String.ofList_append]

theorem join_cons_cons (sep first second : String) (pieces : List String) :
    join sep (first :: second :: pieces) =
      first ++ sep ++ join sep (second :: pieces) := by
  simp [join, joinChars, String.ofList_append, String.append_assoc]

theorem splitChars_join {pieces : List String} (hne : pieces ≠ []) :
    splitChars '\n' (join "\n" pieces).toList =
      pieces.flatMap fun piece => splitChars '\n' piece.toList := by
  unfold join
  rw [String.toList_ofList, ← List.flatMap_map]
  exact splitChars_joinChars_eq_flatMap (by simpa using hne)

/-! ## Lines -/

/-- How often a line is among those of a text, white space at the end not counting. -/
def occurrences (line cs : List Char) : Nat :=
  (splitChars '\n' cs).countP fun piece => trimEndChars piece == line

theorem occurrences_of_not_mem (h : '\n' ∉ cs) (line : List Char) :
    occurrences line cs = if trimEndChars cs = line then 1 else 0 := by
  simp [occurrences, splitChars_of_not_mem h, List.countP_singleton]

theorem occurrences_newline (line cs ds : List Char) :
    occurrences line (cs ++ '\n' :: ds) = occurrences line cs + occurrences line ds := by
  rw [occurrences, splitChars_append_sep, List.countP_append]
  rfl

theorem occurrences_nil (hne : line ≠ []) : occurrences line [] = 0 := by
  rw [occurrences_of_not_mem List.not_mem_nil]
  exact if_neg fun h => hne h.symm

/-- Behind a line end, or at the beginning, lines are counted anew. -/
theorem occurrences_append (hne : line ≠ []) (h : cs = [] ∨ ∃ init, cs = init ++ ['\n'])
    (ds : List Char) : occurrences line (cs ++ ds) = occurrences line cs + occurrences line ds := by
  rcases h with rfl | ⟨init, rfl⟩
  · rw [occurrences_nil hne, List.nil_append, Nat.zero_add]
  · rw [List.append_assoc, List.singleton_append, occurrences_newline, occurrences_newline,
      occurrences_nil hne, Nat.add_zero]

/-- Taking white space from the end of a text makes no new line. -/
theorem occurrences_trimEndChars (h : occurrences line cs = 0) :
    occurrences line (trimEndChars cs) = 0 := by
  obtain ⟨blank, hblank, hcs⟩ := exists_blank_of_trimEndChars cs
  obtain ⟨init, last, first, rest, hc, hb, ha⟩ := splitChars_append '\n' (trimEndChars cs) blank
  rw [← hcs] at ha
  have hfirst : ∀ c ∈ first, isBlank c = true := fun c hc =>
    hblank c (subset_of_mem_splitChars (hb ▸ List.mem_cons_self) hc)
  simp only [occurrences, ha, hc, List.countP_append, List.countP_cons, List.countP_nil,
    trimEndChars_append_blank hfirst] at h ⊢
  omega

/-- The lines of a text are its pieces but for a last one that is empty, and what is at the end of
a line does not count. -/
theorem countP_lines (hne : line ≠ []) (s : String) :
    (lines s).countP (fun l => trimEnd l == String.ofList line) = occurrences line s.toList := by
  have hbeq : ∀ cs, (trimEnd (String.ofList cs) == String.ofList line) =
      (trimEndChars cs == line) := by
    intro cs
    rw [Bool.eq_iff_iff, beq_iff_eq, beq_iff_eq, trimEnd, String.ofList_inj, String.toList_ofList]
  have hreturn : ∀ cs, (trimEndChars (dropReturn cs) == line) = (trimEndChars cs == line) := by
    intro cs
    rw [trimEndChars_dropReturn]
  have hempty : (trimEndChars [] == line) = false := beq_eq_false_iff_ne.mpr hne.symm
  obtain ⟨init, last, hpieces⟩ : ∃ init last, splitChars '\n' s.toList = init ++ [last] :=
    ⟨_, _, (List.dropLast_concat_getLast (splitChars_ne_nil _ _)).symm⟩
  unfold lines linesChars occurrences
  rw [List.countP_map, hpieces]
  cases last with
  | nil =>
      simp [List.countP_map, Function.comp_def, hbeq, hreturn, hempty]
  | cons c cs =>
      simp [List.countP_map, Function.comp_def, hbeq, hreturn]

theorem dropReturn_subset (cs : List Char) : dropReturn cs ⊆ cs := by
  unfold dropReturn
  split
  · rename_i rest h
    intro c hm
    exact List.mem_reverse.mp (h ▸ List.mem_cons_of_mem _ (List.mem_reverse.mp hm))
  · exact List.Subset.refl cs

theorem newline_not_mem_of_mem_lines {s line : String} (hm : line ∈ lines s) :
    '\n' ∉ line.toList := by
  obtain ⟨init, last, hpieces⟩ : ∃ init last, splitChars '\n' s.toList = init ++ [last] :=
    ⟨_, _, (List.dropLast_concat_getLast (splitChars_ne_nil _ _)).symm⟩
  -- cutting leaves no separator in a piece, and dropping a carriage return adds nothing
  have hflat : ∀ piece ∈ init ++ [last], '\n' ∉ piece :=
    fun piece hm => not_mem_of_mem_splitChars (hpieces ▸ hm)
  have hinit : ∀ piece ∈ init.map dropReturn, '\n' ∉ piece := by
    intro piece hm hc
    obtain ⟨whole, hwhole, rfl⟩ := List.mem_map.mp hm
    exact hflat whole (List.mem_append_left _ hwhole) (dropReturn_subset whole hc)
  unfold lines linesChars at hm
  rw [hpieces] at hm
  obtain ⟨piece, hpiece, rfl⟩ := List.mem_map.mp hm
  rw [String.toList_ofList]
  simp only [List.getLast?_concat, List.dropLast_concat] at hpiece
  -- the last piece is a line only if it has characters
  split at hpiece
  · exact hinit piece hpiece
  · rename_i last' _ hlast
    obtain rfl := Option.some.inj hlast
    rcases List.mem_append.mp hpiece with hpiece | hpiece
    · exact hinit piece hpiece
    · rw [List.mem_singleton.mp hpiece]
      exact hflat last (List.mem_append_right _ List.mem_cons_self)
  · rename_i hlast
    exact absurd hlast (by simp)

theorem dropReturn_of_not_mem (h : '\r' ∉ cs) : dropReturn cs = cs := by
  unfold dropReturn
  split
  · rename_i rest hrest
    have hmem : '\r' ∈ cs.reverse := hrest ▸ List.mem_cons_self
    exact absurd (List.mem_reverse.mp hmem) h
  · rfl

/-- The lines of a text with a line end in it are those before it and those behind it. -/
theorem linesChars_newline (cs ds : List Char) :
    linesChars (cs ++ '\n' :: ds) = (splitChars '\n' cs).map dropReturn ++ linesChars ds := by
  obtain ⟨init, last, hds⟩ : ∃ init last, splitChars '\n' ds = init ++ [last] :=
    ⟨_, _, (List.dropLast_concat_getLast (splitChars_ne_nil _ _)).symm⟩
  unfold linesChars
  rw [splitChars_append_sep, hds, ← List.append_assoc]
  simp only [List.getLast?_concat, List.dropLast_concat, List.map_append]
  cases last <;> simp

/-- Where the last line has ended, more lines are behind it. -/
theorem lines_append {s : String} (h : s.toList = [] ∨ ∃ init, s.toList = init ++ ['\n'])
    (more : String) : lines (s ++ more) = lines s ++ lines more := by
  unfold lines
  rw [String.toList_append, ← List.map_append]
  rcases h with h | ⟨init, h⟩
  · rw [h]
    rfl
  · rw [h, List.append_assoc, List.singleton_append, linesChars_newline, linesChars_newline]
    simp [linesChars, splitChars]

/-- The lines of a text that ends in a line end are its pieces without carriage returns at their
ends. -/
theorem lines_newline (s : String) :
    lines (s ++ "\n") = ((splitChars '\n' s.toList).map dropReturn).map String.ofList := by
  unfold lines
  rw [String.toList_append]
  exact congrArg _ ((linesChars_newline _ []).trans (List.append_nil _))

/-- Without carriage returns the lines of a text that ends in a line end are its pieces. -/
theorem lines_append_newline {s : String} (h : '\r' ∉ s.toList) :
    lines (s ++ "\n") = split '\n' s := by
  have hdrop : (splitChars '\n' s.toList).map dropReturn = splitChars '\n' s.toList := by
    rw [← List.map_id (splitChars '\n' s.toList), List.map_map]
    exact List.map_congr_left fun piece hm => dropReturn_of_not_mem fun hc =>
      h (subset_of_mem_splitChars hm hc)
  rw [lines_newline, hdrop]
  rfl

/-- A line end behind a text counts for nothing if its last piece is not empty and does not end in
a carriage return. -/
theorem lines_newline_of_last {s : String}
    (h : ∀ last ∈ (splitChars '\n' s.toList).getLast?, last ≠ [] ∧ dropReturn last = last) :
    lines (s ++ "\n") = lines s := by
  obtain ⟨init, last, hpieces⟩ : ∃ init last, splitChars '\n' s.toList = init ++ [last] :=
    ⟨_, _, (List.dropLast_concat_getLast (splitChars_ne_nil _ _)).symm⟩
  rw [hpieces, List.getLast?_concat] at h
  obtain ⟨hne, hdrop⟩ := h last rfl
  rw [lines_newline, lines, linesChars, hpieces]
  cases last with
  | nil => exact absurd rfl hne
  | cons c cs => simp [hdrop]

/-- The lines of pieces set below one another are the pieces. -/
theorem lines_join {pieces : List String}
    (h : ∀ piece ∈ pieces, piece ≠ "" ∧ '\n' ∉ piece.toList ∧ '\r' ∉ piece.toList) :
    lines (join "\n" pieces) = pieces := by
  rcases List.eq_nil_or_concat pieces with rfl | ⟨init, last, rfl⟩
  · rfl
  rw [List.concat_eq_append] at h ⊢
  -- cutting undoes the joining, and there are no carriage returns to drop
  have hcut : splitChars '\n' (join "\n" (init ++ [last])).toList =
      init.map String.toList ++ [last.toList] := by
    have hflat : ∀ piece ∈ (init ++ [last]).map String.toList, '\n' ∉ piece :=
      List.forall_mem_map.mpr fun piece hm => (h piece hm).2.1
    unfold join
    rw [String.toList_ofList, ← List.map_singleton, ← List.map_append]
    exact splitChars_joinChars (by simp) hflat
  have hdrop : (init.map String.toList).map dropReturn = init.map String.toList := by
    rw [List.map_map]
    exact List.map_congr_left fun piece hm =>
      dropReturn_of_not_mem (h piece (List.mem_append_left _ hm)).2.2
  obtain ⟨hlast, -⟩ := h last (List.mem_append_right _ List.mem_cons_self)
  unfold lines linesChars
  rw [hcut]
  simp only [List.getLast?_concat, List.dropLast_concat]
  -- the last piece is not empty, so it is a line as the others are
  split
  · rename_i hnil
    exact absurd (String.toList_eq_nil_iff.mp (Option.some.inj hnil)) hlast
  · rename_i found _ hfound
    rw [hdrop, ← Option.some.inj hfound]
    simp [Function.comp_def]
  · rename_i hnone
    exact absurd hnone (by simp)

/-- Behind other characters than carriage returns, only what follows them can end in one. -/
theorem dropReturn_append (h : '\r' ∉ cs) (ds : List Char) :
    dropReturn (cs ++ ds) = cs ++ dropReturn ds := by
  rcases List.eq_nil_or_concat ds with rfl | ⟨init, last, rfl⟩
  · rw [List.append_nil, show dropReturn [] = [] from rfl, List.append_nil,
      dropReturn_of_not_mem h]
  · unfold dropReturn
    rw [List.concat_eq_append, ← List.append_assoc, List.reverse_concat, List.reverse_concat]
    by_cases hlast : last = '\r'
    · subst hlast
      simp
    · simp [hlast]

/-- A piece of a text is among its lines, but perhaps for a carriage return at its end. -/
theorem mem_lines_of_mem_splitChars {s : String} {piece : List Char} (hne : piece ≠ [])
    (hm : piece ∈ splitChars '\n' s.toList) :
    String.ofList piece ∈ lines s ∨ String.ofList (dropReturn piece) ∈ lines s := by
  obtain ⟨init, last, hpieces⟩ : ∃ init last, splitChars '\n' s.toList = init ++ [last] :=
    ⟨_, _, (List.dropLast_concat_getLast (splitChars_ne_nil _ _)).symm⟩
  unfold lines linesChars
  rw [hpieces] at hm ⊢
  simp only [List.getLast?_concat, List.dropLast_concat]
  -- only a piece with a line end behind it loses a carriage return
  rcases List.mem_append.mp hm with hm | hm
  · right
    split
    · exact List.mem_map_of_mem (List.mem_map_of_mem hm)
    · exact List.mem_map_of_mem (List.mem_append_left _ (List.mem_map_of_mem hm))
    · rename_i hlast
      exact absurd hlast (by simp)
  · left
    rw [List.mem_singleton.mp hm] at hne ⊢
    split
    · rename_i hlast
      exact absurd (Option.some.inj hlast) hne
    · rename_i last' _ hlast
      rw [← Option.some.inj hlast]
      exact List.mem_map_of_mem (List.mem_append_right _ List.mem_cons_self)
    · rename_i hlast
      exact absurd hlast (by simp)

end StubGen.Text
