import StubGen.Proofs.Text.Characters
import StubGen.Toml.Text

/-!
# Text in quotes comes back

A text is written in the plainest of four forms that can hold it. What stands between the quotes is
a piece for each character (`StandsFor`), and in long forms up to two quotes in a row may stand for
themselves, since only three of them end the text (`Spells`). Reading takes the pieces one by one,
with the quotes that may still turn out to be the end held back: `scan?_long`. So every text is read
back from what it is written as, whatever comes behind it but quotes: `readText?_renderText`.
-/

namespace StubGen.Toml

variable {form : QuoteForm} {c d e : Char} {cs body rest read piece : List Char} {run : Nat}

/-! ## Pieces that stand for a character -/

/-- A piece of text in quotes that is read as a character. It does not begin like quotes, nor like
a line end unless it stands for one. -/
structure StandsFor (form : QuoteForm) (c : Char) (piece : List Char) : Prop where
  scan : ∀ read rest, scan? form .plain read (piece ++ rest) = scan? form .plain (c :: read) rest
  first : ∃ d more, piece = d :: more ∧ d ≠ form.quote ∧ d ≠ '\r' ∧ (d = '\n' → c = '\n')

/-- A character that stands for itself in quotes. -/
structure IsPlain (form : QuoteForm) (c : Char) : Prop where
  ne_quote : c ≠ form.quote
  ne_escape : form.hasEscapes = true → c ≠ '\\'
  control : isControl c = true → c = '\n' ∧ form.isLong = true

theorem IsPlain.ne_return (h : IsPlain form c) : c ≠ '\r' := by
  rintro rfl
  exact absurd (h.control (by decide)).1 (by decide)

theorem standsFor_self (h : IsPlain form c) : StandsFor form c [c] := by
  refine ⟨fun read rest => ?_, c, [], rfl, h.ne_quote, h.ne_return, id⟩
  have hescape : (decide (c = '\\') && form.hasEscapes) = false := by
    cases hform : form.hasEscapes with
    | false => exact Bool.and_false _
    | true => simp [h.ne_escape hform]
  rw [List.singleton_append, scan?]
  simp only [h.ne_quote, h.ne_return, hescape, if_false]
  by_cases hend : c = '\n'
  · simp [hend, (h.control (by rw [hend]; decide)).2]
  · have hcontrol : isControl c = false := by
      rw [← Bool.not_eq_true]
      exact fun hcontrol => hend (h.control hcontrol).1
    simp [hend, hcontrol]

theorem hasEscapes_of_quote (hquote : form.quote = '"') : form.hasEscapes = true := by
  simp [QuoteForm.hasEscapes, hquote]

/-- A letter behind a backslash. -/
theorem standsFor_letter (hquote : form.quote = '"') (he : simpleEscape? e = some d)
    (hletter : e ≠ 'x' ∧ e ≠ 'u' ∧ e ≠ 'U' ∧ isBlank e = false ∧ e ≠ '\n' ∧ e ≠ '\r') :
    StandsFor form d ['\\', e] := by
  have hne : '\\' ≠ form.quote := by rw [hquote]; decide
  refine ⟨fun read rest => ?_, '\\', [e], rfl, hne, by decide, fun h => absurd h (by decide)⟩
  rw [List.cons_append, scan?]
  simp [hne, hasEscapes_of_quote hquote, hletter, he]

theorem hexValue?_digit {n : Nat} (h : n < 16) :
    hexValue? (Nat.digitChar n).toUpper = some n := by
  have hall : (List.range 16).all fun n => hexValue? (Nat.digitChar n).toUpper == some n := by
    decide
  exact beq_iff_eq.mp (List.all_eq_true.mp hall n (List.mem_range.mpr h))

/-- The code of a character in four digits. -/
theorem standsFor_code (hquote : form.quote = '"') (hc : c.toNat < 65536) :
    StandsFor form c ('\\' :: 'u' :: hexDigits4 c.toNat) := by
  have hne : '\\' ≠ form.quote := by rw [hquote]; decide
  refine ⟨fun read rest => ?_, '\\', _, rfl, hne, by decide, fun h => absurd h (by decide)⟩
  have hvalue : ((c.toNat / 4096 % 16 * 16 + c.toNat / 256 % 16) * 16 + c.toNat / 16 % 16) * 16 +
      c.toNat % 16 = c.toNat := by omega
  have hchar : charOf? c.toNat = some c := by
    rw [charOf?, if_pos (show c.toNat.isValidChar from c.valid), Char.ofNat_toNat]
  have hdigit (n : Nat) : hexValue? (Nat.digitChar (n % 16)).toUpper = some (n % 16) :=
    hexValue?_digit (Nat.mod_lt n (by decide))
  simp [hexDigits4, scan?, hne, hasEscapes_of_quote hquote, hdigit, hvalue, hchar]

/-- What is written for a character between double quotes stands for it. -/
theorem standsFor_escapeChar (hquote : form.quote = '"') (hc : c ≠ '"') :
    StandsFor form c (escapeChar form.isLong c) := by
  unfold escapeChar
  split
  · rename_i h
    subst h
    exact standsFor_letter hquote (by decide) (by decide)
  rename_i hbackslash
  split
  · rename_i h
    subst h
    exact standsFor_letter hquote (by decide) (by decide)
  split
  · rename_i h
    subst h
    split
    -- a line end is written as itself between long quotes, and as a letter between short ones
    · rename_i hlong
      exact standsFor_self ⟨by rw [hquote]; decide, fun _ => by decide, fun _ => ⟨rfl, hlong⟩⟩
    · exact standsFor_letter hquote (by decide) (by decide)
  split
  · rename_i h
    subst h
    exact standsFor_letter hquote (by decide) (by decide)
  split
  · rename_i h
    subst h
    exact standsFor_letter hquote (by decide) (by decide)
  split
  · rename_i h
    subst h
    exact standsFor_letter hquote (by decide) (by decide)
  split
  · rename_i hcontrol
    -- the other control characters go by their code
    refine standsFor_code hquote ?_
    simp only [isControl, Bool.or_eq_true, Bool.and_eq_true, decide_eq_true_eq] at hcontrol
    omega
  · rename_i hcontrol
    exact standsFor_self ⟨by rwa [hquote], fun _ => hbackslash,
      fun h => absurd h hcontrol⟩

/-! ## Pieces and quotes that spell a text -/

/-- Pieces in a row that spell a text, when so many quotes stand in front of them. In a long form
up to two quotes stand for themselves. -/
inductive Spells (form : QuoteForm) : Nat → List Char → List Char → Prop where
  | nil {run : Nat} : Spells form run [] []
  | quote {run : Nat} {cs body : List Char} : form.isLong = true → run < 2 →
      Spells form (run + 1) cs body → Spells form run (form.quote :: cs) (form.quote :: body)
  | piece {run : Nat} {c : Char} {cs piece body : List Char} : StandsFor form c piece →
      Spells form 0 cs body → Spells form run (c :: cs) (piece ++ body)

/-- The mode of reading behind so many quotes in a row. -/
def behind (run : Nat) : Scanning := if run = 0 then .plain else .quotes run

/-- One more quote is held back as long as fewer than five are. -/
theorem scan?_quote (hlong : form.isLong = true) (hrun : run < 5) :
    scan? form (behind run) read (form.quote :: cs) = scan? form (behind (run + 1)) read cs := by
  unfold behind
  by_cases hzero : run = 0
  · rw [if_pos hzero, if_neg (Nat.succ_ne_zero run), hzero, scan?]
    simp [hlong]
  · rw [if_neg hzero, if_neg (Nat.succ_ne_zero run), scan?]
    simp [hrun]

/-- Up to two quotes do not end a text when something else follows. -/
theorem scan?_behind (hrun : run ≤ 2) (hc : c ≠ form.quote) :
    scan? form (behind run) read (c :: cs) =
      scan? form .plain (withQuotes form.quote run read) (c :: cs) := by
  unfold behind
  by_cases hzero : run = 0
  · rw [if_pos hzero, hzero]
    rfl
  · have hfew : ¬ 3 ≤ run := by omega
    rw [if_neg hzero, scan?, scan?]
    simp [hc, hfew]

/-- The last three of three to five quotes end a text. -/
theorem scan?_end (hrun : 3 ≤ run) (hmost : run ≤ 5) (hrest : rest.head? ≠ some form.quote) :
    scan? form (behind run) read rest =
      some ((withQuotes form.quote (run - 3) read).reverse, rest) := by
  rw [behind, if_neg (by omega)]
  cases rest with
  | nil => simp [scan?, hrun]
  | cons c cs =>
      have hc : c ≠ form.quote := fun h => hrest (by rw [h]; rfl)
      rw [scan?]
      simp [hc, hrun]

/-- What is spelled in a long form is read up to the three quotes behind it. -/
theorem scan?_long (hlong : form.isLong = true) (h : Spells form run cs body) (hrun : run ≤ 2)
    (hrest : rest.head? ≠ some form.quote) :
    scan? form (behind run) read (body ++ form.quote :: form.quote :: form.quote :: rest) =
      some (read.reverse ++ List.replicate run form.quote ++ cs, rest) := by
  -- by induction on what is spelled; the quotes held back are those that the text ends in so far
  induction h generalizing read with
  | nil =>
      rename_i run
      rw [List.nil_append, scan?_quote hlong (by omega), scan?_quote hlong (by omega),
        scan?_quote hlong (by omega), scan?_end (by omega) (by omega) hrest]
      simp [withQuotes]
  | quote _ hfew _ ih =>
      rw [List.cons_append, scan?_quote hlong (by omega), ih (by omega)]
      simp [List.replicate_succ']
  | piece hstands _ ih =>
      obtain ⟨d, more, hpiece, hd, -, -⟩ := hstands.first
      rw [List.append_assoc, hpiece, List.cons_append, scan?_behind hrun hd, ← List.cons_append,
        ← hpiece, hstands.scan]
      exact (ih (Nat.zero_le 2)).trans (by simp [withQuotes])

/-- What is spelled in a short form is read up to the quote behind it. -/
theorem scan?_short (hshort : form.isLong = false) (h : Spells form run cs body) :
    scan? form .plain read (body ++ form.quote :: rest) = some (read.reverse ++ cs, rest) := by
  induction h generalizing read with
  | nil =>
      rw [List.nil_append, scan?]
      simp [hshort]
  | quote hlong => exact Bool.noConfusion (hshort.symm.trans hlong)
  | piece hstands _ ih =>
      rw [List.append_assoc, hstands.scan, ih]
      simp

/-! ## What is written -/

/-- What is written between double quotes spells the text. -/
theorem spells_escapeChars (isLong : Bool) (run : Nat) (cs : List Char) :
    Spells ⟨'"', isLong⟩ run cs (escapeChars isLong (if isLong then 2 else 0) run cs) := by
  induction cs generalizing run with
  | nil => exact .nil
  | cons c cs ih =>
      unfold escapeChars
      by_cases hc : c = '"'
      · subst hc
        rw [if_pos rfl]
        by_cases hmany : (if isLong then 2 else 0) ≤ run
        · rw [if_pos hmany]
          have hstands : StandsFor ⟨'"', isLong⟩ '"' ['\\', '"'] :=
            standsFor_letter rfl (by decide) (by decide)
          exact .piece hstands (ih 0)
        · rw [if_neg hmany]
          cases isLong with
          | false => exact absurd (Nat.zero_le run) hmany
          | true => exact .quote rfl (Nat.not_le.mp hmany) (ih (run + 1))
      · rw [if_neg hc]
        exact .piece (standsFor_escapeChar rfl hc) (ih 0)

/-- Characters that stand for themselves spell themselves. -/
theorem spells_self (h : ∀ c ∈ cs, IsPlain form c) (run : Nat) : Spells form run cs cs := by
  induction cs generalizing run with
  | nil => exact .nil
  | cons c cs ih =>
      exact .piece (standsFor_self (h c List.mem_cons_self))
        (ih (fun d hm => h d (List.mem_cons_of_mem c hm)) 0)

theorem le_longestRunFrom (c : Char) (run longest : Nat) (cs : List Char) :
    max run longest ≤ longestRunFrom c run longest cs := by
  induction cs generalizing run longest with
  | nil => exact Nat.le_refl _
  | cons d ds ih =>
      rw [longestRunFrom]
      split
      · have := ih (run + 1) longest
        omega
      · have := ih 0 (max run longest)
        omega

/-- In a long form characters spell themselves as well with quotes in between, if there are never
more than two in a row. -/
theorem spells_self_long (hlong : form.isLong = true)
    (h : ∀ c ∈ cs, c = form.quote ∨ IsPlain form c) {longest : Nat}
    (hrun : longestRunFrom form.quote run longest cs ≤ 2) : Spells form run cs cs := by
  induction cs generalizing run longest with
  | nil => exact .nil
  | cons c cs ih =>
      have hrest : ∀ d ∈ cs, d = form.quote ∨ IsPlain form d := fun d hm =>
        h d (List.mem_cons_of_mem c hm)
      rw [longestRunFrom] at hrun
      by_cases hc : c = form.quote
      · rw [if_pos hc] at hrun
        have hmost := le_longestRunFrom form.quote (run + 1) longest cs
        subst hc
        exact .quote hlong (by omega) (ih hrest hrun)
      · rw [if_neg hc] at hrun
        exact .piece (standsFor_self ((h c List.mem_cons_self).resolve_left hc)) (ih hrest hrun)

/-- What spells a text begins with a quote only if the text does, and like a line end only if the
text has one. -/
theorem Spells.first (h : Spells form run cs body) : ∀ d ∈ body.head?,
    (d = form.quote ∧ form.isLong = true) ∨
      (d ≠ form.quote ∧ d ≠ '\r' ∧ (d = '\n' → '\n' ∈ cs)) := by
  intro d hd
  cases h with
  | nil => exact absurd hd (by simp)
  | quote hlong => exact .inl ⟨(Option.some.inj hd).symm, hlong⟩
  | piece hstands =>
      obtain ⟨first, more, rfl, hquote, hreturn, hend⟩ := hstands.first
      obtain rfl := Option.some.inj hd
      exact .inr ⟨hquote, hreturn, fun h => hend h ▸ List.mem_cons_self⟩

/-! ## Reading what is written -/

theorem readText?_short {q : Char} (hq : q = '"' ∨ q = '\'') (h : ∀ more, cs ≠ q :: q :: more) :
    readText? true (q :: cs) =
      (scan? ⟨q, false⟩ .plain [] cs).map fun result => (String.ofList result.1, result.2) := by
  unfold readText?
  -- behind a short quote the same quote does not stand twice, so the long forms are out
  rcases hq with rfl | rfl
  · split
    · rename_i rest heq
      exact absurd (List.cons.inj heq).2 (h rest)
    · rename_i heq
      rw [(List.cons.inj heq).2]
    · rename_i heq
      exact absurd (List.cons.inj heq).1 (by decide)
    · rename_i heq
      exact absurd (List.cons.inj heq).1 (by decide)
    · rename_i hnone _ _
      exact absurd rfl (hnone cs)
  · split
    · rename_i heq
      exact absurd (List.cons.inj heq).1 (by decide)
    · rename_i heq
      exact absurd (List.cons.inj heq).1 (by decide)
    · rename_i rest heq
      exact absurd (List.cons.inj heq).2 (h rest)
    · rename_i heq
      rw [(List.cons.inj heq).2]
    · rename_i hnone
      exact absurd rfl (hnone cs)

theorem readText?_long {q : Char} (hq : q = '"' ∨ q = '\'') (cs : List Char) :
    readText? true (q :: q :: q :: cs) =
      (scan? ⟨q, true⟩ .plain [] (dropLineEnd cs)).map fun result =>
        (String.ofList result.1, result.2) := by
  rcases hq with rfl | rfl <;> rfl

theorem dropLineEnd_eq_self (h : ∀ c ∈ cs.head?, c ≠ '\n' ∧ c ≠ '\r') : dropLineEnd cs = cs := by
  unfold dropLineEnd
  split
  · exact absurd rfl (h '\n' rfl).1
  · exact absurd rfl (h '\r' rfl).2
  · rfl

/-- What a form has between its quotes. -/
def bodyOf (form : QuoteForm) (cs : List Char) : List Char :=
  if form.hasEscapes then escapeChars form.isLong (if form.isLong then 2 else 0) 0 cs else cs

theorem readText?_quotedChars_short (hq : form.quote = '"' ∨ form.quote = '\'')
    (hshort : form.isLong = false) (h : Spells form 0 cs (bodyOf form cs))
    (hrest : rest.head? ≠ some form.quote) :
    readText? true (quotedChars form cs ++ rest) = some (String.ofList cs, rest) := by
  have hform : form = ⟨form.quote, false⟩ := by rw [← hshort]
  have hquoted : quotedChars form cs ++ rest =
      form.quote :: (bodyOf form cs ++ form.quote :: rest) := by
    simp [quotedChars, bodyOf, hshort]
  -- an empty text has two quotes, and more only if the rest begins with one
  have hquotes : ∀ more,
      bodyOf form cs ++ form.quote :: rest ≠ form.quote :: form.quote :: more := by
    intro more heq
    cases hbody : bodyOf form cs with
    | nil =>
        rw [hbody] at heq
        exact hrest (by rw [(List.cons.inj heq).2]; rfl)
    | cons d ds =>
        rw [hbody] at heq
        rcases h.first d (by rw [hbody]; rfl) with ⟨-, hlong⟩ | ⟨hd, -, -⟩
        · exact Bool.noConfusion (hshort.symm.trans hlong)
        · exact hd (List.cons.inj heq).1
  rw [hquoted, readText?_short hq hquotes, ← hform, scan?_short hshort h]
  rfl

theorem readText?_quotedChars_long (hq : form.quote = '"' ∨ form.quote = '\'')
    (hlong : form.isLong = true) (h : Spells form 0 cs (bodyOf form cs))
    (hrest : rest.head? ≠ some form.quote) :
    readText? true (quotedChars form cs ++ rest) = some (String.ofList cs, rest) := by
  have hform : form = ⟨form.quote, true⟩ := by rw [← hlong]
  have hne : form.quote ≠ '\n' ∧ form.quote ≠ '\r' := by
    rcases hq with hq | hq <;> rw [hq] <;> decide
  let inner := bodyOf form cs ++ form.quote :: form.quote :: form.quote :: rest
  have hquoted : quotedChars form cs ++ rest =
      form.quote :: form.quote :: form.quote :: (if '\n' ∈ cs then '\n' :: inner else inner) := by
    by_cases hend : '\n' ∈ cs <;> simp [quotedChars, bodyOf, hlong, hend, inner, List.replicate]
  -- a line end behind the opening quotes is put there for texts that have one, and only for them
  have hopened : dropLineEnd (if '\n' ∈ cs then '\n' :: inner else inner) = inner := by
    split
    · rfl
    · rename_i hend
      refine dropLineEnd_eq_self fun c hc => ?_
      cases hbody : bodyOf form cs with
      | nil =>
          have hc : c = form.quote := by simpa [inner, hbody, eq_comm] using hc
          rwa [hc]
      | cons d ds =>
          have hc : c = d := by simpa [inner, hbody, eq_comm] using hc
          rcases h.first d (by rw [hbody]; rfl) with ⟨hd, -⟩ | ⟨-, hreturn, hnewline⟩
          · rwa [hc, hd]
          · rw [hc]
            exact ⟨fun heq => hend (hnewline heq), hreturn⟩
  have hscan : scan? form .plain [] inner = some (cs, rest) :=
    scan?_long hlong h (Nat.zero_le 2) hrest
  rw [hquoted, readText?_long hq, hopened, ← hform, hscan]
  rfl

/-- What is spelled between the quotes of a form is read as the text. -/
theorem readText?_quotedChars (hq : form.quote = '"' ∨ form.quote = '\'')
    (h : Spells form 0 cs (bodyOf form cs)) (hrest : rest.head? ≠ some form.quote) :
    readText? true (quotedChars form cs ++ rest) = some (String.ofList cs, rest) := by
  cases hlong : form.isLong with
  | false => exact readText?_quotedChars_short hq hlong h hrest
  | true => exact readText?_quotedChars_long hq hlong h hrest

/-- Between single quotes a character stands for itself unless it needs an escape. -/
theorem isPlain_literal {isLong : Bool} (hquote : c ≠ '\'') (hescape : needsEscape c = false)
    (hend : isLong = false → c ≠ '\n') : IsPlain ⟨'\'', isLong⟩ c := by
  refine ⟨hquote, fun h => Bool.noConfusion (h : false = true), fun hcontrol => ?_⟩
  have hnewline : c = '\n' := by simpa [needsEscape, hcontrol] using hescape
  refine ⟨hnewline, ?_⟩
  cases isLong with
  | false => exact absurd hnewline (hend rfl)
  | true => rfl

/-- The form that is chosen for a text can hold it. -/
theorem formFor_fits (cs : List Char) :
    ((formFor cs).quote = '"' ∨ (formFor cs).quote = '\'') ∧
      Spells (formFor cs) 0 cs (bodyOf (formFor cs) cs) := by
  unfold formFor
  dsimp only
  -- the escapes of a form between double quotes can spell every text, so only the forms between
  -- single quotes need what has been checked
  split
  · exact ⟨.inl rfl, spells_escapeChars false 0 cs⟩
  split
  · rename_i h
    simp only [Bool.and_eq_true, Bool.not_eq_true', List.any_eq_false, List.contains_eq_mem,
      decide_eq_false_iff_not] at h
    obtain ⟨⟨hescape, hend⟩, hquote⟩ := h
    exact ⟨.inr rfl, spells_self (fun c hm => isPlain_literal (fun heq => hquote (heq ▸ hm))
      (by simpa using hescape c hm) fun _ heq => hend (heq ▸ hm)) 0⟩
  split
  · exact ⟨.inl rfl, spells_escapeChars true 0 cs⟩
  split
  · rename_i h
    simp only [Bool.and_eq_true, Bool.not_eq_true', List.any_eq_false, decide_eq_true_eq] at h
    obtain ⟨hescape, hrun⟩ := h
    refine ⟨.inr rfl, spells_self_long rfl (fun c hm => ?_) hrun⟩
    by_cases hquote : c = '\''
    · exact .inl hquote
    · exact .inr (isPlain_literal hquote (by simpa using hescape c hm) fun h => Bool.noConfusion h)
  · exact ⟨.inl rfl, spells_escapeChars _ 0 cs⟩

theorem renderText_first (text : String) :
    ∃ q more, (renderText text).toList = q :: more ∧ (q = '"' ∨ q = '\'') := by
  have hquote := (formFor_fits text.toList).1
  rw [renderText, String.toList_ofList]
  unfold quotedChars
  dsimp only
  cases (formFor text.toList).isLong with
  | false => exact ⟨_, _, rfl, hquote⟩
  | true =>
      cases text.toList.contains '\n' with
      | false => exact ⟨_, _, rfl, hquote⟩
      | true => exact ⟨_, _, rfl, hquote⟩

/-- **A text in quotes comes back,** whatever follows it but quotes. -/
theorem readText?_renderText (text : String) (hrest : ∀ c ∈ rest.head?, c ≠ '"' ∧ c ≠ '\'') :
    readText? true ((renderText text).toList ++ rest) = some (text, rest) := by
  obtain ⟨hquote, hspells⟩ := formFor_fits text.toList
  have hfollows : rest.head? ≠ some (formFor text.toList).quote := by
    intro hhead
    have hne := hrest _ hhead
    exact hquote.elim hne.1 hne.2
  rw [renderText, String.toList_ofList, readText?_quotedChars hquote hspells hfollows,
    String.ofList_toList]

end StubGen.Toml
