import Mathlib.Algebra.Order.BigOperators.Group.List
import StubGen.Proofs.Schema.Enumerations
import StubGen.Proofs.Schema.FieldKeys
import StubGen.Proofs.Stub.Tables

/-!
# When a row is read back

What is read of a row is what is said last on each key (`lastWords`), and all that a line of it is
taken for counts as said. The row is read back, each property with the type that the engine gave it
and nothing else, exactly if it can be told from its text (`Faithful`): `fields_perm_iff`. A class
can if each remark in a documentation that is taken for a field is overruled by a field below it. A
list of keys can if each key is legible: an escape in a key is read as it is written, so the keys
that are read would have more backslashes than the properties, and no key is read with a `: `. Rows
that are misread for either reason are in `misread_contacts`.
-/

namespace StubGen

open Schema
open Schema.Declaration (linesOf)

variable {name row : String} {doc : Option String} {fields : List Field}

namespace Row

/-! ## The last word on each key -/

/-- What is said last on each key. -/
def lastWords (said : List (String × String)) : List (String × String) :=
  said.pwFilter fun word later => word.1 ≠ later.1

theorem map_fst_lastWords_subset (said : List (String × String)) :
    (lastWords said).map Prod.fst ⊆ said.map Prod.fst :=
  ((List.pwFilter_sublist said).map Prod.fst).subset

theorem nodup_lastWords (said : List (String × String)) :
    ((lastWords said).map Prod.fst).Nodup :=
  List.pairwise_map.mpr (List.pairwise_pwFilter said)

theorem lastWords_cons_of_not_mem {word : String × String} {later : List (String × String)}
    (h : word.1 ∉ later.map Prod.fst) : lastWords (word :: later) = word :: lastWords later := by
  refine List.pwFilter_cons_of_pos fun other hm heq => h ?_
  exact heq ▸ map_fst_lastWords_subset later (List.mem_map_of_mem hm)

theorem map_fst_subset_lastWords (said : List (String × String)) :
    said.map Prod.fst ⊆ (lastWords said).map Prod.fst := by
  induction said with
  | nil => exact List.Subset.refl _
  | cons word later ih =>
      by_cases h : ∀ other ∈ lastWords later, word.1 ≠ other.1
      · rw [lastWords, List.pwFilter_cons_of_pos h]
        exact List.cons_subset_cons _ ih
      · rw [lastWords, List.pwFilter_cons_of_neg h]
        refine List.cons_subset.mpr ⟨?_, ih⟩
        simp only [ne_eq, not_forall, not_not] at h
        obtain ⟨other, hm, heq⟩ := h
        exact heq ▸ List.mem_map_of_mem hm

theorem lastWords_cons_of_mem {word : String × String} {later : List (String × String)}
    (h : word.1 ∈ later.map Prod.fst) : lastWords (word :: later) = lastWords later := by
  refine List.pwFilter_cons_of_neg fun hnone => ?_
  obtain ⟨other, hm, heq⟩ := List.mem_map.mp (map_fst_subset_lastWords later h)
  exact hnone other hm heq.symm

/-- Where nothing is said twice, everything is a last word. -/
theorem lastWords_of_nodup {said : List (String × String)} (h : (said.map Prod.fst).Nodup) :
    lastWords said = said :=
  List.pwFilter_eq_self.mpr (List.pairwise_map.mp h)

/-- What is stored for a column takes the place of what was. -/
theorem put_perm {stored : List (String × String)} (h : (stored.map Prod.fst).Nodup)
    (column type : String) : (put stored column type).Perm
      ((column, type) :: stored.filter fun field => field.1 ≠ column) := by
  induction stored with
  | nil => exact .refl _
  | cons field stored ih =>
      obtain ⟨c, t⟩ := field
      obtain ⟨hfresh, hrest⟩ := List.nodup_cons.mp h
      rw [put]
      by_cases hc : c = column
      · have hkept : (stored.filter fun field => field.1 ≠ column) = stored :=
          List.filter_eq_self.mpr fun field hm => decide_eq_true fun heq =>
            hfresh (List.mem_map.mpr ⟨field, hm, heq.trans hc.symm⟩)
        rw [if_pos hc, List.filter_cons_of_neg (by simp [hc]), hkept, hc]
      · rw [if_neg hc, List.filter_cons_of_pos (by simp [hc])]
        exact ((ih hrest).cons _).trans (.swap _ _ _)

theorem nodup_put {stored : List (String × String)} (h : (stored.map Prod.fst).Nodup)
    (column type : String) : ((put stored column type).map Prod.fst).Nodup := by
  rw [((put_perm h column type).map Prod.fst).nodup_iff, List.map_cons, List.nodup_cons]
  refine ⟨fun hm => ?_, h.sublist (List.filter_sublist.map Prod.fst)⟩
  obtain ⟨field, hfield, heq⟩ := List.mem_map.mp hm
  exact of_decide_eq_true (List.mem_filter.mp hfield).2 heq

/-- What is stored in turn is the last word on each key, beside what nothing is said of. -/
theorem putAll_perm {stored : List (String × String)} (h : (stored.map Prod.fst).Nodup)
    (said : List (String × String)) : (putAll stored said).Perm
      ((stored.filter fun field => field.1 ∉ said.map Prod.fst) ++ lastWords said) := by
  induction said generalizing stored with
  | nil => simp [putAll, lastWords]
  | cons word later ih =>
      obtain ⟨column, type⟩ := word
      have hstored := (put_perm h column type).filter fun field => field.1 ∉ later.map Prod.fst
      have hfilter : ((stored.filter fun field => field.1 ≠ column).filter
          fun field => field.1 ∉ later.map Prod.fst) =
            stored.filter fun field => field.1 ∉ ((column, type) :: later).map Prod.fst := by
        rw [List.filter_filter]
        refine List.filter_congr fun field _ => ?_
        rw [← Bool.decide_and, decide_eq_decide, List.map_cons, List.mem_cons, not_or, and_comm]
      refine (ih (nodup_put h column type)).trans ((hstored.append_right _).trans ?_)
      by_cases hm : column ∈ later.map Prod.fst
      · rw [List.filter_cons_of_neg (by simpa using hm), hfilter, lastWords_cons_of_mem hm]
      · rw [List.filter_cons_of_pos (by simpa using hm), hfilter, lastWords_cons_of_not_mem hm]
        exact List.perm_middle.symm

/-- **What is read is the last word on each key.** -/
theorem putAll_nil_perm (said : List (String × String)) :
    (putAll [] said).Perm (lastWords said) := by
  have hnone : (([] : List (String × String)).map Prod.fst).Nodup := List.nodup_nil
  exact putAll_perm hnone said

/-! ## Records that are told from their text -/

theorem map_fst_entry (fields : List Field) :
    (fields.map entry).map Prod.fst = fields.map Field.name := by
  rw [List.map_map]
  rfl

/-- A class is read as its fields exactly if the last word on each key is a field's. -/
theorem putAll_sayings_perm_iff (doc : Option String) (hnodup : (fields.map Field.name).Nodup) :
    (putAll [] (sayings doc fields)).Perm (fields.map entry) ↔
      lastWords (sayings doc fields) ⊆ fields.map entry := by
  have hlast := putAll_nil_perm (sayings doc fields)
  have hkeys : ((fields.map entry).map Prod.fst).Nodup := map_fst_entry fields ▸ hnodup
  refine ⟨fun h => (hlast.symm.trans h).subset, fun hsub => hlast.trans ?_⟩
  refine (List.perm_ext_iff_of_nodup (nodup_lastWords _).of_map hkeys.of_map).mpr fun said =>
    ⟨fun hm => hsub hm, fun hm => ?_⟩
  -- something is said last on the key of the field, and that is a field with the same key
  have hsaid : said ∈ sayings doc fields := by
    obtain ⟨field, hfield, rfl⟩ := List.mem_map.mp hm
    exact entry_mem_sayings doc hfield
  obtain ⟨word, hword, heq⟩ :=
    List.mem_map.mp (map_fst_subset_lastWords _ (List.mem_map_of_mem hsaid))
  exact List.inj_on_of_nodup_map hkeys (hsub hword) hm heq ▸ hword

/-! ### Keys in quotes -/

/-- Only quotes are taken off. -/
theorem exists_quotes_unquote (cs : List Char) : ∃ lead tail, cs = lead ++ unquote cs ++ tail ∧
    ∀ c ∈ lead ++ tail, c = '"' := by
  let rest := cs.dropWhile (· = '"')
  have hquote : ∀ {c : Char} {ds : List Char}, c ∈ ds.takeWhile (· = '"') → c = '"' := fun hm => by
    simpa using List.mem_takeWhile_imp hm
  refine ⟨cs.takeWhile (· = '"'), (rest.reverse.takeWhile (· = '"')).reverse, ?_, fun c hm => ?_⟩
  · have hrest : rest = unquote cs ++ (rest.reverse.takeWhile (· = '"')).reverse := by
      rw [unquote, ← List.reverse_append, List.takeWhile_append_dropWhile, List.reverse_reverse]
    rw [List.append_assoc, ← hrest, List.takeWhile_append_dropWhile]
  · rcases List.mem_append.mp hm with hm | hm
    · exact hquote hm
    · exact hquote (List.mem_reverse.mp hm)

theorem infix_unquote (cs : List Char) : unquote cs <:+: cs := by
  obtain ⟨lead, tail, heq, -⟩ := exists_quotes_unquote cs
  exact ⟨lead, tail, heq.symm⟩

theorem count_unquote (cs : List Char) : (unquote cs).count '\\' = cs.count '\\' := by
  obtain ⟨lead, tail, heq, hquotes⟩ := exists_quotes_unquote cs
  have hnone : ∀ ds ⊆ lead ++ tail, ds.count '\\' = 0 := fun ds hsub =>
    List.count_eq_zero.mpr fun hm => absurd (hquotes _ (hsub hm)) (by decide)
  conv => rhs; rw [heq]
  simp [hnone lead (List.subset_append_left _ _), hnone tail (List.subset_append_right _ _)]

/-- No key that is read has a `: ` in it. -/
theorem cutAtColon_listing_fst (field : Field) : cutAtColon (listing field).1.toList = none := by
  have hunquoted : ∀ {cs : List Char}, cutAtColon cs = none →
      cutAtColon (String.ofList (unquote cs)).toList = none := by
    intro cs h
    rw [String.toList_ofList, cutAtColon_eq_none_iff]
    exact fun hcut => cutAtColon_eq_none_iff.mp h (hcut.trans (infix_unquote cs))
  unfold listing
  cases hcut : cutAtColon (Quoting.literal field.name).toList with
  | none => exact hunquoted hcut
  | some found => exact hunquoted (cutAtColon_eq_some hcut).2

/-- The characters that a literal has escapes for. -/
def escaped : List Char := ['\\', '\n', '\r', '\t', '"']

theorem count_escapeChar (c : Char) : (Quoting.escapeChar '"' c).count '\\' =
    [c].count '\\' + if c ∈ escaped then 1 else 0 := by
  by_cases hm : c ∈ escaped
  · rw [if_pos hm]
    simp only [escaped, List.mem_cons, List.not_mem_nil, or_false] at hm
    rcases hm with rfl | rfl | rfl | rfl | rfl <;> rfl
  · simp only [escaped, List.mem_cons, List.not_mem_nil, or_false, not_or] at hm
    simp [Quoting.escapeChar, hm, escaped]

theorem count_escaped (cs : List Char) : (cs.flatMap (Quoting.escapeChar '"')).count '\\' =
    cs.count '\\' + cs.countP (· ∈ escaped) := by
  induction cs with
  | nil => rfl
  | cons c cs ih =>
      have hcons : (c :: cs).count '\\' = [c].count '\\' + cs.count '\\' := by
        rw [← List.count_append, List.singleton_append]
      rw [List.flatMap_cons, List.count_append, ih, count_escapeChar, List.countP_cons, hcons]
      simp only [decide_eq_true_eq]
      omega

/-- Each escape in a literal is one more backslash. -/
theorem count_literal (name : String) : (Quoting.literal name).toList.count '\\' =
    name.toList.count '\\' + name.toList.countP (· ∈ escaped) := by
  rw [Quoting.literal, Quoting.quoted, String.toList_ofList, List.cons_append, List.count_cons,
    List.count_append, count_escaped]
  rfl

/-- A character is written as it is, or as a backslash and another sign. -/
theorem escapeChar_cases (c : Char) : (c ∉ escaped ∧ Quoting.escapeChar '"' c = [c]) ∨
    ∃ d, Quoting.escapeChar '"' c = ['\\', d] ∧ d ≠ ':' := by
  by_cases hm : c ∈ escaped
  · simp only [escaped, List.mem_cons, List.not_mem_nil, or_false] at hm
    rcases hm with rfl | rfl | rfl | rfl | rfl <;> exact .inr ⟨_, rfl, by decide⟩
  · have hplain := hm
    simp only [escaped, List.mem_cons, List.not_mem_nil, or_false, not_or] at hplain
    exact .inl ⟨hm, by simp [Quoting.escapeChar, hplain]⟩

/-- Escaped characters have no `: ` in them if they had none before, and none with a quote behind
them. -/
theorem cutAtColon_escaped {cs : List Char} (h : cutAtColon cs = none) :
    cutAtColon (cs.flatMap (Quoting.escapeChar '"') ++ ['"']) = none := by
  induction cs with
  | nil => rfl
  | cons c cs ih =>
      rw [cutAtColon_eq_none_iff, List.infix_cons_iff, not_or, ← cutAtColon_eq_none_iff] at h
      have hrest := ih h.2
      rw [List.flatMap_cons, List.append_assoc]
      rcases escapeChar_cases c with ⟨-, hpiece⟩ | ⟨d, hpiece, hd⟩
      · rw [hpiece, List.singleton_append, cutAtColon_cons, hrest]
        · rfl
        -- behind a colon stands the first sign of what comes next, a space only for a space
        · rintro ⟨rest, heq⟩
          obtain ⟨rfl, hspace⟩ := List.cons.inj heq
          cases cs with
          | nil => exact absurd (List.cons.inj hspace).1 (by decide)
          | cons e cs =>
              rw [List.flatMap_cons] at hspace
              rcases escapeChar_cases e with ⟨-, hnext⟩ | ⟨d, hnext, -⟩
              · rw [hnext] at hspace
                obtain ⟨rfl, -⟩ := List.cons.inj hspace
                exact h.1 ⟨cs, rfl⟩
              · rw [hnext] at hspace
                exact absurd (List.cons.inj hspace).1 (by decide)
      · rw [hpiece, List.cons_append, List.singleton_append, cutAtColon_cons, cutAtColon_cons,
          hrest]
        · rfl
        · rintro ⟨rest, heq⟩
          exact hd (List.cons.inj heq).1.symm
        · rintro ⟨rest, heq⟩
          exact absurd (List.cons.inj heq).1 (by decide)

/-- A literal has no `: ` in it if the text has none. -/
theorem cutAtColon_literal {name : String} (h : cutAtColon name.toList = none) :
    cutAtColon (Quoting.literal name).toList = none := by
  rw [Quoting.literal, Quoting.quoted, String.toList_ofList, List.cons_append, cutAtColon_cons,
    cutAtColon_escaped h]
  · rfl
  · rintro ⟨rest, heq⟩
    exact absurd (List.cons.inj heq).1 (by decide)

/-- Reading a key that can be read whole leaves each of its escapes. -/
theorem count_listing {field : Field} (h : cutAtColon field.name.toList = none) :
    (listing field).1.toList.count '\\' =
      field.name.toList.count '\\' + field.name.toList.countP (· ∈ escaped) := by
  unfold listing
  rw [cutAtColon_literal h]
  dsimp only
  rw [String.toList_ofList, count_unquote, count_literal]

theorem legible_iff {key : String} :
    Legible key ↔ cutAtColon key.toList = none ∧ key.toList.countP (· ∈ escaped) = 0 := by
  rw [List.countP_eq_zero]
  simp only [decide_eq_true_eq]
  exact ⟨fun h => ⟨h.whole, h.plain⟩, fun h => ⟨h.2, h.1⟩⟩

/-- If a list of keys is read as its fields, each line is read as a key of its own. -/
theorem listed_perm (h : (putAll [] (fields.map listing)).Perm (fields.map entry)) :
    (fields.map fun field => (listing field).1).Perm (fields.map Field.name) := by
  have hlast := putAll_nil_perm (fields.map listing)
  -- as many keys are read as there are lines, so no line is overruled
  have hlength : (lastWords (fields.map listing)).length = (fields.map listing).length := by
    rw [(hlast.symm.trans h).length_eq, List.length_map, List.length_map]
  have hall := (List.pwFilter_sublist _).eq_of_length hlength
  rw [lastWords, hall] at hlast
  have hfirst := (hlast.symm.trans h).map Prod.fst
  rwa [map_fst_entry, List.map_map] at hfirst

/-- Keys that are read as what they are, in whatever order, are legible. -/
theorem legible_of_listed_perm
    (hkeys : (fields.map fun field => (listing field).1).Perm (fields.map Field.name)) :
    ∀ field ∈ fields, Legible field.name := by
  have hwhole : ∀ field ∈ fields, cutAtColon field.name.toList = none := by
    intro field hm
    obtain ⟨other, -, heq⟩ := List.mem_map.mp (hkeys.symm.subset (List.mem_map_of_mem hm))
    rw [← heq]
    exact cutAtColon_listing_fst other
  -- the keys that are read have as many backslashes as the names, so no name has an escape
  have hsum : (fields.map fun field => (listing field).1.toList.count '\\').sum =
      (fields.map fun field => field.name.toList.count '\\').sum := by
    have hcounts := (hkeys.map fun key => key.toList.count '\\').sum_eq
    simpa only [List.map_map, Function.comp_def] using hcounts
  have hle : ∀ other ∈ fields,
      other.name.toList.count '\\' ≤ (listing other).1.toList.count '\\' := by
    intro other hother
    rw [count_listing (hwhole other hother)]
    exact Nat.le_add_right _ _
  intro field hm
  refine legible_iff.mpr ⟨hwhole field hm, ?_⟩
  by_contra hescaped
  have hlt : field.name.toList.count '\\' < (listing field).1.toList.count '\\' := by
    rw [count_listing (hwhole field hm)]
    exact Nat.lt_add_of_pos_right (Nat.pos_of_ne_zero hescaped)
  exact (List.sum_lt_sum _ _ hle ⟨field, hm, hlt⟩).ne hsum.symm

/-- **A list of keys is read as its fields exactly if all keys are legible.** -/
theorem putAll_listing_perm_iff (hnodup : (fields.map Field.name).Nodup) :
    (putAll [] (fields.map listing)).Perm (fields.map entry) ↔
      ∀ field ∈ fields, Legible field.name := by
  refine ⟨fun h => legible_of_listed_perm (listed_perm h), fun h => ?_⟩
  have heq : fields.map listing = fields.map entry :=
    List.map_congr_left fun field hm => (h field hm).listing
  have hkeys : ((fields.map entry).map Prod.fst).Nodup := map_fst_entry fields ▸ hnodup
  have hlast := putAll_nil_perm (fields.map entry)
  rw [lastWords_of_nodup hkeys] at hlast
  rwa [heq]

/-- A row can be told from its text. -/
structure Faithful (doc : Option String) (fields : List Field) : Prop where
  /-- The last word on each key of a class is a field's. -/
  overruled : Declaration.fitsClass fields = true →
    lastWords (sayings doc fields) ⊆ fields.map entry
  /-- The keys of a list of keys are written as they are, and none of them has a `: `. -/
  legible : Declaration.fitsClass fields = false → ∀ field ∈ fields, Legible field.name

theorem putAll_heard_perm_iff (doc : Option String) (hnodup : (fields.map Field.name).Nodup) :
    (putAll [] (heard doc fields)).Perm (fields.map entry) ↔ Faithful doc fields := by
  unfold heard
  cases hfits : Declaration.fitsClass fields with
  | true =>
      refine (putAll_sayings_perm_iff doc hnodup).trans ⟨fun h => ⟨fun _ => h, fun hnot => ?_⟩,
        fun h => h.overruled hfits⟩
      exact absurd (hfits.symm.trans hnot) (by decide)
  | false =>
      refine (putAll_listing_perm_iff hnodup).trans ⟨fun h => ⟨fun hyes => ?_, fun _ => h⟩,
        fun h => h.legible hfits⟩
      exact absurd (hfits.symm.trans hyes) (by decide)

end Row

/-! ## Rows -/

namespace Schema

variable {document : Document} {schema found : Json} {pointer? : Option String}
  {members properties : Members} {final : Scope}

theorem distinct_normalizeMember {item : Json} (h : Json.Distinct item) :
    Json.Distinct (normalizeMember item) := by
  cases item with
  | str text => exact Json.distinct_str _
  | _ => exact h

/-- Normalization leaves the keys of each object as they are. -/
theorem distinct_normalizeEnums (schema : Json) :
    Json.Distinct schema → Json.Distinct (normalizeEnums schema) := by
  induction schema using Json.induction with
  | scalar value harr hobj =>
      have heq : normalizeEnums value = value := by
        cases value with
        | arr items => cases harr
        | obj members => cases hobj
        | _ => rfl
      rw [heq]
      exact id
  | arr items ih =>
      intro h
      rw [normalizeEnums, normalizeItems_eq_map, Json.distinct_arr_iff]
      intro item hm
      obtain ⟨given, hgiven, rfl⟩ := List.mem_map.mp hm
      exact ih given hgiven (Json.distinct_arr_iff.mp h given hgiven)
  | obj members ih =>
      intro h
      obtain ⟨hkeys, hmembers⟩ := Json.distinct_obj_iff.mp h
      rw [normalizeEnums, Json.distinct_obj_iff]
      refine ⟨?_, fun m hm => ?_⟩
      · rw [Members.keys, keys_normalizeMembers]
        exact hkeys
      · rw [normalizeMembers_eq_map] at hm
        obtain ⟨⟨key, value⟩, hgiven, rfl⟩ := List.mem_map.mp hm
        have hvalue := hmembers _ hgiven
        have hnormal := ih _ hgiven hvalue
        dsimp only at hvalue hnormal ⊢
        -- the members of an `enum` are normalized in a way of their own
        by_cases hkey : key = "enum"
        · cases value with
          | arr items =>
              rw [normalizedUnder, if_pos hkey, Json.distinct_arr_iff]
              intro item hm
              obtain ⟨given, hgiven, rfl⟩ := List.mem_map.mp hm
              exact distinct_normalizeMember (Json.distinct_arr_iff.mp hvalue given hgiven)
          | _ => exact hnormal
        · rw [normalizedUnder_of_ne hkey]
          exact hnormal

/-- **The record for the root comes last,** with a field for each property in turn. -/
theorem record_of_finalScope (hroot : rootSchema document = .ok (found, pointer?))
    (hflat : flattenAllOf document.schema found = .ok (.obj members))
    (hp : objectProperties? members = some properties) (hfinal : finalScope document = .ok final) :
    ∃ others fields, final.declarations =
        others ++ [.record document.root (description? (.obj members)) fields] ∧
      List.Forall₂ (fun property field => ∃ type, TypedAs document final property.2 type ∧
        field = fieldOf (requiredNames members) property.1 property.2 type) properties fields := by
  obtain ⟨schema, pointer', hroot', hrun⟩ := exists_of_finalScope hfinal
  obtain ⟨rfl, rfl⟩ := Prod.mk.inj (Except.ok.inj (hroot.symm.trans hroot'))
  obtain ⟨others, d, hlast, hname⟩ := endsWith_declareAs _ _ _ _ _ hrun
  obtain ⟨flat, hflat', ⟨members', properties', rfl, hp', hrecord⟩ | ⟨hnone, -⟩⟩ :=
    declareAs_cases hrun
  · obtain rfl : members = members' := Json.obj.inj (Except.ok.inj (hflat.symm.trans hflat'))
    obtain rfl : properties = properties' := Option.some.inj (hp.symm.trans hp')
    have hfrom : RecordedFrom document final members d :=
      ⟨properties, _, _, _, final, others, hp, hname ▸ hrecord, hlast, .refl final⟩
    obtain ⟨-, fields, heq, hfields⟩ := hfrom.fields hp
    exact ⟨others, fields, by rw [hlast, heq, hname], hfields⟩
  · rw [← Except.ok.inj (hflat.symm.trans hflat')] at hnone
    exact nomatch hnone.symm.trans hp

/-- The name that a row is declared by is none that a line of an import could begin with. -/
theorem tidy_rootName (hne : row ≠ "")
    (hchars : ∀ c ∈ row.toList, Identifier.isIdentifierChar c = true) (schema : Json)
    (fallback : String) : Tidy (rootName schema row fallback) where
  ne_empty := rootName_ne_empty schema row fallback
  chars c hm := by
    have hc := List.all_eq_true.mp (identifierChars_rootName schema row fallback) c hm
    simp [isNamePart, hc]
  notImport hm := by
    rw [rootName_of_identifierChars hne hchars] at hm
    split at hm
    · have hlast : ∀ word ∈ importWords, word.toList.getLast? ≠ some '_' := by decide
      exact hlast _ hm (by simp)
    · rename_i hfree
      have hreserved : ∀ word ∈ importWords, Identifier.isReserved word = true := by decide
      exact hfree (hreserved row hm)

end Schema

namespace Row

/-- **What is read of a row is the last word on each key, and that is the row exactly if it can be
told from its text.** The row comes last of what the engine declares, under its name or, if that is
reserved, one with an underscore, and has a field for each property in turn. -/
theorem fields_perm_iff {schema found : Json} {pointer? : Option String}
    {members properties : Members} {source : String} (hne : row ≠ "")
    (hchars : ∀ c ∈ row.toList, Identifier.isIdentifierChar c = true)
    (hdistinct : Json.Distinct schema)
    (hok : builtinEngine (normalizeEnums schema) (rootName schema row "Dict") = .ok source)
    (hroot : rootSchema ⟨normalizeEnums schema, rootName schema row "Dict", defaultMaxDepth⟩ =
      .ok (found, pointer?))
    (hflat : flattenAllOf (normalizeEnums schema) found = .ok (.obj members))
    (hproperties : objectProperties? members = some properties) :
    let name := rootName schema row "Dict"
    let document : Document := ⟨normalizeEnums schema, name, defaultMaxDepth⟩
    let read := Row.fields (Row.declarations builtinEngine schema row) name
    name = (if Identifier.isReserved row then row ++ "_" else row) ∧
    ∃ final others fields, finalScope document = .ok final ∧
      source = Declaration.renderModule final.declarations ∧
      final.declarations =
        others ++ [.record name (description? (.obj members)) fields] ∧
      List.Forall₂ (fun property field => ∃ type, TypedAs document final property.2 type ∧
        field = fieldOf (requiredNames members) property.1 property.2 type) properties fields ∧
      read.Perm (lastWords (heard (description? (.obj members)) fields)) ∧
      (read.Perm (fields.map entry) ↔ Faithful (description? (.obj members)) fields) := by
  have htidy := tidy_rootName hne hchars schema "Dict"
  have hrow := rootName_of_identifierChars hne hchars schema "Dict"
  generalize hname : rootName schema row "Dict" = name at *
  obtain ⟨blocks, hblocks, hsource⟩ := Result.map_eq_ok_iff.mp hok
  -- the run that declares the row ends with its record
  have hscope := hblocks
  rw [declarations_eq] at hscope
  obtain ⟨final, hfinal, rfl⟩ := Result.map_eq_ok_iff.mp hscope
  obtain ⟨others, fields, hlast, hfields⟩ := record_of_finalScope hroot hflat hproperties hfinal
  have hnodup : (fields.map Field.name).Nodup := by
    rw [names_fieldOf hfields]
    exact nodup_properties (distinct_normalizeEnums schema hdistinct) (.root hroot hflat)
      hproperties
  -- what is read is the last word on each key of what the record is taken to say
  have hread : Row.fields (Row.declarations builtinEngine schema row) name =
      putAll [] (heard (description? (.obj members)) fields) := by
    rw [split_declarations hname htidy hok hblocks]
    exact fields_linesOf hlast (proper_declarations naming_tidy htidy hblocks)
      (closed_declarations hblocks).distinct
  dsimp only
  rw [hread]
  exact ⟨hrow, final, others, fields, hfinal, hsource.symm, hlast, hfields, putAll_nil_perm _,
    putAll_heard_perm_iff _ hnodup⟩

/-- Contacts that are documented over several lines. One of them looks like the field of a column,
and is overruled by that field. -/
def documentedMembers : Members :=
  [("type", .str "object"),
    ("description", .str "Contacts.\nid: as in the old table\n# name: see below"),
    ("properties", .obj
      [("id", .obj [("type", .str "integer")]),
        ("name", .obj
          [("type", .str "string"), ("description", .str "In full.\n\nNo initials.")])]),
    ("required", .arr [.str "id"])]

theorem fields_perm_iff_documented :
    "ContactsRow" ≠ "" ∧ (∀ c ∈ "ContactsRow".toList, Identifier.isIdentifierChar c = true) ∧
    Json.Distinct (.obj documentedMembers) ∧
    (∃ source, builtinEngine (normalizeEnums (.obj documentedMembers)) "ContactsRow" =
      .ok source) ∧
    (Row.fields (Row.declarations builtinEngine (.obj documentedMembers) "ContactsRow")
      "ContactsRow").Perm [("id", "int"), ("name", "str")] := by
  let doc := "Contacts.\nid: as in the old table\n# name: see below"
  let fields : List Field := [⟨"id", .int, true, some "Required property"⟩,
    ⟨"name", .str, false, some "In full.\n\nNo initials."⟩]
  let last : Scope := ⟨["ContactsRow"], [], [.record "ContactsRow" (some doc) fields]⟩
  have hchars : ∀ c ∈ "ContactsRow".toList, Identifier.isIdentifierChar c = true :=
    List.all_eq_true.mp (by decide +kernel)
  have hdistinct : Json.Distinct (.obj documentedMembers) := by
    simp [documentedMembers, Members.keys]
  have hname : rootName (.obj documentedMembers) "ContactsRow" "Dict" = "ContactsRow" :=
    rootName_eq_self (by decide) hchars (by decide) _ _
  -- the run ends with one record, whose documentation has a line that looks like a field
  have hlast :
      finalScope ⟨normalizeEnums (.obj documentedMembers), "ContactsRow", defaultMaxDepth⟩ =
        .ok last := by rfl
  have hok : builtinEngine (normalizeEnums (.obj documentedMembers)) "ContactsRow" =
      .ok (Declaration.renderModule last.declarations) := by
    rw [builtinEngine, generate, declarations_eq, hlast]
    rfl
  have hrow := fields_perm_iff (by decide) hchars hdistinct (hname.symm ▸ hok) rfl rfl rfl
  dsimp only at hrow
  rw [hname] at hrow
  obtain ⟨-, final, others, found, hfinal, -, hdeclared, -, -, hiff⟩ := hrow
  obtain rfl := Except.ok.inj (hlast.symm.trans hfinal)
  obtain ⟨-, hrecord⟩ := List.append_inj' (show [] ++ last.declarations = _ from hdeclared) rfl
  obtain ⟨-, -, rfl⟩ := Declaration.record.inj (List.singleton_inj.mp hrecord)
  refine ⟨by decide, hchars, hdistinct, ⟨_, hok⟩, hiff.mpr ⟨fun _ => ?_, fun hnot => ?_⟩⟩
  · show lastWords (sayings (some doc) fields) ⊆ [("id", "int"), ("name", "str")]
    decide +kernel
  · exact absurd hnot (by decide)

/-- What is read of a row is something else than what the engine has made of it. -/
def Misread (schema : Json) (row : String) : Prop :=
  ∃ others doc fields, Schema.declarations ⟨normalizeEnums schema, row, defaultMaxDepth⟩ =
      .ok (others ++ [.record row doc fields]) ∧
    ¬ (Row.fields (Row.declarations builtinEngine schema row) row).Perm (fields.map entry)

/-- Whether a declaration is a record that is taken to say something else than its fields do. -/
def isMistaken : Declaration → Bool
  | .record _ doc fields => !decide ((putAll [] (heard doc fields)).Perm (fields.map entry))
  | .alias _ _ => false

/-- A row is misread if the record that it comes to is mistaken. -/
theorem Misread.of_isMistaken {schema : Json} (hroot : rootName schema row "Dict" = row)
    (hrow : Tidy row)
    (h : ((Schema.declarations ⟨normalizeEnums schema, row, defaultMaxDepth⟩).toOption.any
      fun blocks => blocks.getLast?.any fun d => d.name == row && isMistaken d) = true) :
    Misread schema row := by
  cases hblocks : Schema.declarations ⟨normalizeEnums schema, row, defaultMaxDepth⟩ with
  | error e =>
      rw [hblocks] at h
      cases h
  | ok blocks =>
      rw [hblocks] at h
      have hlast : (blocks.getLast?.any fun d => d.name == row && isMistaken d) = true := h
      obtain ⟨d, hd, hmistaken⟩ := (Option.any_eq_true _ _).mp hlast
      obtain ⟨others, rfl⟩ := List.getLast?_eq_some_iff.mp hd
      rw [Bool.and_eq_true, beq_iff_eq] at hmistaken
      -- only a record can be mistaken for another
      cases d with
      | record other doc fields =>
          obtain ⟨hname, hmistaken⟩ := hmistaken
          change other = row at hname
          subst hname
          have hok : builtinEngine (normalizeEnums schema) other =
              .ok (Declaration.renderModule (others ++ [.record other doc fields])) := by
            rw [builtinEngine, generate, hblocks]
            rfl
          refine ⟨others, doc, fields, hblocks, ?_⟩
          rw [split_declarations hroot hrow hok hblocks, fields_linesOf rfl
            (proper_declarations naming_tidy hrow hblocks) (closed_declarations hblocks).distinct]
          simpa [isMistaken] using hmistaken
      | _ => exact absurd hmistaken.2 (by simp [isMistaken])

/-- Contacts with a column under a name that another one has in small letters, and a remark on it
behind both. -/
def remarkedContacts : Json :=
  .obj [("type", .str "object"), ("properties", .obj
    [("Address", Renderer.recordSchema "zip" "string"),
      ("address", Renderer.recordSchema "city" "string"),
      ("note", .obj [("type", .str "string"),
        ("description", .str "Where to write.\naddress: the one to use.")])])]

/-- Contacts with two columns that want the same class, one of them under a key with an escape. -/
def tabbedContacts : Json :=
  .obj [("type", .str "object"), ("properties", .obj
    [("a_b", Renderer.recordSchema "zip" "string"),
      ("a\tb", Renderer.recordSchema "city" "string")])]

/-- A remark is read in the place of a column, and a key with an escape as one that is no column. -/
theorem misread_contacts :
    Misread remarkedContacts "ContactsRow" ∧ Misread tabbedContacts "ContactsRow" := by
  have hchars : ∀ c ∈ "ContactsRow".toList, Identifier.isIdentifierChar c = true :=
    List.all_eq_true.mp (by decide +kernel)
  have hroot : ∀ schema, rootName schema "ContactsRow" "Dict" = "ContactsRow" := fun schema =>
    rootName_eq_self (by decide) hchars (by decide) schema "Dict"
  have hrow : Tidy "ContactsRow" := hroot .null ▸ tidy_rootName (by decide) hchars .null "Dict"
  exact ⟨.of_isMistaken (hroot _) hrow (by decide +kernel),
    .of_isMistaken (hroot _) hrow (by decide +kernel)⟩

end Row

end StubGen
