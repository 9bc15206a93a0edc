import StubGen.Proofs.Schema.Closed
import StubGen.Proofs.Schema.Nesting
import StubGen.Proofs.Schema.Origins

/-!
# Where pointers lead

A pointer names a section of the document and, in escaped form, a key in it. The key that is read
off it is the one it was made of, whatever that is: `definitionKey?_pointerTo`. The section is not
read: the key is looked up in the first section and then in the second. So a pointer leads where it
says unless it says the second section and the first one has the key too, and then it does so
wherever it stands: `pointerTo_leadsTo`.
-/

namespace StubGen

namespace Text

/-! ## Escaped keys -/

/-- A character of a key as pointers write it. -/
def pointerChar (c : Char) : List Char :=
  if c = '~' then ['~', '0'] else if c = '/' then ['~', '1'] else [c]

/-- A character of a key of which only the mark itself is still written as pointers do. -/
def markedChar (c : Char) : List Char := if c = '~' then ['~', '0'] else [c]

theorem replaceCharsFrom_slash (cs : List Char) :
    replaceCharsFrom ['~', '1'] ['/'] 0 (cs.flatMap pointerChar) = cs.flatMap markedChar := by
  induction cs with
  | nil => rfl
  | cons c cs ih =>
      rw [List.flatMap_cons, List.flatMap_cons, pointerChar, markedChar]
      by_cases hmark : c = '~'
      · -- the mark is followed by a zero, and neither begins an escaped slash
        simp [hmark, replaceCharsFrom, afterChars?, ih]
      · by_cases hslash : c = '/'
        · simp [hslash, replaceCharsFrom, afterChars?, ih]
        · simp [hmark, hslash, Ne.symm hmark, replaceCharsFrom, afterChars?, ih]

theorem replaceCharsFrom_mark (cs : List Char) :
    replaceCharsFrom ['~', '0'] ['~'] 0 (cs.flatMap markedChar) = cs := by
  induction cs with
  | nil => rfl
  | cons c cs ih =>
      rw [List.flatMap_cons, markedChar]
      by_cases hmark : c = '~'
      · simp [hmark, replaceCharsFrom, afterChars?, ih]
      · simp [hmark, Ne.symm hmark, replaceCharsFrom, afterChars?, ih]

theorem slash_notMem_pointerChars (cs : List Char) : '/' ∉ cs.flatMap pointerChar := by
  intro h
  obtain ⟨c, -, hc⟩ := List.mem_flatMap.mp h
  unfold pointerChar at hc
  split at hc
  · simp at hc
  · split at hc
    · simp at hc
    · rename_i hslash
      exact hslash (List.mem_singleton.mp hc).symm

theorem pointerChars_ne_nil {cs : List Char} (h : cs ≠ []) : cs.flatMap pointerChar ≠ [] := by
  obtain ⟨c, rest, rfl⟩ := List.exists_cons_of_ne_nil h
  rw [List.flatMap_cons, pointerChar]
  split
  · simp
  · split <;> simp

end Text

namespace Schema

open Result

variable {document stored : Json} {place key : String}

/-- A key as pointers write it. -/
def pointerKey (key : String) : String := String.ofList (key.toList.flatMap Text.pointerChar)

/-- The pointer to a key of a section. -/
def pointerTo (place key : String) : String := "#/" ++ place ++ "/" ++ pointerKey key

/-- The sections that schemas are kept in. -/
def places : List String := ["definitions", "$defs"]

/-- What a document keeps under a key of a section. -/
def kept? (document : Json) (place key : String) : Option Json :=
  (document.get? place).bind (Json.get? · key)

theorem unescape_pointerKey (key : String) :
    Text.replace "~0" "~" (Text.replace "~1" "/" (pointerKey key)) = key := by
  have hslash : Text.replace "~1" "/" (pointerKey key) =
      String.ofList (key.toList.flatMap Text.markedChar) := by
    simp [Text.replace, pointerKey, Text.replaceCharsFrom_slash]
  rw [hslash]
  simp [Text.replace, Text.replaceCharsFrom_mark]

/-- **The key is read off a pointer as it is**, whichever section the pointer names. -/
theorem definitionKey?_pointerTo (hplace : place ∈ places) (hkey : key ≠ "") :
    definitionKey? (pointerTo place key) = some key := by
  have hne : key.toList ≠ [] := by simpa using hkey
  have hfound : ((Text.after? "#/definitions/" (pointerTo place key)).orElse fun _ =>
      Text.after? "#/$defs/" (pointerTo place key)) = some (pointerKey key) := by
    rcases List.mem_cons.mp hplace with rfl | hplace
    · simp [Text.after?, Text.afterChars?, pointerTo]
    · obtain rfl := List.mem_singleton.mp hplace
      simp [Text.after?, Text.afterChars?, pointerTo]
  have hsound : ((pointerKey key).isEmpty || (pointerKey key).toList.contains '/') = false := by
    have hslash := Text.slash_notMem_pointerChars key.toList
    have hnil := Text.pointerChars_ne_nil hne
    simp only [pointerKey, String.toList_ofList, Bool.or_eq_false_iff, String.isEmpty_eq_false_iff]
    simp [hnil, hslash]
  unfold definitionKey?
  rw [hfound]
  dsimp only
  rw [hsound, unescape_pointerKey]
  rfl

/-! ## What a pointer stands for -/

/-- A pointer leads to the schema under its key, in the section that comes first of those that have
one. -/
theorem target_pointerTo (hplace : place ∈ places) (hkey : key ≠ "") :
    target document (pointerTo place key) = lookup document (pointerTo place key) key := by
  rw [target, requireKey, definitionKey?_pointerTo hplace hkey]
  rfl

theorem target_of_kept (hplace : place ∈ places) (hkey : key ≠ "")
    (hkept : kept? document place key = some stored)
    (hfirst : place = "definitions" ∨ kept? document "definitions" key = none) :
    target document (pointerTo place key) = .ok stored := by
  have hfound : definition? document key = some stored := by
    change ((kept? document "definitions" key).orElse fun _ => kept? document "$defs" key) = _
    rcases hfirst with rfl | hnone
    · rw [hkept]
      rfl
    · rcases List.mem_cons.mp hplace with rfl | hplace
      · exact nomatch hkept.symm.trans hnone
      · obtain rfl := List.mem_singleton.mp hplace
        rw [hnone, hkept]
        rfl
  rw [target_pointerTo hplace hkey, lookup, hfound]

/-- Wherever a pointer with a key stands in a document, the schema is used for it. -/
structure LeadsTo (document : Json) (pointer key : String) (stored : Json) : Prop where
  /-- Where it has no name yet, the schema is declared for it, whatever else there is. -/
  declared : ∀ root limit typeOf fieldType scope, scope.pointers.lookup pointer = none →
    pointerType ⟨document, root, limit⟩ typeOf fieldType pointer scope = do
      let name := freshName scope.taken (definitionName key)
      let ((), after) ← declareAs document typeOf fieldType name stored (scope.naming pointer name)
      return (.ref name, after)
  /-- It is typed as the name of one block, and that has been made from the schema. -/
  typed : ∀ root limit final schema type, finalScope ⟨document, root, limit⟩ = .ok final →
    schema.getStr? "$ref" = some pointer → TypedAs ⟨document, root, limit⟩ final schema type →
    ∃ block ∈ final.declarations, type = .ref block.name ∧
      (∀ other ∈ final.declarations, other.name = block.name → other = block) ∧
      MadeFrom ⟨document, root, limit⟩ final stored block
  /-- A document that is the pointer to what its root is called has its root made from it. -/
  rooted : document.getStr? "$ref" = some pointer → ∀ limit,
    rootSchema ⟨document, definitionName key, limit⟩ = .ok (stored, some pointer) ∧
      ∀ final, finalScope ⟨document, definitionName key, limit⟩ = .ok final →
        ∃ block ∈ final.declarations, block.name = definitionName key ∧
          MadeFrom ⟨document, definitionName key, limit⟩ final stored block
  /-- Among several parts it counts as the schema. -/
  resolved : ∀ part, part.getStr? "$ref" = some pointer → resolvePart document part = .ok stored
  merged : ∀ parts merged, mergeParts document parts = .ok merged →
    ∃ used, merged = mergedOf used ∧
      List.Forall₂ (fun part schema => resolvePart document part = .ok schema ∧
        (part.getStr? "$ref" = some pointer → schema = stored)) parts used

theorem forall₂_of_mapM {α β ε : Type} {f : α → Except ε β} {items : List α} {results : List β}
    (h : items.mapM f = .ok results) : List.Forall₂ (fun a b => f a = .ok b) items results := by
  induction items generalizing results with
  | nil =>
      rw [mapM_nil_eq_ok_iff.mp h]
      exact .nil
  | cons a items ih =>
      obtain ⟨b, rest, hb, hrest, rfl⟩ := mapM_cons_eq_ok_iff.mp h
      exact .cons hb (ih hrest)

theorem resolvePart_pointer {reference : String} {part : Json}
    (h : part.getStr? "$ref" = some reference) :
    resolvePart document part = target document reference := by
  rw [resolvePart_eq, h]

/-- **A pointer leads to what the document keeps in the place that it names**, as a type, at the
root and among several parts alike, unless it names the second section and the first one has the
key too. -/
theorem pointerTo_leadsTo (hplace : place ∈ places) (hkey : key ≠ "")
    (hkept : kept? document place key = some stored)
    (hfirst : place = "definitions" ∨ kept? document "definitions" key = none) :
    LeadsTo document (pointerTo place key) key stored := by
  have htarget := target_of_kept hplace hkey hkept hfirst
  have hname := definitionKey?_pointerTo hplace hkey
  have hself : pointerTo place key ≠ "#" := by
    have hnone : definitionKey? "#" = none := by decide
    intro hself
    rw [hself, hnone] at hname
    exact nomatch hname
  have hlookup : lookup document (pointerTo place key) key = .ok stored := by
    rw [← target_pointerTo hplace hkey, htarget]
  constructor
  case declared =>
    intro root limit typeOf fieldType scope hnew
    rw [run_pointerType, if_neg hself, hnew]
    dsimp only
    rw [requireKey, hname]
    dsimp only
    rw [ok_bind, hlookup, ok_bind]
  case typed =>
    rintro root limit final schema type hfinal href
      ⟨room, depth, hint, before, after, htype, hgrows⟩
    obtain ⟨name, rfl, hnamed⟩ := nameOf?_of_typeAt htype href
    obtain ⟨found, block, hfound, rfl, hmade⟩ :=
      origin_of_named hfinal (nameOf?_mono hgrows hnamed)
    rw [denoted, if_neg hself, htarget] at hfound
    obtain rfl := Except.ok.inj hfound
    refine ⟨block, hmade.mem, rfl, fun other hm heq => ?_, hmade⟩
    have hdeclared : declarations ⟨document, root, limit⟩ = .ok final.declarations := by
      rw [declarations_eq, hfinal]
      rfl
    exact List.inj_on_of_nodup_map (closed_declarations hdeclared).distinct hm hmade.mem heq
  case rooted =>
    intro href limit
    have hroot : ∀ limit, rootSchema ⟨document, definitionName key, limit⟩ =
        .ok (stored, some (pointerTo place key)) := by
      intro limit
      simp only [rootSchema, href, hname, hlookup, if_pos, ok_bind]
      rfl
    refine ⟨hroot limit, fun final hfinal => ?_⟩
    -- the root is also what a pointer to the whole document is named by
    have hwhole : final.nameOf? (definitionName key) "#" = some (definitionName key) := if_pos rfl
    obtain ⟨found, block, hfound, hblock, hmade⟩ := origin_of_named hfinal hwhole
    obtain ⟨⟨_, _⟩, hfirst, rfl⟩ := map_eq_ok_iff.mp hfound
    obtain ⟨rfl, -⟩ := Prod.mk.inj (Except.ok.inj (hfirst.symm.trans (hroot 0)))
    exact ⟨block, hmade.mem, hblock, hmade⟩
  case resolved =>
    intro part href
    rw [resolvePart_pointer href, htarget]
  case merged =>
    intro parts merged hmerged
    obtain ⟨used, hused, rfl⟩ := mergeParts_eq_ok_iff.mp hmerged
    refine ⟨used, rfl, (forall₂_of_mapM hused).imp fun part schema hschema => ⟨hschema, ?_⟩⟩
    intro href
    rw [resolvePart_pointer href, htarget] at hschema
    exact (Except.ok.inj hschema).symm

/-- A text under a key that has to be escaped. -/
def slashedSchema : Json :=
  .obj [("properties", .obj [("a", .obj [("$ref", .str "#/$defs/a~1~0b")])]),
    ("$defs", .obj [("a/~b", .obj [("type", .str "string")])])]

/-- The first section is missing, and the key has both marks. -/
theorem pointerTo_leadsTo_slashed :
    "$defs" ∈ places ∧ "a/~b" ≠ "" ∧
    kept? slashedSchema "$defs" "a/~b" = some (.obj [("type", .str "string")]) ∧
    ("$defs" = "definitions" ∨ kept? slashedSchema "definitions" "a/~b" = none) ∧
    pointerTo "$defs" "a/~b" = "#/$defs/a~1~0b" ∧
    LeadsTo slashedSchema (pointerTo "$defs" "a/~b") "a/~b" (.obj [("type", .str "string")]) :=
  ⟨by decide, by decide, rfl, .inr rfl, by decide,
    pointerTo_leadsTo (by decide) (by decide) rfl (.inr rfl)⟩

/-- A key that both sections have, and a pointer to the second one. -/
def crossedSchema : Json :=
  .obj [("properties", .obj [("a", .obj [("$ref", .str "#/$defs/A")])]),
    ("definitions", .obj [("A", .obj [("type", .str "string")])]),
    ("$defs", .obj [("A", .obj [("type", .str "integer")])])]

/-- The pointer leads to the text in the first section, not to the number that it names. -/
theorem pointerTo_crosses :
    kept? crossedSchema "$defs" "A" = some (.obj [("type", .str "integer")]) ∧
    ¬ LeadsTo crossedSchema (pointerTo "$defs" "A") "A" (.obj [("type", .str "integer")]) ∧
    generate 48 crossedSchema "Root" = .ok (Declaration.header ++
      "A = str\n\n\nclass Root(TypedDict, total=False):\n    a: \"A\"\n") := by
  refine ⟨rfl, fun h => ?_, ?_⟩
  · have htext : resolvePart crossedSchema (.obj [("$ref", .str "#/$defs/A")]) =
        .ok (.obj [("type", .str "string")]) := by rfl
    have hnumber := h.resolved (.obj [("$ref", .str "#/$defs/A")]) (by rfl)
    have heq := Except.ok.inj (htext.symm.trans hnumber)
    simp at heq
  · refine eq_ok_of_toOption ?_
    decide +kernel

end Schema

end StubGen
