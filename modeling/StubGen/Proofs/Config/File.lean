import StubGen.Config.File
import StubGen.Proofs.Result
import StubGen.Proofs.Toml.Documents

/-!
# The settings file comes back

A settings file has a slot for each setting, which is empty if the setting is absent. The filled
ones are the entries of the document that is written, so that reading it finds under each key what
was in its slot: `parse?_render`, for every file.
-/

namespace StubGen.ConfigFile

open Toml (Entry Value IsSpelling)

/-! ## Slots -/

/-- A setting that is there. -/
structure Content where
  spelling : List Char
  value : Value
  isSpelling : IsSpelling spelling value

/-- A place for a setting. -/
structure Slot where
  key : String
  content : Option Content

namespace Slot

/-- What is written for a slot. -/
def written (slot : Slot) : Option Entry :=
  slot.content.map fun content => ⟨slot.key, content.spelling, content.value⟩

/-- The line of a slot, nothing for an empty one. -/
def line (slot : Slot) : List Char := slot.written.toList.flatMap Entry.line

variable {slot : Slot} {slots : List Slot}

theorem key_of_written {entry : Entry} (h : slot.written = some entry) : entry.key = slot.key := by
  obtain ⟨content, -, rfl⟩ := Option.map_eq_some_iff.mp h
  rfl

/-- The keys that are written are among those of the slots, in their order. -/
theorem keys_sublist (slots : List Slot) :
    ((slots.filterMap written).map Entry.key).Sublist (slots.map Slot.key) := by
  induction slots with
  | nil => exact .slnil
  | cons slot slots ih =>
      cases h : slot.written with
      | none =>
          rw [List.filterMap_cons_none h]
          exact ih.cons slot.key
      | some entry =>
          rw [List.filterMap_cons_some h, List.map_cons, List.map_cons, key_of_written h]
          exact ih.cons_cons slot.key

/-- What is written for slots with different keys has under each key what is in its slot. -/
theorem lookup_of_mem (hkeys : (slots.map Slot.key).Nodup) (hm : slot ∈ slots) :
    ((slots.filterMap written).map Entry.binding).lookup slot.key =
      slot.content.map Content.value := by
  induction slots with
  | nil => exact absurd hm List.not_mem_nil
  | cons first slots ih =>
      obtain ⟨hnew, hkeys⟩ := List.nodup_cons.mp hkeys
      rcases List.mem_cons.mp hm with rfl | hm
      · cases hcontent : slot.content with
        | none =>
            -- nothing is written for the slot, and none of the others has its key
            have hnone : slot.written = none := by rw [written, hcontent, Option.map_none]
            rw [List.filterMap_cons_none hnone, Option.map_none, List.lookup_eq_none_iff]
            intro binding hb
            rw [bne_iff_ne]
            intro heq
            apply hnew
            rw [heq]
            apply (keys_sublist slots).subset
            obtain ⟨entry, hentry, rfl⟩ := List.mem_map.mp hb
            exact List.mem_map_of_mem hentry
        | some content =>
            have hsome : slot.written = some ⟨slot.key, content.spelling, content.value⟩ := by
              rw [written, hcontent, Option.map_some]
            rw [List.filterMap_cons_some hsome, List.map_cons, Entry.binding,
              List.lookup_cons_self, Option.map_some]
      · have hne : slot.key ≠ first.key := fun heq =>
          hnew (heq ▸ List.mem_map_of_mem hm)
        rw [← ih hkeys hm]
        cases hentry : first.written with
        | none => rw [List.filterMap_cons_none hentry]
        | some entry =>
            have hkey := key_of_written hentry
            rw [List.filterMap_cons_some hentry, List.map_cons, Entry.binding, List.lookup_cons]
            rw [show (slot.key == entry.key) = false by simpa [hkey] using hne]

/-- The entries stand on the lines of their slots. -/
theorem flatMap_line (slots : List Slot) :
    (slots.filterMap written).flatMap Entry.line = slots.flatMap line := by
  induction slots with
  | nil => rfl
  | cons slot slots ih =>
      rw [List.flatMap_cons, ← ih, line]
      cases h : slot.written with
      | none => rw [List.filterMap_cons_none h]; rfl
      | some entry => rw [List.filterMap_cons_some h]; simp

end Slot

/-! ## The slots of a settings file -/

/-- A text that is set. -/
def textContent (text : String) : Content :=
  ⟨(Toml.renderText text).toList, .text text, Toml.isSpelling_text text⟩

/-- Texts that are set. -/
def textsContent (texts : List String) : Content :=
  ⟨'[' :: (Toml.listBody texts ++ [']']), .array (texts.map .text), Toml.isSpelling_texts texts⟩

/-- A truth value that is set. -/
def booleanContent (value : Bool) : Content :=
  ⟨(if value then "true" else "false").toList, .boolean value, Toml.isSpelling_boolean value⟩

def slots (file : ConfigFile) : List Slot :=
  [⟨"api_key", file.apiKey.map textContent⟩,
   ⟨"api_base_url", file.baseUrl.map textContent⟩,
   ⟨"output_dir", file.outputDirectory.map textContent⟩,
   ⟨"package_name", file.packageName.map textContent⟩,
   ⟨"schema_engine", file.schemaEngine.map textsContent⟩,
   ⟨"allow_custom_hosts", some (booleanContent file.allowsCustomHosts)⟩]

/-- The entries of the document that is written. -/
def entries (file : ConfigFile) : List Entry := file.slots.filterMap Slot.written

variable {file : ConfigFile}

theorem keys_slots (file : ConfigFile) : file.slots.map Slot.key =
    ["api_key", "api_base_url", "output_dir", "package_name", "schema_engine",
      "allow_custom_hosts"] := rfl

theorem nodup_keys (file : ConfigFile) : (file.slots.map Slot.key).Nodup := by
  rw [keys_slots]
  decide

theorem isSound_of_mem {entry : Entry} (hm : entry ∈ file.entries) :
    entry.IsSound := by
  obtain ⟨slot, hslot, hentry⟩ := List.mem_filterMap.mp hm
  have hkeys : (file.slots.map Slot.key).all (fun key =>
      !key.toList.isEmpty && key.toList.all Toml.isBareKeyChar) = true := by
    rw [keys_slots]
    decide
  have hkey := List.all_eq_true.mp hkeys slot.key (List.mem_map_of_mem hslot)
  rw [Bool.and_eq_true, Bool.not_eq_true', List.isEmpty_eq_false_iff, List.all_eq_true] at hkey
  obtain ⟨content, hcontent, rfl⟩ := Option.map_eq_some_iff.mp hentry
  exact ⟨hkey.1, hkey.2, content.isSpelling⟩

/-! ## Writing -/

/-- A list of texts is written in brackets. -/
theorem toList_renderList (texts : List String) :
    (renderList texts).toList = '[' :: (Toml.listBody texts ++ [']']) := by
  match texts with
  | [] => rfl
  | [text] => simp [renderList, Toml.listBody]
  | first :: second :: texts =>
      simp [renderList, Toml.listBody, Toml.rows, String.toList_join, List.flatMap_map]

/-- The line of a setting is that of its slot. -/
theorem toList_line {spelling : String} {content : Content}
    (h : content.spelling = spelling.toList) (key : String) :
    (line key (some spelling)).toList = Slot.line ⟨key, some content⟩ := by
  simp [line, Slot.line, Slot.written, Entry.line, h]

theorem toList_line_map {α : Type} {render : α → String} {content : α → Content}
    (h : ∀ a, (content a).spelling = (render a).toList) (key : String) (value : Option α) :
    (line key (value.map render)).toList = Slot.line ⟨key, value.map content⟩ := by
  cases value with
  | none => rfl
  | some a => exact toList_line (h a) key

theorem toList_render (file : ConfigFile) :
    file.render.toList = file.entries.flatMap Entry.line := by
  have htext (text : String) : (textContent text).spelling = (Toml.renderText text).toList := by
    rw [textContent]
  have htexts (texts : List String) :
      (textsContent texts).spelling = (renderList texts).toList := by
    rw [textsContent, toList_renderList]
  have hboolean (value : Bool) :
      (booleanContent value).spelling = (if value then "true" else "false").toList := by
    rw [booleanContent]
  rw [entries, Slot.flatMap_line]
  simp [render, slots, toList_line_map htext, toList_line_map htexts, toList_line (hboolean _)]

/-! ## Reading -/

/-- A slot is read as what is in it. -/
theorem field?_slot {α : Type} {key : String} {value : Option α} {content : α → Content}
    {read : Value → Option α} (hm : ⟨key, value.map content⟩ ∈ file.slots)
    (hread : ∀ a, read (content a).value = some a) :
    field? (file.entries.map Entry.binding) key read = some value := by
  have hlookup : (file.entries.map Entry.binding).lookup key =
      (value.map content).map Content.value := Slot.lookup_of_mem file.nodup_keys hm
  unfold field?
  rw [hlookup]
  cases value with
  | none => rfl
  | some a => exact congrArg (Option.map some) (hread a)

theorem field?_text (file : ConfigFile) (key : String) (value : Option String)
    (hm : ⟨key, value.map textContent⟩ ∈ file.slots) :
    field? (file.entries.map Entry.binding) key text? = some value :=
  field?_slot hm fun text => by rw [textContent, text?]

theorem field?_texts (file : ConfigFile) (key : String) (value : Option (List String))
    (hm : ⟨key, value.map textsContent⟩ ∈ file.slots) :
    field? (file.entries.map Entry.binding) key texts? = some value :=
  field?_slot hm fun texts => by
    have hread : (texts.map Value.text).mapM text? = some texts :=
      Result.mapM_map_eq_some fun _ _ => rfl
    rw [textsContent, texts?, hread]

theorem field?_boolean (file : ConfigFile) (key : String) (value : Option Bool)
    (hm : ⟨key, value.map booleanContent⟩ ∈ file.slots) :
    field? (file.entries.map Entry.binding) key boolean? = some value :=
  field?_slot hm fun value => by rw [booleanContent, boolean?]

/-- **Every settings file comes back from what is written for it.** -/
theorem parse?_render (file : ConfigFile) : parse? file.render = some file := by
  have hkeys : (file.entries.map Entry.key).Nodup :=
    file.nodup_keys.sublist (Slot.keys_sublist file.slots)
  have hdocument := Toml.parse?_document file.toList_render (fun _ => isSound_of_mem) hkeys
  have hapiKey := file.field?_text "api_key" file.apiKey (by simp [slots])
  have hbaseUrl := file.field?_text "api_base_url" file.baseUrl (by simp [slots])
  have houtput := file.field?_text "output_dir" file.outputDirectory (by simp [slots])
  have hpackage := file.field?_text "package_name" file.packageName (by simp [slots])
  have hengine := file.field?_texts "schema_engine" file.schemaEngine (by simp [slots])
  have hcustom := file.field?_boolean "allow_custom_hosts" (some file.allowsCustomHosts)
    (by simp [slots])
  rw [parse?, hdocument, Option.bind_some, ofEntries?, hapiKey, hbaseUrl, houtput, hpackage,
    hengine, hcustom]
  rfl

end StubGen.ConfigFile
