import StubGen.Package.Writer
import StubGen.Proofs.Text.Lines

/-!
# The text of an aggregator

An aggregator begins with a preamble, holds declarations in the order in which they came and
does not import any module twice: `Aggregates`. A writer adds a line that imports a module, if
there is none, or a declaration, both at the end, and both keep it so. That needs the text to end
with a line end, for otherwise what is added might join the last line.
-/

namespace StubGen.PackageWriter

open Renderer (importLine)

variable {content preamble source child name : String} {sources : List String}

/-! ## Imports -/

/-- How many lines of a text import a module. -/
def imports (content name : String) : Nat :=
  (Text.lines content).countP fun line => Text.trimEnd line == importLine name

/-- A text without imports. -/
def Importless (text : String) : Prop := ∀ name, imports text name = 0

/-- A name whose import is a line that does not end with white space. -/
structure Importable (name : String) : Prop where
  nonempty : name ≠ ""
  oneLine : '\n' ∉ name.toList
  trimmed : Text.trimEnd name = name

/-- With a name, that of the module of its types can be imported. -/
theorem Importable.typeModule (h : Importable name) :
    Importable (Identifier.typeModule name) := by
  have hne : name.toList ≠ [] := fun hnil => h.nonempty (String.toList_eq_nil_iff.mp hnil)
  have htrimmed := congrArg String.toList h.trimmed
  rw [Text.trimEnd, String.toList_ofList] at htrimmed
  unfold Identifier.typeModule
  refine ⟨by simp, ?_, ?_⟩
  · rw [String.toList_append, List.mem_append]
    rintro (hm | hm)
    · exact absurd hm (by decide)
    · exact h.oneLine hm
  · rw [Text.trimEnd, String.toList_append, Text.trimEndChars_append_of_self hne htrimmed,
      ← String.toList_append, String.ofList_toList]

theorem toList_importLine (name : String) :
    (importLine name).toList = "from . import ".toList ++ name.toList := String.toList_append

theorem importLine_ne_nil (name : String) : (importLine name).toList ≠ [] := by
  rw [toList_importLine]
  exact List.append_ne_nil_of_left_ne_nil (by decide) _

theorem imports_eq (content name : String) :
    imports content name = Text.occurrences (importLine name).toList content.toList := by
  rw [← Text.countP_lines (importLine_ne_nil name), String.ofList_toList]
  rfl

theorem hasLine_iff : hasLine content (importLine name) = true ↔ 0 < imports content name := by
  unfold hasLine imports
  rw [List.any_eq_true, List.countP_pos_iff]

/-- The import of a module is one line. -/
theorem Importable.newline_not_mem (h : Importable child) : '\n' ∉ (importLine child).toList := by
  rw [toList_importLine, List.mem_append]
  rintro (hm | hm)
  · exact absurd hm (by decide)
  · exact h.oneLine hm

/-- The import of a module does not end with white space if the module's name does not. -/
theorem trimEndChars_importLine (hne : child ≠ "") (htrimmed : Text.trimEnd child = child) :
    Text.trimEndChars (importLine child).toList = (importLine child).toList := by
  have hchars := congrArg String.toList htrimmed
  rw [Text.trimEnd, String.toList_ofList] at hchars
  rw [toList_importLine]
  exact Text.trimEndChars_append_of_self (fun hnil => hne (String.toList_eq_nil_iff.mp hnil))
    hchars _

/-- The import of a module counts as one line of its own. -/
theorem occurrences_importLine (h : Importable child) (name : String) :
    Text.occurrences (importLine name).toList ((importLine child).toList ++ ['\n']) =
      if child = name then 1 else 0 := by
  have hinj : (importLine child).toList = (importLine name).toList ↔ child = name := by
    rw [toList_importLine, toList_importLine, List.append_cancel_left_eq, String.toList_inj]
  rw [Text.occurrences_newline, Text.occurrences_nil (importLine_ne_nil name),
    Text.occurrences_of_not_mem h.newline_not_mem, trimEndChars_importLine h.nonempty h.trimmed]
  simp only [hinj, Nat.add_zero]

/-! ## Texts that end with a line end -/

/-- A text whose last line has ended. -/
def LineClosed (content : String) : Prop :=
  content.toList = [] ∨ ∃ init, content.toList = init ++ ['\n']

theorem lineClosed_closeLine (content : String) : LineClosed (closeLine content) := by
  unfold closeLine
  split
  · rename_i h
    rcases Bool.or_eq_true_iff.mp h with h | h
    · exact .inl (by simpa using h)
    · obtain ⟨init, hinit⟩ := Text.before?_isSome_iff.mp h
      exact .inr ⟨init, hinit.symm⟩
  · exact .inr ⟨content.toList, String.toList_append⟩

/-- What is added to a text whose last line has ended adds its own imports. -/
theorem LineClosed.imports_append (h : LineClosed content) (added name : String) :
    imports (content ++ added) name = imports content name + imports added name := by
  rw [imports_eq, imports_eq, imports_eq, String.toList_append,
    Text.occurrences_append (importLine_ne_nil name) h]

theorem LineClosed.imports_le_append (h : LineClosed content) (added name : String) :
    imports content name ≤ imports (content ++ added) name := by
  rw [h.imports_append]
  exact Nat.le_add_right _ _

theorem imports_closeLine (content name : String) :
    imports (closeLine content) name = imports content name := by
  unfold closeLine
  split
  · rfl
  · rw [imports_eq, imports_eq, String.toList_append]
    exact (Text.occurrences_newline _ _ _).trans
      (by rw [Text.occurrences_nil (importLine_ne_nil name), Nat.add_zero])

/-- The import of a module at the end. -/
theorem LineClosed.imports_importLine (h : LineClosed content) (hc : Importable child)
    (name : String) :
    imports (content ++ importLine child ++ "\n") name =
      imports content name + if child = name then 1 else 0 := by
  rw [String.append_assoc, h.imports_append, imports_eq (importLine child ++ "\n"),
    String.toList_append]
  exact congrArg _ (occurrences_importLine hc name)

theorem LineClosed.lineClosed_withTypeImport (h : LineClosed content) (child : String) :
    LineClosed (withTypeImport content child) := by
  unfold withTypeImport
  dsimp only
  split
  · exact h
  · exact .inr ⟨content.toList ++ (importLine child).toList, by simp⟩

theorem LineClosed.imports_le_withTypeImport (h : LineClosed content) (child name : String) :
    imports content name ≤ imports (withTypeImport content child) name := by
  unfold withTypeImport
  dsimp only
  split
  · exact Nat.le_refl _
  · rw [String.append_assoc]
    exact h.imports_le_append _ name

theorem LineClosed.hasLine_withTypeImport (h : LineClosed content) (hc : Importable child) :
    hasLine (withTypeImport content child) (importLine child) = true := by
  unfold PackageWriter.withTypeImport
  dsimp only
  split
  · assumption
  · rw [hasLine_iff, h.imports_importLine hc, if_pos rfl]
    omega

theorem LineClosed.imports_le_withSource (h : LineClosed content) (source name : String) :
    imports content name ≤ imports (withSource content source) name := by
  unfold withSource
  rw [String.append_assoc, String.append_assoc]
  exact h.imports_le_append _ name

/-- A declaration at the end, with white space cut off and line ends around it. -/
theorem LineClosed.imports_withSource (h : LineClosed content) (hs : Importless source)
    (name : String) : imports (withSource content source) name = imports content name := by
  have hline := importLine_ne_nil name
  have hsource : Text.occurrences (importLine name).toList (Text.trimEnd source).toList = 0 := by
    rw [Text.trimEnd, String.toList_ofList]
    exact Text.occurrences_trimEndChars (by rw [← imports_eq]; exact hs name)
  have htext : ("\n" ++ Text.trimEnd source ++ "\n\n").toList =
      ([] ++ '\n' :: (Text.trimEnd source).toList) ++ '\n' :: ([] ++ '\n' :: []) := by
    rw [String.toList_append, String.toList_append]
    rfl
  have hadded : imports ("\n" ++ Text.trimEnd source ++ "\n\n") name = 0 := by
    rw [imports_eq, htext, Text.occurrences_newline, Text.occurrences_newline,
      Text.occurrences_newline, hsource, Text.occurrences_nil hline]
  have hparts : withSource content source =
      content ++ ("\n" ++ Text.trimEnd source ++ "\n\n") := by
    simp only [withSource, String.append_assoc]
  rw [hparts, h.imports_append, hadded, Nat.add_zero]

/-! ## Declarations -/

/-- Texts stand one behind the other in a text. -/
def InOrder : List String → String → Prop
  | [], _ => True
  | source :: sources, text => ∃ before behind, text = before ++ source ++ behind ∧
      InOrder sources behind

theorem InOrder.append (h : InOrder sources content) (added : String) :
    InOrder sources (content ++ added) := by
  induction sources generalizing content with
  | nil => trivial
  | cons first sources ih =>
      obtain ⟨before, behind, rfl, hrest⟩ := h
      exact ⟨before, behind ++ added, String.append_assoc, ih hrest⟩

theorem InOrder.concat (h : InOrder sources content) (gap source behind : String) :
    InOrder (sources ++ [source]) (content ++ gap ++ source ++ behind) := by
  induction sources generalizing content with
  | nil => exact ⟨content ++ gap, behind, rfl, trivial⟩
  | cons first sources ih =>
      obtain ⟨before, rest, rfl, hrest⟩ := h
      exact ⟨before, rest ++ gap ++ source ++ behind, by simp only [String.append_assoc],
        ih hrest⟩

/-- A text begins with a preamble, holds sources in their order and imports no module twice. -/
structure Aggregates (preamble : String) (sources : List String) (content : String) : Prop where
  begins : ∃ rest, content = preamble ++ rest ∧ InOrder sources rest
  once : ∀ name, imports content name ≤ 1

theorem aggregates_preamble (h : Importless preamble) : Aggregates preamble [] preamble :=
  ⟨⟨"", by simp, trivial⟩, fun name => by rw [h name]; exact Nat.zero_le 1⟩

/-- What is added at the end keeps what is before it. -/
theorem Aggregates.append (h : Aggregates preamble sources content) {added : String}
    (ho : ∀ name, imports (content ++ added) name ≤ 1) :
    Aggregates preamble sources (content ++ added) := by
  obtain ⟨rest, rfl, hrest⟩ := h.begins
  exact ⟨⟨rest ++ added, String.append_assoc, hrest.append added⟩, ho⟩

theorem Aggregates.closeLine (h : Aggregates preamble sources content) :
    Aggregates preamble sources (closeLine content) := by
  have honce : ∀ name, imports (PackageWriter.closeLine content) name ≤ 1 := fun name => by
    rw [imports_closeLine]
    exact h.once name
  unfold PackageWriter.closeLine at *
  split
  · exact h
  · rename_i hopen
    simp only [hopen] at honce
    exact h.append honce

/-- **A module is imported once,** whether it was imported or not. -/
theorem Aggregates.withTypeImport (h : Aggregates preamble sources content)
    (hl : LineClosed content) (hc : Importable child) :
    Aggregates preamble sources (withTypeImport content child) ∧
      imports (withTypeImport content child) child = 1 := by
  have hadded := hl.hasLine_withTypeImport hc
  rw [hasLine_iff] at hadded
  unfold PackageWriter.withTypeImport at *
  dsimp only at *
  split at hadded
  · rename_i hold
    rw [if_pos hold]
    exact ⟨h, Nat.le_antisymm (h.once child) hadded⟩
  · rename_i hnew
    -- a new line adds one to the imports of the child, and nothing to those of other names
    have hzero : ¬ 0 < imports content child := fun hpos => hnew (hasLine_iff.mpr hpos)
    have himports := hl.imports_importLine hc
    rw [if_neg hnew]
    refine ⟨?_, ?_⟩
    · rw [String.append_assoc]
      refine h.append fun name => ?_
      rw [← String.append_assoc, himports]
      have honce := h.once name
      split
      · rename_i heq
        subst heq
        omega
      · omega
    · rw [himports, if_pos rfl]
      omega

/-- **A declaration can be added.** -/
theorem Aggregates.withSource (h : Aggregates preamble sources content) (hl : LineClosed content)
    (hs : Importless source) :
    Aggregates preamble (sources ++ [Text.trimEnd source]) (withSource content source) := by
  refine ⟨?_, fun name => ?_⟩
  · obtain ⟨rest, rfl, hrest⟩ := h.begins
    refine ⟨rest ++ "\n" ++ Text.trimEnd source ++ "\n\n", ?_, hrest.concat _ _ _⟩
    simp only [PackageWriter.withSource, String.append_assoc]
  · rw [hl.imports_withSource hs]
    exact h.once name

/-! ## What a writer makes of an aggregator -/

/-- An aggregator with the import of a module, unless it is there. -/
def withImport (content child : String) : String :=
  if hasLine content (importLine child) then content else withLine content (importLine child)

/-- An aggregator with the declaration of a stub, and with the import of its types. -/
def withStub (content : String) (stub : Stub) : String :=
  if stub.hasTypeDefs then
    withSource (withTypeImport (closeLine content) (Identifier.typeModule stub.path.leaf))
      stub.source
  else withSource (closeLine content) stub.source

/-- An import on a line of its own is one behind a line that has ended. -/
theorem withImport_eq (content child : String) :
    withImport content child = content ∨
      withImport content child = withTypeImport (closeLine content) child := by
  unfold withImport
  split
  · exact .inl rfl
  · rename_i hnew
    rw [hasLine_iff, ← imports_closeLine, ← hasLine_iff] at hnew
    unfold withLine PackageWriter.withTypeImport
    exact .inr (if_neg hnew).symm

theorem imports_le_withImport (content child name : String) :
    imports content name ≤ imports (withImport content child) name := by
  rcases withImport_eq content child with h | h
  · exact Nat.le_of_eq (congrArg (imports · name) h.symm)
  · rw [h]
    exact Nat.le_trans (Nat.le_of_eq (imports_closeLine content name).symm)
      ((lineClosed_closeLine content).imports_le_withTypeImport child name)

theorem imports_le_withStub (content : String) (stub : Stub) (name : String) :
    imports content name ≤ imports (withStub content stub) name := by
  have hclosed := lineClosed_closeLine content
  refine Nat.le_trans (Nat.le_of_eq (imports_closeLine content name).symm) ?_
  unfold withStub
  split
  · exact Nat.le_trans (hclosed.imports_le_withTypeImport _ name)
      ((hclosed.lineClosed_withTypeImport _).imports_le_withSource _ name)
  · exact hclosed.imports_le_withSource _ name

/-- The aggregator of a stub with types imports their module. -/
theorem hasLine_withStub {stub : Stub} (ht : stub.hasTypeDefs = true)
    (hc : Importable (Identifier.typeModule stub.path.leaf)) (content : String) :
    hasLine (withStub content stub) (importLine (Identifier.typeModule stub.path.leaf)) = true := by
  have hclosed := lineClosed_closeLine content
  have hline := hclosed.hasLine_withTypeImport hc
  rw [hasLine_iff] at hline ⊢
  unfold withStub
  rw [if_pos ht]
  exact Nat.lt_of_lt_of_le hline
    ((hclosed.lineClosed_withTypeImport _).imports_le_withSource _ _)

theorem Aggregates.withImport (h : Aggregates preamble sources content) (hc : Importable child) :
    Aggregates preamble sources (withImport content child) ∧
      imports (withImport content child) child = 1 := by
  have hadded := h.closeLine.withTypeImport (lineClosed_closeLine content) hc
  unfold PackageWriter.withImport
  split
  · rename_i hold
    exact ⟨h, Nat.le_antisymm (h.once child) (hasLine_iff.mp hold)⟩
  · rename_i hnew
    rw [hasLine_iff, ← imports_closeLine, ← hasLine_iff] at hnew
    unfold withLine
    unfold PackageWriter.withTypeImport at hadded
    rwa [if_neg hnew] at hadded

theorem Aggregates.withStub (h : Aggregates preamble sources content) {stub : Stub}
    (hs : Importless stub.source)
    (ht : stub.hasTypeDefs = true → Importable (Identifier.typeModule stub.path.leaf)) :
    Aggregates preamble (sources ++ [Text.trimEnd stub.source]) (withStub content stub) := by
  have hclosed := lineClosed_closeLine content
  unfold PackageWriter.withStub
  split
  · rename_i htypes
    obtain ⟨hadded, -⟩ := h.closeLine.withTypeImport hclosed (ht htypes)
    exact hadded.withSource (hclosed.lineClosed_withTypeImport _) hs
  · exact h.closeLine.withSource hclosed hs

end StubGen.PackageWriter
