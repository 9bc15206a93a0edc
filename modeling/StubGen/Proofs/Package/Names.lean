import StubGen.Proofs.Package.Contents
import StubGen.Proofs.Stub.TopLevel

/-!
# The names that an aggregator binds

What is set behind a text that has ended its last line adds at most its own names, whatever body
the text may have ended in: `LineClosed.names_append_sublist`. So an aggregator binds the names
that are declared in it as often as they are, and those of the modules that it imports once more:
`Binds`, which is kept by all that a writer does to an aggregator.
-/

namespace StubGen

open Disk (Place)
open Text (splitChars)

namespace PackageWriter

open Renderer (importLine)
open TopLevel (names namesFrom namesFrom_append namesFrom_append_sublist Reads names_newline
  names_append_blank names_trimEnd)

variable {sec : Section} {content source child name : String} {imported declared : List String}

/-- The lines of a text that has ended its last line, behind which others may come. -/
theorem LineClosed.exists_lines (h : LineClosed content) : ∃ lines : List (List Char),
    names sec content = (namesFrom sec.hasAliases none lines).map String.ofList ∧
      ∀ added : String, splitChars '\n' (content ++ added).toList =
        lines ++ splitChars '\n' added.toList := by
  rcases h with hnil | ⟨init, hinit⟩
  · refine ⟨[], ?_, fun added => ?_⟩
    · unfold names
      rw [hnil]
      rfl
    · rw [String.toList_append, hnil]
      rfl
  · refine ⟨splitChars '\n' init, ?_, fun added => ?_⟩
    · unfold names
      rw [hinit, Text.splitChars_append_sep, namesFrom_append]
      exact congrArg _ (List.append_nil _)
    · rw [String.toList_append, hinit, List.append_assoc]
      exact Text.splitChars_append_sep '\n' init added.toList

/-- **A text adds at most its own names** to one that has ended its last line. -/
theorem LineClosed.names_append_sublist (h : LineClosed content) (sec : Section) (added : String) :
    (names sec (content ++ added)).Sublist (names sec content ++ names sec added) := by
  obtain ⟨lines, hcontent, hlines⟩ := h.exists_lines
  rw [hcontent]
  unfold names
  rw [hlines, ← List.map_append]
  exact (namesFrom_append_sublist _ _).map _

/-- A text that has ended its last line keeps its names, whatever is set behind it. -/
theorem LineClosed.names_prefix (h : LineClosed content) (sec : Section) (added : String) :
    names sec content <+: names sec (content ++ added) := by
  obtain ⟨lines, hcontent, hlines⟩ := h.exists_lines
  rw [hcontent]
  unfold names
  rw [hlines, namesFrom_append, List.map_append]
  exact List.prefix_append _ _

/-- What begins at the margin adds all its names. -/
theorem LineClosed.names_append (h : LineClosed content) {added : String} {own : List (List Char)}
    (ha : Reads sec.hasAliases (splitChars '\n' added.toList) own) :
    names sec (content ++ added) = names sec content ++ names sec added := by
  obtain ⟨lines, hcontent, hlines⟩ := h.exists_lines
  rw [hcontent]
  unfold names
  rw [hlines, namesFrom_append, ha, ha, List.map_append]

theorem names_closeLine (sec : Section) (content : String) :
    names sec (closeLine content) = names sec content := by
  unfold closeLine
  split
  · rfl
  · exact names_newline sec content

/-- The import of a module binds its name. -/
theorem names_importLine (h : Importable child) (sec : Section) :
    names sec (importLine child ++ "\n") = [child] := by
  have htext : (importLine child).toList = 'f' :: ("rom . import ".toList ++ child.toList) :=
    toList_importLine child
  have htrim : 'f' :: Text.trimEndChars ("rom . import ".toList ++ child.toList) =
      (importLine child).toList := by
    rw [← Text.trimEndChars_cons (by decide), ← htext,
      trimEndChars_importLine h.nonempty h.trimmed]
  -- the line begins at the margin, and declares nothing by itself
  have hdeclared : TopLevel.declared? (importLine child).toList = none := by
    rw [htext]
    rfl
  have hbound : TopLevel.bound? sec.hasAliases (importLine child).toList = some child.toList := by
    have hafter : Text.afterChars? "from . import ".toList (importLine child).toList =
        some child.toList := Text.afterChars?_eq_some_iff.mpr (toList_importLine child)
    unfold TopLevel.bound?
    rw [hafter]
    rfl
  rw [names_newline]
  unfold names
  rw [Text.splitChars_of_not_mem h.newline_not_mem, htext, namesFrom,
    TopLevel.read_margin (by decide) (by decide), htrim, hdeclared, hbound]
  simp [namesFrom, String.ofList_toList]

/-- What reads the same wherever it stands adds all its names. -/
theorem names_withSource {own : List (List Char)}
    (h : Reads sec.hasAliases (splitChars '\n' source.toList) own) (content : String) :
    names sec (withSource content source) = names sec content ++ names sec source := by
  have hclosed : LineClosed (content ++ "\n") := .inr ⟨content.toList, String.toList_append⟩
  obtain ⟨blank, hblank, hsource⟩ := Text.exists_blank_of_trimEndChars source.toList
  have htext : source = Text.trimEnd source ++ String.ofList blank :=
    String.toList_inj.mp (by simpa [Text.trimEnd] using hsource)
  -- neither what is cut off the source nor the lines behind it bind anything
  have htrim : names sec (content ++ "\n" ++ source) =
      names sec (content ++ "\n" ++ Text.trimEnd source) := by
    have hboth : content ++ "\n" ++ source =
        content ++ "\n" ++ Text.trimEnd source ++ String.ofList blank := by
      rw [@String.append_assoc (content ++ "\n"), ← htext]
    rw [hboth, names_append_blank (by simpa using hblank)]
  rw [withSource, names_append_blank (List.all_eq_true.mp (by decide)), ← htrim,
    hclosed.names_append h, names_newline]

theorem names_withStub {stub : Stub} {own : List (List Char)} (ht : stub.hasTypeDefs = false)
    (h : Reads sec.hasAliases (splitChars '\n' stub.source.toList) own) (content : String) :
    names sec (withStub content stub) = names sec content ++ names sec stub.source := by
  unfold withStub
  rw [ht, if_neg Bool.false_ne_true, names_withSource h, names_closeLine]

/-! ## What a writer keeps -/

theorem names_prefix_withSource (sec : Section) (content source : String) :
    names sec content <+: names sec (withSource content source) := by
  have hclosed : LineClosed (content ++ "\n") := .inr ⟨content.toList, String.toList_append⟩
  rw [← names_newline, withSource, String.append_assoc]
  exact hclosed.names_prefix sec _

theorem LineClosed.names_prefix_withTypeImport (h : LineClosed content) (sec : Section)
    (child : String) : names sec content <+: names sec (withTypeImport content child) := by
  unfold withTypeImport
  dsimp only
  split
  · exact List.prefix_rfl
  · rw [String.append_assoc]
    exact h.names_prefix sec _

/-- **No name is lost** to a stub, nor to an import. -/
theorem names_prefix_withStub (sec : Section) (content : String) (stub : Stub) :
    names sec content <+: names sec (withStub content stub) := by
  rw [← names_closeLine]
  unfold withStub
  split
  · exact ((lineClosed_closeLine content).names_prefix_withTypeImport sec _).trans
      (names_prefix_withSource sec _ _)
  · exact names_prefix_withSource sec _ _

theorem names_prefix_withImport (sec : Section) (content child : String) :
    names sec content <+: names sec (withImport content child) := by
  rcases withImport_eq content child with h | h
  · exact h.symm ▸ List.prefix_rfl
  · rw [h, ← names_closeLine]
    exact (lineClosed_closeLine content).names_prefix_withTypeImport sec child

/-! ## What a writer adds -/

/-- A module binds what it declares and what it imports, and imports nothing twice. -/
structure Binds (sec : Section) (imported declared : List String) (content : String) : Prop where
  /-- What is imported has a line, so that it is not imported again. -/
  imports_pos : ∀ child ∈ imported, 0 < imports content child
  count_le : ∀ name, (names sec content).count name ≤
    (if name ∈ imported then 1 else 0) + declared.count name

theorem binds_preamble (sec : Section) (preamble : String) :
    Binds sec [] (names sec preamble) preamble :=
  ⟨nofun, fun _ => Nat.le_add_left _ _⟩

theorem Binds.closeLine (h : Binds sec imported declared content) :
    Binds sec imported declared (closeLine content) where
  imports_pos child hm := by
    rw [imports_closeLine]
    exact h.imports_pos child hm
  count_le name := by
    rw [names_closeLine]
    exact h.count_le name

/-- What is imported already may be imported once more. -/
theorem Binds.again (h : Binds sec imported declared content) (hline : 0 < imports content child) :
    Binds sec (imported ++ [child]) declared content where
  imports_pos other hm := by
    rcases List.mem_append.mp hm with hm | hm
    · exact h.imports_pos other hm
    · rwa [List.mem_singleton.mp hm]
  count_le name := by
    refine Nat.le_trans (h.count_le name) (Nat.add_le_add_right ?_ _)
    by_cases hm : name ∈ imported
    · rw [if_pos hm, if_pos (List.mem_append_left _ hm)]
    · rw [if_neg hm]
      exact Nat.zero_le _

/-- **A module is imported once,** however often it is added. -/
theorem Binds.withTypeImport (h : Binds sec imported declared content) (hl : LineClosed content)
    (hc : Importable child) :
    Binds sec (imported ++ [child]) declared (withTypeImport content child) := by
  have hadded := hl.hasLine_withTypeImport hc
  rw [hasLine_iff] at hadded
  unfold PackageWriter.withTypeImport at *
  dsimp only at *
  split at hadded
  · rename_i hold
    rw [if_pos hold]
    exact h.again hadded
  · rename_i hnew
    rw [if_neg hnew]
    -- a name that has no line yet is none of those that have been imported
    have hfresh : child ∉ imported := fun hm => hnew (hasLine_iff.mpr (h.imports_pos child hm))
    refine ⟨fun other hm => ?_, fun name => ?_⟩
    · rcases List.mem_append.mp hm with hm | hm
      · rw [String.append_assoc]
        exact Nat.lt_of_lt_of_le (h.imports_pos other hm) (hl.imports_le_append _ other)
      · rwa [List.mem_singleton.mp hm]
    · have hless := (hl.names_append_sublist sec (importLine child ++ "\n")).count_le name
      rw [← String.append_assoc, List.count_append, names_importLine hc,
        List.count_singleton] at hless
      have hbefore := h.count_le name
      by_cases hname : name = child
      · subst hname
        rw [if_neg hfresh] at hbefore
        rw [if_pos (List.mem_append_right _ List.mem_cons_self)]
        rw [if_pos (beq_self_eq_true name)] at hless
        omega
      · have hsame : name ∈ imported ++ [child] ↔ name ∈ imported := by simp [hname]
        have hother : (child == name) = false := beq_false_of_ne (Ne.symm hname)
        rw [hother, if_neg Bool.false_ne_true] at hless
        simp only [hsame]
        omega

theorem Binds.withImport (h : Binds sec imported declared content) (hc : Importable child) :
    Binds sec (imported ++ [child]) declared (withImport content child) := by
  unfold PackageWriter.withImport
  split
  · rename_i hold
    exact h.again (hasLine_iff.mp hold)
  · rename_i hnew
    have hadded := h.closeLine.withTypeImport (lineClosed_closeLine content) hc
    rw [hasLine_iff, ← imports_closeLine, ← hasLine_iff] at hnew
    unfold PackageWriter.withTypeImport at hadded
    rwa [if_neg hnew] at hadded

/-- **A declaration adds its own names.** -/
theorem Binds.withSource (h : Binds sec imported declared content) (hl : LineClosed content)
    (source : String) :
    Binds sec imported (declared ++ names sec source) (withSource content source) where
  imports_pos child hm :=
    Nat.lt_of_lt_of_le (h.imports_pos child hm) (hl.imports_le_withSource source child)
  count_le name := by
    have hclosed : LineClosed (content ++ "\n") := .inr ⟨content.toList, String.toList_append⟩
    have hless := (hclosed.names_append_sublist sec (Text.trimEnd source)).count_le name
    have hbefore := h.count_le name
    rw [names_newline, names_trimEnd, List.count_append] at hless
    rw [PackageWriter.withSource, names_append_blank (List.all_eq_true.mp (by decide)),
      List.count_append]
    omega

/-- **A stub adds its own names,** and the module of its types. -/
theorem Binds.withStub (h : Binds sec imported declared content) {stub : Stub}
    (hc : Importable (Identifier.typeModule stub.path.leaf)) :
    Binds sec
      (imported ++ if stub.hasTypeDefs then [Identifier.typeModule stub.path.leaf] else [])
      (declared ++ names sec stub.source) (withStub content stub) := by
  have hclosed := lineClosed_closeLine content
  unfold PackageWriter.withStub
  split
  · exact (h.closeLine.withTypeImport hclosed hc).withSource (hclosed.lineClosed_withTypeImport _) _
  · rw [List.append_nil]
    exact h.closeLine.withSource hclosed _

/-- **Names are bound once** where the declared ones are distinct and none of them is imported. -/
theorem Binds.nodup (h : Binds sec imported declared content) (hd : declared.Nodup)
    (hi : ∀ name ∈ imported, name ∉ declared) : (names sec content).Nodup := by
  rw [List.nodup_iff_count]
  intro name
  have hle := h.count_le name
  have honce := List.nodup_iff_count.mp hd name
  by_cases hm : name ∈ imported
  · rw [if_pos hm, List.count_eq_zero.mpr (hi name hm)] at hle
    omega
  · rw [if_neg hm] at hle
    omega

/-! ## What stubs bind -/

/-- What the aggregator of a namespace imports for a stub: the directory on the way to it, or the
module of its types. -/
def importsFor (sec : Section) (namespaces : List String) (stub : Stub) : List String :=
  if stub.path.root = sec ∧ namespaces <+: stub.path.namespaces then
    match stub.path.namespaces.drop namespaces.length with
    | child :: _ => [child]
    | [] => if stub.hasTypeDefs then [Identifier.typeModule stub.path.leaf] else []
  else []

/-- What the aggregator of a namespace declares for a stub. -/
def declaresFor (sec : Section) (namespaces : List String) (stub : Stub) : List String :=
  if stub.path.root = sec ∧ stub.path.namespaces = namespaces then names sec stub.source else []

/-- The modules that an aggregator imports for some stubs. -/
def importedIn (history : List Stub) (sec : Section) (namespaces : List String) : List String :=
  history.flatMap (importsFor sec namespaces)

/-- The names that an aggregator declares, in its preamble and for some stubs. -/
def declaredIn (w : PackageWriter) (history : List Stub) (sec : Section)
    (namespaces : List String) : List String :=
  names sec (w.preamble sec) ++ history.flatMap (declaresFor sec namespaces)

section

variable {w : PackageWriter} {root : Place} {namespaces : List String} {stub : Stub}
  {old new : Disk.Tree} {start disk : Disk} {history : List Stub}

/-- **What a stub leaves in an aggregator** adds its own names and imports. -/
theorem Leaves.binds (h : Leaves w root stub old new)
    (hc : ∀ segment ∈ stub.path.segments, Importable segment)
    (hb : Binds sec imported declared
      ((old.text? (aggregatorIn root sec namespaces)).getD (w.preamble sec))) :
    Binds sec (imported ++ importsFor sec namespaces stub)
      (declared ++ declaresFor sec namespaces stub)
      ((new.text? (aggregatorIn root sec namespaces)).getD (w.preamble sec)) := by
  unfold importsFor declaresFor
  by_cases hmine : stub.path.root = sec ∧ namespaces <+: stub.path.namespaces
  · rw [if_pos hmine]
    obtain ⟨rfl, below, hbelow⟩ := hmine
    have hdrop : stub.path.namespaces.drop namespaces.length = below := by
      rw [← hbelow, List.drop_left]
    rw [hdrop]
    cases below with
    | nil =>
        -- the stub is declared here
        rw [List.append_nil] at hbelow
        subst hbelow
        have hhere : stub.path.root = stub.path.root ∧
            stub.path.namespaces = stub.path.namespaces := ⟨rfl, rfl⟩
        rw [if_pos hhere, ← homeOf, h.declared]
        exact hb.withStub (hc _ (List.mem_append_right _ List.mem_cons_self)).typeModule
    | cons child below =>
        have hhere : ¬ (stub.path.root = stub.path.root ∧ stub.path.namespaces = namespaces) := by
          rintro ⟨-, hsame⟩
          have hlength := congrArg List.length hbelow
          rw [hsame, List.length_append, List.length_cons] at hlength
          omega
        have hchild : child ∈ stub.path.namespaces := hbelow ▸ by simp
        rw [if_neg hhere, List.append_nil, h.passed namespaces child below hbelow.symm]
        exact hb.withImport (hc child (List.mem_append_left _ hchild))
  · have hhere : ¬ (stub.path.root = sec ∧ stub.path.namespaces = namespaces) := by
      rintro ⟨hsec, rfl⟩
      exact hmine ⟨hsec, List.prefix_rfl⟩
    rw [if_neg hmine, if_neg hhere, List.append_nil, List.append_nil, h.others]
    · exact hb
    · intro above habove hsame
      obtain ⟨rfl, rfl⟩ := aggregatorIn_inj.mp hsame
      exact hmine ⟨rfl, habove⟩
    · intro _ hsame
      obtain ⟨-, hsec, hnamespaces⟩ := typesOf_eq_aggregatorIn_iff.mp hsame.symm
      exact hhere ⟨hsec, hnamespaces⟩

/-- The aggregators that are there have nothing but their preambles. -/
def Bare (w : PackageWriter) (root : Place) (tree : Disk.Tree) : Prop :=
  ∀ sec namespaces, (tree.text? (aggregatorIn root sec namespaces)).getD (w.preamble sec) =
    w.preamble sec

/-- **An aggregator binds what has been written to it.** The induction is on the stubs that have
been written, each of which leaves its own names. -/
theorem Wrote.binds (hready : Ready w root start) (hbare : Bare w root start.tree)
    (h : Wrote w start history disk)
    (hc : ∀ stub ∈ history, ∀ segment ∈ stub.path.segments, Importable segment) :
    Binds sec (importedIn history sec namespaces) (declaredIn w history sec namespaces)
      ((disk.tree.text? (aggregatorIn root sec namespaces)).getD (w.preamble sec)) := by
  induction h with
  | nothing =>
      rw [hbare]
      unfold importedIn declaredIn
      rw [List.flatMap_nil, List.flatMap_nil, List.append_nil]
      exact binds_preamble sec (w.preamble sec)
  | @written history disk after stub hbefore hn hrun ih =>
      obtain ⟨-, hleaves⟩ := write_leaves (hbefore.ready hready) hn hrun
      have hbinds := hleaves.binds (hc stub (List.mem_append_right _ List.mem_cons_self))
        (ih fun other hm => hc other (List.mem_append_left _ hm))
      unfold importedIn declaredIn at *
      rw [List.flatMap_append, List.flatMap_append, List.flatMap_singleton, List.flatMap_singleton,
        ← List.append_assoc]
      exact hbinds
  | failed hbefore hrun ih =>
      rw [((hbefore.ready hready).write_error hrun).2]
      exact ih hc

end

end PackageWriter

end StubGen
