import Mathlib.Algebra.Ring.Nat
import Mathlib.Data.List.Nodup
import StubGen.Proofs.Package.Isolation
import StubGen.Proofs.Package.Regeneration
import StubGen.Proofs.Reference.Apply

/-!
# What becomes of every spec

A run that succeeds loses no spec on its way. A spec that it has selected is dropped because its
references cannot be resolved, or it is attempted and the report on its section tells of it, or it
is a schema in a run without types. A ledger has one entry for each of them, in the order in which
they were fetched, and all that a run says of itself is read off its ledger (`Accounts`). That
there is such a ledger rests on two facts: every category has one section, and a batch attempts
each spec of its section once and in order.
-/

namespace StubGen

open SchemaIndex (SameEntry)

namespace Section

/-- The section that the specs of a category go into. -/
def ofCategory : Category → Section
  | .serverVariable => .variables
  | .schema => .schemas
  | .table => .tables
  | _ => .functions

/-- **The sections split the categories.** -/
theorem holds_eq (sec : Section) (category : Category) :
    sec.holds category = (sec == ofCategory category) := by
  cases sec <;> cases category <;> rfl

end Section

/-- What becomes of a spec that a run has selected. -/
inductive Fate where
  | dropped
  /-- What is left of it is not looked at. -/
  | aside (resolved : Spec)
  | attempted (resolved : Spec) (attempt : Attempt)

namespace Fate

def isDropped : Fate → Bool
  | .dropped => true
  | _ => false

def aside? : Fate → Option Spec
  | .aside resolved => some resolved
  | _ => none

def attempt? : Fate → Option (Spec × Attempt)
  | .attempted resolved attempt => some (resolved, attempt)
  | _ => none

end Fate

/-- Specs with what becomes of each of them. -/
abbrev Ledger := List (Spec × Fate)

namespace Ledger

/-- The specs that are dropped, as a summary names them. -/
def dropped (ledger : Ledger) : List String :=
  (ledger.filter fun entry => entry.2.isDropped).map fun entry => entry.1.identity

/-- What is left of the specs that nothing looks at. -/
def aside (ledger : Ledger) : List Spec := ledger.filterMap fun entry => entry.2.aside?

/-- The attempts at the specs of a section. -/
def attempts (ledger : Ledger) (sec : Section) : List (Spec × Attempt) :=
  (ledger.filter fun entry => sec.holds entry.1.category).filterMap fun entry => entry.2.attempt?

/-- Whether an entry is right, for an index and the sections that are generated. -/
def Holds (index : SchemaIndex) (sections : List Section) (spec : Spec) : Fate → Prop
  | .dropped => index.survivor? spec = none
  | .aside resolved =>
    index.survivor? spec = some resolved ∧ Section.ofCategory spec.category ∉ sections
  | .attempted resolved _ =>
    index.survivor? spec = some resolved ∧ Section.ofCategory spec.category ∈ sections

variable {index : SchemaIndex} {sections : List Section} {ledger : Ledger}

theorem sameEntry {spec resolved : Spec} (h : index.survivor? spec = some resolved) :
    SameEntry spec resolved :=
  (SchemaIndex.resolveSpec_eq_ok (SchemaIndex.survivor?_eq_some_iff.mp h)).1

/-! ## Making a ledger -/

theorem attempts_cons (entry : Spec × Fate) (ledger : Ledger) (sec : Section) :
    attempts (entry :: ledger) sec =
      (if sec.holds entry.1.category then entry.2.attempt?.toList else []) ++
        attempts ledger sec := by
  unfold attempts
  rw [List.filter_cons]
  split
  · rw [List.filterMap_cons]
    cases entry.2.attempt? <;> rfl
  · rfl

/-- The first attempt of the section that a spec goes into is the one at it, and the others are at
what comes after it. -/
theorem exists_first_attempt {resolved : Spec} {specs : List Spec}
    {attempted : Section → List (Spec × Attempt)}
    (hattempted : ∀ sec, (attempted sec).map Prod.fst =
      (resolved :: specs).filter fun spec => sec.holds spec.category) :
    ∃ attempt rest, attempted (.ofCategory resolved.category) = (resolved, attempt) :: rest ∧
      ∀ sec : Section, (if sec.holds resolved.category then rest else attempted sec).map Prod.fst =
        specs.filter fun spec => sec.holds spec.category := by
  simp only [List.filter_cons] at hattempted
  have hmine := hattempted (.ofCategory resolved.category)
  rw [if_pos (by simp [Section.holds_eq])] at hmine
  obtain ⟨⟨first, attempt⟩, rest, hfirst, hname, hrest⟩ := List.map_eq_cons_iff.mp hmine
  obtain rfl : first = resolved := hname
  refine ⟨attempt, rest, hfirst, fun sec => ?_⟩
  split
  · rename_i hsec
    rw [Section.holds_eq, beq_iff_eq] at hsec
    rw [hsec, hrest]
  · rename_i hsec
    rw [hattempted sec, if_neg hsec]

/-- **Attempts at what survives make a ledger** of all specs. -/
theorem exists_of_attempts (index : SchemaIndex) (sections : List Section) (specs : List Spec)
    (attempted : Section → List (Spec × Attempt))
    (hattempted : ∀ sec, (attempted sec).map Prod.fst =
      (specs.filterMap index.survivor?).filter fun spec => sec.holds spec.category) :
    ∃ ledger : Ledger, ledger.map Prod.fst = specs ∧
      (∀ entry ∈ ledger, Holds index sections entry.1 entry.2) ∧
      ∀ sec ∈ sections, attempts ledger sec = attempted sec := by
  induction specs generalizing attempted with
  -- by induction on the specs: one that survives takes the first attempt of its section with it
  | nil =>
      refine ⟨[], rfl, fun _ hm => absurd hm List.not_mem_nil, fun sec _ => ?_⟩
      exact (List.map_eq_nil_iff.mp (hattempted sec)).symm
  | cons spec specs ih =>
      cases hsurvivor : index.survivor? spec with
      | none =>
          simp only [List.filterMap_cons, hsurvivor] at hattempted
          obtain ⟨ledger, hspecs, hholds, hattempts⟩ := ih attempted hattempted
          refine ⟨(spec, .dropped) :: ledger, by rw [List.map_cons, hspecs],
            List.forall_mem_cons.mpr ⟨hsurvivor, hholds⟩, fun sec hm => ?_⟩
          rw [attempts_cons, hattempts sec hm]
          split <;> rfl
      | some resolved =>
          have hcategory : resolved.category = spec.category := (sameEntry hsurvivor).category
          simp only [List.filterMap_cons, hsurvivor] at hattempted
          obtain ⟨attempt, rest, hfirst, hrest⟩ := exists_first_attempt hattempted
          obtain ⟨ledger, hspecs, hholds, hattempts⟩ := ih
            (fun sec => if sec.holds resolved.category then rest else attempted sec) hrest
          simp only [hcategory] at hfirst hattempts
          by_cases hgenerated : Section.ofCategory spec.category ∈ sections
          · refine ⟨(spec, .attempted resolved attempt) :: ledger, by rw [List.map_cons, hspecs],
              List.forall_mem_cons.mpr ⟨⟨hsurvivor, hgenerated⟩, hholds⟩, fun sec hm => ?_⟩
            rw [attempts_cons, hattempts sec hm]
            by_cases hsec : sec.holds spec.category
            · rw [if_pos hsec, if_pos hsec]
              rw [Section.holds_eq, beq_iff_eq] at hsec
              rw [hsec, hfirst]
              rfl
            · rw [if_neg hsec, if_neg hsec, List.nil_append]
          · -- the section is not generated, so no attempt at it is asked for
            refine ⟨(spec, .aside resolved) :: ledger, by rw [List.map_cons, hspecs],
              List.forall_mem_cons.mpr ⟨⟨hsurvivor, hgenerated⟩, hholds⟩, fun sec hm => ?_⟩
            have hother : ¬ sec.holds spec.category := fun hsec => by
              rw [Section.holds_eq, beq_iff_eq] at hsec
              exact hgenerated (hsec ▸ hm)
            rw [attempts_cons, hattempts sec hm, if_neg hother, if_neg hother, List.nil_append]

theorem isNone_survivor? {entry : Spec × Fate} (h : Holds index sections entry.1 entry.2) :
    (index.survivor? entry.1).isNone = entry.2.isDropped := by
  obtain ⟨spec, fate⟩ := entry
  cases fate with
  | dropped => rw [show index.survivor? spec = none from h]; rfl
  | aside resolved => rw [show index.survivor? spec = some resolved from h.1]; rfl
  | attempted resolved attempt => rw [show index.survivor? spec = some resolved from h.1]; rfl

theorem mem_attempts {spec resolved : Spec} {attempt : Attempt}
    (h : (spec, Fate.attempted resolved attempt) ∈ ledger) :
    (resolved, attempt) ∈ attempts ledger (.ofCategory spec.category) :=
  List.mem_filterMap.mpr ⟨_, List.mem_filter.mpr ⟨h, by simp [Section.holds_eq]⟩, rfl⟩

/-- The attempts at a section are in the order of the ledger. -/
theorem names_sublist (h : ∀ entry ∈ ledger, Holds index sections entry.1 entry.2) (sec : Section) :
    ((attempts ledger sec).map fun attempt => attempt.1.qualifiedName).Sublist
      (((ledger.map Prod.fst).filter fun spec => sec.holds spec.category).map
        Spec.qualifiedName) := by
  induction ledger with
  | nil => exact .slnil
  | cons entry ledger ih =>
      obtain ⟨hentry, hledger⟩ := List.forall_mem_cons.mp h
      have ih := ih hledger
      obtain ⟨spec, fate⟩ := entry
      rw [attempts_cons, List.map_cons, List.filter_cons]
      by_cases hsec : sec.holds spec.category
      · rw [if_pos hsec, if_pos hsec, List.map_append, List.map_cons]
        -- only an attempt shows up in its section, and resolving keeps the name
        cases fate with
        | dropped => exact ih.cons _
        | aside resolved => exact ih.cons _
        | attempted resolved attempt =>
            have hname : resolved.qualifiedName = spec.qualifiedName :=
              (sameEntry hentry.1).qualifiedName
            rw [← hname]
            exact ih.cons_cons _
      · rw [if_neg hsec, if_neg hsec]
        exact ih

/-! ## Counting -/

theorem sum_map_count (f : Section → Nat) (s : Section) (sections : List Section) :
    (sections.map fun sec => (if sec == s then 1 else 0) + f sec).sum =
      sections.count s + (sections.map f).sum := by
  induction sections with
  | nil => rfl
  | cons sec sections ih =>
      rw [List.map_cons, List.sum_cons, ih, List.map_cons, List.sum_cons, List.count_cons]
      omega

/-- **The entries of a ledger are counted** by what is read off it. -/
theorem length_eq (hsections : sections.Nodup)
    (h : ∀ entry ∈ ledger, Holds index sections entry.1 entry.2) :
    ledger.length = (dropped ledger).length +
      (sections.map fun sec => (attempts ledger sec).length).sum + (aside ledger).length := by
  induction ledger with
  | nil => simp [dropped, attempts, aside]
  | cons entry ledger ih =>
      obtain ⟨hentry, hledger⟩ := List.forall_mem_cons.mp h
      have ih := ih hledger
      obtain ⟨spec, fate⟩ := entry
      -- only an attempt adds to a section, and only to one that is generated
      have hlength : ∀ sec, (attempts ((spec, fate) :: ledger) sec).length =
          (if sec == Section.ofCategory spec.category then fate.attempt?.toList.length else 0) +
            (attempts ledger sec).length := by
        intro sec
        rw [attempts_cons, List.length_append, Section.holds_eq]
        split <;> rfl
      simp only [hlength]
      cases fate with
      | dropped =>
          simp only [Fate.attempt?, Option.toList_none, List.length_nil, ite_self, Nat.zero_add]
          rw [List.length_cons, ih]
          simp only [dropped, aside, Fate.isDropped, Fate.aside?, List.filter_cons, if_true,
            List.filterMap_cons, List.map_cons, List.length_cons]
          omega
      | aside resolved =>
          simp only [Fate.attempt?, Option.toList_none, List.length_nil, ite_self, Nat.zero_add]
          rw [List.length_cons, ih]
          simp only [dropped, aside, Fate.isDropped, Fate.aside?, List.filter_cons,
            List.filterMap_cons, List.length_cons]
          rfl
      | attempted resolved attempt =>
          simp only [Fate.attempt?, Option.toList_some, List.length_singleton]
          rw [sum_map_count, List.count_eq_one_of_mem hsections hentry.2, List.length_cons, ih]
          simp only [dropped, aside, Fate.isDropped, Fate.aside?, List.filter_cons,
            List.filterMap_cons, Bool.false_eq_true, if_false]
          omega

end Ledger

/-- A report counts each attempt once. -/
theorem BatchReport.attempted_eq (report : BatchReport) :
    report.attempted = report.attempts.length := by
  have hlength := report.sorted.1.length_eq
  unfold failedNames names at hlength
  rw [List.length_append, List.length_append, List.length_map, List.length_map] at hlength
  exact hlength

namespace Generator

variable {g : Generator} {disk after : Disk} {query : Query} {baseUrl source : String}
  {fetched : List Spec} {generation : Generation}

/-- **Each section has one report,** which has an attempt at each of its specs. -/
theorem exists_batches (g : Generator) (specs : List Spec) {sections : List Section}
    (hsections : sections.Nodup) (disk : Disk) :
    ∃ attempted : Section → List (Spec × Attempt),
      (∀ sec, (attempted sec).map Prod.fst = specs.filter fun spec => sec.holds spec.category) ∧
      (g.batches specs sections disk).1 = sections.map fun sec => ⟨sec, attempted sec⟩ := by
  induction sections generalizing disk with
  | nil =>
      exact ⟨fun sec => (g.batch sec specs disk).1.attempts,
        fun sec => g.batch_attempts sec specs disk, rfl⟩
  | cons root roots ih =>
      obtain ⟨hnew, hroots⟩ := List.nodup_cons.mp hsections
      obtain ⟨attempted, hattempted, hreports⟩ := ih hroots (g.batch root specs disk).2
      -- the reports of the other sections stay as they are, since no section comes twice
      let all := fun sec =>
        if sec = root then (g.batch root specs disk).1.attempts else attempted sec
      refine ⟨all, fun sec => ?_, ?_⟩
      · by_cases hsec : sec = root
        · rw [hsec, show all root = _ from if_pos rfl, batch_attempts]
        · rw [show all sec = _ from if_neg hsec, hattempted]
      · have hothers : (roots.map fun sec => (⟨sec, all sec⟩ : BatchReport)) =
            roots.map fun sec => ⟨sec, attempted sec⟩ :=
          List.map_congr_left fun sec hm => by
            have hne : sec ≠ root := by
              rintro rfl
              exact hnew hm
            rw [show all sec = _ from if_neg hne]
        rw [List.map_cons, hothers, ← hreports, show all root = _ from if_pos rfl]
        rfl

theorem generation_eq
    (hrun : g.generate query baseUrl source fetched disk = (.ok generation, after)) :
    let outcome := (SchemaIndex.ofSpecs (select query fetched)).apply (select query fetched)
    ∃ begun, generation =
      { root := g.root, fetched := fetched.length, selected := (select query fetched).length
        dropped := outcome.dropped
        reports := (g.batches outcome.items (sectionsOf query) begun).1 } := by
  unfold generate at hrun
  dsimp only at hrun
  split at hrun
  · exact absurd (Prod.mk.inj hrun).1 (by simp)
  · obtain ⟨_, begun, -, hrest⟩ := Result.run_bind_eq_ok hrun
    obtain ⟨reports, last, hbatches, hend⟩ := Result.run_bind_eq_ok hrest
    obtain ⟨hgeneration, -⟩ := Result.run_pure_eq_ok hend
    obtain rfl := Except.ok.inj (Prod.mk.inj hbatches).1
    exact ⟨begun, hgeneration.symm⟩

/-- What a run says of itself, read off a ledger. -/
structure Accounts (query : Query) (fetched : List Spec) (generation : Generation)
    (ledger : Ledger) : Prop where
  /-- There is one entry for each selected spec, in order. -/
  specs : ledger.map Prod.fst = select query fetched
  fetched_eq : generation.fetched = fetched.length
  selected_eq : generation.selected = ledger.length
  dropped_eq : generation.dropped = Ledger.dropped ledger
  reports_eq : generation.reports =
    (sectionsOf query).map fun sec => ⟨sec, Ledger.attempts ledger sec⟩
  /-- What is dropped cannot be resolved. -/
  unresolved : ∀ spec, (spec, Fate.dropped) ∈ ledger →
    (SchemaIndex.ofSpecs (select query fetched)).survivor? spec = none
  /-- What is attempted is in one report. -/
  reported : ∀ spec resolved attempt, (spec, Fate.attempted resolved attempt) ∈ ledger →
    SameEntry spec resolved ∧ ∃ report,
      generation.reports.filter (fun report => report.root.holds spec.category) = [report] ∧
        (resolved, attempt) ∈ report.attempts
  /-- Only a schema is in none, in a run without types. -/
  aside : ∀ spec resolved, (spec, Fate.aside resolved) ∈ ledger →
    SameEntry spec resolved ∧ query.noTypes = true ∧ spec.category = .schema ∧
      generation.reports.filter (fun report => report.root.holds spec.category) = []
  /-- A report tells of each of its specs once. -/
  once : ∀ report ∈ generation.reports,
    (report.generated ++ report.skipped ++ report.failedNames).Perm report.names ∧
      report.generated.Sublist report.names ∧ report.skipped.Sublist report.names ∧
      report.failedNames.Sublist report.names
  /-- Its specs are of its section, in the order in which they were fetched. -/
  ordered : ∀ report ∈ generation.reports, report.names.Sublist
    ((fetched.filter fun spec => report.root.holds spec.category).map Spec.qualifiedName)
  counted : generation.selected = generation.dropped.length +
    (generation.reports.map BatchReport.attempted).sum + (Ledger.aside ledger).length

theorem nodup_sectionsOf (query : Query) : (sectionsOf query).Nodup := by
  unfold sectionsOf
  split <;> decide

theorem noTypes_of_not_mem_sectionsOf {category : Category}
    (h : Section.ofCategory category ∉ sectionsOf query) :
    query.noTypes = true ∧ category = .schema := by
  unfold sectionsOf at h
  split at h
  · rename_i hquery
    refine ⟨hquery, ?_⟩
    cases category <;> first | rfl | exact absurd h (by decide)
  · exact absurd h (by cases category <;> decide)

/-- The report on a category is the one of its section. -/
theorem filter_reports (sections : List Section) (hsections : sections.Nodup)
    (attempted : Section → List (Spec × Attempt)) (category : Category) :
    (sections.map fun sec => (⟨sec, attempted sec⟩ : BatchReport)).filter
        (fun report => report.root.holds category) =
      if Section.ofCategory category ∈ sections then
        [⟨.ofCategory category, attempted (.ofCategory category)⟩] else [] := by
  have hmine : sections.filter (fun sec => sec.holds category) =
      if Section.ofCategory category ∈ sections then [Section.ofCategory category] else [] := by
    simp only [Section.holds_eq]
    rw [List.filter_beq, hsections.count]
    split <;> rfl
  rw [List.filter_map]
  show ((sections.filter fun sec => sec.holds category).map _) = _
  rw [hmine]
  split <;> rfl

/-- A run that succeeds has a ledger. -/
theorem exists_ledger
    (hrun : g.generate query baseUrl source fetched disk = (.ok generation, after)) :
    ∃ ledger : Ledger, ledger.map Prod.fst = select query fetched ∧
      (∀ entry ∈ ledger, Ledger.Holds (SchemaIndex.ofSpecs (select query fetched))
        (sectionsOf query) entry.1 entry.2) ∧
      generation.dropped = Ledger.dropped ledger ∧
      generation.reports = (sectionsOf query).map fun sec => ⟨sec, Ledger.attempts ledger sec⟩ := by
  obtain ⟨begun, rfl⟩ := generation_eq hrun
  generalize SchemaIndex.ofSpecs (select query fetched) = index
  rw [SchemaIndex.apply_eq]
  obtain ⟨attempted, hattempted, hreports⟩ := exists_batches g
    ((select query fetched).filterMap index.survivor?) (nodup_sectionsOf query) begun
  obtain ⟨ledger, hspecs, hholds, hattempts⟩ :=
    Ledger.exists_of_attempts index (sectionsOf query) (select query fetched) attempted hattempted
  refine ⟨ledger, hspecs, hholds, ?_, ?_⟩
  · -- the index does without exactly the specs whose fate is to be dropped
    have hdropped : (ledger.filter fun entry => entry.2.isDropped) =
        ledger.filter fun entry => (index.survivor? entry.1).isNone :=
      List.filter_congr fun entry hm => (Ledger.isNone_survivor? (hholds entry hm)).symm
    dsimp only
    rw [← hspecs, List.filter_map, List.map_map, Ledger.dropped, hdropped]
    rfl
  · exact hreports.trans (List.map_congr_left fun sec hm => by rw [hattempts sec hm])

/-- **Nothing is lost between fetching and reporting.** A run that succeeds has a ledger with one
entry for each spec that it has selected, and what it says of itself is read off that ledger. -/
theorem generate_accounts
    (hrun : g.generate query baseUrl source fetched disk = (.ok generation, after)) :
    ∃ ledger, Accounts query fetched generation ledger := by
  have hsections := nodup_sectionsOf query
  obtain ⟨ledger, hspecs, hholds, hdropped, hreports⟩ := exists_ledger hrun
  obtain ⟨hfetched, hselected⟩ : generation.fetched = fetched.length ∧
      generation.selected = ledger.length := by
    obtain ⟨begun, rfl⟩ := generation_eq hrun
    exact ⟨rfl, by rw [← List.length_map Prod.fst, hspecs]⟩
  have hfilter := fun category => filter_reports _ hsections (Ledger.attempts ledger) category
  rw [← hreports] at hfilter
  refine ⟨ledger, hspecs, hfetched, hselected, hdropped, hreports,
    fun spec hm => hholds _ hm, fun spec resolved attempt hm => ?_, fun spec resolved hm => ?_,
    fun report _ => report.sorted, fun report hm => ?_, ?_⟩
  · obtain ⟨hsurvivor, hgenerated⟩ := hholds _ hm
    exact ⟨Ledger.sameEntry hsurvivor, _, (hfilter _).trans (if_pos hgenerated),
      Ledger.mem_attempts hm⟩
  · obtain ⟨hsurvivor, hleft⟩ := hholds _ hm
    obtain ⟨hquery, hcategory⟩ := noTypes_of_not_mem_sectionsOf hleft
    exact ⟨Ledger.sameEntry hsurvivor, hquery, hcategory, (hfilter _).trans (if_neg hleft)⟩
  · rw [hreports] at hm
    obtain ⟨sec, -, rfl⟩ := List.mem_map.mp hm
    have hnames := Ledger.names_sublist hholds sec
    rw [hspecs] at hnames
    exact hnames.trans ((List.filter_sublist.filter _).map _)
  · rw [hselected, Ledger.length_eq hsections hholds, hdropped, hreports, List.map_map]
    simp only [Function.comp_def, BatchReport.attempted_eq]

/-- A run without types over a type, a function that refers to one that is not there and a table
for which nothing can be generated: one of each fate. -/
theorem generate_accounts_shop :
    let g : Generator := .ofRenderer ⟨"shop", Schema.builtinEngine, fun _ => ""⟩ ""
    let query : Query := { Query.everything with noTypes := true }
    let specs := [petType, SchemaIndex.getter (.obj [(Schema.markerKey, .null)]), columnless]
    ∃ generation after ledger,
      g.generate query "" "" specs ⟨Disk.Tree.empty, [], none, []⟩ = (.ok generation, after) ∧
      Accounts query specs generation ledger ∧ generation.selected = 3 ∧
      generation.dropped = ["getPet (1)"] := by
  intro g query specs
  have hselected : select query specs = specs := rfl
  have hbegun : (g.begin "" specs ⟨Disk.Tree.empty, [], none, []⟩).1.toBool = true := by
    decide +kernel
  have hdropped : ((SchemaIndex.ofSpecs specs).apply specs).dropped = ["getPet (1)"] := by
    decide +kernel
  obtain ⟨_, begun, hbegin⟩ := Result.run_of_toBool hbegun
  obtain ⟨generation, after, hrun⟩ : ∃ generation after,
      g.generate query "" "" specs ⟨Disk.Tree.empty, [], none, []⟩ = (.ok generation, after) :=
    generate_of_begin (by rw [hselected]; rfl) (by rw [hselected]; exact hbegin)
  obtain ⟨ledger, haccounts⟩ := generate_accounts hrun
  obtain ⟨_, hgeneration⟩ := generation_eq hrun
  rw [hselected, hdropped] at hgeneration
  exact ⟨generation, after, ledger, hrun, haccounts, by rw [hgeneration]; rfl,
    by rw [hgeneration]⟩

end Generator

end StubGen
