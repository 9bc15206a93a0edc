import StubGen.Command.Function
import StubGen.Proofs.Result
import StubGen.Proofs.Stub.TypeNames
import StubGen.Proofs.Text.Segments

/-!
# Finding a function by its name

A function goes by its qualified name, its context and its name joined by a dot. Reading a text as
a path undoes that: the last segment is the name and the others are the context. But reading drops
a leading `poly.`, the section that functions are in, and so it takes the first segment away from a
context that begins with `poly`. With the section in front, the name of every function is read as
its context and its name; without it, this is so exactly for the other contexts. The path leads to
the first function with that context and name: `findFunction?_qualifiedName`.
-/

namespace StubGen

namespace FunctionPath

variable {text : String} {path : FunctionPath}

/-! ## What is read -/

/-- A text that can name a function. -/
structure IsAccepted (text : String) : Prop where
  chars : ∀ c ∈ text.toList, isPathChar c = true
  segments : ∀ segment ∈ Text.split '.' text, segment ≠ ""

/-- What a text says behind the section. -/
def body (text : String) : String :=
  (Text.after? "poly." (Text.trim text)).getD (Text.trim text)

/-- The path that segments spell. -/
def ofSegments (segments : List String) : FunctionPath :=
  ⟨Text.join "." segments.dropLast, segments.getLast?.getD ""⟩

theorem ofSegments_concat (front : List String) (name : String) :
    ofSegments (front ++ [name]) = ⟨Text.join "." front, name⟩ := by
  simp [ofSegments]

theorem IsAccepted.ne_empty (h : IsAccepted text) : text ≠ "" := by
  rintro rfl
  exact h.segments "" (by decide) rfl

/-- A text is read as the path that its segments behind the section spell, if it can name a
function. -/
theorem parse_eq_ok_iff :
    parse text = .ok path ↔
      IsAccepted (body text) ∧ path = ofSegments (Text.split '.' (body text)) := by
  have hparse : parse text =
      if (body text).isEmpty then .error .empty
      else if !(body text).toList.all isPathChar then .error (.invalidCharacters text)
      else if (Text.split '.' (body text)).any String.isEmpty then .error (.emptySegment text)
      else .ok (ofSegments (Text.split '.' (body text))) := rfl
  rw [hparse]
  constructor
  -- each check that fails ends with an error, so a path comes from passing all of them
  · intro h
    split at h
    · exact absurd h (by simp)
    split at h
    · exact absurd h (by simp)
    split at h
    · exact absurd h (by simp)
    rename_i hchars hsegments
    refine ⟨⟨by simpa using hchars, fun segment hm hempty => hsegments ?_⟩,
      (Except.ok.inj h).symm⟩
    exact List.any_eq_true.mpr ⟨segment, hm, by simp [hempty]⟩
  · rintro ⟨haccepted, rfl⟩
    have hempty : (body text).isEmpty = false := by simpa using haccepted.ne_empty
    have hchars : (body text).toList.all isPathChar = true := by simpa using haccepted.chars
    have hsegments : (Text.split '.' (body text)).any String.isEmpty = false := by
      simpa using haccepted.segments
    simp [hempty, hchars, hsegments]

theorem trim_of_chars (h : ∀ c ∈ text.toList, isPathChar c = true) : Text.trim text = text := by
  have hblank : ∀ c ∈ text.toList, Text.isBlank c = false := by
    intro c hm
    rw [← Bool.not_eq_true]
    intro hblank
    have hnot : isPathChar c = false := Text.eq_false_of_isBlank (by decide +kernel) hblank
    exact Bool.noConfusion ((h c hm).symm.trans hnot)
  rw [Text.trim, TypeName.trimChars_of_not_blank hblank, String.ofList_toList]

theorem body_of_section (h : ∀ c ∈ text.toList, isPathChar c = true) :
    body ("poly." ++ text) = text := by
  have hall : ∀ c ∈ ("poly." ++ text).toList, isPathChar c = true := by
    intro c hm
    rw [String.toList_append, List.mem_append] at hm
    exact hm.elim (fun hm => List.all_eq_true.mp (by decide : "poly.".toList.all isPathChar) c hm)
      (h c)
  rw [body, trim_of_chars hall, Text.after?_eq_some_iff.mpr rfl, Option.getD_some]

theorem body_eq_self (h : ∀ c ∈ text.toList, isPathChar c = true)
    (hlead : ¬ ∃ rest, text = "poly." ++ rest) : body text = text := by
  have hnone : Text.after? "poly." text = none := Option.eq_none_iff_forall_ne_some.mpr
    fun rest hrest => hlead ⟨rest, Text.after?_eq_some_iff.mp hrest⟩
  rw [body, trim_of_chars h, hnone, Option.getD_none]

/-! ## What is written -/

/-- The segments of a context; an empty one has none. -/
def contextSegments (context : String) : List String :=
  if context = "" then [] else Text.split '.' context

theorem join_contextSegments (context : String) :
    Text.join "." (contextSegments context) = context := by
  unfold contextSegments
  split
  · rename_i hempty
    rw [hempty]
    rfl
  · exact Text.join_segments '.' context

/-- A path that is written as a text that can name a function. -/
structure IsReferable (path : FunctionPath) : Prop where
  accepted : IsAccepted path.render
  dotless : '.' ∉ path.name.toList

theorem split_render (h : '.' ∉ path.name.toList) :
    Text.split '.' path.render = contextSegments path.context ++ [path.name] := by
  unfold render contextSegments
  by_cases hempty : path.context = ""
  · simp [hempty, Text.split_of_not_mem h]
  · simp only [String.isEmpty_iff, hempty, if_false]
    exact (Text.split_append_sep path.context path.name).trans
      (congrArg _ (Text.split_of_not_mem h))

theorem ofSegments_split_render (h : '.' ∉ path.name.toList) :
    ofSegments (Text.split '.' path.render) = path := by
  rw [split_render h, ofSegments_concat, join_contextSegments]

theorem split_section (rest : String) :
    Text.split '.' ("poly." ++ rest) = "poly" :: Text.split '.' rest :=
  Text.split_append_sep "poly" rest

/-- A path begins with the section only where its context does. -/
theorem head?_of_section (h : '.' ∉ path.name.toList)
    (hlead : ∃ rest, path.render = "poly." ++ rest) :
    (Text.split '.' path.context).head? = some "poly" := by
  obtain ⟨rest, hrest⟩ := hlead
  have hsplit := split_render h
  rw [hrest, split_section] at hsplit
  unfold contextSegments at hsplit
  split at hsplit
  · exact absurd (List.cons.inj hsplit).2 (Text.split_ne_nil '.' rest)
  · obtain ⟨first, more, hcontext⟩ :=
      List.exists_cons_of_ne_nil (Text.split_ne_nil '.' path.context)
    rw [hcontext] at hsplit ⊢
    rw [(List.cons.inj hsplit).1]
    rfl

/-- Behind a section at the beginning of a context stand the other segments and the name. -/
theorem exists_behind_section (h : '.' ∉ path.name.toList)
    (hhead : (Text.split '.' path.context).head? = some "poly") :
    ∃ rest, path.render = "poly." ++ rest ∧
      Text.split '.' rest = (Text.split '.' path.context).tail ++ [path.name] := by
  obtain ⟨more, hcontext⟩ : ∃ more, Text.split '.' path.context = "poly" :: more := by
    cases hcontext : Text.split '.' path.context with
    | nil => exact absurd hcontext (Text.split_ne_nil '.' path.context)
    | cons first more =>
        rw [hcontext] at hhead
        exact ⟨more, by rw [Option.some.inj hhead]⟩
  -- the empty context is written as nothing, but cut into one segment like any other text
  have hne : path.context ≠ "" := by
    intro hempty
    rw [hempty] at hcontext
    exact absurd (List.cons.inj hcontext).1 (by decide)
  have hsplit := split_render h
  rw [contextSegments, if_neg hne, hcontext, List.cons_append] at hsplit
  obtain ⟨-, hdotless, hjoin⟩ := Text.split_eq_iff.mp hsplit
  refine ⟨Text.join "." (more ++ [path.name]), ?_, ?_⟩
  · rw [← hjoin]
    exact Text.join_append '.' (List.cons_ne_nil "poly" []) (by simp)
  · rw [hcontext]
    exact Text.split_join (by simp) fun piece hm => hdotless piece (List.mem_cons_of_mem _ hm)

/-! ## Reading what is written -/

theorem IsReferable.parse_render (h : path.IsReferable)
    (hhead : (Text.split '.' path.context).head? ≠ some "poly") : parse path.render = .ok path := by
  have hbody : body path.render = path.render :=
    body_eq_self h.accepted.chars fun hlead => hhead (head?_of_section h.dotless hlead)
  exact parse_eq_ok_iff.mpr ⟨hbody.symm ▸ h.accepted,
    by rw [hbody, ofSegments_split_render h.dotless]⟩

/-- The section in front of a path does not count. -/
theorem IsReferable.parse_section (h : path.IsReferable) :
    parse ("poly." ++ path.render) = .ok path := by
  have hbody := body_of_section h.accepted.chars
  exact parse_eq_ok_iff.mpr ⟨hbody.symm ▸ h.accepted,
    by rw [hbody, ofSegments_split_render h.dotless]⟩

/-- From a context that begins with the section, the section is taken away. -/
theorem IsReferable.parse_render_of_section (h : path.IsReferable)
    (hhead : (Text.split '.' path.context).head? = some "poly") :
    parse path.render =
      .ok ⟨Text.join "." (Text.split '.' path.context).tail, path.name⟩ := by
  obtain ⟨rest, hrest, hsplit⟩ := exists_behind_section h.dotless hhead
  have hchars : ∀ c ∈ rest.toList, isPathChar c = true := fun c hm =>
    h.accepted.chars c (by rw [hrest, String.toList_append]; exact List.mem_append_right _ hm)
  have hsegments : ∀ segment ∈ Text.split '.' rest, segment ≠ "" := fun segment hm =>
    h.accepted.segments segment (by rw [hrest, split_section]; exact List.mem_cons_of_mem _ hm)
  have hbody : body path.render = rest := by rw [hrest, body_of_section hchars]
  exact parse_eq_ok_iff.mpr ⟨hbody.symm ▸ ⟨hchars, hsegments⟩,
    by rw [hbody, hsplit, ofSegments_concat]⟩

/-- A context of segments is written in front of the name with a dot, no context without one. -/
theorem render_concat {front : List String} (name : String)
    (h : ∀ segment ∈ front, segment ≠ "" ∧ '.' ∉ segment.toList) :
    render ⟨Text.join "." front, name⟩ = Text.join "." (front ++ [name]) := by
  by_cases hfront : front = []
  · rw [hfront, List.nil_append, Text.join_singleton]
    rfl
  · -- the context is not taken for the empty one, which a single empty segment would make
    have hcontext : Text.join "." front ≠ "" := by
      intro hempty
      have hback : Text.split '.' (Text.join "." front) = front :=
        Text.split_join hfront fun piece hm => (h piece hm).2
      rw [hempty] at hback
      exact (h "" (hback ▸ by decide)).1 rfl
    have hjoin := Text.join_append '.' hfront (List.cons_ne_nil name [])
    rw [Text.join_singleton] at hjoin
    simp only [render, String.isEmpty_iff, hcontext, if_false]
    exact hjoin.symm

/-- What has been read is written as what the text says behind the section. -/
theorem isReferable_of_parse (h : parse text = .ok path) : path.IsReferable := by
  obtain ⟨haccepted, rfl⟩ := parse_eq_ok_iff.mp h
  obtain ⟨front, name, hsplit⟩ : ∃ front name, Text.split '.' (body text) = front ++ [name] :=
    ⟨_, _, (List.dropLast_concat_getLast (Text.split_ne_nil '.' (body text))).symm⟩
  have hsegments : ∀ segment ∈ front ++ [name], segment ≠ "" ∧ '.' ∉ segment.toList :=
    fun segment hm => ⟨haccepted.segments segment (hsplit ▸ hm),
      Text.not_mem_of_mem_split (hsplit ▸ hm)⟩
  have hrender : render ⟨Text.join "." front, name⟩ = body text := by
    rw [render_concat name fun segment hm => hsegments segment (List.mem_append_left _ hm),
      ← hsplit]
    exact Text.join_segments '.' (body text)
  rw [hsplit, ofSegments_concat]
  exact ⟨hrender.symm ▸ haccepted, (hsegments name (by simp)).2⟩

end FunctionPath

namespace Command

open FunctionPath (isPathChar)

/-! ## Finding -/

/-- Whether a spec is a function that a path leads to. -/
def IsCalled (path : FunctionPath) (spec : Spec) : Prop :=
  spec.category.isFunction = true ∧ spec.context = path.context ∧ spec.name = path.name

/-- The first spec that a path leads to is found, if there is one. -/
theorem findFunction?_of_mem {specs : List Spec} {spec : Spec} {path : FunctionPath}
    (hm : spec ∈ specs) (h : IsCalled path spec) :
    ∃ before found after, specs = before ++ found :: after ∧
      findFunction? specs path = some found ∧ IsCalled path found ∧
      ∀ other ∈ before, ¬ IsCalled path other := by
  have hiff : ∀ other : Spec, (other.category.isFunction && other.context == path.context &&
      other.name == path.name) = true ↔ IsCalled path other := by
    intro other
    simp [IsCalled, and_assoc]
  have hsome : (findFunction? specs path).isSome :=
    List.find?_isSome.mpr ⟨spec, hm, (hiff spec).mpr h⟩
  obtain ⟨found, hfound⟩ := Option.isSome_iff_exists.mp hsome
  obtain ⟨hcalled, before, after, hspecs, hbefore⟩ := List.find?_eq_some_iff_append.mp hfound
  exact ⟨before, found, after, hspecs, hfound, (hiff found).mp hcalled,
    fun other hother hcalled => by simpa [(hiff other).mpr hcalled] using hbefore other hother⟩

/-- **A function is found by its qualified name**, unless its context begins with the section.
Take a function whose name has no dot in it and whose qualified name can name a function. With the
section in front, its qualified name is read as its context and its name. So is the qualified name
itself if the first segment of the context is not like the section; otherwise that segment is
missing from the context that is read. The context and the name lead to the first function of the
list that has both. Likewise, each path that has been read comes back from what it is written as,
with the section in front or if its context does not begin like it. -/
theorem findFunction?_qualifiedName :
    (∀ (specs : List Spec) (spec : Spec), spec ∈ specs → spec.category.isFunction = true →
      '.' ∉ spec.name.toList → (∀ c ∈ spec.qualifiedName.toList, isPathChar c = true) →
      (∀ segment ∈ Text.split '.' spec.qualifiedName, segment ≠ "") →
      FunctionPath.parse ("poly." ++ spec.qualifiedName) = .ok ⟨spec.context, spec.name⟩ ∧
      ((Text.split '.' spec.context).head? ≠ some "poly" →
        FunctionPath.parse spec.qualifiedName = .ok ⟨spec.context, spec.name⟩) ∧
      ((Text.split '.' spec.context).head? = some "poly" →
        FunctionPath.parse spec.qualifiedName =
          .ok ⟨Text.join "." (Text.split '.' spec.context).tail, spec.name⟩) ∧
      ∃ before found after, specs = before ++ found :: after ∧
        findFunction? specs ⟨spec.context, spec.name⟩ = some found ∧
        IsCalled ⟨spec.context, spec.name⟩ found ∧
        ∀ other ∈ before, ¬ IsCalled ⟨spec.context, spec.name⟩ other) ∧
    ∀ (text : String) (path : FunctionPath), FunctionPath.parse text = .ok path →
      FunctionPath.parse ("poly." ++ path.render) = .ok path ∧
      ((Text.split '.' path.context).head? ≠ some "poly" →
        FunctionPath.parse path.render = .ok path) := by
  refine ⟨fun specs spec hm hfunction hdotless hchars hsegments => ?_, fun text path hparse => ?_⟩
  · have h : FunctionPath.IsReferable ⟨spec.context, spec.name⟩ := ⟨⟨hchars, hsegments⟩, hdotless⟩
    exact ⟨h.parse_section, h.parse_render, h.parse_render_of_section,
      findFunction?_of_mem hm ⟨hfunction, rfl, rfl⟩⟩
  · have h := FunctionPath.isReferable_of_parse hparse
    exact ⟨h.parse_section, h.parse_render⟩

/-- A function on the server with a context, a name and an id. -/
def serverFunction (context name id : String) : Spec :=
  { Spec.blank with id := id, context := context, name := name, category := .serverFunction }

/-- Three functions of one name, two of them in one context, whose first segment only begins like
the section. -/
def surveys : List Spec :=
  [serverFunction "polygon" "list-all" "1", serverFunction "polygon.areas" "list-all" "2",
    serverFunction "polygon.areas" "list-all" "3"]

/-- Of the two functions in one context the first is found, by the name of either. -/
theorem findFunction?_qualifiedName_surveys :
    serverFunction "polygon.areas" "list-all" "3" ∈ surveys ∧
      FunctionPath.parse "poly.polygon.areas.list-all" = .ok ⟨"polygon.areas", "list-all"⟩ ∧
      FunctionPath.parse "polygon.areas.list-all" = .ok ⟨"polygon.areas", "list-all"⟩ ∧
      (∃ found, findFunction? surveys ⟨"polygon.areas", "list-all"⟩ = some found ∧
        IsCalled ⟨"polygon.areas", "list-all"⟩ found ∧ found.id = "2") ∧
      FunctionPath.parse (FunctionPath.render ⟨"polygon.areas", "list-all"⟩) =
        .ok ⟨"polygon.areas", "list-all"⟩ := by
  have hm : serverFunction "polygon.areas" "list-all" "3" ∈ surveys := .tail _ (.tail _ (.head _))
  obtain ⟨hnamed, hback⟩ := findFunction?_qualifiedName
  obtain ⟨hsection, hplain, -, -, found, -, -, hfound, hcalled, -⟩ :=
    hnamed surveys _ hm rfl (by decide) (List.all_eq_true.mp (by decide)) (by decide)
  have hplain := hplain (by decide)
  have hid : (findFunction? surveys ⟨"polygon.areas", "list-all"⟩).map Spec.id = some "2" := by
    decide +kernel
  rw [show findFunction? surveys ⟨"polygon.areas", "list-all"⟩ = some found from hfound] at hid
  exact ⟨hm, hsection, hplain, ⟨found, hfound, hcalled, Option.some.inj hid⟩,
    (hback _ _ hplain).2 (by decide)⟩

/-- **A function in a context like the section is not found by its qualified name:** another
function is, which has no context. -/
theorem findFunction?_misses_section :
    (serverFunction "poly" "ping" "2").qualifiedName = "poly.ping" ∧
      FunctionPath.parse "poly.ping" = .ok ⟨"", "ping"⟩ ∧
      (findFunction? [serverFunction "" "ping" "1", serverFunction "poly" "ping" "2"]
        ⟨"", "ping"⟩).map Spec.id = some "1" ∧
      FunctionPath.parse "poly.poly.ping" = .ok ⟨"poly", "ping"⟩ ∧
      FunctionPath.parse (FunctionPath.render ⟨"poly", "ping"⟩) = .ok ⟨"", "ping"⟩ :=
  ⟨by decide, Result.eq_ok_of_toOption (by decide +kernel), by decide +kernel,
    Result.eq_ok_of_toOption (by decide +kernel), Result.eq_ok_of_toOption (by decide +kernel)⟩

end Command

end StubGen
