import VirtualContributor.Lib.JsonObjects
import VirtualContributor.Plugins.BraceBlocks
import VirtualContributor.Plugins.JsonFences

/-!
# JSON answers and their wrapping

An object printed between a preamble and a trailing text comes back exactly when
its text is one block of braces, those inside its strings included.  Whatever
JSON a fence encloses is returned, so the result need not be an object
(`parses_json_iff`).
-/

namespace VirtualContributor.Plugins

open Lib

variable {F : JsonFloats}

/-! ## The text of an object -/

theorem exists_dumpValue_obj (F : JsonFloats) (fields : List (String × Json)) :
    ∃ body, dumpValue F (.obj fields) = '{' :: body ++ ['}'] := by
  cases fields with
  | nil => exact ⟨[], rfl⟩
  | cons field fields => exact ⟨_, rfl⟩

/-- A block of braces that an object is read from, with the text of the object
before or behind it, is the text of the object. -/
theorem eq_of_loads_block {fields : List (String × Json)} (hobject : F.Printable (.obj fields))
    {block after trailing : List Char} (hblock : BraceBlock block)
    (hloads : loads F (String.ofList block) = .ok (.obj fields))
    (htext : block ++ after = dumpValue F (.obj fields) ++ trailing) :
    block = dumpValue F (.obj fields) := by
  have hdumps := loads_dumps hobject
  obtain ⟨body, hbody⟩ := exists_dumpValue_obj F fields
  obtain ⟨rest, hrest⟩ := List.head?_eq_some_iff.mp hblock.opens
  unfold dumps at hdumps
  obtain ⟨more, hmore, -⟩ | ⟨more, hmore, -⟩ := List.append_eq_append_iff.mp htext
  · -- the block ends in the object, so only blanks of the object are behind it
    rw [hmore, hrest] at hdumps
    rw [hrest] at hloads
    have hspace := space_of_loads_append hloads hdumps
    cases more using List.reverseRecOn with
    | nil => rw [hmore, List.append_nil]
    | append_singleton more last =>
      rw [hbody, ← List.append_assoc] at hmore
      obtain ⟨-, hlast⟩ := List.append_inj' hmore rfl
      have hbrace := hspace last (List.mem_append_right _ List.mem_cons_self)
      rw [← (List.cons.inj hlast).1] at hbrace
      exact absurd hbrace (by decide)
  · -- the object ends in the block, so only blanks of the block are behind it
    by_cases hnil : more = []
    · rw [hmore, hnil, List.append_nil]
    · exfalso
      rw [hmore, hbody] at hloads
      rw [hbody] at hdumps
      have hspace := space_of_loads_append hdumps hloads
      have hdeep := hblock.inside (dumpValue F (.obj fields)) (hmore ▸ List.prefix_append _ _)
        (by rw [hbody]; exact List.cons_ne_nil _ _)
        (fun heq => hnil (List.append_right_eq_self.mp (heq.trans hmore).symm))
      have hcount : ∀ c, isJsonSpace c = false → more.count c = 0 := by
        intro c hc
        rw [List.count_eq_zero]
        intro hmem
        rw [hspace c hmem] at hc
        cases hc
      have hwhole := hblock.whole
      rw [hmore, braceDepth_append] at hwhole
      have hzero : braceDepth more = 0 := by
        rw [braceDepth, hcount '{' (by decide), hcount '}' (by decide)]
        rfl
      omega

namespace GuidancePlugin

theorem loadsOr_eq_some {text : String} {otherwise : Except LoadError (Option Json)}
    {value : Json} (hnot : otherwise ≠ .ok (some value)) :
    loadsOr F text otherwise = .ok (some value) ↔ loads F text = .ok value ∧ value ≠ .null := by
  unfold loadsOr
  cases h : loads F text with
  | error error =>
    cases error with
    | decode => simp [hnot]
    | tooManyDigits => simp
  | ok found =>
    cases found <;> simp [orNone] <;> grind

/-- Without a fence the first block of braces counts. -/
theorem parseBareObject_iff {fields : List (String × Json)} {text : String} :
    parseBareObject F text = .ok (some (.obj fields)) ↔
      ∃ block, FirstBlock text block ∧ loads F block = .ok (.obj fields) := by
  unfold parseBareObject
  cases h : braceCandidate text with
  | none =>
    constructor
    · exact nofun
    · intro hblock
      obtain ⟨block, hfirst, -⟩ := hblock
      rw [braceCandidate_iff.mpr hfirst] at h
      cases h
  | some candidate =>
    show loadsOr F candidate (.ok none) = _ ↔ _
    rw [loadsOr_eq_some (by simp)]
    constructor
    · exact fun hloads => ⟨candidate, braceCandidate_iff.mp h, hloads.1⟩
    · intro hblock
      obtain ⟨block, hfirst, hloads⟩ := hblock
      rw [braceCandidate_iff.mpr hfirst] at h
      rw [← Option.some.inj h]
      exact ⟨hloads, nofun⟩

/-- A text with a brace and without a fence. -/
theorem parseJsonSources_bare {text : String} (hbrace : '{' ∈ text.toList)
    (hfence : NoFence text.toList) :
    parseJsonSources F text = parseBareObject F text := by
  have hblank : isBlank text = false := by
    rw [← Bool.not_eq_true, isBlank, List.all_eq_true]
    exact fun hall => absurd (hall '{' hbrace) (by decide)
  unfold parseJsonSources
  rw [hblank, fenceGroup_of_noFence hfence]
  rfl

/-- An object comes back out of its wrapping exactly when its text is one block
of braces. -/
theorem parseJsonSources_dumps_iff {fields : List (String × Json)}
    (hobject : F.Printable (.obj fields))
    (htexts : EachText (fun text => NoFence text.toList) (.obj fields))
    {preamble trailing : String} (hbrace : '{' ∉ preamble.toList)
    (hpreamble : NoFence preamble.toList) (htrailing : NoFence trailing.toList) :
    parseJsonSources F (preamble ++ dumps F (.obj fields) ++ trailing) = .ok (some (.obj fields)) ↔
      BraceBlock (dumps F (.obj fields)).toList := by
  obtain ⟨body, hbody⟩ := exists_dumpValue_obj F fields
  have htext : (preamble ++ dumps F (.obj fields) ++ trailing).toList =
      preamble.toList ++ (dumpValue F (.obj fields) ++ trailing.toList) := by
    rw [String.toList_append, String.toList_append, dumps, String.toList_ofList,
      List.append_assoc]
  have hnofence : NoFence (preamble ++ dumps F (.obj fields) ++ trailing).toList := by
    have hdump := noFence_dumpValue hobject htexts
    rw [hbody, noFence_append_cons (by decide)] at hdump
    rw [htext, hbody, List.cons_append, List.cons_append, noFence_append_cons (by decide),
      List.append_assoc, List.singleton_append, noFence_append_cons (by decide)]
    exact ⟨hpreamble, (noFence_cons (by decide)).mp hdump.1, htrailing⟩
  have hmem : '{' ∈ (preamble ++ dumps F (.obj fields) ++ trailing).toList := by
    rw [htext, hbody]
    exact List.mem_append_right _ List.mem_cons_self
  rw [parseJsonSources_bare hmem hnofence, parseBareObject_iff]
  constructor
  · intro h
    obtain ⟨block, ⟨before, after, hsplit, hbefore, hblock⟩, hloads⟩ := h
    obtain ⟨rest, hrest⟩ := List.head?_eq_some_iff.mp hblock.opens
    -- both texts begin at the first brace
    have hdrop : block.toList ++ after = dumpValue F (.obj fields) ++ trailing.toList := by
      have hnot : ∀ {u : List Char}, '{' ∉ u → ∀ c ∈ u, decide (c ≠ '{') = true := by
        intro u hu c hc
        rw [decide_eq_true_eq]
        exact fun heq => hu (heq ▸ hc)
      have hboth := congrArg (List.dropWhile fun c => decide (c ≠ '{')) (htext.symm.trans hsplit)
      rw [List.dropWhile_append_of_pos (hnot hbrace), List.dropWhile_append_of_pos (hnot hbefore),
        hbody, hrest] at hboth
      rw [hbody, hrest]
      exact hboth.symm
    have heq : block.toList = dumpValue F (.obj fields) :=
      eq_of_loads_block hobject hblock (by rw [String.ofList_toList]; exact hloads) hdrop
    rw [dumps, String.toList_ofList, ← heq]
    exact hblock
  · intro h
    refine ⟨dumps F (.obj fields), ⟨preamble.toList, trailing.toList, ?_, hbrace, h⟩,
      loads_dumps hobject⟩
    rw [htext, dumps, String.toList_ofList]

/-! ## Any text -/

/-- A result that is a `dict` or `None`. -/
def DictOrNone (result : Except LoadError (Option Json)) : Prop :=
  ∃ parsed, result = .ok parsed ∧ ∀ value ∈ parsed, value.isObj = true

/-- In a fence of the text there is no JSON but an object or `null`, and where
JSON is looked for there is no integer with too many digits. -/
structure ObjectsOnly (F : JsonFloats) (text : String) : Prop where
  fenced : ∀ group value, fenceGroup text = some group → loads F (strip group) = .ok value →
    value = .null ∨ value.isObj = true
  fencedDigits : ∀ group, fenceGroup text = some group →
    loads F (strip group) ≠ .error .tooManyDigits
  bareDigits : (∀ group, fenceGroup text = some group → loads F (strip group) = .error .decode) →
    ∀ block, FirstBlock text block → loads F block ≠ .error .tooManyDigits

theorem dictOrNone_none : DictOrNone (.ok none) := ⟨none, rfl, nofun⟩

theorem dictOrNone_orNone {value : Json} :
    DictOrNone (.ok (orNone value)) ↔ value = .null ∨ value.isObj = true := by
  constructor
  · intro h
    obtain ⟨parsed, hparsed, hall⟩ := h
    obtain rfl := Except.ok.inj hparsed
    cases value with
    | null => exact .inl rfl
    | _ => exact .inr (hall _ rfl)
  · intro h
    refine ⟨orNone value, rfl, ?_⟩
    intro found hfound
    obtain rfl | hobject := h
    · cases hfound
    · cases value with
      | obj fields =>
        obtain rfl : Json.obj fields = found := Option.some.inj hfound
        rfl
      | _ => cases hobject

theorem not_dictOrNone_error {error : LoadError} : ¬ DictOrNone (.error error) := by
  intro h
  obtain ⟨parsed, hparsed, -⟩ := h
  cases hparsed

theorem parseBareObject_dictOrNone_iff {text : String} :
    DictOrNone (parseBareObject F text) ↔
      ∀ block, FirstBlock text block → loads F block ≠ .error .tooManyDigits := by
  unfold parseBareObject
  cases hcandidate : braceCandidate text with
  | none =>
    refine iff_of_true dictOrNone_none ?_
    intro block hblock
    rw [braceCandidate_iff.mpr hblock] at hcandidate
    cases hcandidate
  | some candidate =>
    have hfirst := braceCandidate_iff.mp hcandidate
    have hblock : ∀ block, FirstBlock text block → block = candidate := by
      intro block hblock
      rw [braceCandidate_iff.mpr hblock] at hcandidate
      exact Option.some.inj hcandidate
    show DictOrNone (loadsOr F candidate (.ok none)) ↔ _
    unfold loadsOr
    cases hloads : loads F candidate with
    | ok value =>
      have hobject : value.isObj = true := by
        obtain ⟨-, -, -, -, hbraces⟩ := hfirst
        obtain ⟨rest, hrest⟩ := List.head?_eq_some_iff.mp hbraces.opens
        apply @isObj_of_loads F rest
        rw [← hrest, String.ofList_toList, hloads]
      refine iff_of_true (dictOrNone_orNone.mpr (.inr hobject)) ?_
      intro block hfound
      rw [hblock block hfound, hloads]
      exact nofun
    | error error =>
      cases error with
      | decode =>
        refine iff_of_true dictOrNone_none ?_
        intro block hfound
        rw [hblock block hfound, hloads]
        exact nofun
      | tooManyDigits =>
        refine iff_of_false not_dictOrNone_error ?_
        exact fun hnone => hnone candidate hfirst hloads

theorem objectsOnly_iff_of_none {text : String} (hfence : fenceGroup text = none) :
    ObjectsOnly F text ↔
      ∀ block, FirstBlock text block → loads F block ≠ .error .tooManyDigits := by
  have hnot : ∀ group, fenceGroup text ≠ some group := by
    intro group hgroup
    rw [hfence] at hgroup
    cases hgroup
  constructor
  · exact fun h => h.bareDigits fun group hgroup => absurd hgroup (hnot group)
  · intro hdigits
    exact ⟨fun group _ hgroup => absurd hgroup (hnot group),
      fun group hgroup => absurd hgroup (hnot group), fun _ => hdigits⟩

theorem objectsOnly_iff_of_some {text group : String} (hfence : fenceGroup text = some group) :
    ObjectsOnly F text ↔
      (∀ value, loads F (strip group) = .ok value → value = .null ∨ value.isObj = true) ∧
      loads F (strip group) ≠ .error .tooManyDigits ∧
      (loads F (strip group) = .error .decode →
        ∀ block, FirstBlock text block → loads F block ≠ .error .tooManyDigits) := by
  have hgroup : ∀ other, fenceGroup text = some other → other = group := by
    intro other hother
    rw [hfence] at hother
    exact (Option.some.inj hother).symm
  constructor
  · intro h
    refine ⟨fun value => h.fenced group value hfence, h.fencedDigits group hfence, ?_⟩
    intro hdecode
    apply h.bareDigits
    intro other hother
    rw [hgroup other hother, hdecode]
  · intro h
    obtain ⟨hvalue, hdigits, hbare⟩ := h
    refine ⟨?_, ?_, fun hdecode => hbare (hdecode group hfence)⟩
    · intro other value hother
      rw [hgroup other hother]
      exact hvalue value
    · intro other hother
      rw [hgroup other hother]
      exact hdigits

/-- The result is an object or `None` exactly for such a text. -/
theorem parseJsonSources_dictOrNone_iff {text : String} :
    DictOrNone (parseJsonSources F text) ↔ ObjectsOnly F text := by
  unfold parseJsonSources
  split
  · next hblank =>
    rw [isBlank, List.all_eq_true] at hblank
    have hfence : fenceGroup text = none := by
      apply fenceGroup_of_noFence
      apply noFence_of_not_mem
      exact fun hmem => absurd (hblank _ hmem) (by decide)
    refine iff_of_true dictOrNone_none ((objectsOnly_iff_of_none hfence).mpr ?_)
    intro block hblock
    obtain ⟨before, after, htext, -, hbraces⟩ := hblock
    obtain ⟨rest, hrest⟩ := List.head?_eq_some_iff.mp hbraces.opens
    have hmem : '{' ∈ text.toList := by
      rw [htext, hrest]
      exact List.mem_append_right _ List.mem_cons_self
    exact absurd (hblank _ hmem) (by decide)
  · cases hfence : fenceGroup text with
    | none =>
      rw [objectsOnly_iff_of_none hfence]
      exact parseBareObject_dictOrNone_iff
    | some group =>
      rw [objectsOnly_iff_of_some hfence]
      show DictOrNone (loadsOr F (strip group) (parseBareObject F text)) ↔ _
      unfold loadsOr
      cases hloads : loads F (strip group) with
      | ok value =>
        show DictOrNone (.ok (orNone value)) ↔ _
        rw [dictOrNone_orNone]
        constructor
        · exact fun hvalue => ⟨fun found hfound => Except.ok.inj hfound ▸ hvalue, nofun, nofun⟩
        · exact fun h => h.1 value rfl
      | error error =>
        cases error with
        | decode =>
          show DictOrNone (parseBareObject F text) ↔ _
          rw [parseBareObject_dictOrNone_iff]
          exact ⟨fun hdigits => ⟨nofun, nofun, fun _ => hdigits⟩, fun h => h.2.2 rfl⟩
        | tooManyDigits => exact iff_of_false not_dictOrNone_error fun h => h.2.1 rfl

/-! ## Wrapped answers -/

/-- An object comes back out of its wrapping exactly when its text, with the
braces in its strings, is one block of braces; and the result for a text is an
object or `None` exactly when no fence holds other JSON and no integer is too
long. -/
theorem parses_json_iff (F : JsonFloats) :
    (∀ (fields : List (String × Json)) (preamble trailing : String),
      F.Printable (.obj fields) →
      EachText (fun text => NoFence text.toList) (.obj fields) →
      '{' ∉ preamble.toList → NoFence preamble.toList → NoFence trailing.toList →
      (parseJsonSources F (preamble ++ dumps F (.obj fields) ++ trailing) =
          .ok (some (.obj fields)) ↔
        BraceBlock (dumps F (.obj fields)).toList)) ∧
    ∀ text, DictOrNone (parseJsonSources F text) ↔ ObjectsOnly F text :=
  ⟨fun _ _ _ hobject htexts hbrace hpreamble htrailing =>
    parseJsonSources_dumps_iff hobject htexts hbrace hpreamble htrailing,
    fun _ => parseJsonSources_dictOrNone_iff⟩

end GuidancePlugin

/-! ## Two answers -/

/-- Reading and printing of the floats `0.0` and the infinities. -/
def zeroFloats : JsonFloats where
  float text := if text = "0.0" then .finite 0 else .infinite (text = "-Infinity")
  repr value :=
    if value = .finite 0 then "0.0" else if value = .infinite true then "-Infinity" else "Infinity"
  isFloat value := value = .finite 0 || value = .infinite true || value = .infinite false
  float_repr := by
    intro value h
    simp only [Bool.or_eq_true, decide_eq_true_eq] at h
    obtain (rfl | rfl) | rfl := h <;> decide
  repr_literal := by
    intro value h
    simp only [Bool.or_eq_true, decide_eq_true_eq] at h
    obtain (rfl | rfl) | rfl := h
    · exact .inr (.inr ⟨.fraction, by decide, rfl⟩)
    · exact .inr (.inl (by decide))
    · exact .inl (by decide)

/-- `{"answer": "Yes", "score": 0.0}` -/
def scoredAnswer : List (String × Json) :=
  [("answer", .str "Yes"), ("score", .float (.finite 0))]

theorem scoredAnswer_each {P : String → Prop} (h : P "answer" ∧ P "Yes" ∧ P "score") :
    EachText P (.obj scoredAnswer) := by
  refine .obj scoredAnswer ?_ ?_
  · exact List.forall_mem_cons.mpr ⟨h.1, List.forall_mem_singleton.mpr h.2.2⟩
  · exact List.forall_mem_cons.mpr
      ⟨.str "Yes" h.2.1, List.forall_mem_singleton.mpr (.float (.finite 0))⟩

theorem scoredAnswer_printable : zeroFloats.Printable (.obj scoredAnswer) := by
  refine .obj scoredAnswer (by decide) ?_
  exact List.forall_mem_cons.mpr
    ⟨.str "Yes", List.forall_mem_singleton.mpr (.float (.finite 0) (by decide))⟩

namespace GuidancePlugin

theorem parses_json_iff_scored :
    parseJsonSources zeroFloats
        ("Here it is: " ++ dumps zeroFloats (.obj scoredAnswer) ++ " Bye\x7d") =
      .ok (some (.obj scoredAnswer)) := by
  have hfence : ∀ text : String, '\x60' ∉ text.toList → NoFence text.toList := fun _ h =>
    noFence_of_not_mem h
  refine ((parses_json_iff zeroFloats).1 scoredAnswer "Here it is: " " Bye\x7d"
    scoredAnswer_printable (scoredAnswer_each ⟨hfence _ (by decide), hfence _ (by decide),
      hfence _ (by decide)⟩) (by decide) (hfence _ (by decide)) (hfence _ (by decide))).mpr ?_
  refine braceBlock_dumps scoredAnswer_printable (scoredAnswer_each ⟨?_, ?_, ?_⟩)
  all_goals exact ⟨by decide, by decide⟩

/-- An object with a closing brace in a string is lost, and a list in a fence is
returned. -/
theorem brace_in_string_lost :
    (zeroFloats.Printable (.obj [("answer", .str "\x7d")]) ∧
      EachText (fun text => NoFence text.toList) (.obj [("answer", .str "\x7d")]) ∧
      parseJsonSources zeroFloats (dumps zeroFloats (.obj [("answer", .str "\x7d")])) = .ok none) ∧
    parseJsonSources zeroFloats "```json\n[1]\n```" = .ok (some (.arr [.int 1])) := by
  refine ⟨⟨?_, ?_, rfl⟩, rfl⟩
  · exact .obj _ (by decide) (List.forall_mem_singleton.mpr (.str "\x7d"))
  · refine .obj _ (List.forall_mem_singleton.mpr ?_)
      (List.forall_mem_singleton.mpr (.str "\x7d" ?_))
    · exact noFence_of_not_mem (by decide)
    · exact noFence_of_not_mem (by decide)

end GuidancePlugin

end VirtualContributor.Plugins
