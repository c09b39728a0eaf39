import VirtualContributor.Graph.WellFormed

/-!
# The mapping of a conditional edge

The mapping is written with keys of any letter case; the parser lowers them
and the router lowers the value it looks up.  Keys that differ only in letter
case become one key of the lowered mapping, which keeps the target of the
last of them.  `compiled_router_prevails` says which entries are honoured: a
state that matches an entry is routed to its target exactly when the last
spelling of the entry's key has that target.
-/

namespace VirtualContributor.Graph

open Lib

section

variable (T : PythonText) {V : Type} (str : V → String)

/-- The fields of an entry of `edges` that is a conditional one. -/
def conditionalFields? : Json → Option Fields
  | .obj fields => if isConditional fields then some fields else none
  | _ => none

/-- The conditional entries of `edges`, in their order. -/
def conditionalFields (definition : Fields) : List Fields :=
  (dictGet definition "edges" (.arr [])).elements.filterMap conditionalFields?

/-- The mapping of a conditional entry, as it is written. -/
def mapEntries (fields : Fields) : Fields :=
  match dictGet fields "map" (.obj []) with
  | .obj entries => entries
  | _ => []

/-- The field of the edge is present, and its string form is the key up to
letter case. -/
def Matches (fields : Fields) (key : String) (state : State V) : Prop :=
  ∃ value, read state (dictGet fields "on" .null) = .ok (some value) ∧
    T.lower (str value) = T.lower key

/-- Every state that matches the entry is routed to its target. -/
def Honours (fields : Fields) (route : Route V) (entry : String × Json) : Prop :=
  ∀ state, Matches T str fields entry.1 state → route.router state = .ok entry.2

/-- The target of the last entry whose key is this one up to letter case. -/
def lastSpelling (entries : Fields) (key : String) : Option Json :=
  (entries.filter fun entry => T.lower entry.1 = T.lower key).getLast?.map Prod.snd

/-- The route takes a state that matches an entry to the entry's target
exactly when the last spelling of its key has that target. -/
def LastSpellingPrevails (fields : Fields) (route : Route V) : Prop :=
  ∀ entry ∈ mapEntries fields, ∀ state, Matches T str fields entry.1 state →
    (route.router state = .ok entry.2 ↔
      lastSpelling T (mapEntries fields) entry.1 = some entry.2)

end

section

variable {T : PythonText} {V σ : Type} {str : V → String}

/-- The lowered mapping has the target of the last spelling. -/
theorem get?_pathMap (targets : List (String × String)) (key : String) :
    ((pathMap T targets).get? (T.lower key)).map Json.str =
      lastSpelling T (targets.map fun entry => (entry.1, .str entry.2)) key := by
  have hfilter : (targets.map fun entry => (T.lower entry.1, entry.2)).filter
        (·.1 = T.lower key) =
      (targets.filter fun entry => T.lower entry.1 = T.lower key).map
        fun entry => (T.lower entry.1, entry.2) := List.filter_map
  have hspelling : (targets.map fun entry => (entry.1, Json.str entry.2)).filter
        (fun entry => T.lower entry.1 = T.lower key) =
      (targets.filter fun entry => T.lower entry.1 = T.lower key).map
        fun entry => (entry.1, Json.str entry.2) := List.filter_map
  unfold pathMap lastSpelling
  rw [OrderedDict.get?_setAll, hfilter, hspelling, OrderedDict.get?_empty, Option.or_none,
    List.getLast?_map, List.getLast?_map, Option.map_map, Option.map_map, Option.map_map]
  rfl

/-- Some spelling of a key that the mapping has is the last one. -/
theorem isSome_lastSpelling {entries : Fields} {entry : String × Json} (hmem : entry ∈ entries) :
    (lastSpelling T entries entry.1).isSome = true := by
  have hfilter : entry ∈ entries.filter fun e => T.lower e.1 = T.lower entry.1 :=
    List.mem_filter.mpr ⟨hmem, decide_eq_true rfl⟩
  unfold lastSpelling
  rw [Option.isSome_map, Option.isSome_iff_ne_none, Ne, List.getLast?_eq_none_iff]
  exact List.ne_nil_of_mem hfilter

/-- A router answers a value that matches an entry with the target of the last
spelling of the entry's key. -/
theorem routeValue_eq_lastSpelling {cond : ConditionalEdge} {targets : List (String × String)}
    (hmap : cond.pathMap = pathMap T targets) {value : V} {key : String}
    (hkey : T.lower (str value) = T.lower key) {target : Json}
    (hlast : lastSpelling T (targets.map fun entry => (entry.1, .str entry.2)) key = some target) :
    routeValue T str cond (some value) = .ok target := by
  rw [← get?_pathMap] at hlast
  obtain ⟨text, htext, rfl⟩ := Option.map_eq_some_iff.mp hlast
  have hmatched : matchedTarget T str cond.pathMap (some value) = some text := by
    unfold matchedTarget
    rw [Option.bind_some, hkey, hmap]
    exact htext
  unfold routeValue
  rw [hmatched]

/-- An edge and the fields it was read from. -/
theorem router_eq_lastSpelling {nodes : Nodes} {fields : Fields} {source : Hashed}
    {cond : ConditionalEdge} (hcond : ConditionalOf T nodes fields source cond)
    {entry : String × Json} (hmem : entry ∈ mapEntries fields) {state : State V}
    (hmatches : Matches T str fields entry.1 state) :
    ∃ target, lastSpelling T (mapEntries fields) entry.1 = some target ∧
      makeRouter T str cond state = .ok target := by
  obtain ⟨targets, hmap, hfields⟩ := hcond.pathMap
  obtain ⟨value, hread, hkey⟩ := hmatches
  obtain ⟨target, hlast⟩ := Option.isSome_iff_exists.mp (isSome_lastSpelling (T := T) hmem)
  have hentries : mapEntries fields = targets.map fun entry => (entry.1, .str entry.2) := by
    unfold mapEntries
    rw [hfields]
  refine ⟨target, hlast, ?_⟩
  rw [← hcond.onField] at hread
  rw [makeRouter_of_read hread]
  exact routeValue_eq_lastSpelling hmap hkey (hentries ▸ hlast)

/-- The conditional entries of an accepted definition describe the conditional
edges of the graph, one by one. -/
theorem AcceptedAs.conditionalOf {definition : Fields} {nodes : Nodes} {entries : List EdgeEntry}
    (h : AcceptedAs T definition nodes entries) :
    List.Forall₂ (fun fields cond => ∃ source, ConditionalOf T nodes fields source cond)
      (conditionalFields definition) (entries.filterMap EdgeEntry.conditional?) := by
  apply List.rel_filterMap ?_ h.edge_entries.1
  intro edgeDef entry hedge
  cases hedge with
  | plain hplain =>
    have hnone : conditionalFields? (.obj _) = none := if_neg (Bool.eq_false_iff.mp hplain)
    rw [hnone]
    exact .none
  | conditional hconditional hedge =>
    have hsome : conditionalFields? (.obj _) = some _ := if_pos hconditional
    rw [hsome]
    exact .some ⟨_, hedge⟩

/-- The routes of a compiled graph are made from its conditional edges. -/
theorem router_of_compile {host : Host σ} {graph : PromptGraph σ} {wiring : Wiring V}
    (h : compile T str host graph = .ok wiring) :
    List.Forall₂ (fun cond route => route.router = makeRouter T str cond)
      graph.conditionalEdges wiring.routes := by
  unfold compile at h
  split at h
  · cases h
  · obtain ⟨_, _, h⟩ := bind_eq_ok.mp h
    obtain ⟨_, _, h⟩ := bind_eq_ok.mp h
    obtain ⟨_, _, h⟩ := bind_eq_ok.mp h
    obtain ⟨routes, hroutes, h⟩ := bind_eq_ok.mp h
    obtain rfl := Except.ok.inj h
    apply (mapM_eq_ok.mp hroutes).imp
    intro cond route hroute
    obtain ⟨ends, _, hroute⟩ := bind_eq_ok.mp hroute
    obtain rfl := Except.ok.inj hroute
    rfl

/-- A state that matches an entry of the mapping is routed to the entry's
target exactly when the last spelling of its key has that target. -/
theorem compiled_router_prevails (T : PythonText) (str : V → String)
    (buildStateModel : Json → Except Raised σ) (host : Host σ) (definition : Fields)
    (graph : PromptGraph σ) (wiring : Wiring V)
    (haccepted : fromDefinition T buildStateModel definition = .ok graph)
    (hcompiled : compile T str host graph = .ok wiring) :
    List.Forall₂ (LastSpellingPrevails T str) (conditionalFields definition) wiring.routes := by
  obtain ⟨entries, hentries, _, hconditional⟩ := acceptedAs_of_ok haccepted
  have hroutes := router_of_compile hcompiled
  rw [hconditional] at hroutes
  apply forall₂_trans ?_ hentries.conditionalOf hroutes
  rintro fields cond route ⟨source, hcond⟩ hrouter entry hmem state hmatches
  obtain ⟨target, hlast, hrouted⟩ := router_eq_lastSpelling hcond hmem hmatches
  rw [hrouter, hrouted, hlast]
  exact ⟨fun h => congrArg some (Except.ok.inj h), fun h => congrArg _ (Option.some.inj h)⟩

/-- Two spellings of one answer, with different targets. -/
def twoSpellings : Fields :=
  [("nodes", .arr [.obj [("name", .str "ask")], .obj [("name", .str "reply")]]),
    ("edges", .arr [.obj [("from", .str "ask"), ("on", .str "answer"),
      ("map", .obj [("Yes", .str "reply"), ("yes", .str "END")])]]),
    ("state", .obj [("type", .str "object")])]

def twoSpellingsGraph : PromptGraph Unit where
  nodes := (OrderedDict.empty.set (.text "ask") (.ofFields [("name", .str "ask")])).set
    (.text "reply") (.ofFields [("name", .str "reply")])
  edges := []
  conditionalEdges := [⟨.str "ask", .str "answer", ⟨[("yes", "END")], by decide⟩, .null⟩]
  startNode := .str "START"
  endNode := .str "END"
  stateModel := some ()

def answerState (answer : String) : State String :=
  .dict fun key => if key = .text "answer" then some answer else none

/-- The answer "Yes" is that of the first entry, and the route is the second
entry's. -/
theorem entry_not_honoured : ¬ ∀ (T : PythonText) (str : String → String)
    (buildStateModel : Json → Except Raised Unit) (host : Host Unit) (definition : Fields)
    (graph : PromptGraph Unit) (wiring : Wiring String),
    fromDefinition T buildStateModel definition = .ok graph →
      compile T str host graph = .ok wiring →
        List.Forall₂
          (fun fields route => ∀ entry ∈ mapEntries fields, Honours T str fields route entry)
          (conditionalFields definition) wiring.routes := by
  intro h
  have hroutes := h asciiText id (fun _ => .ok ()) retrieverHost twoSpellings twoSpellingsGraph _
    rfl rfl
  obtain ⟨route, _, hroute, _, hwiring⟩ := List.forall₂_cons_left_iff.mp hroutes
  have hrouter := congrArg (List.map Route.router) hwiring
  have hhonours := hroute ("Yes", .str "reply") List.mem_cons_self (answerState "Yes")
    ⟨"Yes", rfl, rfl⟩
  rw [← List.head_eq_of_cons_eq hrouter] at hhonours
  have hrouted : makeRouter asciiText id
      ⟨.str "ask", .str "answer", ⟨[("yes", "END")], by decide⟩, .null⟩ (answerState "Yes") =
    .ok (.str "END") := rfl
  have htarget : "END" = "reply" := Json.str.inj (Except.ok.inj (hrouted.symm.trans hhonours))
  revert htarget
  decide

/-- The two spellings have one route, on which the second prevails. -/
theorem compiled_router_prevails_twoSpellings :
    ∃ wiring : Wiring String, wiring.routes.length = 1 ∧
      List.Forall₂ (LastSpellingPrevails asciiText id) (conditionalFields twoSpellings)
        wiring.routes :=
  ⟨_, rfl, compiled_router_prevails asciiText id (fun _ => .ok ()) retrieverHost twoSpellings
    twoSpellingsGraph _ rfl rfl⟩

end

end VirtualContributor.Graph
