import VirtualContributor.Lib.Representatives
import VirtualContributor.Plugins.TreePositions

/-!
# Nodes without an id

`reads_as_pruned_iff`: when the nodes without an id may as well not be in the tree.
Spaces and callouts without one are skipped.  A post, a whiteboard or a link
without one is not: it fails the reading when the id is absent, and it becomes a
document when the id is null or blank.
-/

namespace VirtualContributor.Plugins.SpaceReader

open Lib Program

/-! ## Pruning -/

/-- Whether a contribution has an id. -/
def IdField.isSet (id : IdField) : Bool := truthy id.get

/-- The contributions that have an id. -/
def Contribution.prune (contrib : Contribution) : Contribution where
  post := contrib.post.filter (·.id.isSet)
  whiteboard := contrib.whiteboard.filter (·.id.isSet)
  link := contrib.link.filter (·.id.isSet)

def Callout.prune (callout : Callout) : Callout :=
  { callout with contributions := callout.contributions.map (List.map Contribution.prune) }

def CalloutsSet.prune (set : CalloutsSet) : CalloutsSet where
  callouts := set.callouts.map fun callouts =>
    (callouts.filter fun callout => truthy callout.id).map Callout.prune

def Collaboration.prune (collaboration : Collaboration) : Collaboration where
  calloutsSet := collaboration.calloutsSet.map CalloutsSet.prune

mutual

/-- A space without the nodes beneath it that have no id. -/
def Space.prune : Space → Space
  | .mk id profile collaboration subspaces =>
    .mk id profile (collaboration.map Collaboration.prune) (pruneSpaces subspaces)

def pruneSpaces : List Space → List Space
  | [] => []
  | space :: rest => if truthy space.id then space.prune :: pruneSpaces rest else pruneSpaces rest

end

/-- The tree without the nodes that have no id. -/
def pruneTree (tree : Option Space) : Option Space :=
  (tree.filter fun space => truthy space.id).map Space.prune

/-- Whether a visit is that of a node with an id. -/
def Visit.isSet : Visit → Bool
  | .offer arguments => arguments.id.isSet
  | .link node _ _ => node.id.isSet

section Prune

variable {L : ReaderLib}

theorem orNone_eq_none_iff {value : Option String} : orNone value = none ↔ truthy value = false := by
  cases value with
  | none => simp [orNone, truthy]
  | some text => simp [orNone, truthy]

/-- A node that is visited with a text for an id has an id. -/
theorem isSet_of_orNone {value : Option String} {text : String} (h : orNone value = some text) :
    (IdField.text text).isSet = true := by
  unfold orNone at h
  have hne := (Option.filter_eq_some_iff.mp h).2
  simpa [IdField.isSet, IdField.get, truthy] using hne

/-- What a node offers has the id of the node. -/
theorem id_of_offer {c : Prop} [Decidable c] {given arguments : Offer}
    (h : (if c then none else some given) = some arguments) : arguments.id = given.id := by
  obtain rfl := Option.some.inj (Option.ite_none_left_eq_some.mp h).2
  rfl

/-- What a node offers is visited when the node has an id. -/
theorem filter_offers {α : Type} (idOf : α → IdField) (offer : α → Option Offer)
    (h : ∀ node arguments, offer node = some arguments → arguments.id = idOf node)
    (node : Option α) :
    ((node.bind offer).toList.map Visit.offer).filter Visit.isSet =
      ((node.filter fun n => (idOf n).isSet).bind offer).toList.map Visit.offer := by
  cases node with
  | none => rfl
  | some n =>
    rw [Option.bind_some, Option.filter_some]
    cases hoffer : offer n with
    | none =>
      split
      · rw [Option.bind_some, hoffer]
        rfl
      · rfl
    | some arguments =>
      have hset : (Visit.offer arguments).isSet = (idOf n).isSet :=
        congrArg IdField.isSet (h n arguments hoffer)
      show List.filter Visit.isSet [Visit.offer arguments] = _
      rw [List.filter_singleton, hset]
      cases (idOf n).isSet with
      | true =>
        rw [if_pos rfl, Option.bind_some, hoffer]
        rfl
      | false => rfl

theorem contributionVisits_prune (context : String) (position : Position)
    (contrib : Contribution) :
    contributionVisits context position contrib.prune =
      (contributionVisits context position contrib).filter Visit.isSet := by
  unfold contributionVisits
  rw [List.filter_append, List.filter_append,
    filter_offers Post.id (·.offer context position) fun _ _ h => id_of_offer h,
    filter_offers Whiteboard.id (·.offer context position) fun _ _ h => id_of_offer h]
  refine congrArg _ ?_
  show (contrib.link.filter _).toList.map _ = _
  cases contrib.link with
  | none => rfl
  | some link =>
    show _ = List.filter Visit.isSet [Visit.link link context position]
    rw [Option.filter_some, List.filter_singleton]
    show _ = bif link.id.isSet then _ else _
    cases link.id.isSet with
    | true => rfl
    | false => rfl

/-- Nothing changes where every node has an id. -/
theorem filter_offers_set {text : String} (given : Option Offer)
    (h : ∀ arguments, given = some arguments → arguments.id = .text text)
    (hset : (IdField.text text).isSet = true) :
    (given.toList.map Visit.offer).filter Visit.isSet = given.toList.map Visit.offer := by
  refine List.filter_eq_self.mpr fun v hv => ?_
  obtain ⟨arguments, harguments, rfl⟩ := mem_offers hv
  show arguments.id.isSet = true
  rw [h arguments harguments, hset]

theorem calloutVisits_prune (position : Position) (callout : Callout) :
    calloutVisits L position callout.prune =
      (calloutVisits L position callout).filter Visit.isSet := by
  have hcontributions : callout.prune.contributions.getD [] =
      (callout.contributions.getD []).map Contribution.prune := by
    show (callout.contributions.map _).getD [] = _
    cases callout.contributions <;> rfl
  have hsame : callout.prune.id = callout.id := rfl
  unfold calloutVisits
  rw [hcontributions, hsame]
  cases hid : orNone callout.id with
  | none => rfl
  | some calloutId =>
    dsimp only
    rw [List.filter_append,
      filter_offers_set (callout.offer calloutId _) (fun _ h => id_of_offer h)
        (isSet_of_orNone hid),
      List.flatMap_map, List.filter_flatMap]
    refine congrArg _ (List.flatMap_congr fun contrib _ => ?_)
    exact contributionVisits_prune _ _ contrib

/-- Callouts without an id are not visited. -/
theorem calloutVisits_eq_nil {position : Position} {callout : Callout}
    (h : truthy callout.id = false) : calloutVisits L position callout = [] := by
  unfold calloutVisits
  rw [orNone_eq_none_iff.mpr h]

theorem callouts_prune (collaboration : Option Collaboration) :
    ((((collaboration.map Collaboration.prune).getD {}).calloutsSet.getD {}).callouts).getD [] =
      ((((collaboration.getD {}).calloutsSet.getD {}).callouts.getD []).filter
        fun callout => truthy callout.id).map Callout.prune := by
  rcases collaboration with _ | ⟨_ | ⟨_ | callouts⟩⟩ <;> rfl

theorem flatMap_calloutVisits_prune (position : Position) (callouts : List Callout) :
    ((callouts.filter fun callout => truthy callout.id).map Callout.prune).flatMap
        (calloutVisits L position) =
      (callouts.flatMap (calloutVisits L position)).filter Visit.isSet := by
  induction callouts with
  | nil => rfl
  | cons callout rest ih =>
    rw [List.flatMap_cons, List.filter_append, ← ih, List.filter_cons]
    cases hid : truthy callout.id with
    | true =>
      rw [if_pos rfl, List.map_cons, List.flatMap_cons, calloutVisits_prune]
    | false =>
      rw [if_neg Bool.false_ne_true, calloutVisits_eq_nil hid]
      rfl

/-- Spaces without an id are not visited. -/
theorem spaceVisits_eq_nil {topDocType : Option String} {depth : Nat} {position : Position}
    {space : Space} (h : truthy space.id = false) :
    spaceVisits L topDocType depth position space = [] := by
  obtain ⟨id, profile, collaboration, subspaces⟩ := space
  have hid : orNone id = none := orNone_eq_none_iff.mpr h
  unfold spaceVisits
  rw [hid]

mutual

theorem spaceVisits_prune (topDocType : Option String) (depth : Nat) (position : Position) :
    ∀ space : Space, spaceVisits L topDocType depth position space.prune =
      (spaceVisits L topDocType depth position space).filter Visit.isSet
  | .mk id profile collaboration subspaces => by
    unfold Space.prune spaceVisits
    cases hid : orNone id with
    | none => rfl
    | some spaceId =>
      dsimp only
      rw [List.filter_append, List.filter_append,
        filter_offers_set (Space.offer _ spaceId _ _ _) (fun _ h => id_of_offer h)
          (isSet_of_orNone hid),
        subspaceVisits_prune _ _ subspaces]
      refine congrArg (· ++ _) (congrArg _ ?_)
      rw [← flatMap_calloutVisits_prune]
      exact congrArg (List.flatMap _) (callouts_prune collaboration)

theorem subspaceVisits_prune (depth : Nat) (position : Position) :
    ∀ spaces : List Space, subspaceVisits L depth position (pruneSpaces spaces) =
      (subspaceVisits L depth position spaces).filter Visit.isSet
  | [] => by
    unfold pruneSpaces subspaceVisits
    rfl
  | space :: rest => by
    unfold pruneSpaces
    rw [subspaceVisits, List.filter_append, ← subspaceVisits_prune depth position rest]
    cases hid : truthy space.id with
    | true => rw [if_pos rfl, subspaceVisits, spaceVisits_prune none depth position space]
    | false =>
      rw [if_neg Bool.false_ne_true, spaceVisits_eq_nil hid]
      rfl

end

end Prune

/-! ## What is offered -/

section Offers

variable (L : ReaderLib) (bodies : (c : readSignature.Call) → readSignature.Answer c)

/-- The text of a link's body. -/
def linkText (link : Link) : Option String :=
  let uri := link.uri.getD ""
  if uri = "" then none
  else
    match bodies (.fetchUrl uri link.id.get) with
    | none => none
    | some (body, contentType) => L.extractText body contentType

/-- What a visit offers. -/
def Visit.given : Visit → Option Offer
  | .offer arguments => some arguments
  | .link node context position => node.offer context position (linkText L bodies node)

/-- What the nodes of a tree offer, in the order of the reader. -/
def offers (topDocType : Option String) : Option Space → List Offer
  | none => []
  | some root => (spaceVisits L topDocType 0 {} root).filterMap (Visit.given L bodies)

/-- The documents of a tree, or what the reader raised. -/
def documents (topDocType : Option String) (tree : Option Space) :
    Except Exc (List SpaceDocument) :=
  result bodies (readTree L topDocType tree)

end Offers

section Reading

variable {L : ReaderLib} {bodies : (c : readSignature.Call) → readSignature.Answer c}
  {topDocType : Option String}

theorem result_fetchText (link : Link) :
    result bodies (fetchText L link) = .ok (linkText L bodies link) := by
  unfold fetchText linkText
  dsimp only
  split
  · rfl
  · have hfetch : result bodies (fetchUrl (link.uri.getD "") link.id.get) =
        .ok (bodies (.fetchUrl (link.uri.getD "") link.id.get)) := rfl
    rw [result_bind, hfetch]
    cases bodies (.fetchUrl (link.uri.getD "") link.id.get) with
    | none => rfl
    | some answer => rfl

theorem result_visit (st : ReaderState) (v : Visit) :
    result bodies (visit L st v) = appendOffer L st (v.given L bodies) := by
  cases v with
  | offer arguments => rfl
  | link node context position =>
    show result bodies (fetchText L node >>= _) = _
    rw [result_bind, result_fetchText]
    rfl

/-- The reader appends what is offered, one after the other. -/
theorem result_visits (visits : List Visit) (st : ReaderState) :
    result bodies (visits.foldlM (visit L) st) =
      (visits.filterMap (Visit.given L bodies)).foldlM (append L) st := by
  rw [result_foldlM]
  induction visits generalizing st with
  | nil => rfl
  | cons v rest ih =>
    rw [List.foldlM_cons, result_visit, List.filterMap_cons]
    cases v.given L bodies with
    | none => exact ih st
    | some arguments =>
      rw [List.foldlM_cons]
      exact congrArg _ (funext fun st => ih st)

theorem documents_eq (tree : Option Space) :
    documents L bodies topDocType tree =
      ((offers L bodies topDocType tree).foldlM (append L) {}).map ReaderState.documents := by
  cases tree with
  | none => rfl
  | some root =>
    unfold documents offers
    rw [readTree_eq, result_bind, result_visits]
    rfl

theorem isSet_of_given {v : Visit} {arguments : Offer} (h : v.given L bodies = some arguments) :
    arguments.id.isSet = v.isSet := by
  cases v with
  | offer given =>
    obtain rfl := Option.some.inj h
    rfl
  | link node context position => exact congrArg IdField.isSet (id_of_offer h)

/-- The pruned tree offers what the nodes with an id offer. -/
theorem offers_pruneTree (tree : Option Space) :
    offers L bodies topDocType (pruneTree tree) =
      (offers L bodies topDocType tree).filter (·.id.isSet) := by
  cases tree with
  | none => rfl
  | some root =>
    have hfilter : ∀ visits : List Visit,
        (visits.filter Visit.isSet).filterMap (Visit.given L bodies) =
          (visits.filterMap (Visit.given L bodies)).filter (·.id.isSet) := by
      intro visits
      rw [List.filterMap_filter, List.filter_filterMap]
      refine List.filterMap_congr fun v _ => ?_
      cases hgiven : v.given L bodies with
      | none => split <;> rfl
      | some arguments => rw [Option.filter_some, isSet_of_given hgiven]
    show offers L bodies topDocType ((Option.filter _ (some root)).map Space.prune) = _
    rw [Option.filter_some]
    cases hid : truthy root.id with
    | true =>
      show (spaceVisits L topDocType 0 {} root.prune).filterMap _ = _
      rw [spaceVisits_prune, hfilter]
      rfl
    | false =>
      show [] = ((spaceVisits L topDocType 0 {} root).filterMap _).filter _
      rw [spaceVisits_eq_nil hid]
      rfl

/-! ## What becomes a document -/

/-- Whether something is left of an offer's content. -/
def Offer.hasContent (L : ReaderLib) (arguments : Offer) : Bool := stripHtml L arguments.content ≠ ""

/-- The offers that become documents. -/
def emitted (L : ReaderLib) (seen : List String) (given : List Offer) : List Offer :=
  firstOfEach (Offer.key L) seen (given.filter (Offer.hasContent L))

theorem mem_emitted_iff {given : List Offer} {a : Offer} :
    a ∈ emitted L [] given ↔ a.hasContent L = true ∧ ∃ before after,
      given = before ++ a :: after ∧ ∀ b ∈ before, b.hasContent L = true → b.key L ≠ a.key L := by
  unfold emitted
  rw [mem_firstOfEach_iff]
  constructor
  · rintro ⟨-, before, after, hfilter, hbefore⟩
    obtain ⟨before', rest, rfl, rfl, hrest⟩ := List.filter_eq_append_iff.mp hfilter
    obtain ⟨between, after', rfl, hbetween, ha, -⟩ := List.filter_eq_cons_iff.mp hrest
    refine ⟨ha, before' ++ between, after', (List.append_assoc ..).symm, fun b hb hcontent => ?_⟩
    obtain hb | hb := List.mem_append.mp hb
    · exact hbefore b (List.mem_filter.mpr ⟨hb, hcontent⟩)
    · exact absurd hcontent (hbetween b hb)
  · rintro ⟨ha, before, after, rfl, hbefore⟩
    refine ⟨List.not_mem_nil, before.filter (Offer.hasContent L), after.filter (Offer.hasContent L),
      ?_, fun b hb => ?_⟩
    · rw [List.filter_append, List.filter_cons_of_pos ha]
    · exact hbefore b (List.mem_filter.mp hb).1 (List.mem_filter.mp hb).2

/-- When every id can be read, the reader returns the documents of what is
emitted. -/
theorem foldlM_append_eq {given : List Offer} (h : ∀ a ∈ given, a.id ≠ .absent)
    (st : ReaderState) :
    (given.foldlM (append L) st).map ReaderState.documents =
      .ok (st.documents ++ (emitted L st.seen given).map fun a => a.document L a.id.get) := by
  induction given generalizing st with
  | nil => exact congrArg Except.ok (List.append_nil _).symm
  | cons a rest ih =>
    obtain ⟨ha, hrest⟩ := List.forall_mem_cons.mp h
    have hread : a.id.read = .ok a.id.get := by
      cases hid : a.id with
      | absent => exact absurd hid ha
      | null => rfl
      | text value => rfl
    have happend : append L st a = .ok (appendUnique L st a a.id.get) := by
      unfold append
      rw [hread]
      rfl
    rw [List.foldlM_cons, happend]
    show ((rest.foldlM (append L) (appendUnique L st a a.id.get)).map _) = _
    rw [ih hrest]
    unfold appendUnique emitted
    by_cases hcontent : stripHtml L a.content = ""
    · rw [if_pos hcontent, List.filter_cons_of_neg (by simp [Offer.hasContent, hcontent])]
    · rw [if_neg hcontent, List.filter_cons_of_pos (by simp [Offer.hasContent, hcontent]),
        firstOfEach]
      by_cases hseen : a.key L ∈ st.seen
      · rw [if_pos hseen, if_pos hseen]
      · rw [if_neg hseen, if_neg hseen, List.map_cons]
        exact congrArg Except.ok (List.append_assoc ..)

/-- The reader raises when an id is absent. -/
theorem foldlM_append_error {given : List Offer} {a : Offer} (ha : a ∈ given)
    (habsent : a.id = .absent) (st : ReaderState) :
    ∃ exc, given.foldlM (append L) st = .error exc := by
  induction given generalizing st with
  | nil => exact absurd ha List.not_mem_nil
  | cons b rest ih =>
    rw [List.foldlM_cons]
    cases happend : append L st b with
    | error exc => exact ⟨exc, rfl⟩
    | ok st' =>
      obtain rfl | ha := List.mem_cons.mp ha
      · unfold append at happend
        rw [habsent] at happend
        exact absurd happend nofun
      · exact ih ha st'

/-! ## Trees with nodes that lack an id -/

/-- What a node without an id offers makes no difference: its id is not absent, and
its content is empty or repeats something before it. -/
def Unnoticed (L : ReaderLib) (before : List Offer) (a : Offer) : Prop :=
  a.id ≠ .absent ∧ (a.hasContent L = true → ∃ b ∈ before, b.hasContent L = true ∧ b.key L = a.key L)

theorem unnoticed_iff {given : List Offer} :
    (∀ before a after, given = before ++ a :: after → a.id.isSet = false → Unnoticed L before a) ↔
      (∀ a ∈ given, a.id ≠ .absent) ∧ ∀ a ∈ emitted L [] given, a.id.isSet = true := by
  constructor
  · intro h
    constructor
    · intro a ha habsent
      obtain ⟨before, after, hgiven⟩ := List.append_of_mem ha
      exact (h before a after hgiven (by rw [habsent]; rfl)).1 habsent
    · intro a ha
      obtain ⟨hcontent, before, after, hgiven, hbefore⟩ := mem_emitted_iff.mp ha
      by_contra hset
      obtain ⟨b, hb, hbcontent, hkey⟩ :=
        (h before a after hgiven (Bool.not_eq_true _ ▸ hset)).2 hcontent
      exact hbefore b hb hbcontent hkey
  · rintro ⟨habsent, hemitted⟩ before a after rfl hset
    refine ⟨habsent a (List.mem_append_right _ List.mem_cons_self), fun hcontent => ?_⟩
    by_contra hnone
    have ha : a ∈ emitted L [] (before ++ a :: after) :=
      mem_emitted_iff.mpr ⟨hcontent, before, after, rfl, fun b hb hbcontent hkey =>
        hnone ⟨b, hb, hbcontent, hkey⟩⟩
    rw [hemitted a ha] at hset
    exact Bool.noConfusion hset

theorem documents_eq_ok {tree : Option Space}
    (h : ∀ a ∈ offers L bodies topDocType tree, a.id ≠ .absent) :
    documents L bodies topDocType tree =
      .ok ((emitted L [] (offers L bodies topDocType tree)).map fun a =>
        a.document L a.id.get) := by
  rw [documents_eq, foldlM_append_eq h]
  rfl

theorem documents_pruneTree (tree : Option Space) :
    documents L bodies topDocType (pruneTree tree) =
      .ok ((emitted L [] ((offers L bodies topDocType tree).filter (·.id.isSet))).map fun a =>
        a.document L a.id.get) := by
  rw [← offers_pruneTree]
  refine documents_eq_ok fun a ha habsent => ?_
  rw [offers_pruneTree] at ha
  have hset := (List.mem_filter.mp ha).2
  rw [habsent] at hset
  exact Bool.noConfusion hset

/-- The reader returns the documents of the pruned tree exactly when no node without
an id is noticed. -/
theorem reads_as_pruned_iff (tree : Option Space) :
    ((∃ docs, documents L bodies topDocType tree = .ok docs) ∧
        documents L bodies topDocType tree = documents L bodies topDocType (pruneTree tree)) ↔
      ∀ before a after, offers L bodies topDocType tree = before ++ a :: after →
        a.id.isSet = false → Unnoticed L before a := by
  rw [unnoticed_iff]
  constructor
  · rintro ⟨⟨docs, hdocs⟩, hsame⟩
    have habsent : ∀ a ∈ offers L bodies topDocType tree, a.id ≠ .absent := by
      intro a ha habsent
      obtain ⟨exc, hexc⟩ := foldlM_append_error ha habsent {}
      rw [documents_eq, hexc] at hdocs
      exact absurd hdocs nofun
    refine ⟨habsent, fun a ha => ?_⟩
    rw [documents_eq_ok habsent, documents_pruneTree] at hsame
    have hdoc := List.mem_map_of_mem (f := fun a => a.document L a.id.get) ha
    rw [Except.ok.inj hsame] at hdoc
    obtain ⟨b, hb, heq⟩ := List.mem_map.mp hdoc
    have hset : b.id.isSet = true :=
      (List.mem_filter.mp ((List.filter_sublist).subset
        ((firstOfEach_sublist _ _ _).subset hb))).2
    have hid : b.id.get = a.id.get := congrArg SpaceDocument.documentId heq
    unfold IdField.isSet at hset ⊢
    rwa [hid] at hset
  · rintro ⟨habsent, hemitted⟩
    refine ⟨⟨_, documents_eq_ok habsent⟩, ?_⟩
    rw [documents_eq_ok habsent, documents_pruneTree]
    have hfilter : emitted L [] ((offers L bodies topDocType tree).filter (·.id.isSet)) =
        emitted L [] (offers L bodies topDocType tree) := by
      unfold emitted
      rw [List.filter_comm]
      exact firstOfEach_filter hemitted
    rw [hfilter]

end Reading

/-- The documents of a tree with one post, for the id of the post. -/
def documentsOfPost (id : IdField) : Except Exc (List SpaceDocument) :=
  documents plainReader (fun _ => none) none (some (postTree (textPost id)))

/-- A post whose id is null becomes a document. -/
example : (documentsOfPost .null).toOption.map (List.map SpaceDocument.source) =
    some ["space:s", "post:None", "space:t"] := by decide +kernel

/-- A post without an id fails the reading. -/
theorem post_without_id_raises :
    ¬((∃ docs, documentsOfPost .absent = .ok docs) ∧
      documentsOfPost .absent = documents plainReader (fun _ => none) none
        (pruneTree (some (postTree (textPost .absent))))) := by
  rintro ⟨⟨docs, hdocs⟩, -⟩
  have hraised : (documentsOfPost .absent).toOption = none := by decide +kernel
  rw [hdocs] at hraised
  exact absurd hraised nofun

end VirtualContributor.Plugins.SpaceReader
