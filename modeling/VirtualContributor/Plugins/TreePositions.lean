import Mathlib.Data.List.Chain
import VirtualContributor.Lib.Checks
import VirtualContributor.Lib.Returns
import VirtualContributor.Plugins.SpaceReader

/-!
# Positions in the space tree

`readTree_positioned`: each document that the reader emits is the document of a
place in the tree, and it carries the root space, the nearest subspace, the
callout and the tier of that place.

The reader walks through the tree.  `spaceVisits` lists what it comes across, in
order, and `processSpace_eq` says that it does nothing but visit these one after
the other.
-/

namespace VirtualContributor.Plugins.SpaceReader

open Lib Program

variable {L : ReaderLib}

/-! ## Visits -/

/-- What the reader comes across: arguments of `_append_unique`, or a link, whose
arguments depend on its body. -/
inductive Visit where
  | offer (arguments : Offer)
  | link (node : Link) (context : String) (position : Position)

/-- The arguments of `_append_unique`, for the text of a link's body. -/
def Visit.arguments (fetchedText : Option String) : Visit → Option Offer
  | .offer arguments => some arguments
  | .link node context position => node.offer context position fetchedText

section Visits

variable (L : ReaderLib)

def visit (st : ReaderState) : Visit → Reading ReaderState
  | .offer offer => append L st offer
  | .link link context position => processLink L context position st link

def contributionVisits (context : String) (position : Position) (contrib : Contribution) :
    List Visit :=
  (contrib.post.bind (·.offer context position)).toList.map .offer ++
    (contrib.whiteboard.bind (·.offer context position)).toList.map .offer ++
    contrib.link.toList.map (.link · context position)

def calloutVisits (position : Position) (callout : Callout) : List Visit :=
  match orNone callout.id with
  | none => []
  | some calloutId =>
    let calloutPosition := position.forCallout (some calloutId)
    (callout.offer calloutId calloutPosition).toList.map .offer ++
      (callout.contributions.getD []).flatMap
        (contributionVisits (callout.context L) calloutPosition.forContribution)

mutual

/-- What the reader comes across in a space. -/
def spaceVisits (topDocType : Option String) (depth : Nat) (position : Position) :
    Space → List Visit
  | .mk id profile collaboration subspaces =>
    match orNone id with
    | none => []
    | some spaceId =>
      let space := Space.mk id profile collaboration subspaces
      let nodePosition := position.forNode L (some spaceId) (profile.getD {}).name depth
      (space.offer spaceId topDocType depth nodePosition).toList.map .offer ++
        space.callouts.flatMap (calloutVisits L nodePosition) ++
        subspaceVisits (depth + 1) nodePosition subspaces

def subspaceVisits (depth : Nat) (position : Position) : List Space → List Visit
  | [] => []
  | space :: rest => spaceVisits none depth position space ++ subspaceVisits depth position rest

end

end Visits

/-! ## The reader visits -/

theorem appendOffer_eq (offer : Option Offer) (st : ReaderState) :
    (appendOffer L st offer : Reading ReaderState) =
      (offer.toList.map Visit.offer).foldlM (visit L) st := by
  cases offer with
  | none => rfl
  | some offer =>
    show _ = visit L st (.offer offer) >>= pure
    rw [bind_pure]
    rfl

theorem processContribution_eq (context : String) (position : Position) (st : ReaderState)
    (contrib : Contribution) :
    processContribution L context position st contrib =
      (contributionVisits context position contrib).foldlM (visit L) st := by
  unfold processContribution contributionVisits
  rw [List.append_assoc, List.foldlM_append, ← appendOffer_eq]
  refine congrArg _ (funext fun st => ?_)
  rw [List.foldlM_append, ← appendOffer_eq]
  refine congrArg _ (funext fun st => ?_)
  cases contrib.link with
  | none => rfl
  | some link =>
    show _ = visit L st (.link link context position) >>= pure
    rw [bind_pure]
    rfl

/-- A loop over the parts of each element. -/
theorem foldlM_flatMap {α β γ : Type} {m : Type → Type} [Monad m] [LawfulMonad m] {f : γ → β → m γ}
    {g : γ → α → m γ} {parts : α → List β} (h : ∀ b a, g b a = (parts a).foldlM f b) (xs : List α)
    (b : γ) : xs.foldlM g b = (xs.flatMap parts).foldlM f b := by
  induction xs generalizing b with
  | nil => rfl
  | cons x xs ih =>
    rw [List.foldlM_cons, List.flatMap_cons, List.foldlM_append, h]
    exact congrArg _ (funext fun b' => ih b')

theorem processCallout_eq (position : Position) (st : ReaderState) (callout : Callout) :
    processCallout L position st callout =
      (calloutVisits L position callout).foldlM (visit L) st := by
  unfold processCallout calloutVisits
  cases orNone callout.id with
  | none => rfl
  | some calloutId =>
    dsimp only
    rw [List.foldlM_append, ← appendOffer_eq]
    exact congrArg _ (funext fun st => foldlM_flatMap (processContribution_eq _ _) _ st)

mutual

theorem processSpace_eq (topDocType : Option String) (depth : Nat) (position : Position) :
    ∀ (space : Space) (st : ReaderState),
      processSpace L topDocType depth position space st =
        (spaceVisits L topDocType depth position space).foldlM (visit L) st
  | .mk id profile collaboration subspaces, st => by
    unfold processSpace spaceVisits
    cases orNone id with
    | none => rfl
    | some spaceId =>
      dsimp only
      rw [List.append_assoc, List.foldlM_append, ← appendOffer_eq]
      refine congrArg _ (funext fun st => ?_)
      rw [List.foldlM_append, ← foldlM_flatMap (processCallout_eq _)]
      exact congrArg _ (funext fun st => processSubspaces_eq _ _ subspaces st)

theorem processSubspaces_eq (depth : Nat) (position : Position) :
    ∀ (spaces : List Space) (st : ReaderState),
      processSubspaces L depth position spaces st =
        (subspaceVisits L depth position spaces).foldlM (visit L) st
  | [], st => by
    unfold processSubspaces subspaceVisits
    rfl
  | space :: rest, st => by
    unfold processSubspaces subspaceVisits
    rw [List.foldlM_append, ← processSpace_eq none depth position space st]
    exact congrArg _ (funext fun st => processSubspaces_eq _ _ rest st)

end

theorem readTree_eq (topDocType : Option String) (root : Space) :
    readTree L topDocType (some root) = do
      let st ← (spaceVisits L topDocType 0 {} root).foldlM (visit L) {}
      return st.documents := by
  unfold readTree
  dsimp only
  rw [processSpace_eq]

/-! ## Places -/

/-- What stands at a place: a space itself, one of its callouts, or a contribution of
a callout. -/
inductive Node where
  | space
  | callout (callout : Callout)
  | post (callout : Callout) (post : Post)
  | whiteboard (callout : Callout) (whiteboard : Whiteboard)
  | link (callout : Callout) (link : Link)

namespace Node

/-- The callout that a node is, or that it is in. -/
def owner : Node → Option Callout
  | space => none
  | callout c => some c
  | post c _ => some c
  | whiteboard c _ => some c
  | link c _ => some c

def isContribution : Node → Bool
  | space => false
  | callout _ => false
  | _ => true

/-- A node of a space. -/
def In (space : Space) : Node → Prop
  | .space => True
  | callout c => c ∈ space.callouts
  | post c p => c ∈ space.callouts ∧ ∃ contrib ∈ c.contributions.getD [], contrib.post = some p
  | whiteboard c w =>
    c ∈ space.callouts ∧ ∃ contrib ∈ c.contributions.getD [], contrib.whiteboard = some w
  | link c l => c ∈ space.callouts ∧ ∃ contrib ∈ c.contributions.getD [], contrib.link = some l

end Node

/-- A place: the subspaces from the root down to the space of the node, and the
node. -/
structure Place where
  root : Space
  path : List Space
  node : Node

namespace Place

/-- The space that a place is in. -/
def space (place : Place) : Space := place.path.getLast?.getD place.root

/-- The path leads down the tree. -/
structure InTree (place : Place) : Prop where
  path : List.IsChain (fun parent child => child ∈ parent.subspaces) (place.root :: place.path)
  node : place.node.In place.space

/-- The tier of a place: the level of its space, or that of contributions. -/
def tier (place : Place) : Nat :=
  if place.node.isContribution then CONTRIBUTION_DEPTH else place.path.length

variable (L : ReaderLib)

def nameOf (space : Space) : Option String := cleanName L (space.profile.getD {}).name

/-- Where a place is. -/
def position (place : Place) : Position where
  spaceId := place.root.id
  spaceName := nameOf L place.root
  subspaceId := place.path.getLast?.bind Space.id
  subspaceName := place.path.getLast?.bind (nameOf L)
  calloutId := place.node.owner.bind Callout.id
  depth := place.tier

/-- What is offered at a place. -/
def offer (topDocType : Option String) (place : Place) (fetchedText : Option String) :
    Option Offer :=
  match place.node with
  | .space =>
    place.space.offer (place.space.id.getD "") topDocType place.path.length (place.position L)
  | .callout callout => callout.offer (callout.id.getD "") (place.position L)
  | .post callout post => post.offer (callout.context L) (place.position L)
  | .whiteboard callout whiteboard => whiteboard.offer (callout.context L) (place.position L)
  | .link callout link => link.offer (callout.context L) (place.position L) fetchedText

end Place

/-- A position names the root space, the nearest subspace, the callout and the tier
of a place. -/
structure Place.Carried (place : Place) (position : Position) : Prop where
  spaceId : position.spaceId = place.root.id
  subspaceId : position.subspaceId = place.path.getLast?.bind Space.id
  calloutId : position.calloutId = place.node.owner.bind Callout.id
  depth : position.depth = place.tier

section Places

variable {topDocType : Option String} {root : Space} {path : List Space}

theorem eq_some_of_orNone {value : Option String} {text : String} (h : orNone value = some text) :
    value = some text := by
  unfold orNone at h
  exact (Option.filter_eq_some_iff.mp h).1

theorem orNone_of_orNone {value : Option String} {text : String} (h : orNone value = some text) :
    orNone (some text) = some text := by
  rw [eq_some_of_orNone h] at h
  exact h

/-- A visit is one of a place. -/
def Visit.At (L : ReaderLib) (topDocType : Option String) (root : Space) (v : Visit) : Prop :=
  ∃ place : Place, place.root = root ∧ place.InTree ∧
    ∀ fetchedText, v.arguments fetchedText = place.offer L topDocType fetchedText

/-- A path from the root down to a space. -/
structure Leads (root : Space) (path : List Space) (space : Space) : Prop where
  chain : List.IsChain (fun parent child => child ∈ parent.subspaces) (root :: path)
  last : path.getLast?.getD root = space

/-- Where a space is. -/
def spacePosition (L : ReaderLib) (root : Space) (path : List Space) : Position :=
  Place.position L ⟨root, path, .space⟩

theorem mem_offers {offer : Option Offer} {v : Visit}
    (h : v ∈ offer.toList.map Visit.offer) : ∃ arguments, offer = some arguments ∧
      v = .offer arguments := by
  obtain ⟨arguments, harguments, rfl⟩ := List.mem_map.mp h
  exact ⟨arguments, Option.mem_toList.mp harguments, rfl⟩

variable {space : Space} (hleads : Leads root path space)

include hleads

theorem contributionVisits_at {callout : Callout} {calloutId : String} {contrib : Contribution}
    {v : Visit} (hid : orNone callout.id = some calloutId) (hcallout : callout ∈ space.callouts)
    (hcontrib : contrib ∈ callout.contributions.getD [])
    (hv : v ∈ contributionVisits (callout.context L)
      ((spacePosition L root path).forCallout (some calloutId)).forContribution contrib) :
    v.At L topDocType root := by
  have hposition : ∀ node : Node, node.owner = some callout → node.isContribution = true →
      ((spacePosition L root path).forCallout (some calloutId)).forContribution =
        Place.position L ⟨root, path, node⟩ := by
    intro node howner hcontribution
    unfold spacePosition Place.position Position.forCallout Position.forContribution Place.tier
    dsimp only
    rw [howner, hcontribution, orNone_of_orNone hid, Option.bind_some, eq_some_of_orNone hid]
    rfl
  unfold contributionVisits at hv
  obtain hv | hv := List.mem_append.mp hv
  · obtain hv | hv := List.mem_append.mp hv
    · obtain ⟨arguments, harguments, rfl⟩ := mem_offers hv
      obtain ⟨post, hpost, hoffer⟩ := Option.bind_eq_some_iff.mp harguments
      rw [hposition (.post callout post) rfl rfl] at hoffer
      refine ⟨⟨root, path, .post callout post⟩, rfl, ⟨hleads.chain, ?_⟩, fun _ => hoffer.symm⟩
      show callout ∈ (path.getLast?.getD root).callouts ∧ _
      rw [hleads.last]
      exact ⟨hcallout, contrib, hcontrib, hpost⟩
    · obtain ⟨arguments, harguments, rfl⟩ := mem_offers hv
      obtain ⟨whiteboard, hwhiteboard, hoffer⟩ := Option.bind_eq_some_iff.mp harguments
      rw [hposition (.whiteboard callout whiteboard) rfl rfl] at hoffer
      refine ⟨⟨root, path, .whiteboard callout whiteboard⟩, rfl, ⟨hleads.chain, ?_⟩,
        fun _ => hoffer.symm⟩
      show callout ∈ (path.getLast?.getD root).callouts ∧ _
      rw [hleads.last]
      exact ⟨hcallout, contrib, hcontrib, hwhiteboard⟩
  · obtain ⟨link, hlink, rfl⟩ := List.mem_map.mp hv
    rw [hposition (.link callout link) rfl rfl]
    refine ⟨⟨root, path, .link callout link⟩, rfl, ⟨hleads.chain, ?_⟩, fun _ => rfl⟩
    show callout ∈ (path.getLast?.getD root).callouts ∧ _
    rw [hleads.last]
    exact ⟨hcallout, contrib, hcontrib, Option.mem_toList.mp hlink⟩

theorem calloutVisits_at {callout : Callout} {v : Visit} (hcallout : callout ∈ space.callouts)
    (hv : v ∈ calloutVisits L (spacePosition L root path) callout) :
    v.At L topDocType root := by
  unfold calloutVisits at hv
  split at hv
  · exact absurd hv List.not_mem_nil
  · rename_i calloutId hid
    obtain hv | hv := List.mem_append.mp hv
    · obtain ⟨arguments, harguments, rfl⟩ := mem_offers hv
      refine ⟨⟨root, path, .callout callout⟩, rfl, ⟨hleads.chain, ?_⟩, fun _ => ?_⟩
      · show callout ∈ (path.getLast?.getD root).callouts
        rw [hleads.last]
        exact hcallout
      · show some arguments = callout.offer (callout.id.getD "")
          (Place.position L ⟨root, path, .callout callout⟩)
        have hposition : (spacePosition L root path).forCallout (some calloutId) =
            Place.position L ⟨root, path, .callout callout⟩ := by
          unfold spacePosition Place.position Position.forCallout
          dsimp only
          rw [orNone_of_orNone hid, Node.owner, Option.bind_some, eq_some_of_orNone hid]
          rfl
        rw [← harguments, hposition, eq_some_of_orNone hid]
        rfl
    · obtain ⟨contrib, hcontrib, hv⟩ := List.mem_flatMap.mp hv
      exact contributionVisits_at hleads hid hcallout hcontrib hv

omit hleads in
/-- Descending from a space to one of its subspaces. -/
theorem forNode_subspace {child : Space} {childId : String} (hid : orNone child.id = some childId) :
    (spacePosition L root path).forNode L (some childId) (child.profile.getD {}).name
        (path.length + 1) = spacePosition L root (path ++ [child]) := by
  unfold Position.forNode
  rw [if_neg (Nat.succ_ne_zero _)]
  unfold spacePosition Place.position
  dsimp only
  rw [List.getLast?_concat, Option.bind_some, Option.bind_some, orNone_of_orNone hid,
    eq_some_of_orNone hid]
  have htier : Place.tier ⟨root, path ++ [child], .space⟩ = path.length + 1 := List.length_append
  rw [htier]
  rfl

omit hleads in
/-- Descending to the root. -/
theorem forNode_root {spaceId : String} (hid : orNone root.id = some spaceId) :
    ({} : Position).forNode L (some spaceId) (root.profile.getD {}).name 0 =
      spacePosition L root [] := by
  unfold Position.forNode
  rw [if_pos rfl]
  unfold spacePosition Place.position
  dsimp only
  rw [orNone_of_orNone hid, eq_some_of_orNone hid]
  rfl

theorem Leads.child {child : Space} (hchild : child ∈ space.subspaces) :
    Leads root (path ++ [child]) child := by
  constructor
  · rw [← List.cons_append]
    refine hleads.chain.append (List.isChain_singleton _) fun parent hparent next hnext => ?_
    rw [List.getLast?_cons, hleads.last] at hparent
    obtain rfl := Option.some.inj hparent
    obtain rfl := Option.some.inj hnext
    exact hchild
  · rw [List.getLast?_concat]
    rfl

/-- What a space itself offers. -/
theorem offer_at {spaceId : String} {position : Position} {t : Option String} {arguments : Offer}
    (hid : orNone space.id = some spaceId) (htype : path.length = 0 → t = topDocType)
    (hposition : position = spacePosition L root path)
    (h : space.offer spaceId t path.length position = some arguments) :
    (Visit.offer arguments).At L topDocType root := by
  refine ⟨⟨root, path, .space⟩, rfl, ⟨hleads.chain, trivial⟩, fun _ => ?_⟩
  show some arguments = (path.getLast?.getD root).offer ((path.getLast?.getD root).id.getD "")
    topDocType path.length (spacePosition L root path)
  rw [hleads.last, eq_some_of_orNone hid, ← h, hposition]
  unfold Space.offer
  by_cases hdepth : path.length = 0
  · rw [htype hdepth]
    rfl
  · simp only [if_neg hdepth]
    rfl

omit hleads in
mutual

theorem spaceVisits_at (root : Space) (t topDocType : Option String) :
    ∀ (space : Space) (path : List Space) (position : Position), Leads root path space →
      (path.length = 0 → t = topDocType) →
      (∀ spaceId, orNone space.id = some spaceId →
        position.forNode L (some spaceId) (space.profile.getD {}).name path.length =
          spacePosition L root path) →
      ∀ v ∈ spaceVisits L t path.length position space, v.At L topDocType root
  | .mk id profile collaboration subspaces, path, position, hleads, htype, hposition, v, hv => by
    unfold spaceVisits at hv
    split at hv
    · exact absurd hv List.not_mem_nil
    · rename_i spaceId hid
      dsimp only at hv
      have hnode : position.forNode L (some spaceId) (profile.getD {}).name path.length =
          spacePosition L root path := hposition spaceId hid
      rw [hnode] at hv
      obtain hv | hv := List.mem_append.mp hv
      · obtain hv | hv := List.mem_append.mp hv
        · obtain ⟨arguments, harguments, rfl⟩ := mem_offers hv
          exact offer_at hleads hid htype rfl harguments
        · obtain ⟨callout, hcallout, hv⟩ := List.mem_flatMap.mp hv
          exact calloutVisits_at hleads hcallout hv
      · exact subspaceVisits_at root topDocType subspaces _ path hleads (fun _ h => h) v hv

theorem subspaceVisits_at (root : Space) (topDocType : Option String) :
    ∀ (spaces : List Space) (space : Space) (path : List Space), Leads root path space →
      (∀ child ∈ spaces, child ∈ space.subspaces) →
      ∀ v ∈ subspaceVisits L (path.length + 1) (spacePosition L root path) spaces,
        v.At L topDocType root
  | [], _, _, _, _, v, hv => by
    unfold subspaceVisits at hv
    exact absurd hv List.not_mem_nil
  | child :: rest, space, path, hleads, hsub, v, hv => by
    obtain ⟨hchild, hrest⟩ := List.forall_mem_cons.mp hsub
    unfold subspaceVisits at hv
    obtain hv | hv := List.mem_append.mp hv
    · have hlength : (path ++ [child]).length = path.length + 1 := List.length_append
      rw [← hlength] at hv
      refine spaceVisits_at root none topDocType child (path ++ [child]) _ (hleads.child hchild)
        (fun h => absurd h (by rw [hlength]; exact Nat.succ_ne_zero _)) (fun childId hid => ?_) v hv
      rw [hlength]
      exact forNode_subspace hid
    · exact subspaceVisits_at root topDocType rest space path hleads hrest v hv

end

end Places

/-! ## Documents -/

/-- A document of some arguments, whose id was read. -/
def Offer.Gives (L : ReaderLib) (arguments : Offer) (doc : SpaceDocument) : Prop :=
  ∃ documentId, arguments.id.read = .ok documentId ∧ doc = arguments.document L documentId

/-- A document of a visit, for some text of a link's body. -/
def Visit.Emits (L : ReaderLib) (v : Visit) (doc : SpaceDocument) : Prop :=
  ∃ fetchedText arguments, v.arguments fetchedText = some arguments ∧ arguments.Gives L doc

/-- A document of a place, for some text of a link's body. -/
def Place.Emits (L : ReaderLib) (topDocType : Option String) (place : Place)
    (doc : SpaceDocument) : Prop :=
  ∃ fetchedText arguments, place.offer L topDocType fetchedText = some arguments ∧
    arguments.Gives L doc

section Documents

variable {topDocType : Option String} {root : Space} {st : ReaderState}

/-- A document is appended for the arguments, or none is. -/
theorem append_gives {st' : ReaderState} {arguments : Offer}
    (h : append L st arguments = .ok st') :
    ∀ doc ∈ st'.documents, doc ∈ st.documents ∨ arguments.Gives L doc := by
  intro doc hdoc
  obtain ⟨documentId, hid, h⟩ := bind_eq_ok.mp h
  obtain rfl := Except.ok.inj h
  unfold appendUnique at hdoc
  split at hdoc
  · exact .inl hdoc
  · split at hdoc
    · exact .inl hdoc
    · obtain hdoc | hdoc := List.mem_append.mp hdoc
      · exact .inl hdoc
      · exact .inr ⟨documentId, hid, List.mem_singleton.mp hdoc⟩

/-- What a visit adds is its own document. -/
theorem visit_emits (v : Visit) :
    Returns (visit L st v) fun st' => ∀ doc ∈ st'.documents, doc ∈ st.documents ∨ v.Emits L doc := by
  cases v with
  | offer arguments =>
    refine returns_of_except fun st' h doc hdoc => ?_
    obtain hold | hnew := append_gives h doc hdoc
    · exact .inl hold
    · exact .inr ⟨none, arguments, rfl, hnew⟩
  | link node context position =>
    refine (returns_true _).bind fun fetchedText _ => returns_of_except fun st' h doc hdoc => ?_
    unfold appendOffer at h
    split at h
    · obtain rfl := Except.ok.inj h
      exact .inl hdoc
    · rename_i arguments harguments
      obtain hold | hnew := append_gives h doc hdoc
      · exact .inl hold
      · exact .inr ⟨fetchedText, arguments, harguments, hnew⟩

/-- The documents of a run are those of its visits. -/
theorem visits_emit (visits : List Visit) :
    Returns (visits.foldlM (visit L) {}) fun st' =>
      ∀ doc ∈ st'.documents, ∃ v ∈ visits, v.Emits L doc := by
  refine Returns.foldlM (fun st hst v hv => ?_) nofun
  refine (visit_emits v).mono (fun _ h => h) fun r hr st' hst' doc hdoc => ?_
  obtain hold | hnew := hr st' hst' doc hdoc
  · exact hst doc hold
  · exact ⟨v, hv, hnew⟩

/-- A visit of a place gives documents of the place, which carry its position. -/
theorem Visit.At.emits {v : Visit} {doc : SpaceDocument} (hv : v.At L topDocType root)
    (hdoc : v.Emits L doc) :
    ∃ place : Place, place.root = root ∧ place.InTree ∧ place.Emits L topDocType doc := by
  obtain ⟨place, hroot, hplace, harguments⟩ := hv
  obtain ⟨fetchedText, arguments, hsome, hgives⟩ := hdoc
  exact ⟨place, hroot, hplace, fetchedText, arguments, (harguments fetchedText).symm.trans hsome,
    hgives⟩

/-- What a node offers has the position that it was given. -/
theorem position_of_offer {c : Prop} [Decidable c] {given arguments : Offer}
    (h : (if c then none else some given) = some arguments) :
    arguments.position = given.position := by
  obtain rfl := Option.some.inj (Option.ite_none_left_eq_some.mp h).2
  rfl

theorem Place.position_of_emits {place : Place} {doc : SpaceDocument}
    (h : place.Emits L topDocType doc) : doc.position = place.position L := by
  obtain ⟨fetchedText, arguments, hoffer, documentId, _, rfl⟩ := h
  show arguments.position = _
  obtain ⟨root, path, node⟩ := place
  cases node with
  | space => exact position_of_offer hoffer
  | callout callout => exact position_of_offer hoffer
  | post callout post => exact position_of_offer hoffer
  | whiteboard callout whiteboard => exact position_of_offer hoffer
  | link callout link => exact position_of_offer hoffer

/-- Each document is that of a place in the tree, and carries where it is. -/
theorem readTree_positioned {σ : Type} {W : World readSignature σ} {s s' : σ}
    {t : List (Event readSignature)} {docs : List SpaceDocument}
    (hrun : Runs W (readTree L topDocType (some root)).run s t (.ok docs) s') :
    ∀ doc ∈ docs, ∃ place : Place, place.root = root ∧ place.InTree ∧
      place.Emits L topDocType doc ∧ place.Carried doc.position := by
  intro doc hdoc
  have hreturns : Returns (readTree L topDocType (some root)) fun docs =>
      ∀ doc ∈ docs, ∃ v ∈ spaceVisits L topDocType 0 {} root, v.Emits L doc := by
    rw [readTree_eq]
    exact (visits_emit _).bind fun st hst => returns_pure hst
  obtain ⟨v, hv, hemits⟩ := hreturns.of_runs hrun doc hdoc
  have hat : v.At L topDocType root :=
    spaceVisits_at root topDocType topDocType root [] {} ⟨List.isChain_singleton _, rfl⟩
      (fun _ => rfl) (fun _ hid => forNode_root hid) v hv
  obtain ⟨place, hroot, hplace, hdocument⟩ := hat.emits hemits
  refine ⟨place, hroot, hplace, hdocument, ?_⟩
  rw [Place.position_of_emits hdocument]
  exact ⟨rfl, rfl, rfl, rfl⟩

end Documents

/-! ## A tree with a post -/

/-- Texts without entities, bodies without text and no digest. -/
def plainReader : ReaderLib where
  lower := asciiLower
  unescape := id
  sha256 := id
  extractText := fun _ _ => none

/-- A callout with one post. -/
def postCallout (post : Post) : Callout where
  id := some "c"
  framing := some { profile := some { displayName := some "C" } }
  contributions := some [{ post := some post }]

/-- A space with a post in a callout, and a subspace. -/
def postTree (post : Post) : Space :=
  .mk (some "s") (some { displayName := some "S", description := some "root" })
    (some ⟨some ⟨some [postCallout post]⟩⟩)
    [.mk (some "t") (some { description := some "sub" }) none []]

def textPost (id : IdField) : Post := { id := id, profile := some { description := some "text" } }

/-- No link has a body. -/
def noBodies : Script readSignature Unit := fun s _ => (none, s)

/-- The documents of the tree. -/
def postDocuments : Except Exc (List SpaceDocument) :=
  ((readSpaceTree plainReader (some (postTree (textPost (.text "p"))))).run.eval noBodies ()).1

/-- The documents are those of the root, its post and the subspace, and each has its
place. -/
theorem readTree_positioned_post : ∃ docs, postDocuments = .ok docs ∧
    docs.map (fun doc => (doc.source, doc.position.subspaceId, doc.position.depth)) =
      [("space:s", none, 0), ("post:p", none, 3), ("space:t", some "t", 1)] ∧
    ∀ doc ∈ docs, ∃ place : Place, place.root = postTree (textPost (.text "p")) ∧ place.InTree ∧
      place.Emits plainReader none doc ∧ place.Carried doc.position := by
  have hdocuments : postDocuments.toOption.map
      (List.map fun doc => (doc.source, doc.position.subspaceId, doc.position.depth)) =
        some [("space:s", none, 0), ("post:p", none, 3), ("space:t", some "t", 1)] := by
    decide +kernel
  have hrun := eval_runs (A := noBodies) (W := noBodies.world) (fun _ _ => rfl)
    (readSpaceTree plainReader (some (postTree (textPost (.text "p"))))).run ()
  cases h : postDocuments with
  | error e =>
    rw [h] at hdocuments
    cases hdocuments
  | ok docs =>
    rw [h] at hdocuments
    unfold postDocuments at h
    rw [h] at hrun
    exact ⟨docs, rfl, Option.some.inj hdocuments, readTree_positioned hrun⟩

end VirtualContributor.Plugins.SpaceReader
