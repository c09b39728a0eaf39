import VirtualContributor.Lib.JoinedFields
import VirtualContributor.Pipeline.Fingerprints

/-!
# What a fingerprint tells apart

`ContentHashStep` hashes the fields of a chunk joined by NUL, some of them only
when they are set.  `ContentIdentity` is what the fingerprint is to tell apart,
and `texts` lists its fields as they are joined.

* `texts_injective`: the fields determine the identity, whichever of the
  optional ones are there.
* `contentHash_iff`: the fingerprint tells two chunks apart exactly when NUL
  does not shift text between their fields.
-/

namespace VirtualContributor.Pipeline

open Lib ContentHashStep

/-! ## Identities -/

/-- A position in the space tree. -/
structure TreePosition where
  spaceId : String
  subspaceId : String
  calloutId : String
  depth : Int
deriving DecidableEq

/-- What two chunks of one content agree on. -/
structure ContentIdentity where
  content : String
  title : String
  source : String
  type : String
  documentId : String
  label : String
  position : Option TreePosition
deriving DecidableEq

/-- The position of a document: absent and blank ids are one, and so are all
positions that are not set. -/
def treePosition (m : DocumentMetadata) : Option TreePosition :=
  if hasPosition m then
    some ⟨m.spaceId.getD "", m.subspaceId.getD "", m.calloutId.getD "", m.depth⟩
  else none

/-- The identity of a chunk.  A missing label counts as a plain chunk. -/
def Chunk.identity (c : Chunk) : ContentIdentity where
  content := c.content
  title := c.metadata.title
  source := c.metadata.source
  type := c.metadata.type
  documentId := c.metadata.documentId
  label := c.metadata.embeddingType.getD EMBEDDING_TYPE_CHUNK
  position := treePosition c.metadata

def TreePosition.texts (p : TreePosition) : List String :=
  [p.spaceId, p.subspaceId, p.calloutId, toString p.depth]

/-- The fields as they are joined. -/
def ContentIdentity.texts (i : ContentIdentity) : List String :=
  [i.content, i.title, i.source, i.type, i.documentId]
    ++ (i.position.map TreePosition.texts).getD []
    ++ (if i.label ≠ EMBEDDING_TYPE_CHUNK then [i.label] else [])

/-! ## The label of a content chunk -/

theorem label_of_isContent {c : Chunk} (hc : c.isContent = true) :
    c.metadata.embeddingType = none ∨ c.metadata.embeddingType = some EMBEDDING_TYPE_CHUNK ∨
      c.metadata.embeddingType = some EMBEDDING_TYPE_OVERVIEW := by
  cases hlabel : c.metadata.embeddingType with
  | none => exact Or.inl rfl
  | some label =>
    have h : label = EMBEDDING_TYPE_CHUNK ∨ label = EMBEDDING_TYPE_OVERVIEW := by
      simpa [Chunk.isContent, Pipeline.isContent, hlabel] using hc
    rcases h with rfl | rfl
    · exact Or.inr (Or.inl rfl)
    · exact Or.inr (Or.inr rfl)

/-- A content chunk counts as a plain chunk or as an overview. -/
theorem identity_label {c : Chunk} (hc : c.isContent = true) :
    c.identity.label = EMBEDDING_TYPE_CHUNK ∨ c.identity.label = EMBEDDING_TYPE_OVERVIEW := by
  rcases label_of_isContent hc with h | h | h
  · exact Or.inl (by simp [Chunk.identity, h])
  · exact Or.inl (by simp [Chunk.identity, h])
  · exact Or.inr (by simp [Chunk.identity, h])

/-- The step joins the fields of the identity. -/
theorem segments_eq_texts {c : Chunk} (hc : c.isContent = true) :
    segments c = c.identity.texts := by
  have hposition : ((treePosition c.metadata).map TreePosition.texts).getD []
      = if hasPosition c.metadata then
          [c.metadata.spaceId.getD "", c.metadata.subspaceId.getD "",
            c.metadata.calloutId.getD "", toString c.metadata.depth] else [] := by
    unfold treePosition
    by_cases hp : hasPosition c.metadata = true
    · simp [hp, TreePosition.texts]
    · simp [hp]
  have hlabel : (if truthy c.metadata.embeddingType then c.metadata.embeddingType.getD ""
      else EMBEDDING_TYPE_CHUNK) = c.metadata.embeddingType.getD EMBEDDING_TYPE_CHUNK := by
    rcases label_of_isContent hc with h | h | h <;> rw [h] <;> decide
  show _ ++ _ ++ _ = _ ++ _ ++ _
  rw [Chunk.identity, hposition, hlabel]

/-! ## Unique decoding -/

theorem TreePosition.texts_injective : Function.Injective TreePosition.texts := by
  intro p p' h
  simp only [texts, List.cons.injEq, and_true] at h
  obtain ⟨hspace, hsubspace, hcallout, hdepth⟩ := h
  have hdepth' : p.depth = p'.depth := intText_injective hdepth
  cases p
  cases p'
  simp_all

/-- The joined fields determine the identity: a label that is joined is that of
an overview, and the number of fields tells which of the optional ones are
there. -/
theorem texts_injective {i i' : ContentIdentity}
    (hi : i.label = EMBEDDING_TYPE_CHUNK ∨ i.label = EMBEDDING_TYPE_OVERVIEW)
    (hi' : i'.label = EMBEDDING_TYPE_CHUNK ∨ i'.label = EMBEDDING_TYPE_OVERVIEW)
    (h : i.texts = i'.texts) : i = i' := by
  have hne : EMBEDDING_TYPE_OVERVIEW ≠ EMBEDDING_TYPE_CHUNK := by decide
  obtain ⟨c, t, s, y, d, label, position⟩ := i
  obtain ⟨c', t', s', y', d', label', position'⟩ := i'
  simp only [ContentIdentity.texts, List.cons_append, List.nil_append, List.cons.injEq] at h
  obtain ⟨rfl, rfl, rfl, rfl, rfl, htail⟩ := h
  have hlength := congrArg List.length htail
  -- The tails have 0, 1, 4 or 5 fields, each for one combination.
  rcases hi with rfl | rfl <;> rcases hi' with rfl | rfl <;>
    rcases position with _ | p <;> rcases position' with _ | p' <;>
    simp [hne, TreePosition.texts] at hlength htail ⊢
  all_goals exact TreePosition.texts_injective (by simp [TreePosition.texts, htail])

/-! ## Collisions -/

/-- The fields of a chunk that are joined, as lists of characters. -/
def Chunk.fields (c : Chunk) : List (List Char) := c.identity.texts.map String.toList

/-- NUL does not shift text between the fields of two chunks: it stands in the
same fields of both, or it cuts them into different pieces. -/
def NulAligned (c c' : Chunk) : Prop :=
  layout '\x00' c.fields = layout '\x00' c'.fields ∨
    pieces '\x00' c.fields ≠ pieces '\x00' c'.fields

instance (c c' : Chunk) : Decidable (NulAligned c c') := inferInstanceAs (Decidable (_ ∨ _))

theorem canonical_toList {c : Chunk} (hc : c.isContent = true) :
    (canonical c).toList = ['\x00'].intercalate c.fields := by
  rw [canonical, String.toList_intercalate, segments_eq_texts hc]
  rfl

theorem fields_ne_nil (c : Chunk) : c.fields ≠ [] := by
  simp [Chunk.fields, ContentIdentity.texts]

theorem identity_eq_iff {c c' : Chunk} (hc : c.isContent = true) (hc' : c'.isContent = true) :
    c.identity = c'.identity ↔ c.fields = c'.fields := by
  constructor
  · intro h
    rw [Chunk.fields, Chunk.fields, h]
  · intro h
    refine texts_injective (identity_label hc) (identity_label hc') ?_
    exact List.map_injective_iff.mpr (fun _ _ => String.toList_inj.mp) h

/-- Two content chunks hash one text when NUL cuts their fields into the same
pieces. -/
theorem canonical_eq_iff {c c' : Chunk} (hc : c.isContent = true) (hc' : c'.isContent = true) :
    canonical c = canonical c' ↔ pieces '\x00' c.fields = pieces '\x00' c'.fields := by
  rw [← join_eq_iff (fields_ne_nil c) (fields_ne_nil c'), ← canonical_toList hc,
    ← canonical_toList hc', String.toList_inj]

/-- Two content chunks get the same fingerprint exactly when they have the same
identity, if and only if NUL does not shift text between their fields. -/
theorem contentHash_iff (host : Host) (hsha : Function.Injective host.sha256) (c c' : Chunk)
    (hc : c.isContent = true) (hc' : c'.isContent = true) :
    ((hashChunk host c).contentHash = (hashChunk host c').contentHash ↔
      c.identity = c'.identity) ↔ NulAligned c c' := by
  have hhash : (hashChunk host c).contentHash = (hashChunk host c').contentHash ↔
      pieces '\x00' c.fields = pieces '\x00' c'.fields := by
    rw [hashChunk, hashChunk, if_pos hc, if_pos hc', Option.some.injEq, contentHash, contentHash,
      hsha.eq_iff, canonical_eq_iff hc hc']
  rw [hhash, identity_eq_iff hc hc']
  constructor
  · intro h
    by_cases hpieces : pieces '\x00' c.fields = pieces '\x00' c'.fields
    · exact Or.inl (by rw [h.mp hpieces])
    · exact Or.inr hpieces
  · rintro (hlayout | hpieces)
    · exact ⟨fun hpieces => eq_of_pieces_of_layout hpieces hlayout, fun h => by rw [h]⟩
    · exact ⟨fun h => absurd h hpieces, fun h => absurd (by rw [h]) hpieces⟩

/-! ## Fields that collide -/

/-- A digest without collisions: every character is spelled as a run of ones. -/
def tally (text : String) : String :=
  String.ofList ('0' :: text.toList.flatMap fun c => List.replicate c.toNat '1' ++ ['0'])

private theorem replicate_append_inj {α : Type} {a b : α} (hab : a ≠ b) {n m : Nat}
    {xs ys : List α} (h : List.replicate n a ++ b :: xs = List.replicate m a ++ b :: ys) :
    n = m ∧ xs = ys := by
  induction n generalizing m with
  | zero =>
    cases m with
    | zero => exact ⟨rfl, by simpa using h⟩
    | succ m =>
      simp only [List.replicate_zero, List.nil_append, List.replicate_succ, List.cons_append,
        List.cons.injEq] at h
      exact absurd h.1.symm hab
  | succ n ih =>
    cases m with
    | zero =>
      simp only [List.replicate_zero, List.nil_append, List.replicate_succ, List.cons_append,
        List.cons.injEq] at h
      exact absurd h.1 hab
    | succ m =>
      simp only [List.replicate_succ, List.cons_append, List.cons.injEq, true_and] at h
      obtain ⟨hnm, hrest⟩ := ih h
      exact ⟨by omega, hrest⟩

theorem tally_injective : Function.Injective tally := by
  have hcode : ∀ cs cs' : List Char,
      (cs.flatMap fun c => List.replicate c.toNat '1' ++ ['0'])
        = (cs'.flatMap fun c => List.replicate c.toNat '1' ++ ['0']) → cs = cs' := by
    intro cs
    induction cs with
    | nil =>
      intro cs' h
      cases cs' with
      | nil => rfl
      | cons c cs' => simp at h
    | cons c cs ih =>
      intro cs' h
      cases cs' with
      | nil => simp at h
      | cons c' cs' =>
        simp only [List.flatMap_cons, List.append_assoc, List.singleton_append] at h
        obtain ⟨hc, hrest⟩ := replicate_append_inj (by decide) h
        rw [Char.toNat_inj.mp hc, ih cs' hrest]
  intro text text' h
  have hlist := String.ofList_injective h
  exact String.toList_inj.mp (hcode _ _ (List.cons.inj hlist).2)

/-- A host whose digests have no collisions. -/
def tallyHost : Host where
  splitText := fun _ _ text => .ok [text]
  sha256 := tally
  sha256_hex := by
    intro text
    refine ⟨?_, ?_⟩
    · intro h
      have hlist := congrArg String.toList h
      simp [tally] at hlist
    · intro c hc
      simp only [tally, String.toList_ofList, List.mem_cons, List.mem_flatMap, List.mem_append,
        List.mem_replicate] at hc
      rcases hc with rfl | ⟨_, _, ⟨_, rfl⟩ | rfl | hnil⟩
      · decide
      · decide
      · decide
      · exact absurd hnil List.not_mem_nil

/-- A passage of one document with the given title and source. -/
def titledChunk (title source : String) : Chunk where
  content := "text"
  metadata :=
    { documentId := "d", source := source, title := title
      embeddingType := some EMBEDDING_TYPE_CHUNK }
  chunkIndex := 0

/-- Two chunks that differ in where the title ends get different fingerprints. -/
theorem contentHash_iff_titled :
    (hashChunk tallyHost (titledChunk "ab" "cd")).contentHash
      ≠ (hashChunk tallyHost (titledChunk "abc" "d")).contentHash := by
  have h := (contentHash_iff tallyHost tally_injective (titledChunk "ab" "cd")
    (titledChunk "abc" "d") (by decide) (by decide)).mpr (by decide)
  intro heq
  exact absurd (h.mp heq) (by decide)

/-- NUL in the title and NUL in the source give two chunks one fingerprint. -/
theorem shifted_title : ¬ ∀ host : Host, Function.Injective host.sha256 → ∀ c c' : Chunk,
    c.isContent = true → c'.isContent = true →
      ((hashChunk host c).contentHash = (hashChunk host c').contentHash ↔
        c.identity = c'.identity) := by
  intro h
  have hcanonical :
      canonical (titledChunk "a\x00b" "c") = canonical (titledChunk "a" "b\x00c") := by
    decide
  have hhash : (hashChunk tallyHost (titledChunk "a\x00b" "c")).contentHash
      = (hashChunk tallyHost (titledChunk "a" "b\x00c")).contentHash := by
    rw [hashChunk, hashChunk, if_pos (by decide), if_pos (by decide), contentHash, contentHash,
      hcanonical]
  have heq := (h tallyHost tally_injective (titledChunk "a\x00b" "c") (titledChunk "a" "b\x00c")
    (by decide) (by decide)).mp hhash
  exact absurd heq (by decide)

end VirtualContributor.Pipeline
