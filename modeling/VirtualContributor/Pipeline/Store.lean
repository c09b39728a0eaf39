import VirtualContributor.Lib.RelyGuarantee
import VirtualContributor.Pipeline.Document

/-!
# The knowledge store and the ports of the pipeline

A pipeline run talks to three ports: the knowledge store, the language models
and the embeddings provider.  `ingestSignature` lists the calls it makes, and
`portWorld` says what each may answer and do.

Every store call of a run names the collection of its context, so the state
is that one collection.  Its entries have distinct ids, and `ingest` is an
upsert.  A failed write may have been applied in part.
-/

namespace VirtualContributor.Pipeline

open Lib Program

/-! ## Collections -/

/-- The metadata written beside a passage.  A missing key is `none`. -/
structure StoredMetadata where
  documentId : Option String
  source : String
  type : String
  title : String
  embeddingType : Option String
  chunkIndex : Nat
  uri : Option String
  hierarchy : HierarchyMetadata
deriving DecidableEq

structure Entry where
  id : String
  document : String
  metadata : StoredMetadata
  embedding : Embedding
deriving DecidableEq

/-- Whether an entry is primary content. -/
def Entry.isContent (e : Entry) : Bool := Pipeline.isContent e.metadata.embeddingType

/-- The document id of an entry, if it has one. -/
def Entry.docId (e : Entry) : Option String := e.metadata.documentId

/-- A collection: entries with distinct ids. -/
structure Collection where
  entries : List Entry
  nodup : (entries.map Entry.id).Nodup

namespace Collection

instance : Membership Entry Collection := ⟨fun s e => e ∈ s.entries⟩

theorem mem_def {e : Entry} {s : Collection} : e ∈ s ↔ e ∈ s.entries := Iff.rfl

/-- The collection with no entry. -/
def empty : Collection := ⟨[], List.nodup_nil⟩

@[simp] theorem not_mem_empty (e : Entry) : e ∉ empty := List.not_mem_nil

/-- An id names one entry. -/
theorem eq_of_id_eq {s : Collection} {e e' : Entry} (he : e ∈ s) (he' : e' ∈ s)
    (h : e.id = e'.id) : e = e' :=
  List.inj_on_of_nodup_map s.nodup he he' h

/-- Keep the entries that satisfy `p`. -/
def keep (s : Collection) (p : Entry → Bool) : Collection :=
  ⟨s.entries.filter p, (List.filter_sublist.map _).nodup s.nodup⟩

@[simp] theorem mem_keep {s : Collection} {p : Entry → Bool} {e : Entry} :
    e ∈ s.keep p ↔ e ∈ s ∧ p e = true :=
  List.mem_filter

/-- Write one entry: it replaces the entry of its id. -/
def upsert (s : Collection) (x : Entry) : Collection :=
  ⟨(s.keep (fun e => e.id ≠ x.id)).entries ++ [x], by
    rw [List.map_append, List.map_singleton, ← List.concat_eq_append]
    refine (s.keep _).nodup.concat ?_
    rw [List.mem_map]
    rintro ⟨e, he, hid⟩
    have := (mem_keep.mp he).2
    simp [hid] at this⟩

@[simp] theorem mem_upsert {s : Collection} {x e : Entry} :
    e ∈ s.upsert x ↔ e = x ∨ e ∈ s ∧ e.id ≠ x.id := by
  rw [mem_def, upsert, List.mem_append, List.mem_singleton, ← mem_def, mem_keep,
    decide_eq_true_iff, or_comm]

/-- Write a list of entries in order. -/
def upsertAll (s : Collection) (xs : List Entry) : Collection := xs.foldl upsert s

/-- The entries of `get`: all of them, or those of one document id. -/
def select (s : Collection) : Option String → List Entry
  | none => s.entries
  | some d => s.entries.filter (fun e => e.docId = some d)

@[simp] theorem mem_select_none {s : Collection} {e : Entry} : e ∈ s.select none ↔ e ∈ s :=
  Iff.rfl

@[simp] theorem mem_select_some {s : Collection} {d : String} {e : Entry} :
    e ∈ s.select (some d) ↔ e ∈ s ∧ e.docId = some d := by
  rw [select, List.mem_filter, decide_eq_true_iff]
  rfl

/-- Two collections with the same entries. -/
def Same (s t : Collection) : Prop := ∀ e, e ∈ s ↔ e ∈ t

theorem upsertAll_cons (s : Collection) (x : Entry) (xs : List Entry) :
    s.upsertAll (x :: xs) = (s.upsert x).upsertAll xs := rfl

/-- What is in the collection after some writes was written or was there. -/
theorem mem_of_mem_upsertAll {s : Collection} {xs : List Entry} {e : Entry}
    (h : e ∈ s.upsertAll xs) : e ∈ xs ∨ e ∈ s := by
  induction xs generalizing s with
  | nil => exact Or.inr h
  | cons x xs ih =>
    rcases ih h with hx | hs
    · exact Or.inl (List.mem_cons_of_mem _ hx)
    · rcases mem_upsert.mp hs with rfl | hs
      · exact Or.inl (List.mem_cons_self ..)
      · exact Or.inr hs.1

/-- An entry whose id is not written stays. -/
theorem mem_upsertAll_of_not_mem {s : Collection} {xs : List Entry} {e : Entry}
    (h : e ∈ s) (hx : e.id ∉ xs.map Entry.id) : e ∈ s.upsertAll xs := by
  induction xs generalizing s with
  | nil => exact h
  | cons x xs ih =>
    rw [List.map_cons, List.mem_cons, not_or] at hx
    exact ih (mem_upsert.mpr (Or.inr ⟨h, hx.1⟩)) hx.2

/-- A written id is in the collection, with one of the entries written for it. -/
theorem exists_of_mem_upsertAll {s : Collection} {xs : List Entry} {x : Entry} (hx : x ∈ xs) :
    ∃ e ∈ xs, e.id = x.id ∧ e ∈ s.upsertAll xs := by
  induction xs generalizing s x with
  | nil => simp at hx
  | cons y ys ih =>
    by_cases hin : ∃ z ∈ ys, z.id = x.id
    · obtain ⟨z, hz, hid⟩ := hin
      obtain ⟨e, he, heid, hmem⟩ := ih (s := s.upsert y) hz
      exact ⟨e, List.mem_cons_of_mem _ he, heid.trans hid, hmem⟩
    · have hxy : x = y := by
        rcases List.mem_cons.mp hx with h | h
        · exact h
        · exact absurd ⟨x, h, rfl⟩ hin
      subst hxy
      refine ⟨x, List.mem_cons_self .., rfl, ?_⟩
      rw [upsertAll_cons]
      refine mem_upsertAll_of_not_mem (mem_upsert.mpr (Or.inl rfl)) ?_
      rw [List.mem_map]
      exact fun ⟨z, hz, hid⟩ => hin ⟨z, hz, hid⟩

/-! ### Reading by id -/

/-- The entry of an id. -/
def lookup (s : Collection) (k : String) : Option Entry := s.entries.find? (fun e => e.id = k)

theorem lookup_eq_some {s : Collection} {k : String} {e : Entry} :
    s.lookup k = some e ↔ e ∈ s ∧ e.id = k := by
  constructor
  · intro h
    exact ⟨List.mem_of_find?_eq_some h, by simpa using List.find?_some h⟩
  · rintro ⟨he, rfl⟩
    cases h : s.lookup e.id with
    | none => simpa using List.find?_eq_none.mp h e he
    | some e' =>
      have hid : e'.id = e.id := by simpa using List.find?_some h
      rw [eq_of_id_eq (List.mem_of_find?_eq_some h) he hid]

theorem mem_iff_lookup {s : Collection} {e : Entry} : e ∈ s ↔ s.lookup e.id = some e := by
  rw [lookup_eq_some, and_iff_left rfl]

theorem same_iff_lookup {s t : Collection} : Same s t ↔ ∀ k, s.lookup k = t.lookup k := by
  constructor
  · intro h k
    ext e
    rw [lookup_eq_some, lookup_eq_some, h e]
  · intro h e
    rw [mem_iff_lookup, mem_iff_lookup, h]

theorem lookup_upsert (s : Collection) (x : Entry) (k : String) :
    (s.upsert x).lookup k = if x.id = k then some x else s.lookup k := by
  ext e
  rw [lookup_eq_some, mem_upsert]
  split
  · rename_i hx
    rw [Option.some.injEq]
    constructor
    · rintro ⟨rfl | ⟨_, hne⟩, hk⟩
      · rfl
      · exact absurd (hk.trans hx.symm) hne
    · rintro rfl
      exact ⟨Or.inl rfl, hx⟩
  · rename_i hx
    rw [lookup_eq_some]
    constructor
    · rintro ⟨rfl | ⟨he, _⟩, hk⟩
      · exact absurd hk hx
      · exact ⟨he, hk⟩
    · rintro ⟨he, hk⟩
      exact ⟨Or.inr ⟨he, fun h => hx (h.symm.trans hk)⟩, hk⟩

/-- The last entry of a list with the id `k`. -/
def lastOf (xs : List Entry) (k : String) : Option Entry :=
  (xs.filter (fun e => e.id = k)).getLast?

theorem lastOf_append (xs ys : List Entry) (k : String) :
    lastOf (xs ++ ys) k = (lastOf ys k).or (lastOf xs k) := by
  rw [lastOf, List.filter_append, List.getLast?_append]
  rfl

theorem lastOf_cons (x : Entry) (xs : List Entry) (k : String) :
    lastOf (x :: xs) k = (lastOf xs k).or (if x.id = k then some x else none) := by
  have hone : lastOf [x] k = if x.id = k then some x else none := by
    by_cases hx : x.id = k <;> simp [lastOf, hx]
  rw [← List.singleton_append, lastOf_append, hone]

theorem lastOf_eq_none {xs : List Entry} {k : String} :
    lastOf xs k = none ↔ ∀ x ∈ xs, x.id ≠ k := by
  rw [lastOf, List.getLast?_eq_none_iff, List.filter_eq_nil_iff]
  simp only [decide_eq_true_iff, ne_eq]

/-- What is read after some writes: the last entry written under the id, else
what was there. -/
theorem lookup_upsertAll (s : Collection) (xs : List Entry) (k : String) :
    (s.upsertAll xs).lookup k = (lastOf xs k).or (s.lookup k) := by
  induction xs generalizing s with
  | nil => rfl
  | cons x xs ih =>
    rw [upsertAll_cons, ih, lookup_upsert, lastOf_cons, Option.or_assoc]
    by_cases hx : x.id = k <;> simp [hx]

end Collection

/-! ## Port calls -/

/-- Result from a get-by-filter operation: parallel lists. -/
structure GetResult where
  ids : List String
  metadatas : Option (List StoredMetadata) := none
  embeddings : Option (List Embedding) := none

/-- The result that lists the entries `es`. -/
def GetResult.Lists (g : GetResult) (es : List Entry) : Prop :=
  g.ids = es.map Entry.id ∧ g.metadatas = some (es.map Entry.metadata)

/-- Which of the configured models a call goes to: the one that summarises,
or the larger one of the merges and of the overview. -/
inductive LlmRole where
  | summary
  | bok
deriving DecidableEq

/-- The two messages of an invocation. -/
structure Messages where
  system : String
  human : String
deriving DecidableEq

inductive IngestCall where
  | get (documentId : Option String) (includeEmbeddings : Bool)
  | ingest (entries : List Entry)
  | deleteIds (ids : List String)
  | deleteWhere (documentId : String)
  | invoke (role : LlmRole) (messages : Messages)
  | embed (texts : List String)
deriving DecidableEq

/-- The answers of the ports.  An error carries the text of the exception. -/
def IngestCall.Answer : IngestCall → Type
  | get _ _ => Except String GetResult
  | ingest _ | deleteIds _ | deleteWhere _ => Except String Unit
  | invoke _ _ => Except String String
  | embed _ => Except String (List Embedding)

abbrev ingestSignature : Signature where
  Call := IngestCall
  Answer := IngestCall.Answer

/-- Programs of the pipeline. -/
abbrev Ingest := Program ingestSignature

def storeGet (documentId : Option String) (includeEmbeddings : Bool) :
    Ingest (Except String GetResult) :=
  request (S := ingestSignature) (.get documentId includeEmbeddings)

def storeIngest (entries : List Entry) : Ingest (Except String Unit) :=
  request (S := ingestSignature) (.ingest entries)

def storeDeleteIds (ids : List String) : Ingest (Except String Unit) :=
  request (S := ingestSignature) (.deleteIds ids)

def storeDeleteWhere (documentId : String) : Ingest (Except String Unit) :=
  request (S := ingestSignature) (.deleteWhere documentId)

def llmInvoke (role : LlmRole) (messages : Messages) : Ingest (Except String String) :=
  request (S := ingestSignature) (.invoke role messages)

def embedTexts (texts : List String) : Ingest (Except String (List Embedding)) :=
  request (S := ingestSignature) (.embed texts)

/-- What the ports promise beyond their types: which answers a model may give
to a prompt, which embeddings some texts may get, and whether the store hands
out the embeddings it holds. -/
structure Ports where
  mayAnswer : LlmRole → Messages → String → Prop
  mayEmbed : List String → List Embedding → Prop
  returnsEmbeddings : Prop

/-- Ports that promise nothing. -/
def Ports.any : Ports := ⟨fun _ _ _ => True, fun _ _ => True, False⟩

/-- The behaviour of the three ports.  Any call may fail.  A failed write may
have been applied to some of its entries. -/
def portWorld (ports : Ports) : World ingestSignature Collection
  | s, .get d withEmbeddings, .ok g, s' =>
      s' = s ∧ g.Lists (s.select d) ∧
        (g.embeddings = some ((s.select d).map Entry.embedding) ∨
          g.embeddings = none ∧ ¬ (ports.returnsEmbeddings ∧ withEmbeddings = true))
  | s, .get _ _, .error _, s' => s' = s
  | s, .ingest es, .ok _, s' => s' = s.upsertAll es
  | s, .ingest es, .error _, s' => ∃ part : List Entry, part.Sublist es ∧ s' = s.upsertAll part
  | s, .deleteIds ids, .ok _, s' => s' = s.keep (fun e => e.id ∉ ids)
  | s, .deleteIds ids, .error _, s' =>
      ∃ part : Entry → Bool, s' = s.keep (fun e => e.id ∉ ids || part e)
  | s, .deleteWhere d, .ok _, s' => s' = s.keep (fun e => e.docId ≠ some d)
  | s, .deleteWhere d, .error _, s' =>
      ∃ part : Entry → Bool, s' = s.keep (fun e => e.docId ≠ some d || part e)
  | s, .invoke role messages, .ok answer, s' => s' = s ∧ ports.mayAnswer role messages answer
  | s, .invoke _ _, .error _, s' => s' = s
  | s, .embed texts, .ok embeddings, s' => s' = s ∧ ports.mayEmbed texts embeddings
  | s, .embed _, .error _, s' => s' = s

/-- The calls that leave every collection as it is. -/
def IngestCall.readOnly : IngestCall → Prop
  | get _ _ | invoke _ _ | embed _ => True
  | ingest _ | deleteIds _ | deleteWhere _ => False

theorem portWorld_readOnly {ports : Ports} {s s' : Collection} {c : IngestCall} {r : c.Answer}
    (hc : c.readOnly) (h : portWorld ports s c r s') : s' = s := by
  cases c with
  | get d b =>
    cases r with
    | ok g => exact h.1
    | error e => exact h
  | invoke role m =>
    cases r with
    | ok a => exact h.1
    | error e => exact h
  | embed ts =>
    cases r with
    | ok vs => exact h.1
    | error e => exact h
  | ingest es => exact hc.elim
  | deleteIds ids => exact hc.elim
  | deleteWhere d => exact hc.elim

/-- What is in the collection after a call was there or was written by it. -/
theorem portWorld_mem {ports : Ports} {s s' : Collection} {c : IngestCall} {r : c.Answer}
    (h : portWorld ports s c r s') {e : Entry} (he : e ∈ s') :
    e ∈ s ∨ ∃ es, c = .ingest es ∧ e ∈ es := by
  cases c with
  | get d b => exact Or.inl (portWorld_readOnly (c := .get d b) trivial h ▸ he)
  | invoke role m => exact Or.inl (portWorld_readOnly (c := .invoke role m) trivial h ▸ he)
  | embed ts => exact Or.inl (portWorld_readOnly (c := .embed ts) trivial h ▸ he)
  | ingest es =>
    have written (part : List Entry) (hpart : part.Sublist es) (he : e ∈ s.upsertAll part) :
        e ∈ s ∨ ∃ es', IngestCall.ingest es = .ingest es' ∧ e ∈ es' := by
      rcases Collection.mem_of_mem_upsertAll he with he | he
      · exact Or.inr ⟨es, rfl, hpart.subset he⟩
      · exact Or.inl he
    cases r with
    | ok _ =>
      obtain rfl : s' = s.upsertAll es := h
      exact written es (List.Sublist.refl es) he
    | error exc =>
      obtain ⟨part, hpart, rfl⟩ := h
      exact written part hpart he
  | deleteIds ids =>
    cases r with
    | ok _ =>
      obtain rfl : s' = s.keep _ := h
      exact Or.inl (Collection.mem_keep.mp he).1
    | error exc =>
      obtain ⟨part, rfl⟩ := h
      exact Or.inl (Collection.mem_keep.mp he).1
  | deleteWhere d =>
    cases r with
    | ok _ =>
      obtain rfl : s' = s.keep _ := h
      exact Or.inl (Collection.mem_keep.mp he).1
    | error exc =>
      obtain ⟨part, rfl⟩ := h
      exact Or.inl (Collection.mem_keep.mp he).1

/-! ## Steady ports -/

/-- The listing of some entries. -/
def listing (es : List Entry) (includeEmbeddings : Bool) : GetResult where
  ids := es.map Entry.id
  metadatas := some (es.map Entry.metadata)
  embeddings := if includeEmbeddings then some (es.map Entry.embedding) else none

/-- Ports of which no call fails: the answer of a model is a function of the
prompt, and an embedding is a function of its text. -/
def steadyPorts (answer : LlmRole → Messages → String) (vector : String → Embedding) :
    Script ingestSignature Collection
  | s, .get d b => (.ok (listing (s.select d) b), s)
  | s, .ingest es => (.ok (), s.upsertAll es)
  | s, .deleteIds ids => (.ok (), s.keep (fun e => e.id ∉ ids))
  | s, .deleteWhere d => (.ok (), s.keep (fun e => e.docId ≠ some d))
  | s, .invoke role messages => (.ok (answer role messages), s)
  | s, .embed texts => (.ok (texts.map vector), s)

/-- Steady ports are ports. -/
theorem steadyPorts_portWorld {ports : Ports} {answer : LlmRole → Messages → String}
    {vector : String → Embedding} (h : ∀ role m, ports.mayAnswer role m (answer role m))
    (hv : ∀ texts, ports.mayEmbed texts (texts.map vector)) (s : Collection) (c : IngestCall) :
    portWorld ports s c (steadyPorts answer vector s c).1 (steadyPorts answer vector s c).2 := by
  cases c with
  | get d b =>
    refine ⟨rfl, ⟨rfl, rfl⟩, ?_⟩
    cases b with
    | true => exact Or.inl rfl
    | false => exact Or.inr ⟨rfl, fun hb => Bool.false_ne_true hb.2⟩
  | invoke role m => exact ⟨rfl, h role m⟩
  | embed texts => exact ⟨rfl, hv texts⟩
  | _ => rfl

end VirtualContributor.Pipeline
