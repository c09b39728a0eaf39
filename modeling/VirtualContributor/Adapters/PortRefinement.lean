import Mathlib
import VirtualContributor.Adapters.RetryPolicies
import VirtualContributor.Pipeline.Convergence

/-!
# The adapters refine the ports

`serverWorld` is what the clients of the store, of the models and of the
embeddings provider may answer.  Any request may fail, and one that fails may
have been carried out all the same, since the response can be lost.  A write of
entries is carried out as a whole or not at all, a deletion perhaps in part.

`adapters_implement` says that the retrying adapters over this world do what
`portWorld` allows.  What holds of every history of runs at the ports then
holds of every history of runs through the adapters.
-/

namespace VirtualContributor.Pipeline.Collection

/-! ## Writing and deleting twice -/

theorem ext_entries {s t : Collection} (h : s.entries = t.entries) : s = t := by
  cases s
  cases t
  cases h
  rfl

theorem keep_keep (s : Collection) (p q : Entry → Bool) :
    (s.keep p).keep q = s.keep fun e => p e && q e := by
  refine ext_entries ?_
  simp only [keep, List.filter_filter]
  exact congrArg (List.filter · s.entries) (funext fun e => Bool.and_comm ..)

theorem keep_true (s : Collection) : (s.keep fun _ => true) = s :=
  ext_entries (List.filter_true ..)

theorem upsertAll_append (s : Collection) (es xs : List Entry) :
    s.upsertAll (es ++ xs) = (s.upsertAll es).upsertAll xs :=
  List.foldl_append

/-- Written entries follow what is left of the others. -/
theorem upsertAll_entries (s : Collection) (es : List Entry) :
    (s.upsertAll es).entries =
      s.entries.filter (fun e => e.id ∉ es.map Entry.id) ++ (empty.upsertAll es).entries := by
  induction es using List.reverseRecOn with
  | nil =>
    show s.entries = _
    simp [upsertAll, empty]
  | append_singleton es x ih =>
    rw [upsertAll_append, upsertAll_append]
    show ((s.upsertAll es).upsert x).entries = _ ++ ((empty.upsertAll es).upsert x).entries
    simp only [upsert, keep, ih, List.filter_append, List.filter_filter, List.append_assoc]
    congr 1
    refine List.filter_congr fun e _ => ?_
    simp only [List.map_append, List.map_cons, List.map_nil, List.mem_append, List.mem_singleton]
    by_cases hx : e.id = x.id <;> simp [hx]

/-- A write that is repeated changes nothing more. -/
theorem upsertAll_upsertAll (s : Collection) (es : List Entry) :
    (s.upsertAll es).upsertAll es = s.upsertAll es := by
  refine ext_entries ?_
  have hwritten : (empty.upsertAll es).entries.filter (fun e => e.id ∉ es.map Entry.id) = [] := by
    rw [List.filter_eq_nil_iff]
    intro e he
    rcases mem_of_mem_upsertAll he with he | he
    · simpa using ⟨e, he, rfl⟩
    · exact absurd he (not_mem_empty e)
  rw [upsertAll_entries (s.upsertAll es), upsertAll_entries s, List.filter_append, hwritten,
    List.append_nil, List.filter_filter]
  simp

end VirtualContributor.Pipeline.Collection

namespace VirtualContributor.Adapters

open Lib Program
open Pipeline

/-! ## The servers -/

/-- What the services promise: which answers a model may give to some message
objects, which embeddings some texts may get, and whether the store hands out
the embeddings it holds. -/
structure RawPorts where
  mayAnswer : LlmRole → List LangchainMessage → String → Prop
  mayEmbed : List String → List Embedding → Prop
  returnsEmbeddings : Prop

/-- The promises as the pipeline sees them. -/
def RawPorts.ports (raw : RawPorts) : Ports where
  mayAnswer role messages answer := raw.mayAnswer role (toLangchainMessages messages) answer
  mayEmbed := raw.mayEmbed
  returnsEmbeddings := raw.returnsEmbeddings

/-- What a collection that may not exist holds. -/
def contents (s : Option Collection) : Collection := s.getD .empty

@[simp] theorem contents_some (c : Collection) : contents (some c) = c := rfl

@[simp] theorem contents_none : contents none = .empty := rfl

/-- The behaviour of the client libraries on the collection of a run.  An error
says that something is missing only when the collection does not exist. -/
def serverWorld (lower : String → String) (raw : RawPorts) :
    World serverSignature (Option Collection)
  | s, .getOrCreateCollection, .ok _, s' => s' = some (contents s)
  | s, .getOrCreateCollection, .error exc, s' =>
      (s' = s ∨ s' = some (contents s)) ∧
        (ChromaDBAdapter.saysMissing lower exc = true → s = none)
  | s, .collectionGet d withEmbeddings, .ok g, s' =>
      s' = s ∧ ∃ c, s = some c ∧ g.Lists (c.select d) ∧
        (g.embeddings = some ((c.select d).map Entry.embedding) ∨
          g.embeddings = none ∧ ¬ (raw.returnsEmbeddings ∧ withEmbeddings = true))
  | s, .collectionGet _ _, .error _, s' => s' = s
  | s, .collectionUpsert es, .ok _, s' => ∃ c, s = some c ∧ s' = some (c.upsertAll es)
  | s, .collectionUpsert es, .error _, s' =>
      s' = s ∨ ∃ c, s = some c ∧ s' = some (c.upsertAll es)
  | s, .collectionDelete deletion, .ok _, s' =>
      ∃ c, s = some c ∧ s' = some (c.keep fun e => !deletion.covers e)
  | s, .collectionDelete deletion, .error exc, s' =>
      (s = none ∧ s' = none) ∨
        ChromaDBAdapter.saysMissing lower exc = false ∧
          ∃ (c : Collection) (part : Entry → Bool), s = some c ∧
            s' = some (c.keep fun e => !deletion.covers e || part e)
  | s, .chat role messages, .ok answer, s' => s' = s ∧ raw.mayAnswer role messages answer
  | s, .chat _ _, .error _, s' => s' = s
  | s, .createEmbeddings texts, .ok embeddings, s' => s' = s ∧ raw.mayEmbed texts embeddings
  | s, .createEmbeddings _, .error _, s' => s' = s
  | s, .sleep _, _, s' => s' = s

/-! ## Attempts -/

section Attempts

variable {lower : String → String} {raw : RawPorts} {s s' : Option Collection} {α : Type}

theorem reaches_backoff {attempt : Nat}
    (h : Reaches (serverWorld lower raw) (backoff attempt) s s') : s' = s := by
  cases h with
  | stop => rfl
  | call hw h =>
    cases h
    exact hw

theorem contents_getOrCreate {r : ServerCall.Answer .getOrCreateCollection}
    (h : serverWorld lower raw s .getOrCreateCollection r s') : contents s' = contents s := by
  cases r with
  | ok u =>
    obtain rfl : s' = some (contents s) := h
    rfl
  | error exc =>
    rcases h.1 with h | h
    · rw [h]
    · rw [h, contents_some]

theorem reaches_withCollection {next : Attempt α}
    (h : Reaches (serverWorld lower raw) (ChromaDBAdapter.withCollection next) s s') :
    contents s' = contents s ∨ Reaches (serverWorld lower raw) next (some (contents s)) s' := by
  cases h with
  | stop => exact Or.inl rfl
  | @call _ _ _ s₁ _ r hw h =>
    cases r with
    | error exc =>
      cases h
      exact Or.inl (contents_getOrCreate hw)
    | ok u =>
      obtain rfl : s₁ = some (contents s) := hw
      exact Or.inr h

theorem runs_withCollection {next : Attempt α} {t : List (Event serverSignature)}
    {r : Except ClientException α}
    (h : Runs (serverWorld lower raw) (ChromaDBAdapter.withCollection next) s t r s') :
    (∃ exc, r = .error exc ∧ contents s' = contents s ∧
        (ChromaDBAdapter.saysMissing lower exc = true → s = none)) ∨
      ∃ t', Runs (serverWorld lower raw) next (some (contents s)) t' r s' := by
  obtain ⟨answer, s₁, t', hw, _, hrest⟩ := runs_call_iff.mp h
  cases answer with
  | error exc =>
    obtain ⟨_, rfl, rfl⟩ := runs_done_iff.mp hrest
    exact Or.inl ⟨exc, rfl, contents_getOrCreate hw, hw.2⟩
  | ok u =>
    obtain rfl : s₁ = some (contents s) := hw
    exact Or.inr ⟨t', hrest⟩

/-- A single request is stopped before it or after it. -/
theorem reaches_request {c : ServerCall}
    (h : Reaches (serverWorld lower raw) (request (S := serverSignature) c) s s') :
    s' = s ∨ ∃ r, serverWorld lower raw s c r s' := by
  cases h with
  | stop => exact Or.inl rfl
  | call hw h =>
    cases h
    exact Or.inr ⟨_, hw⟩

theorem runs_request {c : ServerCall} {t : List (Event serverSignature)}
    {r : ServerCall.Answer c}
    (h : Runs (serverWorld lower raw) (request (S := serverSignature) c) s t r s') :
    serverWorld lower raw s c r s' := by
  cases h with
  | call hw h =>
    obtain ⟨_, rfl, rfl⟩ := runs_done_iff.mp h
    exact hw

/-! ### What an attempt can leave -/

theorem reaches_get {d : Option String} {b : Bool}
    (h : Reaches (serverWorld lower raw) (ChromaDBAdapter._get d b) s s') :
    contents s' = contents s := by
  rcases reaches_withCollection h with h | h
  · exact h
  · rcases reaches_request h with h | ⟨r, hw⟩
    · rw [h, contents_some]
    · cases r with
      | ok g => rw [hw.1, contents_some]
      | error exc =>
        obtain rfl : s' = some (contents s) := hw
        rfl

theorem reaches_ingest {es : List Entry}
    (h : Reaches (serverWorld lower raw) (ChromaDBAdapter._ingest es) s s') :
    contents s' = contents s ∨ contents s' = (contents s).upsertAll es := by
  rcases reaches_withCollection h with h | h
  · exact Or.inl h
  · rcases reaches_request h with h | ⟨r, hw⟩
    · rw [h, contents_some]
      exact Or.inl rfl
    · cases r with
      | ok u =>
        obtain ⟨c, hc, rfl⟩ := hw
        cases hc
        exact Or.inr rfl
      | error exc =>
        rcases hw with rfl | ⟨c, hc, rfl⟩
        · exact Or.inl rfl
        · cases hc
          exact Or.inr rfl

/-- A deletion removes covered entries only. -/
theorem reaches_deletion {deletion : Deletion}
    (h : Reaches (serverWorld lower raw) (ChromaDBAdapter.withCollection
      (request (S := serverSignature) (.collectionDelete deletion))) s s') :
    ∃ part : Entry → Bool,
      contents s' = (contents s).keep fun e => !deletion.covers e || part e := by
  have hsame : contents s = (contents s).keep fun e => !deletion.covers e || true := by
    simp only [Bool.or_true, Collection.keep_true]
  rcases reaches_withCollection h with h | h
  · exact ⟨fun _ => true, h.trans hsame⟩
  · rcases reaches_request h with h | ⟨r, hw⟩
    · exact ⟨fun _ => true, (congrArg contents h).trans hsame⟩
    · cases r with
      | ok u =>
        obtain ⟨c, hc, rfl⟩ := hw
        cases hc
        refine ⟨fun _ => false, ?_⟩
        simp only [contents_some, Bool.or_false]
      | error exc =>
        rcases hw with ⟨hnone, _⟩ | ⟨_, c, part, hc, rfl⟩
        · cases hnone
        · cases hc
          exact ⟨part, rfl⟩

theorem reaches_deleteItems {deletion : Deletion}
    (h : Reaches (serverWorld lower raw) (ChromaDBAdapter._deleteItems lower deletion) s s') :
    ∃ part : Entry → Bool,
      contents s' = (contents s).keep fun e => !deletion.covers e || part e := by
  rcases reaches_bind_iff.mp h with h | h
  · exact reaches_deletion h
  · obtain ⟨r, s₁, t, hrun, h⟩ := h
    cases h
    exact reaches_deletion hrun.reaches

/-! ### What a successful attempt leaves -/

theorem runs_get_ok {d : Option String} {b : Bool} {t : List (Event serverSignature)}
    {g : GetResult} (h : Runs (serverWorld lower raw) (ChromaDBAdapter._get d b) s t (.ok g) s') :
    portWorld raw.ports (contents s) (.get d b) (.ok g) (contents s') := by
  rcases runs_withCollection h with ⟨_, hexc, _⟩ | ⟨t', h⟩
  · cases hexc
  · obtain ⟨rfl, c, hc, hlists, hembeddings⟩ := runs_request h
    cases hc
    exact ⟨rfl, hlists, hembeddings⟩

theorem runs_ingest_ok {es : List Entry} {t : List (Event serverSignature)}
    (h : Runs (serverWorld lower raw) (ChromaDBAdapter._ingest es) s t (.ok ()) s') :
    contents s' = (contents s).upsertAll es := by
  rcases runs_withCollection h with ⟨_, hexc, _⟩ | ⟨t', h⟩
  · cases hexc
  · obtain ⟨c, hc, rfl⟩ := runs_request h
    cases hc
    rfl

/-- A deletion that was told that there is nothing left the empty collection as
it was. -/
theorem runs_deleteItems_ok {deletion : Deletion} {t : List (Event serverSignature)}
    (h : Runs (serverWorld lower raw) (ChromaDBAdapter._deleteItems lower deletion) s t (.ok ())
      s') : contents s' = (contents s).keep fun e => !deletion.covers e := by
  obtain ⟨r, s₁, t₁, t₂, _, hrun, hdone⟩ := runs_bind_iff.mp h
  obtain ⟨_, hr, rfl⟩ := runs_done_iff.mp hdone
  cases r with
  | ok u =>
    rcases runs_withCollection hrun with ⟨_, hexc, _⟩ | ⟨t', hrun⟩
    · cases hexc
    · obtain ⟨c, hc, rfl⟩ := runs_request hrun
      cases hc
      rfl
  | error exc =>
    have hmissing : ChromaDBAdapter.saysMissing lower exc = true := by
      by_contra hne
      simp [ChromaDBAdapter.ignoreMissing, hne] at hr
    rcases runs_withCollection hrun with ⟨_, hexc, hsame, hnone⟩ | ⟨t', hrun⟩
    · cases hexc
      rw [hsame, hnone hmissing]
      rfl
    · rcases runs_request hrun with ⟨hnone, _⟩ | ⟨hexc, _⟩
      · cases hnone
      · rw [hmissing] at hexc
        cases hexc

end Attempts

/-! ## Port calls -/

section Ports

variable {lower : String → String} {raw : RawPorts} {s s' : Option Collection} {α : Type}

theorem keep_backoff {I : Option Collection → Prop} (k : Nat) (s s' : Option Collection) (hs : I s)
    (h : Reaches (serverWorld lower raw) (backoff k) s s') : I s' :=
  reaches_backoff h ▸ hs

theorem reaches_asText {p : Attempt α}
    (h : Reaches (serverWorld lower raw) (p.bind fun r => done (asText r)) s s') :
    Reaches (serverWorld lower raw) p s s' := by
  rcases reaches_bind_iff.mp h with h | h
  · exact h
  · obtain ⟨r, s₁, t, hrun, h⟩ := h
    cases h
    exact hrun.reaches

theorem runs_asText_ok {p : Attempt α} {t : List (Event serverSignature)} {a : α}
    (h : Runs (serverWorld lower raw) (p.bind fun r => done (asText r)) s t (.ok a) s') :
    ∃ t', Runs (serverWorld lower raw) p s t' (.ok a) s' := by
  obtain ⟨r, s₁, t₁, t₂, _, hrun, hdone⟩ := runs_bind_iff.mp h
  obtain ⟨_, hr, rfl⟩ := runs_done_iff.mp hdone
  cases r with
  | ok b =>
    cases hr
    exact ⟨t₁, hrun⟩
  | error exc => cases hr

/-! ### Retried reads -/

theorem get_keeps {d : Option String} {b : Bool} {c : Collection} (s s' : Option Collection)
    (hs : contents s = c) (h : Reaches (serverWorld lower raw) (ChromaDBAdapter._get d b) s s') :
    contents s' = c :=
  (reaches_get h).trans hs

theorem chat_keeps {role : LlmRole} {messages : List LangchainMessage} {c : Option Collection}
    (s s' : Option Collection) (hs : s = c)
    (h : Reaches (serverWorld lower raw)
      (request (S := serverSignature) (.chat role messages)) s s') : s' = c := by
  rcases reaches_request h with h | ⟨r, hw⟩
  · exact h.trans hs
  · cases r with
    | ok answer => exact hw.1.trans hs
    | error exc => exact Eq.trans hw hs

theorem createEmbeddings_keeps {texts : List String} {c : Option Collection}
    (s s' : Option Collection) (hs : s = c)
    (h : Reaches (serverWorld lower raw)
      (request (S := serverSignature) (.createEmbeddings texts)) s s') : s' = c := by
  rcases reaches_request h with h | ⟨r, hw⟩
  · exact h.trans hs
  · cases r with
    | ok embeddings => exact hw.1.trans hs
    | error exc => exact Eq.trans hw hs

/-! ### Retried writes -/

/-- The collection is `c`, perhaps with the entries already written. -/
def Written (c : Collection) (es : List Entry) (s : Option Collection) : Prop :=
  contents s = c ∨ contents s = c.upsertAll es

theorem Written.upsertAll {c : Collection} {es : List Entry} (h : Written c es s) :
    (contents s).upsertAll es = c.upsertAll es := by
  rcases h with h | h
  · rw [h]
  · rw [h, Collection.upsertAll_upsertAll]

theorem ingest_keeps {c : Collection} {es : List Entry} (s s' : Option Collection)
    (hs : Written c es s)
    (h : Reaches (serverWorld lower raw) (ChromaDBAdapter._ingest es) s s') :
    Written c es s' := by
  rcases reaches_ingest h with h | h
  · rcases hs with hs | hs
    · exact Or.inl (h.trans hs)
    · exact Or.inr (h.trans hs)
  · exact Or.inr (h.trans hs.upsertAll)

/-- The collection is `c` without some of the covered entries. -/
def PartlyDeleted (c : Collection) (deletion : Deletion) (s : Option Collection) : Prop :=
  ∃ part : Entry → Bool, contents s = c.keep fun e => !deletion.covers e || part e

theorem partlyDeleted_refl (deletion : Deletion) (s : Option Collection) :
    PartlyDeleted (contents s) deletion s := by
  refine ⟨fun _ => true, ?_⟩
  simp only [Bool.or_true, Collection.keep_true]

theorem PartlyDeleted.keep {c : Collection} {deletion : Deletion}
    (h : PartlyDeleted c deletion s) :
    ((contents s).keep fun e => !deletion.covers e) = c.keep fun e => !deletion.covers e := by
  obtain ⟨part, h⟩ := h
  rw [h, Collection.keep_keep]
  refine congrArg c.keep (funext fun e => ?_)
  cases deletion.covers e <;> simp

theorem deleteItems_keeps {c : Collection} {deletion : Deletion} (s s' : Option Collection)
    (hs : PartlyDeleted c deletion s)
    (h : Reaches (serverWorld lower raw) (ChromaDBAdapter._deleteItems lower deletion) s s') :
    PartlyDeleted c deletion s' := by
  obtain ⟨part, hs⟩ := hs
  obtain ⟨part', h⟩ := reaches_deleteItems h
  refine ⟨fun e => part e && part' e, ?_⟩
  rw [h, hs, Collection.keep_keep]
  refine congrArg c.keep (funext fun e => ?_)
  cases deletion.covers e <;> simp

theorem covers_ids (c : Collection) (ids : List String) (part : Entry → Bool) :
    (c.keep fun e => !(Deletion.ids ids).covers e || part e) =
      c.keep fun e => e.id ∉ ids || part e := by
  simp only [Deletion.covers, decide_not]

theorem covers_document (c : Collection) (d : String) (part : Entry → Bool) :
    (c.keep fun e => !(Deletion.document d).covers e || part e) =
      c.keep fun e => e.docId ≠ some d || part e := by
  simp only [Deletion.covers, ne_eq, decide_not]

end Ports

/-! ## The refinement -/

section Refinement

variable {lower : String → String} {timeout : String} {raw : RawPorts}
  {s s' : Option Collection}

/-- The answer of a port call that raised. -/
def failed (exc : String) : (c : IngestCall) → c.Answer
  | .get _ _ => Except.error (α := GetResult) exc
  | .ingest _ => Except.error (α := Unit) exc
  | .deleteIds _ => Except.error (α := Unit) exc
  | .deleteWhere _ => Except.error (α := Unit) exc
  | .invoke _ _ => Except.error (α := String) exc
  | .embed _ => Except.error (α := List Embedding) exc

/-- Wherever the adapter code of a call is stopped, it has done what the failing
call may have done. -/
theorem adapters_stopped (c : IngestCall)
    (h : Reaches (serverWorld lower raw) (adapters lower timeout c) s s') (exc : String) :
    portWorld raw.ports (contents s) c (failed exc c) (contents s') := by
  cases c with
  | get d b =>
    show contents s' = contents s
    exact Reaches.retry (I := fun s' => contents s' = contents s) get_keeps keep_backoff
      (reaches_asText h) rfl
  | ingest es =>
    have hwritten : Written (contents s) es s' :=
      Reaches.retry ingest_keeps keep_backoff (reaches_asText h) (Or.inl rfl)
    rcases hwritten with hs' | hs'
    · exact ⟨[], List.nil_sublist es, hs'⟩
    · exact ⟨es, List.Sublist.refl es, hs'⟩
  | deleteIds ids =>
    obtain ⟨part, hs'⟩ : PartlyDeleted (contents s) (.ids ids) s' :=
      Reaches.retry deleteItems_keeps keep_backoff (reaches_asText h) (partlyDeleted_refl _ s)
    exact ⟨part, hs'.trans (covers_ids ..)⟩
  | deleteWhere d =>
    obtain ⟨part, hs'⟩ : PartlyDeleted (contents s) (.document d) s' :=
      Reaches.retry deleteItems_keeps keep_backoff (reaches_asText h) (partlyDeleted_refl _ s)
    exact ⟨part, hs'.trans (covers_document ..)⟩
  | invoke role messages =>
    have hs' : s' = s := Reaches.retry (I := fun s' => s' = s) chat_keeps keep_backoff
      (reaches_asText h) rfl
    exact congrArg contents hs'
  | embed texts =>
    have hs' : s' = s := Reaches.retry (I := fun s' => s' = s) createEmbeddings_keeps keep_backoff
      (reaches_asText h) rfl
    exact congrArg contents hs'

/-- A run of the adapter code of a call does what the call may do. -/
theorem adapters_completed (c : IngestCall) {t : List (Event serverSignature)} {r : c.Answer}
    (h : Runs (serverWorld lower raw) (adapters lower timeout c) s t r s') :
    portWorld raw.ports (contents s) c r (contents s') := by
  have hn : 0 < MAX_RETRIES := by decide
  have hstopped := adapters_stopped c h.reaches
  cases c with
  | get d b =>
    cases r with
    | error exc => exact hstopped exc
    | ok g =>
      obtain ⟨t, h⟩ := runs_asText_ok h
      obtain ⟨s₁, t₁, hs₁, hrun⟩ :=
        Runs.of_retry (I := fun s' => contents s' = contents s) get_keeps keep_backoff hn h rfl
      exact hs₁ ▸ runs_get_ok hrun
  | ingest es =>
    cases r with
    | error exc => exact hstopped exc
    | ok u =>
      obtain ⟨t, h⟩ := runs_asText_ok h
      obtain ⟨s₁, t₁, hs₁, hrun⟩ := Runs.of_retry (I := Written (contents s) es) ingest_keeps
        keep_backoff hn h (Or.inl rfl)
      exact (runs_ingest_ok hrun).trans hs₁.upsertAll
  | deleteIds ids =>
    cases r with
    | error exc => exact hstopped exc
    | ok u =>
      obtain ⟨t, h⟩ := runs_asText_ok h
      obtain ⟨s₁, t₁, hs₁, hrun⟩ := Runs.of_retry (I := PartlyDeleted (contents s) (.ids ids))
        deleteItems_keeps keep_backoff hn h (partlyDeleted_refl _ s)
      refine ((runs_deleteItems_ok hrun).trans hs₁.keep).trans ?_
      simpa using covers_ids (contents s) ids fun _ => false
  | deleteWhere d =>
    cases r with
    | error exc => exact hstopped exc
    | ok u =>
      obtain ⟨t, h⟩ := runs_asText_ok h
      obtain ⟨s₁, t₁, hs₁, hrun⟩ := Runs.of_retry (I := PartlyDeleted (contents s) (.document d))
        deleteItems_keeps keep_backoff hn h (partlyDeleted_refl _ s)
      refine ((runs_deleteItems_ok hrun).trans hs₁.keep).trans ?_
      simpa using covers_document (contents s) d fun _ => false
  | invoke role messages =>
    cases r with
    | error exc => exact hstopped exc
    | ok answer =>
      obtain ⟨t, h⟩ := runs_asText_ok h
      obtain ⟨s₁, t₁, rfl, hrun⟩ :=
        Runs.of_retry (I := fun s' => s' = s) chat_keeps keep_backoff hn h rfl
      obtain ⟨rfl, hanswer⟩ := runs_request hrun
      exact ⟨rfl, hanswer⟩
  | embed texts =>
    cases r with
    | error exc => exact hstopped exc
    | ok embeddings =>
      obtain ⟨t, h⟩ := runs_asText_ok h
      obtain ⟨s₁, t₁, rfl, hrun⟩ :=
        Runs.of_retry (I := fun s' => s' = s) createEmbeddings_keeps keep_backoff hn h rfl
      obtain ⟨rfl, hembeddings⟩ := runs_request hrun
      exact ⟨rfl, hembeddings⟩

/-- The adapters do what the ports of the pipeline may do. -/
theorem adapters_implement :
    Implements (serverWorld lower raw) (adapters lower timeout) (portWorld raw.ports) contents where
  completed c _ _ _ _ h := adapters_completed c h
  stopped c _ _ h := ⟨failed "" c, adapters_stopped c h ""⟩

end Refinement

/-! ## Histories -/

/-- The server states that a history of runs through the adapters can leave.
Each run may be stopped at any point, also between two attempts. -/
inductive ServerReachable (host : Host) (lower : String → String) (timeout : String)
    (raw : RawPorts) : List IngestRun → Option Collection → Prop
  | empty : ServerReachable host lower timeout raw [] none
  | run {runs : List IngestRun} {s s' : Option Collection} (r : IngestRun) :
      ServerReachable host lower timeout raw runs s →
      Reaches (serverWorld lower raw) ((r.program host).expand (adapters lower timeout)) s s' →
      ServerReachable host lower timeout raw (r :: runs) s'
  | cleanup {runs : List IngestRun} {s s' : Option Collection} :
      ServerReachable host lower timeout raw runs s →
      Reaches (serverWorld lower raw) (IngestPipeline.cleanup.expand (adapters lower timeout))
        s s' →
      ServerReachable host lower timeout raw runs s'

/-- The pipeline through its adapters does what the pipeline at its ports does:
every server state that a history leaves holds a collection that such a history
leaves at the ports, and every run has the result of a run at the ports. -/
theorem adapters_refine_ports {host : Host} {lower : String → String} {timeout : String}
    {raw : RawPorts} {runs : List IngestRun} {s : Option Collection}
    (h : ServerReachable host lower timeout raw runs s) :
    Reachable host raw.ports runs (contents s) ∧
      ∀ (r : IngestRun) (t : List (Event serverSignature)) (result : IngestResult)
        (s' : Option Collection),
        Runs (serverWorld lower raw) ((r.program host).expand (adapters lower timeout)) s t result
          s' → ∃ u, Runs (portWorld raw.ports) (r.program host) (contents s) u result
            (contents s') := by
  constructor
  · induction h with
    | empty => exact .empty
    | run r _ hreach ih => exact .run r ih (adapters_implement.reaches hreach)
    | cleanup _ hreach ih => exact .cleanup ih (adapters_implement.reaches hreach)
  · intro r t result s' hrun
    exact adapters_implement.runs hrun

/-- A server that loses the response to every write that changes something. -/
def lossyServer : Script serverSignature (Option Collection)
  | s, .getOrCreateCollection => (.ok (), some (contents s))
  | none, .collectionGet _ _ | none, .collectionUpsert _ | none, .collectionDelete _ =>
    (.error { text := "no collection" }, none)
  | some c, .collectionGet d b => (.ok (listing (c.select d) b), some c)
  | some c, .collectionUpsert es =>
    (if es.all (· ∈ c.entries) then .ok () else .error { text := "connection reset" },
      some (c.upsertAll es))
  | some c, .collectionDelete deletion =>
    (.ok (), some (c.keep fun e => !deletion.covers e))
  | s, .chat _ _ => (.ok "ok", s)
  | s, .createEmbeddings texts => (.ok (texts.map fun _ => [1]), s)
  | s, .sleep _ => ((), s)

def lenientPorts : RawPorts := ⟨fun _ _ _ => True, fun _ _ => True, False⟩

/-- A write that was carried out may have any answer. -/
theorem serverWorld_upsert (c : Collection) (es : List Entry)
    (r : ServerCall.Answer (.collectionUpsert es)) :
    serverWorld asciiLower lenientPorts (some c) (.collectionUpsert es) r
      (some (c.upsertAll es)) := by
  cases r with
  | ok u => exact ⟨c, rfl, rfl⟩
  | error exc => exact Or.inr ⟨c, rfl, rfl⟩

theorem lossyServer_serverWorld (s : Option Collection) (c : ServerCall) :
    serverWorld asciiLower lenientPorts s c (lossyServer s c).1 (lossyServer s c).2 := by
  cases c with
  | getOrCreateCollection => rfl
  | collectionGet d b =>
    cases s with
    | none => rfl
    | some c =>
      refine ⟨rfl, c, rfl, ⟨rfl, rfl⟩, ?_⟩
      cases b with
      | true => exact Or.inl rfl
      | false => exact Or.inr ⟨rfl, fun h => h.1⟩
  | collectionUpsert es =>
    cases s with
    | none => exact Or.inl rfl
    | some c => exact serverWorld_upsert c es _
  | collectionDelete deletion =>
    cases s with
    | none => exact Or.inl ⟨rfl, rfl⟩
    | some c => exact ⟨c, rfl, rfl⟩
  | chat role messages => exact ⟨rfl, trivial⟩
  | createEmbeddings texts => exact ⟨rfl, trivial⟩
  | sleep seconds => rfl

/-- A run over one page on that server. -/
def lossyRun : IngestResult × List (Event serverSignature) × Option Collection :=
  (((pageRun [page "a" "red"]).program pageHost).expand (adapters asciiLower "120.0")).eval
    lossyServer none

theorem adapters_refine_ports_lossy :
    Reachable pageHost .any [pageRun [page "a" "red"]] (contents lossyRun.2.2) :=
  (adapters_refine_ports (.run _ .empty
    (eval_runs lossyServer_serverWorld _ none).reaches)).1

end VirtualContributor.Adapters
