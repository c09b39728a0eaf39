import VirtualContributor.Messaging.Delivery
import VirtualContributor.Plugins.Space
import VirtualContributor.Plugins.Website

/-!
# Results of early acknowledged events

An ingest event is acknowledged before its pipeline runs, so its result is all
that the server gets to see of it.  `correlation_iff` says when the published
results can be told to belong to the event.
-/

namespace VirtualContributor.Plugins

open Lib Program Messaging Pipeline Web

variable {Input : Type}

/-! ## Identification -/

/-- The result carries the identifying fields of the event. -/
def Identifies : InboundEvent Input → PluginResult → Prop
  | .website event, .website result =>
      result.type = event.type ∧ result.purpose = event.purpose ∧
        result.personaId = event.personaId
  | .space event, .space result =>
      result.bodyOfKnowledgeId = event.bodyOfKnowledgeId ∧ result.type = event.type ∧
        result.purpose = event.purpose ∧ result.personaId = event.personaId
  | _, _ => False

/-- The results that the ingest plugins can return for an event, whatever the
answers to their calls. -/
inductive Returns : InboundEvent Input → PluginResult → Prop
  | website {σ : Type} {W : World siteSignature σ} {L : SiteLib} {host : Host}
      {plugin : IngestWebsitePlugin} {timestamp : Int} {event : IngestWebsite} {s s' : σ}
      {t : List (Event siteSignature)} {result : IngestWebsiteResult} :
      Runs W (plugin.handle L host timestamp event) s t result s' →
      Returns (.website event) (.website result)
  | space {σ : Type} {W : World spaceSignature σ} {host : Host} {plugin : IngestSpacePlugin}
      {timestamp : Int} {event : IngestBodyOfKnowledge} {s s' : σ}
      {t : List (Event spaceSignature)} {result : IngestBodyOfKnowledgeResult} :
      Runs W (plugin.handle host timestamp event) s t result s' →
      Returns (.space event) (.space result)

/-- On every path the plugins identify the event. -/
theorem Returns.identifies {event : InboundEvent Input} {result : PluginResult}
    (h : Returns event result) : Identifies event result := by
  cases h with
  | @website σ W L host plugin timestamp event s s' t result hrun =>
    suffices hresult : ∃ r text, result = websiteResult event timestamp r text by
      obtain ⟨r, text, rfl⟩ := hresult
      exact ⟨rfl, rfl, rfl⟩
    unfold IngestWebsitePlugin.handle at hrun
    cases hparsed : L.urlparse event.baseUrl with
    | error text =>
      rw [hparsed] at hrun
      obtain ⟨-, rfl, -⟩ := runs_done_iff.mp hrun
      exact ⟨_, _, rfl⟩
    | ok parsed =>
      rw [hparsed] at hrun
      obtain ⟨res, s₁, t₁, t₂, rfl, _, hrest⟩ := runs_bind_iff.mp hrun
      cases res with
      | error exc =>
        obtain ⟨-, rfl, -⟩ := runs_done_iff.mp hrest
        exact ⟨_, _, rfl⟩
      | ok pages =>
        obtain ⟨ingested, s₂, t₃, t₄, rfl, _, hdone⟩ := runs_bind_iff.mp hrest
        obtain ⟨-, rfl, -⟩ := runs_done_iff.mp hdone
        exact ⟨_, _, rfl⟩
  | @space σ W host plugin timestamp event s s' t result hrun =>
    suffices hresult : ∃ r error, result = spaceResult event timestamp r error by
      obtain ⟨r, error, rfl⟩ := hresult
      exact ⟨rfl, rfl, rfl, rfl⟩
    unfold IngestSpacePlugin.handle at hrun
    split at hrun
    · obtain ⟨res, s₁, t₁, t₂, rfl, _, hrest⟩ := runs_bind_iff.mp hrun
      cases res with
      | error exc =>
        obtain ⟨-, rfl, -⟩ := runs_done_iff.mp hrest
        exact ⟨_, _, rfl⟩
      | ok documents =>
        obtain ⟨ingested, s₂, t₃, t₄, rfl, _, hdone⟩ := runs_bind_iff.mp hrest
        obtain ⟨-, rfl, -⟩ := runs_done_iff.mp hdone
        exact ⟨_, _, rfl⟩
    · obtain ⟨-, rfl, -⟩ := runs_done_iff.mp hrun
      exact ⟨_, _, rfl⟩

/-! ## The pipeline task -/

/-- The world of an early acknowledged event: the plugin returns what an
ingest plugin can return, or raises, and the broker does anything. -/
def earlyAckWorld : World (handlerSignature Input) Unit
  | _, .handle event, .ok result, _ => Returns event result
  | _, _, _, _ => True

/-- Whether the attempts to publish went through, in order. -/
def attempts (t : Trace Input) : List Bool :=
  t.filterMap fun
    | ⟨.publish _, .ok _⟩ => some true
    | ⟨.publish _, .error _⟩ => some false
    | _ => none

/-- Whether the plugin returned a result. -/
def pluginReturned : Event (handlerSignature Input) → Bool
  | ⟨.handle _, .ok _⟩ => true
  | _ => false

/-- What the server can rely on: at most one result, one unless every attempt
to publish failed, and results that identify the event. -/
structure Correlated (event : InboundEvent Input) (t : Trace Input) : Prop where
  once : (t.filterMap published).length ≤ 1
  answered : (t.filterMap published).length = 1 ∨
    attempts t ≠ [] ∧ ∀ succeeded ∈ attempts t, succeeded = false
  identified : ∀ envelope ∈ t.filterMap published, Identifies event envelope.response

/-- The three kinds of runs of the task: the plugin's result is published, or
the plugin or that publication fails and there is one attempt to publish a
generic error. -/
theorem runPipeline_spec {event : InboundEvent Input} {t : Trace Input} {s s' u : Unit}
    (hrun : Runs earlyAckWorld (runPipeline event) s t u s') :
    (∃ result envelope v, Returns event result ∧ envelope.response = result ∧
      t = [⟨.handle event, .ok result⟩, ⟨.publish envelope, .ok v⟩]) ∨
    ∃ envelope r, envelope.response = .response { result := some GENERIC_PIPELINE_ERROR } ∧
      ((∃ exc, t = [⟨.handle event, .error exc⟩, ⟨.publish envelope, r⟩]) ∨
        ∃ result own exc, t = [⟨.handle event, .ok result⟩, ⟨.publish own, .error exc⟩,
          ⟨.publish envelope, r⟩]) := by
  obtain ⟨res, s₁, t₁, t₂, rfl, hanswer, hrest⟩ := runs_bind_iff.mp hrun
  have fallback {exc : Exc} (hres : res = .error exc) : ∃ envelope r,
      envelope.response = .response { result := some GENERIC_PIPELINE_ERROR } ∧
        t₂ = [⟨.publish envelope, r⟩] := by
    subst hres
    obtain ⟨b, s₂, t₃, t₄, rfl, hpublish, hdone⟩ := runs_bind_iff.mp hrest
    obtain ⟨rfl, -, -⟩ := runs_done_iff.mp hdone
    obtain ⟨r, s₃, t₅, _, rfl, hlast⟩ := runs_call_iff.mp hpublish
    refine ⟨_, r, rfl, ?_⟩
    cases r with
    | ok v =>
      obtain ⟨rfl, -, -⟩ := runs_done_iff.mp hlast
      rfl
    | error exc =>
      obtain ⟨rfl, -, -⟩ := runs_done_iff.mp hlast
      rfl
  obtain ⟨r, s₂, t₃, hw, rfl, hbuild⟩ := runs_call_iff.mp hanswer
  cases r with
  | error exc =>
    obtain ⟨rfl, rfl, -⟩ := runs_done_iff.mp hbuild
    obtain ⟨envelope, r, henvelope, rfl⟩ := fallback rfl
    exact Or.inr ⟨envelope, r, henvelope, Or.inl ⟨exc, rfl⟩⟩
  | ok result =>
    have hreturns : Returns event result := hw
    have hbuilt : ∃ envelope, envelope.response = result ∧
        Router.buildResponseEnvelope result event = .ok envelope := by
      cases hreturns <;> exact ⟨_, rfl, rfl⟩
    obtain ⟨envelope, hresponse, henvelope⟩ := hbuilt
    dsimp only [Program.bind] at hbuild
    rw [henvelope] at hbuild
    obtain ⟨r, s₃, t₄, _, rfl, hdone⟩ := runs_call_iff.mp hbuild
    obtain ⟨rfl, rfl, -⟩ := runs_done_iff.mp hdone
    cases res with
    | ok v =>
      obtain ⟨rfl, -, -⟩ := runs_done_iff.mp hrest
      exact Or.inl ⟨result, envelope, v, hreturns, hresponse, rfl⟩
    | error exc =>
      obtain ⟨envelope', r, henvelope', rfl⟩ := fallback rfl
      exact Or.inr ⟨envelope', r, henvelope', Or.inr ⟨result, envelope, exc, rfl⟩⟩

/-- A generic error response identifies no event. -/
theorem not_identifies_response (event : InboundEvent Input) (response : Messaging.Response) :
    ¬ Identifies event (.response response) := by
  cases event <;> exact id

/-- The results are correlated exactly when the plugin's own result is
published at the first attempt, or the error response is not published. -/
theorem correlation_iff {event : InboundEvent Input} {t : Trace Input} {s s' u : Unit}
    (hrun : Runs earlyAckWorld (runPipeline event) s t u s') :
    Correlated event t ↔
      (t.any pluginReturned = true ∧ (attempts t).head? = some true) ∨
        (attempts t).getLast? = some false := by
  rcases runPipeline_spec hrun with ⟨result, envelope, v, hreturns, rfl, rfl⟩ |
    ⟨envelope, r, henvelope, hshape⟩
  · refine ⟨fun _ => Or.inl ⟨rfl, rfl⟩, fun _ => ⟨le_rfl, Or.inl rfl, fun e he => ?_⟩⟩
    obtain rfl := List.mem_singleton.mp he
    exact hreturns.identifies
  · cases r with
    | ok v =>
      -- the error response was published
      have hunidentified : ¬ Correlated event t := by
        intro hcorrelated
        refine not_identifies_response event _ (henvelope ▸ hcorrelated.identified envelope ?_)
        rcases hshape with ⟨exc, rfl⟩ | ⟨result, own, exc, rfl⟩ <;>
          exact List.mem_singleton_self _
      refine ⟨fun hcorrelated => absurd hcorrelated hunidentified, fun h => ?_⟩
      rcases hshape with ⟨exc, rfl⟩ | ⟨result, own, exc, rfl⟩ <;>
        exact absurd h (by simp [attempts, pluginReturned])
    | error exc' =>
      refine ⟨fun _ => Or.inr ?_, fun _ => ?_⟩
      · rcases hshape with ⟨exc, rfl⟩ | ⟨result, own, exc, rfl⟩ <;> rfl
      · rcases hshape with ⟨exc, rfl⟩ | ⟨result, own, exc, rfl⟩
        · exact ⟨Nat.zero_le 1, Or.inr ⟨by simp [attempts], by simp [attempts]⟩,
            by simp [published]⟩
        · exact ⟨Nat.zero_le 1, Or.inr ⟨by simp [attempts], by simp [attempts]⟩,
            by simp [published]⟩

/-! ## A space event -/

def spaceEvent : IngestBodyOfKnowledge where
  bodyOfKnowledgeId := "bok"
  type := "alkemio-space"
  purpose := "knowledge"
  personaId := "p"

/-- A space plugin without a client, which returns a failure or raises, and a
broker that takes everything. -/
def spaceScript (raises : Bool) : Script (handlerSignature Unit) Unit
  | _, .handle (.space event) =>
    (if raises then .error { typeName := "RuntimeError" }
      else .ok (.space (spaceFailure event 0 "GraphQL client not configured")), ())
  | _, .handle _ => (.error { typeName := "AttributeError" }, ())
  | _, .publish _ => (.ok (), ())
  | _, .republish _ _ => (.ok (), ())
  | _, .ack => (.ok (), ())
  | _, .reject => (.ok (), ())
  | _, .schedule _ => ((), ())

/-- The calls of the task of the event. -/
def spaceTrace (raises : Bool) : Trace Unit :=
  ((runPipeline (.space spaceEvent)).eval (spaceScript raises) ()).2.1

theorem spaceTrace_runs (raises : Bool) :
    Runs earlyAckWorld (runPipeline (.space spaceEvent)) () (spaceTrace raises) () () := by
  refine eval_runs (fun s c => ?_) _ ()
  have hreturns (event : IngestBodyOfKnowledge) :
      Returns (.space event : InboundEvent Unit)
        (.space (spaceFailure event 0 "GraphQL client not configured")) := by
    have hrun : Runs (fun _ _ _ _ => True) (IngestSpacePlugin.handle (.ofTable [] isHexDigest_of_mem_nil)
        { hasGraphqlClient := false } 0 event) () []
        (spaceFailure event 0 "GraphQL client not configured") () := .done _ _
    exact .space hrun
  cases c with
  | handle event =>
    cases event with
    | space event =>
      cases raises with
      | true => exact trivial
      | false => exact hreturns event
    | _ => exact trivial
  | _ => exact trivial

/-- A result that the plugin returned is correlated. -/
theorem correlation_iff_space :
    Correlated (.space spaceEvent) (spaceTrace false) ↔
      ((spaceTrace false).any pluginReturned = true ∧
        (attempts (spaceTrace false)).head? = some true) ∨
        (attempts (spaceTrace false)).getLast? = some false :=
  correlation_iff (spaceTrace_runs false)

/-- The result published for a plugin that raised does not identify the
event. -/
theorem uncorrelated_space :
    ∃ t : Trace Unit, Runs earlyAckWorld (runPipeline (.space spaceEvent)) () t () () ∧
      ∃ envelope ∈ t.filterMap published,
        ¬ Identifies (.space spaceEvent : InboundEvent Unit) envelope.response := by
  refine ⟨_, spaceTrace_runs true, _, List.mem_singleton_self _, ?_⟩
  exact not_identifies_response _ _

end VirtualContributor.Plugins
