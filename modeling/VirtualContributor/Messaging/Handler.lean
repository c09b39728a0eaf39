import VirtualContributor.Lib.Json
import VirtualContributor.Lib.PythonText
import VirtualContributor.Lib.RelyGuarantee
import VirtualContributor.Messaging.Events
import VirtualContributor.Web.Exception

/-!
# The message handler

`core/router.py` and the handler that `build_message_handler` of `main.py`
builds, with the containment boundary of `consume_with_message` around it.

The handler talks to the plugin, to the broker and to the scheduler of early
acknowledged events.  The answer of `handle` is that of the plugin under its
timeout.  Tracing and logging are left out: they do not raise and decide
nothing.
-/

namespace VirtualContributor.Messaging

open Lib Program

/-! ## Events and envelopes -/

/-- A parsed message. -/
inductive InboundEvent (Input : Type) where
  | query (input : Input)
  | website (event : IngestWebsite)
  | space (event : IngestBodyOfKnowledge)

/-- The ingest event types use early acknowledgement. -/
def InboundEvent.isIngest {Input : Type} : InboundEvent Input → Bool
  | query _ => false
  | website _ => true
  | space _ => true

/-- What a plugin returns: one of the result models, or a value that is none. -/
inductive PluginResult where
  | response (result : Response)
  | website (result : IngestWebsiteResult)
  | space (result : IngestBodyOfKnowledgeResult)
  | notAModel

/-- The published payload: the result and, for a query, the original event. -/
structure Envelope (Input : Type) where
  response : PluginResult
  original : Option Input

/-! ## The router -/

/-- A required string field, by its wire key or its name. -/
def stringField (body : Json) (key name : String) : Option String :=
  match (body.get? key).or (body.get? name) with
  | some (.str value) => some value
  | _ => none

/-- `IngestWebsite.model_validate`. -/
def IngestWebsite.modelValidate (body : Json) : Option IngestWebsite := do
  let baseUrl ← stringField body "baseUrl" "base_url"
  let type ← stringField body "type" "type"
  let purpose ← stringField body "purpose" "purpose"
  let personaId ← stringField body "personaId" "persona_id"
  match (body.get? "summarizationModel").or (body.get? "summarization_model") with
  | none => return { baseUrl, type, purpose, personaId }
  | some (.str model) => return { baseUrl, type, purpose, personaId, summarizationModel := model }
  | some _ => none

/-- `IngestBodyOfKnowledge.model_validate`. -/
def IngestBodyOfKnowledge.modelValidate (body : Json) : Option IngestBodyOfKnowledge := do
  let bodyOfKnowledgeId ← stringField body "bodyOfKnowledgeId" "body_of_knowledge_id"
  let type ← stringField body "type" "type"
  let purpose ← stringField body "purpose" "purpose"
  let personaId ← stringField body "personaId" "persona_id"
  return { bodyOfKnowledgeId, type, purpose, personaId }

/-- The router of one plugin type.  `inputValidate` is `Input.model_validate`. -/
structure Router (Input : Type) where
  pluginType : String
  inputValidate : Json → Option Input

namespace Router

variable {Input : Type}

/-- Parse a raw message body; `none` is a `RouterError`. -/
def parseEvent (router : Router Input) (body : Json) : Option (InboundEvent Input) :=
  if router.pluginType = "ingest-space" then
    (IngestBodyOfKnowledge.modelValidate body).map .space
  else
    match body.get? "eventType" with
    | some (.str "IngestWebsite") => (IngestWebsite.modelValidate body).map .website
    | _ =>
      match body.get? "input" with
      | none => none
      | some .null => none
      | some input => (router.inputValidate input).map .query

/-- Wrap a response in the published envelope format. -/
def buildResponseEnvelope (response : PluginResult) (event : InboundEvent Input) :
    Except Exc (Envelope Input) :=
  match response with
  | .notAModel => .error { typeName := "AttributeError" }
  | response => .ok
      { response := response
        original := match event with
          | .query input => some input
          | _ => none }

end Router

/-! ## Calls of the handler -/

/-- The headers of a message. -/
structure Headers where
  retryCount : Option Int := none
  others : List (String × String) := []

inductive HandlerCall (Input : Type) where
  | handle (event : InboundEvent Input)
  | publish (envelope : Envelope Input)
  | republish (body : Json) (headers : Headers)
  | ack
  | reject
  | schedule (event : InboundEvent Input)

def HandlerCall.Answer {Input : Type} : HandlerCall Input → Type
  | handle _ => Except Exc PluginResult
  | publish _ | republish _ _ | ack | reject => Except Exc Unit
  | schedule _ => Unit

abbrev handlerSignature (Input : Type) : Signature where
  Call := HandlerCall Input
  Answer := HandlerCall.Answer

/-- Programs of the handler. -/
abbrev Handler (Input : Type) := Program (handlerSignature Input)

section Handler

variable {Input : Type}

/-- `asyncio.wait_for(plugin.handle(event), timeout=…)`. -/
def pluginHandle (event : InboundEvent Input) : Handler Input (Except Exc PluginResult) :=
  request (S := handlerSignature Input) (.handle event)

/-- `_publish_result`. -/
def publishResult (envelope : Envelope Input) : Handler Input (Except Exc Unit) :=
  request (S := handlerSignature Input) (.publish envelope)

def republishWithHeaders (body : Json) (headers : Headers) : Handler Input (Except Exc Unit) :=
  request (S := handlerSignature Input) (.republish body headers)

def messageAck : Handler Input (Except Exc Unit) := request (S := handlerSignature Input) .ack

def messageReject : Handler Input (Except Exc Unit) :=
  request (S := handlerSignature Input) .reject

/-- `asyncio.create_task(_run_pipeline(event))`. -/
def createTask (event : InboundEvent Input) : Handler Input Unit :=
  request (S := handlerSignature Input) (.schedule event)

/-! ## Answering an event -/

def GENERIC_PIPELINE_ERROR : String := "Error: unable to process request"

/-- Run the plugin on an event and publish its result. -/
def answerEvent (event : InboundEvent Input) : Handler Input (Except Exc Unit) := do
  match ← pluginHandle event with
  | .error exc => pure (.error exc)
  | .ok response =>
    match Router.buildResponseEnvelope response event with
    | .error exc => pure (.error exc)
    | .ok envelope => publishResult envelope

/-- Publish an error text as the response of an event, if there are both.
Whether it was published is the result. -/
def publishError (event : Option (InboundEvent Input)) (errorText : Option String) :
    Handler Input Bool :=
  match event with
  | none => pure false
  | some event =>
    if truthy errorText then
      match Router.buildResponseEnvelope (.response { result := errorText }) event with
      | .error _ => pure false
      | .ok envelope => do
        match ← publishResult envelope with
        | .ok _ => pure true
        | .error _ => pure false
    else pure false

/-- `_run_pipeline`.  The three `except` clauses publish the same error. -/
def runPipeline (event : InboundEvent Input) : Handler Input Unit := do
  match ← answerEvent event with
  | .ok _ => pure ()
  | .error _ =>
    let _ ← publishError (some event) (some GENERIC_PIPELINE_ERROR)
    pure ()

/-! ## Retries -/

/-- The settings that the handler reads. -/
structure HandlerConfig where
  rabbitmqMaxRetries : Int := 3
  pipelineTimeout : Int := 3600

/-- Embedding retry ownership ends at the adapter. -/
def isEmbeddingError (exc : Exc) : Bool := exc.isInstance .embeddingError

/-- Whether a terminal embedding result can be acknowledged. -/
def isPermanentEmbeddingError (exc : Exc) : Bool :=
  exc.isInstance .embeddingInputError || exc.isInstance .embeddingPermanentError

/-- Requeue for another attempt or publish a final error. -/
def retryOrReject (config : HandlerConfig) (headers : Headers) (body : Json)
    (event : Option (InboundEvent Input) := none) (errorText : Option String := none)
    (forceTerminal : Bool := false) (acknowledgeTerminal : Bool := false) :
    Handler Input Unit := do
  let retryCount := headers.retryCount.getD 0
  if !forceTerminal && retryCount < config.rabbitmqMaxRetries - 1 then
    match ← republishWithHeaders body { headers with retryCount := some (retryCount + 1) } with
    | .ok _ => pure ()
    | .error _ =>
      -- The message is lost after the reject, so the user gets the error now.
      let _ ← publishError event errorText
      pure ()
    let _ ← messageReject
    pure ()
  else
    let terminalPublished ← publishError event errorText
    if acknowledgeTerminal && terminalPublished then
      let _ ← messageAck
      pure ()
    else
      let _ ← messageReject
      pure ()

/-- What a failed query does: the `except` clauses in their order. -/
def failQuery (config : HandlerConfig) (headers : Headers) (body : Json)
    (event : InboundEvent Input) (exc : Exc) : Handler Input Unit :=
  if exc.isInstance .llmInvocationTimeoutError then
    retryOrReject config headers body (some event) (some GENERIC_PIPELINE_ERROR)
  else if exc.isInstance .timeoutError then
    retryOrReject config headers body (some event)
      (some s!"Error: handler timed out after {config.pipelineTimeout}s")
  else
    retryOrReject config headers body (some event) (some GENERIC_PIPELINE_ERROR)
      (isEmbeddingError exc) (isPermanentEmbeddingError exc)

/-! ## `on_message` -/

/-- The handler of one delivery.  An exception that leaves it is its error. -/
def onMessage (router : Router Input) (config : HandlerConfig) (body : Json)
    (headers : Headers) : Handler Input (Except Exc Unit) :=
  match router.parseEvent body with
  | none => do
    retryOrReject config headers body
    pure (.ok ())
  | some event =>
    if event.isIngest then do
      match ← messageAck with
      | .error exc => pure (.error exc)
      | .ok _ =>
        createTask event
        pure (.ok ())
    else do
      match ← answerEvent event with
      | .error exc =>
        failQuery config headers body event exc
        pure (.ok ())
      | .ok _ =>
        -- A failed acknowledgement is logged and nothing else.
        let _ ← messageAck
        pure (.ok ())

/-- `consume_with_message` around the handler: what leaves the callback is
rejected. -/
def consumeWithMessage (callback : Handler Input (Except Exc Unit)) : Handler Input Unit := do
  match ← callback with
  | .ok _ => pure ()
  | .error _ =>
    let _ ← messageReject
    pure ()

/-- One delivery of a message. -/
def deliver (router : Router Input) (config : HandlerConfig) (body : Json) (headers : Headers) :
    Handler Input Unit :=
  consumeWithMessage (onMessage router config body headers)

end Handler

end VirtualContributor.Messaging
