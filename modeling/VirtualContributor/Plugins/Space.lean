import VirtualContributor.Messaging.Events
import VirtualContributor.Pipeline.Engine
import VirtualContributor.Web.Exception

/-!
# The space plugin

`IngestSpacePlugin.handle`: read the space tree, ingest.  Reading the tree is
one call here.
-/

namespace VirtualContributor.Plugins

open Lib Program Messaging Pipeline

/-! ## Reading the tree -/

/-- `read_body_of_knowledge(graphql_client, bok_id, bok_type)`. -/
inductive ReaderCall where
  | readBodyOfKnowledge (bokId bokType : String)

abbrev readerSignature : Signature where
  Call := ReaderCall
  Answer := fun _ => Except Exc (List Document)

/-- The calls of the space plugin. -/
abbrev spaceSignature : Signature := readerSignature.sum ingestSignature

def readBodyOfKnowledge (bokId bokType : String) :
    Program readerSignature (Except Exc (List Document)) :=
  request (S := readerSignature) (.readBodyOfKnowledge bokId bokType)

/-! ## `handle` -/

/-- The result the plugin builds on each of its paths. -/
def spaceResult (event : IngestBodyOfKnowledge) (timestamp : Int) (result : String)
    (error : Option ErrorDetail) : IngestBodyOfKnowledgeResult where
  bodyOfKnowledgeId := event.bodyOfKnowledgeId
  type := event.type
  purpose := event.purpose
  personaId := event.personaId
  timestamp := timestamp
  result := result
  error := error

/-- The result of a pipeline run. -/
def spaceResultOf (event : IngestBodyOfKnowledge) (timestamp : Int) (result : IngestResult) :
    IngestBodyOfKnowledgeResult :=
  spaceResult event timestamp (if result.success then "success" else "failure")
    (if result.errors.isEmpty then none else some { message := some ("; ".intercalate result.errors) })

/-- The result of a raised exception. -/
def spaceFailure (event : IngestBodyOfKnowledge) (timestamp : Int) (text : String) :
    IngestBodyOfKnowledgeResult :=
  spaceResult event timestamp "failure" (some { message := some text })

/-- The settings of the plugin.  Its chunks are larger than those of the
pipeline's defaults. -/
structure IngestSpacePlugin where
  pipeline : IngestPipeline := { chunkSize := 2500, chunkOverlap := 300 }
  hasGraphqlClient : Bool := true

/-- `handle`.  The event's collection is the state of the run. -/
def IngestSpacePlugin.handle (host : Host) (plugin : IngestSpacePlugin) (timestamp : Int)
    (event : IngestBodyOfKnowledge) : Program spaceSignature IngestBodyOfKnowledgeResult :=
  if plugin.hasGraphqlClient then do
    match ← (readBodyOfKnowledge event.bodyOfKnowledgeId event.type).inLeft
        (T := ingestSignature) with
    | .error exc => pure (spaceFailure event timestamp exc.text)
    | .ok documents =>
      let result ← (plugin.pipeline.ingest host documents).inRight (S := readerSignature)
      pure (spaceResultOf event timestamp result)
  else pure (spaceFailure event timestamp "GraphQL client not configured")

end VirtualContributor.Plugins
