import Mathlib.Data.Rat.Defs

/-!
# Events and results

The models of `core/events`.  The payload of a query is a type parameter
wherever it occurs: the code around it hands it to the plugin and echoes it,
and reads none of its fields.
-/

namespace VirtualContributor.Messaging

/-! ## Website ingestion -/

/-- Outcome of a website ingestion run. -/
inductive IngestionResult where
  | success
  | failure
deriving DecidableEq

/-- Request to crawl and ingest a website into the knowledge base. -/
structure IngestWebsite where
  baseUrl : String
  type : String
  purpose : String
  personaId : String
  summarizationModel : String := "mistral-medium"

/-- Result of a website ingestion run. -/
structure IngestWebsiteResult where
  bodyOfKnowledgeId : String := ""
  type : String := ""
  purpose : String := ""
  personaId : String := ""
  timestamp : Int
  result : IngestionResult := .success
  error : String := ""

/-! ## Space ingestion -/

/-- Structured error information for ingestion failures. -/
structure ErrorDetail where
  code : Option String := none
  message : Option String := none

/-- Request to ingest a body of knowledge (space). -/
structure IngestBodyOfKnowledge where
  bodyOfKnowledgeId : String
  type : String
  purpose : String
  personaId : String

/-- Result of a body-of-knowledge ingestion run. -/
structure IngestBodyOfKnowledgeResult where
  bodyOfKnowledgeId : String
  type : String
  purpose : String
  personaId : String
  timestamp : Int
  result : String := "success"
  error : Option ErrorDetail := none

/-! ## Query results -/

/-- A single knowledge-base source reference attached to a response. -/
structure Source where
  chunkIndex : Option Int := none
  embeddingType : Option String := none
  documentId : Option String := none
  source : Option String := none
  title : Option String := none
  type : Option String := none
  score : Option Rat := none
  uri : Option String := none

/-- Query result payload returned to the platform. -/
structure Response where
  result : Option String := none
  humanLanguage : Option String := none
  resultLanguage : Option String := none
  knowledgeLanguage : Option String := none
  originalResult : Option String := none
  sources : List Source := []
  threadId : Option String := none

end VirtualContributor.Messaging
