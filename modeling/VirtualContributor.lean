import VirtualContributor.Pipeline.Engine
import VirtualContributor.Pipeline.Summaries
import VirtualContributor.Pipeline.Embedding
import VirtualContributor.Pipeline.ChangeDetection
import VirtualContributor.Pipeline.Chunking
import VirtualContributor.Pipeline.Context
import VirtualContributor.Pipeline.Prompts
import VirtualContributor.Pipeline.Store
import VirtualContributor.Pipeline.Fingerprints
import VirtualContributor.Pipeline.Provenance
import VirtualContributor.Lib.Json
import VirtualContributor.Messaging.Delivery
import VirtualContributor.Pipeline.BatchSpec
import VirtualContributor.Pipeline.Concurrency
import VirtualContributor.Plugins.Correlation
import VirtualContributor.Plugins.FailedCrawl
import VirtualContributor.Web.FetchSafety
import VirtualContributor.Pipeline.BatchOutcome
import VirtualContributor.Lib.JoinedFields
import VirtualContributor.Pipeline.BlankSummaries
import VirtualContributor.Pipeline.ContentIdentity
import VirtualContributor.Pipeline.DetectionFallback
import VirtualContributor.Pipeline.StoredMetadata
import VirtualContributor.Plugins.EmptiedSource
import VirtualContributor.Adapters.QueryEmbedding
import VirtualContributor.Adapters.SingleFlight
import VirtualContributor.Graph.Accepted
import VirtualContributor.Graph.Compile
import VirtualContributor.Graph.Failures
import VirtualContributor.Graph.WellFormed
import VirtualContributor.Pipeline.StepSafety
import VirtualContributor.Lib.FailStop
import VirtualContributor.Plugins.EmbeddingFailure
import VirtualContributor.Graph.LiteralTemplates
import VirtualContributor.Graph.Mapping
import VirtualContributor.Lib.Budget
import VirtualContributor.Lib.JsonCharacters
import VirtualContributor.Lib.JsonObjects
import VirtualContributor.Lib.Ranking
import VirtualContributor.Lib.Regex
import VirtualContributor.Plugins.BraceBlocks
import VirtualContributor.Plugins.GuidanceBudget
import VirtualContributor.Plugins.JsonAnswers
import VirtualContributor.Plugins.PassageSelection
import VirtualContributor.Retrieval.BranchScope
import VirtualContributor.Retrieval.Degradation
import VirtualContributor.Retrieval.RuleClassifier
import VirtualContributor.Retrieval.SkipPolicy
import VirtualContributor.Adapters.DocumentPredicate
import VirtualContributor.Lib.Representatives
import VirtualContributor.Lib.Returns
import VirtualContributor.Lib.SplitText
import VirtualContributor.Lib.StableSort
import VirtualContributor.Lib.Url
import VirtualContributor.Pipeline.ChunkSizing
import VirtualContributor.Pipeline.MergeTree
import VirtualContributor.Plugins.MalformedNodes
import VirtualContributor.Plugins.SourceRepresentatives
import VirtualContributor.Plugins.SpaceReader
import VirtualContributor.Plugins.TreePositions
import VirtualContributor.Retrieval.LabelSafety
import VirtualContributor.Retrieval.LiteralTerms
import VirtualContributor.Retrieval.Rerank
import VirtualContributor.Retrieval.VectorOrder
import VirtualContributor.Web.BoundedBody
import VirtualContributor.Web.CrawlInvariants
import VirtualContributor.Web.SiteUrls
import VirtualContributor.Graph.SchemaWrites
import VirtualContributor.Pipeline.SectionGroups
import VirtualContributor.Retrieval.HistoryWindow
import VirtualContributor.Web.Boilerplate
import VirtualContributor.Plugins.DisplayNames
import VirtualContributor.Evaluation.SelfCheck
import VirtualContributor.Evaluation.PairedRuns
import VirtualContributor.Lib.Implementation
import VirtualContributor.Lib.Retry
import VirtualContributor.Adapters.RetryPolicies
import VirtualContributor.Adapters.PortRefinement
import VirtualContributor.Adapters.EmbedQuery
import VirtualContributor.Lib.JsonLines
import VirtualContributor.Evaluation.Dataset
import VirtualContributor.Lib.CanonicalJson
import VirtualContributor.Plugins.ExpertComposition
import VirtualContributor.Graph.Recovery
import VirtualContributor.Graph.Execution
import VirtualContributor.Plugins.Generic
import VirtualContributor.Plugins.GenericTenancy
import VirtualContributor.Lib.TaskPool
import VirtualContributor.Plugins.GraphQLClient
import VirtualContributor.Plugins.SessionTokens
import VirtualContributor.Lib.Establishes
