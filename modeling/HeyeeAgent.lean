import HeyeeAgent.Machine.Run
import HeyeeAgent.Machine.Until
import HeyeeAgent.Admission.Fifo
import HeyeeAgent.StreamQueueLimiter.Types
import HeyeeAgent.StreamQueueLimiter.LocalQueue
import HeyeeAgent.StreamQueueLimiter.LocalGuarantees
import HeyeeAgent.StreamTaskManager
import HeyeeAgent.StreamChat.AdmissionLock
import HeyeeAgent.InfraAi.RoutingExecutor
import HeyeeAgent.StreamLlm.OneAnswer
import HeyeeAgent.StreamLlm.HealthRecords
import HeyeeAgent.StreamLlm.Attempts
import HeyeeAgent.StreamLlm.Abandoned
import HeyeeAgent.StreamQueueLimiter.RedisAdmission
import HeyeeAgent.StreamQueueLimiter.DistributedOwnership
import HeyeeAgent.Coroutine.Rules
import HeyeeAgent.StreamChat.Generator
import HeyeeAgent.StreamChat.Released
import HeyeeAgent.StreamChat.Children
import HeyeeAgent.StreamChat.Grammar
import HeyeeAgent.StreamChat.Delivery
import HeyeeAgent.StreamChat.Memory
import HeyeeAgent.StreamCancellation.Covered
import HeyeeAgent.InfraAi.StreamedText
import HeyeeAgent.Knowledge.BlankChunks
import HeyeeAgent.Knowledge.ProducerModes
import HeyeeAgent.Knowledge.StartedMessages
import HeyeeAgent.Knowledge.Deliveries
import HeyeeAgent.Knowledge.Redelivery
import HeyeeAgent.Knowledge.ReplacedRows
import HeyeeAgent.Knowledge.StructureAware
import HeyeeAgent.Knowledge.DeletedRows
import HeyeeAgent.Knowledge.FrozenDocument
import HeyeeAgent.Knowledge.DisabledDocument
import HeyeeAgent.Knowledge.SearchIndex
import HeyeeAgent.Memory.ConversationList
import HeyeeAgent.Memory.SummaryWatermark
import HeyeeAgent.StreamLlm.HalfOpenLimit
import HeyeeAgent.Knowledge.EmbeddingSpace
import HeyeeAgent.StreamChat.IntentTrace
import HeyeeAgent.StreamChat.TextFidelity
import HeyeeAgent.Frontend.ChatPage
import HeyeeAgent.Frontend.ChatMessages
import HeyeeAgent.Frontend.SentHistory
import HeyeeAgent.Frontend.ShownAnswer
import HeyeeAgent.Frontend.MemoryModes
import HeyeeAgent.Knowledge.UrlUpload
import HeyeeAgent.Knowledge.FileUrls
import HeyeeAgent.StreamCancellation.Ownership
import HeyeeAgent.StreamCancellation.TaskRegistry
import HeyeeAgent.StreamCancellation.Bindings
import HeyeeAgent.StreamCancellation.Tombstones
import HeyeeAgent.Api.Chat
import HeyeeAgent.Rag.RetrievalPipeline
import HeyeeAgent.Rag.SplitQuestions
import HeyeeAgent.Mcp.Adapter
import HeyeeAgent.Mcp.Execution
import HeyeeAgent.FunctionCall.Service
import HeyeeAgent.Rag.IntentResolver
import HeyeeAgent.Rag.IntentCap
import HeyeeAgent.InfraAi.HealthLaws
import HeyeeAgent.InfraAi.Fallback
import HeyeeAgent.InfraAi.ChatTask
import HeyeeAgent.InfraAi.CallbackProtocol
import HeyeeAgent.JavaScript.Values
import HeyeeAgent.Mcp.HttpClient
import HeyeeAgent.Mcp.Isolation
import HeyeeAgent.Mcp.EventStream
import HeyeeAgent.Middleware.UploadSemaphore
import HeyeeAgent.Python.JsonLines
import HeyeeAgent.Rag.ReadBack
import HeyeeAgent.Rag.PromptService
import HeyeeAgent.Rag.PromptTemplates
import HeyeeAgent.StreamQueueLimiter.PermitLease
import HeyeeAgent.Knowledge.EmbeddedChunks
import HeyeeAgent.Memory.TrimmedHistory
import HeyeeAgent.Memory.SummaryLock
import HeyeeAgent.InfraAi.LegacyConfig
import HeyeeAgent.InfraAi.ModelRequests
import HeyeeAgent.InfraAi.RerankClients
import HeyeeAgent.InfraAi.EmbeddingClients
import HeyeeAgent.Forest.ParentLinks
import HeyeeAgent.Rag.IntentTree
import HeyeeAgent.Rag.IntentForest
import HeyeeAgent.Replacement.Guarded
import HeyeeAgent.Rag.QueryTermMapping
import HeyeeAgent.Rag.NormalizedTerms
import HeyeeAgent.Rag.QueryRewrite
import HeyeeAgent.Intervals.Stretches
import HeyeeAgent.Framing.Deletions
import HeyeeAgent.Machine.Selection
import HeyeeAgent.Knowledge.PackedRanges
import HeyeeAgent.Knowledge.NormalizedText
import HeyeeAgent.Knowledge.Segmentation
import HeyeeAgent.Rag.RewriteHistory
import HeyeeAgent.Api.ConversationMemory
import HeyeeAgent.Mcp.Session
import HeyeeAgent.Rag.SearchedDocuments
import HeyeeAgent.Knowledge.OwnedFiles
import HeyeeAgent.Knowledge.IndexedText
import HeyeeAgent.Python.FloatArithmetic
import HeyeeAgent.Rag.IntentRecognition
