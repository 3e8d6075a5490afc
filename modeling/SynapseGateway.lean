import SynapseGateway.Lib.Utf8
import SynapseGateway.Lib.Occurrence
import SynapseGateway.Lib.Rewrite
import SynapseGateway.Lib.Rewritten
import SynapseGateway.Lib.SortedFold
import SynapseGateway.Lib.Fallible
import SynapseGateway.Lib.Assoc
import SynapseGateway.LlmGuard
import SynapseGateway.Policy
import SynapseGateway.Segment
import SynapseGateway.Mask
import SynapseGateway.MaskSound
import SynapseGateway.Scanners
import SynapseGateway.ScannersSound
import SynapseGateway.Error
import SynapseGateway.Engine
import SynapseGateway.EngineSound
import SynapseGateway.Output
import SynapseGateway.OutputSound
import SynapseGateway.StreamAgree
import SynapseGateway.Stream
import SynapseGateway.Ledger
import SynapseGateway.GuardedStream
import SynapseGateway.GuardedStreamSound
import SynapseGateway.ToolCalls
import SynapseGateway.Resilience
import SynapseGateway.BufferedLeg
import SynapseGateway.BreakerSound
import SynapseGateway.BreakerRun
import SynapseGateway.BreakerIsolation
import SynapseGateway.Lib.Framing
import SynapseGateway.Json
import SynapseGateway.Sse
import SynapseGateway.VertexNative
import SynapseGateway.VertexNativeSound
import SynapseGateway.StandardStream
import SynapseGateway.Chat
import SynapseGateway.Truncation
import SynapseGateway.SecretsStream
import SynapseGateway.Lib.Url
import SynapseGateway.ProxyTransform
import SynapseGateway.Proxy
import SynapseGateway.ProxySound
import SynapseGateway.ProxyOrigin
import SynapseGateway.InjectedHeader
import SynapseGateway.Request
import SynapseGateway.Translate
import SynapseGateway.LeavesSound
import SynapseGateway.Lib.Trace
import SynapseGateway.Route
import SynapseGateway.Harness
import SynapseGateway.HarnessJev
import SynapseGateway.HarnessPlanner
import SynapseGateway.HarnessSound
import SynapseGateway.HarnessGuard
import SynapseGateway.HarnessRequirements
import SynapseGateway.RouteTable
import SynapseGateway.RouteTablePrune
import SynapseGateway.Lib.Chunks
import SynapseGateway.Embeddings
import SynapseGateway.EmbeddingsSound
import SynapseGateway.Lib.Outline
import SynapseGateway.SseSound
import SynapseGateway.Passthrough
import SynapseGateway.PassthroughSound
import SynapseGateway.Lib.Steps
import SynapseGateway.Lib.Slots
import SynapseGateway.McpGateway
import SynapseGateway.McpGatewaySound
import SynapseGateway.HarnessTable
import SynapseGateway.HarnessCells
import SynapseGateway.HarnessTableSound
import SynapseGateway.HarnessTablePrune
import SynapseGateway.HarnessPin
import SynapseGateway.HarnessSession
import SynapseGateway.HarnessSessionInv
import SynapseGateway.HarnessSessionSound
import SynapseGateway.Screening
import SynapseGateway.PassthroughPolicies
import SynapseGateway.Lib.Traversal
import SynapseGateway.GuardLeaves
import SynapseGateway.MaskedMatches
import SynapseGateway.PassthroughScreen
import SynapseGateway.PassthroughRows
import SynapseGateway.LossyPieces
import SynapseGateway.MeteredTee
import SynapseGateway.TranslateSound
import SynapseGateway.ProxyResponse
import SynapseGateway.VertexUnfold
import SynapseGateway.Lib.Splice
import SynapseGateway.MaskExact
import SynapseGateway.Reassembly
import SynapseGateway.Lib.Channel
import SynapseGateway.LedgerQueue
import SynapseGateway.LedgerQueueSound
import SynapseGateway.SettledRelease
import SynapseGateway.Lib.Budget
import SynapseGateway.JevState
import SynapseGateway.Lib.Attempts
import SynapseGateway.ChainWalk
import SynapseGateway.ChainWalkSound
import SynapseGateway.JevLane
import SynapseGateway.Lib.Grouped
import SynapseGateway.Lib.Binary64
import SynapseGateway.RoutePlanner
import SynapseGateway.RoutePlannerSound
import SynapseGateway.Lib.Firsts
import SynapseGateway.HarnessGrid
import SynapseGateway.RoutingReport
import SynapseGateway.HarnessReport
import SynapseGateway.Lib.Template
import SynapseGateway.Lib.UrlPath
import SynapseGateway.Lib.Inserts
import SynapseGateway.JevHybrid
import SynapseGateway.JevHybridSound
import SynapseGateway.Lib.Since
import SynapseGateway.A2aRegistry
import SynapseGateway.A2aRegistrySound
import SynapseGateway.A2aSeed
import SynapseGateway.McpHistory
import SynapseGateway.JsonRead
import SynapseGateway.ChatWire
import SynapseGateway.ChatWireSound
import SynapseGateway.ChatLeaves
import SynapseGateway.GuardLane
import SynapseGateway.GeminiLane
import SynapseGateway.VertexUrl
import SynapseGateway.JevPassthrough
import SynapseGateway.ChatCall
import SynapseGateway.ChatCallSound
import SynapseGateway.ChatCharged
import SynapseGateway.GuardClassifier
import SynapseGateway.Boot
import SynapseGateway.BootSound
import SynapseGateway.VertexAuth
import SynapseGateway.AiTaskType
import SynapseGateway.EmbedLane
import SynapseGateway.ProxyBuild
