import AxiomKernel.Mtp.DeviceGraph
import AxiomKernel.Qwen4exp.DriverRuns
import AxiomKernel.Qwen4exp.SpeculativeLossless
import AxiomKernel.Qwen4exp.ExpertSlots
import AxiomKernel.Qwen4exp.DirectRead
import AxiomKernel.Qwen38.KvTier.RingAttribution
import AxiomKernel.Qwen38.KvTier.RingDelivery
import AxiomKernel.Qwen38.SessionStore.Isolation
import AxiomKernel.Qwen38.SessionStore.Lifecycle
import AxiomKernel.Qwen38.Corruption
import AxiomKernel.Qwen38.PrefixReuse
import AxiomKernel.Qwen38.Api.PromptBytes
import AxiomKernel.Qwen38.Api.DecodeLoop
import AxiomKernel.Qwen38.Api.ContentStream
import AxiomKernel.Qwen38.Api.Utf8Stream
import AxiomKernel.Qwen38.Api.HttpRequest
import AxiomKernel.Qwen38.Tools.Exactness
import AxiomKernel.Qwen38.Tools.CallText
import AxiomKernel.Codex.RejectedTool
import AxiomKernel.Tokenizer.RoundTrip
import AxiomKernel.Qwen38.Swarm.RequestLeases
import AxiomKernel.Qwen38.Swarm.AdmissionOrder
import AxiomKernel.Qwen38.Swarm.Telemetry
import AxiomKernel.Qwen38.Vision.Base64
import AxiomKernel.Qwen4exp.PleCache
import AxiomKernel.StepEngine
import AxiomKernel.Mtp.KvRestore
import AxiomKernel.Qwen4exp.PleHashing
import AxiomKernel.Qwen38.MixedKv
