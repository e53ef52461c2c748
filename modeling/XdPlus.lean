import XdPlus.Base.Machine
import XdPlus.Base.SlotTable
import XdPlus.Base.Program
import XdPlus.Base.Ownership
import XdPlus.Base.RefCount
import XdPlus.Base.Threads
import XdPlus.Base.Framing
import XdPlus.Base.Buffer
import XdPlus.Base.CircularBuffer
import XdPlus.Base.Progress
import XdPlus.Base.LockOrder
import XdPlus.Vulkan.Common
import XdPlus.Vulkan.RenderPassGuard
import XdPlus.Vulkan.RenderPassLifecycle
import XdPlus.Vulkan.RenderPassOverflow
import XdPlus.Vulkan.RenderPassGuardAtomic
import XdPlus.Vulkan.RenderPassGuardInterleaving
import XdPlus.Vulkan.Extensions
import XdPlus.Vulkan.DescriptorLayout
import XdPlus.Vulkan.ProcAddresses
import XdPlus.Vulkan.Interposition
import XdPlus.Vulkan.Driver
import XdPlus.Vulkan.ImageTable
import XdPlus.Vulkan.CommandBufferTable
import XdPlus.Vulkan.MipBlit
import XdPlus.Vulkan.ScratchLedger
import XdPlus.Vulkan.ScratchFailures
import XdPlus.Vulkan.ScratchMemory
import XdPlus.Vulkan.CommandBufferLedger
import XdPlus.Vulkan.CommandBufferLifecycle
import XdPlus.Vulkan.GpuImages
import XdPlus.Vulkan.MipBlitRecording
import XdPlus.Vulkan.MipBlitRegion
import XdPlus.Vulkan.MipBlitMeaning
import XdPlus.Vulkan.MipBlitBounds
import XdPlus.Vulkan.MipBlitFormats
import XdPlus.Vulkan.CommandStream
import XdPlus.Vulkan.PipelineCache
import XdPlus.Vulkan.PipelineBatches
import XdPlus.Vulkan.PipelineLedger
import XdPlus.Vulkan.PipelineOwnership
import XdPlus.Vulkan.PipelineBatchSafety
import XdPlus.Vulkan.PipelineScratch
import XdPlus.Vulkan.PipelineBook
import XdPlus.Vulkan.PipelineConservation
import XdPlus.Vulkan.PipelineOutlived
import XdPlus.Vulkan.PipelineHarvest
import XdPlus.Vulkan.DeviceTeardown
import XdPlus.Vulkan.CacheFiles
import XdPlus.Vulkan.CacheSections
import XdPlus.Vulkan.CacheClearing
import XdPlus.Vulkan.CacheHoldings
import XdPlus.Vulkan.CacheRuns
import XdPlus.Vulkan.CacheStretches
import XdPlus.Vulkan.CacheCompleteness
import XdPlus.Vulkan.CacheSaving
import XdPlus.Vulkan.ImageTableInterleaving
import XdPlus.Vulkan.BigWorker
import XdPlus.Vulkan.BigWorkerHandoff
import XdPlus.Audio.Routing
import XdPlus.Audio.Process
import XdPlus.Audio.Playback
import XdPlus.Audio.PlaybackRouting
import XdPlus.Audio.Capture
import XdPlus.Audio.CaptureRouting
import XdPlus.Audio.Position
import XdPlus.Audio.WholeHal
import XdPlus.Audio.LockRules
import XdPlus.Audio.Locking
import XdPlus.Hdmi.Uevents
import XdPlus.Hdmi.RecordScan
import XdPlus.Hdmi.MainLoop
import XdPlus.Hdmi.Transitions
import XdPlus.Hdmi.Overruns
import XdPlus.Hdmi.SleepWake
import XdPlus.Hdmi.Bringup
import XdPlus.Hdmi.BringupOutcome
import XdPlus.Hdmi.CableToOutput
import XdPlus.Avcd.Recorder
import XdPlus.Sensors.EventQueue
import XdPlus.Sensors.Handles
import XdPlus.Sensors.Polling
import XdPlus.Sensors.Deliveries
