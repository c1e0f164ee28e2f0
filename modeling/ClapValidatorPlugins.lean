import ClapValidatorPlugins.Wrapper.ThreadCheck
import ClapValidatorPlugins.Lib.LittleEndian
import ClapValidatorPlugins.Lib.Transfer
import ClapValidatorPlugins.Blocks.ChannelBounds
import ClapValidatorPlugins.Blocks.NullLists
import ClapValidatorPlugins.Contract.BlockFindings
import ClapValidatorPlugins.Contract.BufferGate
import ClapValidatorPlugins.Contract.Callbacks
import ClapValidatorPlugins.Contract.LegalBlock
import ClapValidatorPlugins.Contract.LegalHost
import ClapValidatorPlugins.Contract.Lifecycle
import ClapValidatorPlugins.Contract.PortFormats
import ClapValidatorPlugins.Contract.SteadyTime
import ClapValidatorPlugins.Contract.MainThread
import ClapValidatorPlugins.Contract.RestartRequests
import ClapValidatorPlugins.Events.Calls
import ClapValidatorPlugins.Events.ChunkProbes
import ClapValidatorPlugins.Events.Flagged
import ClapValidatorPlugins.Events.LiveChanges
import ClapValidatorPlugins.Events.Malformed
import ClapValidatorPlugins.Events.OrderScan
import ClapValidatorPlugins.Events.TypedReads
import ClapValidatorPlugins.Events.UnknownParams
import ClapValidatorPlugins.Events.FlushParity
import ClapValidatorPlugins.Voices.Ledger
import ClapValidatorPlugins.Voices.Sleep
import ClapValidatorPlugins.Monitor.Interleaved
import ClapValidatorPlugins.Monitor.Summary
import ClapValidatorPlugins.Entry.InitCount
import ClapValidatorPlugins.Threads.Activation
import ClapValidatorPlugins.Threads.FlushOverlap
import ClapValidatorPlugins.Presets.Loading
import ClapValidatorPlugins.Presets.Discovery
import ClapValidatorPlugins.Gui.Gestures
import ClapValidatorPlugins.Gui.LastWrite
import ClapValidatorPlugins.Gui.QueueHistory
import ClapValidatorPlugins.Events.Transpose
import ClapValidatorPlugins.Voices.Segments
import ClapValidatorPlugins.Voices.Stealing
import ClapValidatorPlugins.Contract.Reconfiguration
import ClapValidatorPlugins.Texts.Percent
import ClapValidatorPlugins.Presets.Grammar
import ClapValidatorPlugins.Blocks.TailStatus
import ClapValidatorPlugins.Blocks.InPlace
import ClapValidatorPlugins.State.Ranges
import ClapValidatorPlugins.Wrapper.StreamLoops
import ClapValidatorPlugins.Gui.CallOrder
import ClapValidatorPlugins.Gui.X11Gestures
import ClapValidatorPlugins.Gui.X11Wakeup
import ClapValidatorPlugins.Gui.TransportSeqlock
import ClapValidatorPlugins.Presets.SampleFiles
import ClapValidatorPlugins.Gui.LogPane
import ClapValidatorPlugins.Gui.Badge
import ClapValidatorPlugins.Gui.EditedValues
import ClapValidatorPlugins.Presets.Metadata
import ClapValidatorPlugins.Entry.EarlyLog
import ClapValidatorPlugins.Voices.BlockSizes
import ClapValidatorPlugins.Events.Transposers
import ClapValidatorPlugins.Gui.MouseToHost
import ClapValidatorPlugins.State.Bytes
import ClapValidatorPlugins.Texts.Decimals
import ClapValidatorPlugins.Texts.RoundTrip
import ClapValidatorPlugins.Blocks.Footprint
import ClapValidatorPlugins.Lib.Alongside
import ClapValidatorPlugins.Blocks.Refilling
import ClapValidatorPlugins.Blocks.StaleOutput
