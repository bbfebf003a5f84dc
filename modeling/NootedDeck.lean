import NootedDeck.Shared.Program
import NootedDeck.Shared.Locking
import NootedDeck.Shared.Interference
import NootedDeck.Shared.ByteMemory
import NootedDeck.Shared.UndoLog
import NootedDeck.Shared.LinkedTrees
import NootedDeck.Shared.Windows
import NootedDeck.Shared.Inspect
import NootedDeck.Shared.MemoryReads
import NootedDeck.Shared.Runs
import NootedDeck.Shared.Accesses
import NootedDeck.Shared.CStrings
import NootedDeck.Shared.SteppedScale
import NootedDeck.Patcher.Search
import NootedDeck.Patcher.LookupPatch
import NootedDeck.Patcher.LookupRounds
import NootedDeck.Patcher.LookupAgreement
import NootedDeck.Patcher.MaskedWindows
import NootedDeck.Patcher.PartialPatch
import NootedDeck.Patcher.Jump
import NootedDeck.Patcher.RouteFunction
import NootedDeck.Patcher.RouteFunctionSpec
import NootedDeck.Patcher.RouteOutcome
import NootedDeck.Patcher.Route
import NootedDeck.Patcher.RouteTruth
import NootedDeck.Patcher.RouteOrder
import NootedDeck.Patcher.RouteFrame
import NootedDeck.Patcher.RoutePreparation
import NootedDeck.Patcher.Hooks
import NootedDeck.Patcher.RouteAll
import NootedDeck.Patcher.HookChain
import NootedDeck.Patcher.Revert
import NootedDeck.Patcher.SolveRequest
import NootedDeck.Patcher.JumpRange
import NootedDeck.Patcher.JumpDecoding
import NootedDeck.Patcher.LogMask
import NootedDeck.Drivers.AddDrivers
import NootedDeck.Drivers.DriverXML
import NootedDeck.Mmio.Registers
import NootedDeck.Mmio.Mailbox
import NootedDeck.Mmio.MailboxTurns
import NootedDeck.Mmio.ConcurrentAccess
import NootedDeck.Mmio.Storage
import NootedDeck.Vbios.AtomBios
import NootedDeck.Vbios.AtomCheck
import NootedDeck.Vbios.Vfct
import NootedDeck.Vbios.Sources
import NootedDeck.Vbios.FetchOrder
import NootedDeck.Vbios.VfctReference
import NootedDeck.Vbios.VfctLoop
import NootedDeck.Vbios.VfctBounds
import NootedDeck.Hooks.Wrappers
import NootedDeck.Hooks.Transparency
import NootedDeck.Hooks.Connectors
import NootedDeck.Backlight.Events
import NootedDeck.Backlight.Steering
import NootedDeck.Backlight.Levels
import NootedDeck.Backlight.Scaling
import NootedDeck.Startup.Module
import NootedDeck.Startup.Pointers
import NootedDeck.Startup.Identity
import NootedDeck.Startup.LateInit
import NootedDeck.Lilu.KernelWriting
import NootedDeck.Lilu.Registration
import NootedDeck.Lilu.KextListening
import NootedDeck.Lilu.KextNotifications
import NootedDeck.Lilu.KextDelivery
import NootedDeck.Startup.Dispatch
import NootedDeck.Compression.Lzss
import NootedDeck.Compression.Trees
import NootedDeck.Compression.Codes
import NootedDeck.Compression.Decoding
import NootedDeck.Compression.Window
import NootedDeck.Compression.RoundTrip
