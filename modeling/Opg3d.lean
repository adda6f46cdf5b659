import Opg3d.Activation.Accounts
import Opg3d.Activation.Effects
import Opg3d.Activation.Rule
import Opg3d.Activation.StartupRule
import Opg3d.CachedLookups
import Opg3d.Cmake.PatchShadowhook
import Opg3d.ConfigWrites
import Opg3d.DumpRoundTrip
import Opg3d.ElfHash
import Opg3d.ElfLookup
import Opg3d.EventOrder
import Opg3d.FailClosed
import Opg3d.FailedInstalls
import Opg3d.FieldRoundTrip
import Opg3d.Fingerprint
import Opg3d.Footprint
import Opg3d.GuardCoverage
import Opg3d.HookPlacement
import Opg3d.InitProtocol
import Opg3d.Install.Core
import Opg3d.Install.Hooks
import Opg3d.Install.Outcome
import Opg3d.Install.Startup
import Opg3d.Interception
import Opg3d.Kit.Aside
import Opg3d.Kit.Chain
import Opg3d.Kit.Decoding
import Opg3d.Kit.Latest
import Opg3d.Kit.Ledger
import Opg3d.Kit.Numeral
import Opg3d.Kit.Outermost
import Opg3d.Kit.Program
import Opg3d.Kit.Reentry
import Opg3d.Kit.Regex
import Opg3d.Kit.Removal
import Opg3d.Kit.Replace
import Opg3d.Kit.Script
import Opg3d.Kit.Sorted
import Opg3d.Kit.Steps
import Opg3d.Kit.Twins
import Opg3d.Kit.Utf16
import Opg3d.Kit.Utf8
import Opg3d.Lifecycle
import Opg3d.LineBounds
import Opg3d.Lockstep.Proxies
import Opg3d.Lockstep.Runtime
import Opg3d.LogNoninterference
import Opg3d.LoggerAgreement
import Opg3d.LongLines
import Opg3d.MetadataSearch
import Opg3d.Native.CloudGuard
import Opg3d.Native.ElfSym
import Opg3d.Native.Fields
import Opg3d.Native.Format
import Opg3d.Native.HookInstall
import Opg3d.Native.Il2cpp
import Opg3d.Native.InitThread
import Opg3d.Native.LogThreads
import Opg3d.Native.Logger
import Opg3d.Native.Metadata
import Opg3d.Native.Photon
import Opg3d.Native.PhotonHooks
import Opg3d.Native.Signature
import Opg3d.Native.System
import Opg3d.Native.World
import Opg3d.NearestMethod
import Opg3d.NoNullCalls
import Opg3d.Permanence
import Opg3d.PrintedLog
import Opg3d.Quarantine
import Opg3d.ReadBack
import Opg3d.RepeatedPatching
import Opg3d.RepeatedSymbolizing
import Opg3d.RouteHistory
import Opg3d.RvaPairing
import Opg3d.Scene.Frame
import Opg3d.Scene.Runtime
import Opg3d.Scene.Settings
import Opg3d.SettlingLoop
import Opg3d.SourcePatching
import Opg3d.Tool.Dump
import Opg3d.Tool.DumpLines
import Opg3d.Tool.DumpParsing
import Opg3d.Tool.Files
import Opg3d.Tool.Patterns
import Opg3d.Tool.Symbolize
import Opg3d.Tool.Text
import Opg3d.TracedCalls
import Opg3d.Utf16RoundTrip
import Opg3d.Utf8WellFormed
import Opg3d.WholeLog
