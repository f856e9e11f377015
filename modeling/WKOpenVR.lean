import WKOpenVR.Shmem.PoseRing
import WKOpenVR.Host.Breaker
import WKOpenVR.Host.Stop
import WKOpenVR.Host.Single
import WKOpenVR.Phantom.Frozen
import WKOpenVR.Host.PendingCommand
import WKOpenVR.Phantom.VirtualTracker
import WKOpenVR.Osc.Alternation
import WKOpenVR.Osc.Requests
import WKOpenVR.Captions.ChatboxPacer
import WKOpenVR.Captions.HostConfig
import WKOpenVR.Safety.Launch
import WKOpenVR.Phantom.RoleUnique
import WKOpenVR.Driver.IpcServer
import WKOpenVR.Calibration.ProfileLoad
import WKOpenVR.Captions.RouterPublisher
import WKOpenVR.Face.ControlPipe
import WKOpenVR.Face.OscPublisher
import WKOpenVR.Face.ModuleBreaker
import WKOpenVR.Face.AvatarAllowList
import WKOpenVR.DynamicRes.Band
import WKOpenVR.Calibration.PersistGuard
import WKOpenVR.Calibration.FallbackApply
import WKOpenVR.Calibration.ApplyConvergence
import WKOpenVR.InputHealth.Reconciliation
import WKOpenVR.Osc.Bundle
import WKOpenVR.Quest.Settings
import WKOpenVR.Common.PowerShell
import WKOpenVR.Common.CommandLine
import WKOpenVR.Quest.AdbCommand
import WKOpenVR.Captions.PromptHistory
import WKOpenVR.Captions.SpeechGate
import WKOpenVR.Shmem.FrameByIndex
import WKOpenVR.Captions.ChatboxTruncate
import WKOpenVR.Captions.TranscriptOverlap
import WKOpenVR.Captions.TranscriptClean
import WKOpenVR.Calibration.RecordingRetention
import WKOpenVR.Common.LoopGuard
import WKOpenVR.Common.PowerShellLiteral
import WKOpenVR.Driver.FallbackSlots
import WKOpenVR.Overlay.UpdateCheck
import WKOpenVR.Common.SafeModeLog
import WKOpenVR.Driver.SourceDwell
import WKOpenVR.Overlay.IpcClient
import WKOpenVR.InputHealth.StableRest
import WKOpenVR.Driver.Debounce
import WKOpenVR.Driver.DetourDrain
import WKOpenVR.Face.FrameSource
import WKOpenVR.DynamicRes.SceneStop
import WKOpenVR.Quest.AdbRun
import WKOpenVR.InputHealth.PolarHistogram
