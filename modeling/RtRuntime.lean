import RtRuntime.StaticPhaseGraph
import RtRuntime.DeviceAdmission
import RtRuntime.DeviceSlots
import RtRuntime.RateRanges
import RtRuntime.DispatchTurns
import RtRuntime.DueWork
import RtRuntime.ExtensionAdmission
import RtRuntime.ExtensionServices
import RtRuntime.ExecutorQueue
import RtRuntime.LiveReplay
import RtRuntime.BoundaryClose
import RtRuntime.CommitInspection
import RtRuntime.PhaseExecutionOrder
import RtRuntime.DeviceCompletions
import RtRuntime.LateCompletions
import RtRuntime.RegionReuse
import RtRuntime.ProfileText
import RtRuntime.SnapshotAcceptance
