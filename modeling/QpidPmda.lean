import QpidPmda.Pcp.NameTable
import QpidPmda.Qmf1.CharacterisedHistory
import QpidPmda.Qmf1.AutoDeleteFilter
import QpidPmda.Qmf1.ListenerDiscovery
import QpidPmda.Qmf1.ListenerLinearization
import QpidPmda.Qmf1.InstanceIntegrity
import QpidPmda.Qmf1.FetchedValues
import QpidPmda.Qmf1.WaitingObjects
import QpidPmda.Qmf1.FetchLoop
import QpidPmda.Qmf1.ListenerDeadlock
import QpidPmda.Qmf1.SupersededProperties
import QpidPmda.Qmf1.FailedUpdates
import QpidPmda.Qmf1.FetchOutcome
import QpidPmda.Qmf1.ConnectionOptions
import QpidPmda.Qmf1.SequentialSchedules
import QpidPmda.Qmf1.SteadyObjects
import QpidPmda.Qmf1.LogContents
import QpidPmda.Qmf1.TraceFlags
import QpidPmda.Qmf1.StartUp
import QpidPmda.Qmf1.EventualHandling
import QpidPmda.Qmf1.PmdaLog
