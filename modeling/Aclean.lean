import Aclean.Prog
import Aclean.Pool
import Aclean.Plays
import Aclean.Board
import Aclean.Control
import Aclean.Monitor
import Aclean.Wifi
import Aclean.WifiRx
import Aclean.WifiStream
import Aclean.Footprint
import Aclean.DispBoard
import Aclean.DispLink
import Aclean.KeyLink
import Aclean.OffState
import Aclean.PowerOff
import Aclean.Payload
import Aclean.WifiRounds
import Aclean.WifiQueue
import Aclean.Modbus
import Aclean.Packets
import Aclean.StatePush
import Aclean.FaultIcons
import Aclean.Countdown
import Aclean.TimerRace
import Aclean.SettingsRange
import Aclean.SaveRace
import Aclean.Damaged
import Aclean.MasterStage
import Aclean.MasterTurn
import Aclean.RequestWire
import Aclean.AutoTable
import Aclean.ControlPass
import Aclean.PassRuns
import Aclean.Record
import Aclean.PowerOn
import Aclean.ResetKey
import Aclean.LockOrder
import Aclean.FactoryDialogue
import Aclean.Locks
import Aclean.Asking
import Aclean.Replies
import Aclean.Outputs
import Aclean.Relays
import Aclean.FactoryReset
import Aclean.RawReply
import Aclean.KeyReport
import Aclean.FrameDelivery
import Aclean.Switches
import Aclean.Icons
import Aclean.FlashPara
import Aclean.TimerDigits
import Aclean.Rotation
import Aclean.RoomDisplay
import Aclean.SharedFlag
import Aclean.FaultReports
import Aclean.SharedCell
import Aclean.KeyScan
import Aclean.KeyPress
import Aclean.KeyApart
import Aclean.Lfsr
import Aclean.CrcCheck
import Aclean.Queues
import Aclean.History
import Aclean.Kernel
import Aclean.KernelLists
import Aclean.KernelSteps
import Aclean.KernelRuns
import Aclean.KernelUrgent
import Aclean.KernelPriority
import Aclean.KernelStore
import Aclean.KernelWakes
import Aclean.KernelLinear
import Aclean.Memory
import Aclean.Converge
import Aclean.Arena
import Aclean.Heap
import Aclean.HeapSteps
import Aclean.HeapLends
import Aclean.HeapRuns
