import Opconn.Lib.Runs
import Opconn.Lib.DList
import Opconn.Lib.Text
import Opconn.Lib.FirstMatch
import Opconn.Lib.KeyedList
import Opconn.Lib.Slots
import Opconn.Lib.Loop
import Opconn.Lib.MaskedKey
import Opconn.Lib.Backtrack
import Opconn.Lib.Noting
import Opconn.Lib.Calls
import Opconn.Lib.SList
import Opconn.Lib.Ring
import Opconn.Lib.WordBits
import Opconn.Lib.ChangeLog
import Opconn.Lib.Scan
import Opconn.Lib.Buffer
import Opconn.Lib.NumberedList
import Opconn.Lib.ByteWord
import Opconn.Lib.OnesComplement
import Opconn.Lib.CyclicCode
import Opconn.Lib.BubbleSort
import Opconn.Oam.Frame
import Opconn.Oam.Discovery
import Opconn.Oam.DiscoveryView
import Opconn.Oam.DiscoverySafety
import Opconn.Oam.DiscoveryHistory
import Opconn.Oam.VersionNegotiation
import Opconn.Oam.RevisionGate
import Opconn.Oam.CtcWalk
import Opconn.Oam.CtcTlvs
import Opconn.Oam.CtcTermination
import Opconn.Oam.CtcResponses
import Opconn.Vos.Timer
import Opconn.Vos.TimerLists
import Opconn.Vos.TimerScan
import Opconn.Vos.TimerDeadline
import Opconn.Vos.TimerWheel
import Opconn.Vos.Hash
import Opconn.Vos.HashMap
import Opconn.Vos.HashItems
import Opconn.Vos.Tlv
import Opconn.Vos.Config
import Opconn.Vos.ConfigTables
import Opconn.Vos.ConfigValues
import Opconn.Vos.ConfigFile
import Opconn.Vos.ConfigHeader
import Opconn.Multicast.VlanMap
import Opconn.Multicast.VlanMapAgree
import Opconn.Multicast.TagTranslation
import Opconn.Multicast.Groups
import Opconn.Multicast.System
import Opconn.Multicast.Steps
import Opconn.Multicast.ModeSwitch
import Opconn.Multicast.Keys
import Opconn.Multicast.TableSteps
import Opconn.Multicast.GroupEntries
import Opconn.Multicast.LeaveTargets
import Opconn.Multicast.GroupLimit
import Opconn.Multicast.EntryNumLoop
import Opconn.Multicast.LeaveDescriptors
import Opconn.Multicast.LeaveFlags
import Opconn.Multicast.LeaveQueries
import Opconn.Multicast.ForwardingTable
import Opconn.Multicast.EntryVlans
import Opconn.Multicast.Memory
import Opconn.Multicast.Aging
import Opconn.Multicast.PacketTag
import Opconn.Multicast.PacketParse
import Opconn.Multicast.ControlAdmission
import Opconn.Multicast.Checksum
import Opconn.Multicast.CommList
import Opconn.Oam.CtcOperations
import Opconn.Oam.CtcGetters
import Opconn.Oam.CtcGetPorts
import Opconn.Oam.CtcGetFormat
import Opconn.Oam.Download
import Opconn.Oam.DownloadTransfer
import Opconn.Oam.Download20
import Opconn.Oam.DownloadThreads
import Opconn.Oam.DownloadSafety
import Opconn.Oam.DownloadBoot
import Opconn.Classify.Windows
import Opconn.Classify.WindowSearch
import Opconn.Classify.Tables
import Opconn.Classify.TableInvariant
import Opconn.Classify.TableRuns
import Opconn.Classify.AclList
import Opconn.Classify.AclOrder
import Opconn.Classify.AclNumbers
import Opconn.Classify.AclShift
import Opconn.Classify.ClsItems
import Opconn.Classify.RequestList
import Opconn.Classify.ItemInvariant
import Opconn.Classify.ListedRules
import Opconn.Classify.RuleSafety
import Opconn.Classify.AclRollback
import Opconn.Classify.MixedTables
import Opconn.Classify.MoveRemoves
import Opconn.Classify.OffsetSet
import Opconn.Classify.OffsetWrites
import Opconn.Classify.OnePass
import Opconn.Classify.Placement
import Opconn.Classify.PppoeEntries
import Opconn.Oam.Alarm
import Opconn.Oam.AlarmSettings
import Opconn.Oam.AlarmReports
import Opconn.Bridge.Arl
import Opconn.Bridge.ArlLearning
import Opconn.Bridge.ArlLimit
import Opconn.Bridge.Vtt
import Opconn.Bridge.VttRecords
import Opconn.Bridge.VttOrder
import Opconn.Terminal.UartRing
import Opconn.Terminal.UartDelivery
import Opconn.Terminal.NetRing
import Opconn.Terminal.MonitorRound
import Opconn.Terminal.Enable
import Opconn.Exchange.Pal
import Opconn.Exchange.UartTransmit
import Opconn.Exchange.UartReceive
import Opconn.Exchange.RxChain
import Opconn.Exchange.RxBounds
import Opconn.Exchange.Depacket
import Opconn.Exchange.GetRequest
import Opconn.Exchange.TxQueue
import Opconn.Exchange.ImageUpload
import Opconn.Exchange.Crc
import Opconn.Exchange.SendPath
import Opconn.Exchange.Uart1Config
import Opconn.Oam.VariableRequest
import Opconn.Oam.VariableBounds
import Opconn.Oam.DbaSet
import Opconn.Oam.ClassifyRules
import Opconn.Oam.ClassifyDelete
import Opconn.Oam.SetHandlers
import Opconn.Oam.SetIndications
import Opconn.Oam.VlanSet20
import Opconn.Dvrs.PortText
import Opconn.Dvrs.PortList
import Opconn.Lib.Machines
import Opconn.Rstp.Vector
import Opconn.Rstp.Bpdu
import Opconn.Rstp.Port
import Opconn.Rstp.PortMachines
import Opconn.Rstp.PortInfo
import Opconn.Rstp.RoleTransitions
import Opconn.Rstp.RoleSelection
import Opconn.Rstp.Bridge
import Opconn.Rstp.Steps
import Opconn.Rstp.Settled
import Opconn.Rstp.PortStates
import Opconn.Rstp.PortFacts
import Opconn.Rstp.PortInvariant
import Opconn.Rstp.RoleWork
import Opconn.Rstp.RoleLoop
import Opconn.Rstp.Freshness
import Opconn.Rstp.BetweenEvents
import Opconn.Lib.Best
import Opconn.Rstp.Roles
import Opconn.Rstp.BestWay
import Opconn.Rstp.Link
import Opconn.Lib.Walks
import Opconn.Rstp.Network
import Opconn.Rstp.Tree
