import C6021Light.Proofs.SlotData
import C6021Light.Proofs.SlotBounds
import C6021Light.Proofs.MasterAnswers
import C6021Light.Proofs.SlotOccupancy
import C6021Light.Proofs.EngineFrames
import C6021Light.Proofs.CANReplication
import C6021Light.Proofs.LocoNetReplication
import C6021Light.Proofs.SlotCache
import C6021Light.Proofs.SlotDirectory
import C6021Light.Proofs.UpdateQueue
import C6021Light.Proofs.ControlFrame
import C6021Light.Proofs.Dispatch
import C6021Light.Proofs.LookupAgreement
import C6021Light.Proofs.SlotAssignment
import C6021Light.Proofs.StatelessRouting
import C6021Light.Proofs.AccessoryCodecs
import C6021Light.Proofs.PowerOff
import C6021Light.MarklinI2C.AccessoryMsg
import C6021Light.RoutingTask.I2CForwarder
import C6021Light.Proofs.WellFormedMessages
import C6021Light.Proofs.DownloadMachine
import C6021Light.Proofs.NoFeedback
import C6021Light.Proofs.StopGoReports
import C6021Light.Proofs.TransmitWakeUp
import C6021Light.Proofs.FullTable
import C6021Light.Proofs.ListPhase
import C6021Light.Proofs.WholeDownload
import C6021Light.Proofs.CountedTries
import C6021Light.Proofs.TimerExpiries
import C6021Light.Proofs.Completion
import C6021Light.Proofs.CommandLines
import C6021Light.Proofs.SerialExpansion
import C6021Light.Proofs.SerialOutput
import C6021Light.Proofs.Reception
import C6021Light.Proofs.ReceptionRecovery
import C6021Light.Proofs.ReceptionRefinement
import C6021Light.Proofs.DebounceTimes
import C6021Light.Microrl.RingHistory
import C6021Light.Lib.RecordRing
import C6021Light.Microrl.Microrl
import C6021Light.Lib.NewestFit
import C6021Light.Microrl.LineEditor
import C6021Light.Lib.Words
import C6021Light.Proofs.TypedCommands
import C6021Light.Proofs.ConsoleOutput
import C6021Light.Proofs.ConsoleSettings
import C6021Light.Hal.EepromEmulation
import C6021Light.Proofs.StoredConfig
