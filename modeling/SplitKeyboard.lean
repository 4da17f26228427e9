import SplitKeyboard.Bench.Lockstep
import SplitKeyboard.Bench.Device
import SplitKeyboard.Bench.Wired
import SplitKeyboard.ByteQueue
import SplitKeyboard.ErrorBox
import SplitKeyboard.Firmware.Halves
import SplitKeyboard.Settings.Check
import SplitKeyboard.Settings.Parser
import SplitKeyboard.Uart.Schedule
import SplitKeyboard.Proofs.Agenda
import SplitKeyboard.Proofs.Table.Layout
import SplitKeyboard.Proofs.Bench.ScriptedDevice
import SplitKeyboard.Proofs.ByteQueue
import SplitKeyboard.Proofs.Initiator.Calls
import SplitKeyboard.Proofs.Initiator.Exchange
import SplitKeyboard.Proofs.Initiator.Job
import SplitKeyboard.Proofs.Joint.Calm
import SplitKeyboard.Proofs.Joint.Freshness
import SplitKeyboard.Proofs.Rounds
import SplitKeyboard.Proofs.SharedWire.Sessions
import SplitKeyboard.Proofs.Target.Agenda
import SplitKeyboard.Proofs.Initiator.Throttle
import SplitKeyboard.Proofs.Target.Stream
import SplitKeyboard.Proofs.Confinement
import SplitKeyboard.Proofs.Initiator.Books
import SplitKeyboard.Proofs.Firmware.Resync
import SplitKeyboard.Proofs.Payload.Delivery
import SplitKeyboard.Proofs.Settings.Agreement
import SplitKeyboard.Proofs.ByteQueue.Fifo
import SplitKeyboard.Proofs.Serial.Skip
import SplitKeyboard.Proofs.Initiator.Waits
import SplitKeyboard.Proofs.Settings.LastValues
import SplitKeyboard.Proofs.Settings.Comments
import SplitKeyboard.Proofs.TypingSpeed.Window
import SplitKeyboard.Proofs.Uart.Transfers
import SplitKeyboard.Proofs.Bench.Wire
import SplitKeyboard.Proofs.ErrorBox
import SplitKeyboard.Proofs.KeyScan
import SplitKeyboard.Proofs.Uart.Clearing
