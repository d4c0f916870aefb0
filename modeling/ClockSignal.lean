import ClockSignal.WD.Basic
import ClockSignal.WD.Step
import ClockSignal.WD.Run
import ClockSignal.WD.Slicing
import ClockSignal.WD.IndexPulses
import ClockSignal.WD.Status
import ClockSignal.WD.Seek
import ClockSignal.WD.Direction
import ClockSignal.WD.Isolation
import ClockSignal.PowerPC.Instruction
import ClockSignal.Amiga.BusOperation
import ClockSignal.WD.Cadence
import ClockSignal.WD.Stepping
import ClockSignal.WD.Lifecycle
import ClockSignal.WD.SpinUp
import ClockSignal.WD.Termination
