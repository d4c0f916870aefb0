import Mathlib.Data.BitVec

/-! The WD1770 floppy-disc controller: its registers and micro-states.

`WD1770` is the controller's state as `1770.cpp` reads and writes it; the host reaches it through
`setRegister` and `getRegister`, and the drive through `processIndexHole`. Two things the file
uses are declared in its header, which is not part of the sources: the values of the status
bits, which are a parameter here (`Flags`), and the drive it inherits from, which is an
interface (`Drive`): the controller's behaviour is proved for every drive and every flag layout
in which Busy is a bit of its own. The header also declares the index-hole count, the
step-delay count and the cycle accumulator. They are integers of fixed width that wrap, here
32-bit words (`BitVec 32`), the width of the `unsigned int` that `run_for_cycles` adds to the
accumulator. The accumulator is compared unsigned, as that argument is. -/
namespace ClockSignal.WD

/-- `WD1770::State`: the micro-states `run_for_cycles` switches on. -/
inductive State where
  | waiting
  | waitForSixIndexPulses
  | beginType1
  | beginType1PostSpin
  | testTrack
  | testDirection
  | testHead
  | stepDelay
  | testVerify
  | verifyTrack
  | beginType2
  | testPause
  | testWrite
  | beginType3
  deriving DecidableEq, Repr

/-- The status bits of `WD1770::Flag`. Busy is nonzero and none of the bits a command clears
on starting covers it. -/
structure Flags where
  motorOn : BitVec 8
  busy : BitVec 8
  dataRequest : BitVec 8
  crcError : BitVec 8
  lostData : BitVec 8
  recordNotFound : BitVec 8
  busy_ne_zero : busy ≠ 0
  busy_type1 : busy &&& (dataRequest ||| crcError) = 0
  busy_type2 : busy &&& (dataRequest ||| lostData ||| recordNotFound ||| 0x60) = 0

/-- One layout that meets `Flags`' conditions: the WD1770 status register's own. -/
def Flags.standard : Flags where
  motorOn := 0x80
  busy := 0x01
  dataRequest := 0x02
  crcError := 0x08
  lostData := 0x04
  recordNotFound := 0x10
  busy_ne_zero := by decide
  busy_type1 := by decide
  busy_type2 := by decide

/-- What the controller uses of `Storage::Disk::Drive`: `step`, `get_is_track_zero`, and
`run_for_cycles(1)` with the number of index holes the disc passes in that cycle, each of which
the drive reports through `process_index_hole`. -/
structure Drive (D : Type) where
  step : D → Int → D
  isTrackZero : D → Bool
  runForCycle : D → D × Nat

/-- A drive with no disc turning: the head never leaves track zero and no index hole passes. -/
def Drive.idle : Drive Unit := ⟨fun _ _ => (), fun _ => true, fun _ => ((), 0)⟩

/-- The drive as `Storage::Disk::Drive` moves its head: a step moves the head by its direction
but never below track 0, and the track-zero sensor reads track 0. The disc turns as `rotate`
says, reporting index holes; turning does not move the head. -/
def Drive.head {R : Type} (rotate : R → R × Nat) : Drive (Nat × R) where
  step d direction := ((d.1 + direction).toNat, d.2)
  isTrackZero d := d.1 == 0
  runForCycle d := ((d.1, (rotate d.2).1), (rotate d.2).2)

/-- The controller's registers and micro-state. `nextState` is
`wait_six_index_pulses_.next_state`, `stepDelayCount` is `step_delay_.count`, and
`interruptRequest` is what `set_interrupt_request` last set. The two counts are 32-bit words.
The cycle accumulator is kept with the drive in `Config`: only `run_for_cycles`' loop reads
it. -/
structure WD1770 where
  state : State
  status : BitVec 8
  track : BitVec 8
  sector : BitVec 8
  data : BitVec 8
  command : BitVec 8
  hasCommand : Bool
  isStepIn : Bool
  dataShiftRegister : BitVec 8
  indexHoleCount : BitVec 32
  nextState : State
  stepDelayCount : BitVec 32
  interruptRequest : Bool
  deriving DecidableEq

/-- A controller with the cycle accumulator of `run_for_cycles`, a 32-bit word, and the drive
it is bound to. -/
structure Config (D : Type) where
  wd : WD1770
  cycles : BitVec 32
  drive : D

/-- A 32-bit count reaches six from five alone. -/
theorem succ_eq_six (x : BitVec 32) : x + 1 = 6 ↔ x.toNat = 5 := by bv_omega

/-- Short of the 32-bit range a count counts on without wrapping. -/
theorem toNat_succ {x : BitVec 32} (h : x.toNat + 1 < 2 ^ 32) : (x + 1).toNat = x.toNat + 1 :=
  BitVec.toNat_add_of_lt h

namespace WD1770

/-- The constructor's state: waiting, status clear, no command. Every other field is whatever
the object's memory held. -/
def PowerOn (s : WD1770) : Prop :=
  s.state = .waiting ∧ s.status = 0 ∧ s.hasCommand = false ∧ s.interruptRequest = false

/-- The power-on state whose uninitialised fields happen to be zero. -/
def zeroed : WD1770 :=
  ⟨.waiting, 0, 0, 0, 0, 0, false, false, 0, 0, .waiting, 0, false⟩

instance : DecidablePred PowerOn := fun _ =>
  inferInstanceAs (Decidable (_ ∧ _ ∧ _ ∧ _))

theorem zeroed_powerOn : zeroed.PowerOn := by decide

/-- `WD1770::set_register`. -/
def setRegister (s : WD1770) (address : Int) (value : BitVec 8) : WD1770 :=
  match address % 4 with
  | 0 => { s with command := value, hasCommand := true }
  | 1 => { s with track := value }
  | 2 => { s with sector := value }
  | _ => { s with data := value }

/-- `WD1770::get_register`. -/
def getRegister (s : WD1770) (address : Int) : BitVec 8 :=
  match address % 4 with
  | 1 => s.track
  | 2 => s.sector
  | 3 => s.data
  | _ => s.status

/-- `WD1770::process_index_hole`. -/
def processIndexHole (s : WD1770) : WD1770 :=
  let s := { s with indexHoleCount := s.indexHoleCount + 1 }
  if s.state = .waitForSixIndexPulses ∧ s.indexHoleCount = 6 then { s with state := s.nextState }
  else s

/-- `process_index_hole`, `n` times over. -/
def processIndexHoles : Nat → WD1770 → WD1770
  | 0, s => s
  | n + 1, s => processIndexHoles n s.processIndexHole

/-- Whether the Busy bit of the status register is set. -/
def busy (F : Flags) (s : WD1770) : Bool := s.status &&& F.busy != 0

/-- Whether the motor-on bit of the status register is set. -/
def motorOn (F : Flags) (s : WD1770) : Bool := s.status &&& F.motorOn != 0

/-! ### What a register write and an index hole change -/

/-- A write changes the register its address names and nothing else; a write to the command
register also marks a command pending. -/
@[simp] theorem setRegister_eq (s : WD1770) (address : Int) (value : BitVec 8) :
    s.setRegister address value =
      { s with
        command := if address % 4 = 0 then value else s.command
        hasCommand := address % 4 = 0 || s.hasCommand
        track := if address % 4 = 1 then value else s.track
        sector := if address % 4 = 2 then value else s.sector
        data := if address % 4 = 0 ∨ address % 4 = 1 ∨ address % 4 = 2 then s.data else value } := by
  have h4 : address % 4 = 0 ∨ address % 4 = 1 ∨ address % 4 = 2 ∨ address % 4 = 3 := by omega
  rcases h4 with h | h | h | h <;> simp only [setRegister, h] <;> rfl

/-- An index hole counts, and moves the controller only out of the six-pulse wait, at the
sixth count, to the state recorded on entry. -/
@[simp] theorem processIndexHole_eq (s : WD1770) :
    s.processIndexHole =
      { s with
        indexHoleCount := s.indexHoleCount + 1
        state := if s.state = .waitForSixIndexPulses ∧ s.indexHoleCount.toNat + 1 = 6 then
            s.nextState
          else s.state } := by
  have h6 : s.indexHoleCount + 1 = 6 ↔ s.indexHoleCount.toNat + 1 = 6 := by
    rw [succ_eq_six]; omega
  unfold processIndexHole
  simp only [h6]
  split_ifs <;> rfl

/-- **The registers as the host sees them.** Reading an address after a write gives the value
written when both name the track, sector or data register; the command register is write-only,
its address reading the status; every other read is as before. -/
theorem getRegister_setRegister (s : WD1770) (a b : Int) (v : BitVec 8) :
    (s.setRegister a v).getRegister b =
      if a % 4 = b % 4 ∧ a % 4 ≠ 0 then v else s.getRegister b := by
  have ha : a % 4 = 0 ∨ a % 4 = 1 ∨ a % 4 = 2 ∨ a % 4 = 3 := by omega
  have hb : b % 4 = 0 ∨ b % 4 = 1 ∨ b % 4 = 2 ∨ b % 4 = 3 := by omega
  rcases ha with ha | ha | ha | ha <;> rcases hb with hb | hb | hb | hb <;>
    simp [setRegister, getRegister, ha, hb]

end WD1770

end ClockSignal.WD
