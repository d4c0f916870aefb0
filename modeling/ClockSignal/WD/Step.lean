import ClockSignal.WD.Basic

/-! `run_for_cycles`: the state switch and the loop around it.

Each `case` of the switch is a function of its own, named after its state; `exec` is the switch,
`none` where the switch has no case and falls to its `default`, which returns from
`run_for_cycles`. The loop takes eight cycles off the accumulator while more than eight are
left, runs the drive for a cycle while the motor is on, and executes the switch once. The loop
is written with fuel; `runForCycles` gives it the accumulator as fuel, which is more passes than
the loop can make. The accumulator is a 32-bit word: the addition wraps, and the loop's
subtraction never does, since it subtracts only from more than eight. The accumulator and the drive live in `Config`; the switch sees the
controller and the drive only. -/
namespace ClockSignal.WD
namespace WD1770

variable (F : Flags) {D : Type} (drv : Drive D)

/-- `case State::Waiting`: a pending command is taken; bit 7 and bit 6 pick its type. -/
def waiting (s : WD1770) : WD1770 :=
  if s.hasCommand then
    { s with
      hasCommand := false
      state := if s.command &&& 0x80 != 0 then
          (if s.command &&& 0x40 != 0 then .beginType3 else .beginType2)
        else .beginType1 }
  else s

/-- `case State::WaitForSixIndexPulses`: the motor is on; the wait itself is
`processIndexHole`'s. -/
def waitForSixIndexPulses (s : WD1770) : WD1770 :=
  { s with status := s.status ||| F.motorOn }

/-- `case State::BeginType1`. -/
def beginType1 (s : WD1770) : WD1770 :=
  let s := { s with
    status := (s.status ||| F.busy) &&& ~~~(F.dataRequest ||| F.crcError)
    interruptRequest := false
    state := .beginType1PostSpin }
  if s.command &&& 0x08 != 0 then
    { s with nextState := s.state, indexHoleCount := 0, state := .waitForSixIndexPulses }
  else s

/-- The switch on `command_ >> 4` in `case State::BeginType1PostSpin`: restore loads the track
register with 0xff and falls through into seek's clearing of the data register; step in and
step out set the direction. -/
def postSpinSetup (s : WD1770) : WD1770 :=
  match (s.command >>> 4).toNat with
  | 0 => { s with track := 0xff, data := 0x00 }
  | 1 => { s with data := 0x00 }
  | 4 | 5 => { s with isStepIn := true }
  | 6 | 7 => { s with isStepIn := false }
  | _ => s

/-- The switch of `postSpinSetup` as one record update. -/
theorem postSpinSetup_eq (s : WD1770) :
    s.postSpinSetup =
      { s with
        track := if (s.command >>> 4).toNat = 0 then 0xff else s.track
        data := if (s.command >>> 4).toNat ≤ 1 then 0x00 else s.data
        isStepIn := if (s.command >>> 4).toNat = 4 ∨ (s.command >>> 4).toNat = 5 then true
          else if (s.command >>> 4).toNat = 6 ∨ (s.command >>> 4).toNat = 7 then false
          else s.isStepIn } := by
  unfold postSpinSetup
  generalize (s.command >>> 4).toNat = n
  rcases n with _ | _ | _ | _ | _ | _ | _ | _ | n <;> simp

/-- `case State::BeginType1PostSpin`. -/
def beginType1PostSpin (s : WD1770) : WD1770 :=
  let s := s.postSpinSetup
  { s with
    state := if s.command >>> 5 = 0 then .testTrack
      else if s.command &&& 0x10 != 0 then .testDirection else .testHead }

/-- `case State::TestTrack`. -/
def testTrack (s : WD1770) : WD1770 :=
  let s := { s with dataShiftRegister := s.data }
  if s.track = s.dataShiftRegister then { s with state := .testVerify }
  else { s with isStepIn := decide (s.dataShiftRegister < s.track), state := .testDirection }

/-- `case State::TestDirection`. -/
def testDirection (s : WD1770) : WD1770 :=
  { s with track := s.track + (if s.isStepIn then -1 else 1), state := .testHead }

/-- `case State::TestHead`: at track zero while stepping out, the track register is zeroed;
otherwise the head steps. -/
def testHead (s : WD1770) (d : D) : WD1770 × D :=
  if drv.isTrackZero d && !s.isStepIn then ({ s with track := 0, state := .testVerify }, d)
  else ({ s with state := .stepDelay, stepDelayCount := 0 },
    drv.step d (if s.isStepIn then 1 else -1))

/-- `case State::StepDelay`: the count is compared with the step rate by value, and counts on,
wrapping at 32 bits. -/
def stepDelay (s : WD1770) : WD1770 :=
  let s := if s.stepDelayCount.toNat = (s.command &&& 3).toNat then
      { s with state := if s.command >>> 5 != 0 then .testVerify else .testTrack }
    else s
  { s with stepDelayCount := s.stepDelayCount + 1 }

/-- `case State::TestVerify`. -/
def testVerify (s : WD1770) : WD1770 :=
  if s.command &&& 0x04 != 0 then { s with state := .verifyTrack }
  else { s with interruptRequest := true, status := s.status &&& ~~~F.busy, state := .waiting }

/-- `case State::BeginType2`. -/
def beginType2 (s : WD1770) : WD1770 :=
  let s := { s with
    status := (s.status ||| F.busy) &&&
      ~~~(F.dataRequest ||| F.lostData ||| F.recordNotFound ||| 0x60)
    state := .testPause }
  if s.command &&& 0x08 = 0 then
    { s with nextState := s.state, indexHoleCount := 0, state := .waitForSixIndexPulses }
  else s

/-- `case State::TestPause`. -/
def testPause (s : WD1770) : WD1770 := { s with state := .testWrite }

/-- The switch of `run_for_cycles`; `none` for the states it has no case for. -/
def exec (s : WD1770) (d : D) : Option (WD1770 × D) :=
  match s.state with
  | .waiting => some (s.waiting, d)
  | .waitForSixIndexPulses => some (s.waitForSixIndexPulses F, d)
  | .beginType1 => some (s.beginType1 F, d)
  | .beginType1PostSpin => some (s.beginType1PostSpin, d)
  | .testTrack => some (s.testTrack, d)
  | .testDirection => some (s.testDirection, d)
  | .testHead => some (s.testHead drv d)
  | .stepDelay => some (s.stepDelay, d)
  | .testVerify => some (s.testVerify F, d)
  | .beginType2 => some (s.beginType2 F, d)
  | .testPause => some (s.testPause, d)
  | .verifyTrack | .testWrite | .beginType3 => none

/-- The switch's control-flow graph: the states one pass can lead to, from each state. -/
def successors : State → List State
  | .waiting => [.waiting, .beginType1, .beginType2, .beginType3]
  | .waitForSixIndexPulses => [.waitForSixIndexPulses]
  | .beginType1 => [.beginType1PostSpin, .waitForSixIndexPulses]
  | .beginType1PostSpin => [.testTrack, .testDirection, .testHead]
  | .testTrack => [.testVerify, .testDirection]
  | .testDirection => [.testHead]
  | .testHead => [.testVerify, .stepDelay]
  | .stepDelay => [.stepDelay, .testVerify, .testTrack]
  | .testVerify => [.verifyTrack, .waiting]
  | .beginType2 => [.testPause, .waitForSixIndexPulses]
  | .testPause => [.testWrite]
  | .verifyTrack | .testWrite | .beginType3 => []

/-- Every pass follows the control-flow graph. -/
theorem exec_successor {s : WD1770} {d : D} {r : WD1770 × D} (h : s.exec F drv d = some r) :
    r.1.state ∈ successors s.state := by
  cases hs : s.state <;>
    simp only [exec, hs, Option.some.injEq, reduceCtorEq] at h <;> subst h <;>
    simp only [waiting, waitForSixIndexPulses, beginType1, beginType1PostSpin, testTrack,
      testDirection, testHead, stepDelay, testVerify, beginType2, testPause, successors] <;>
    (try split_ifs) <;> simp [hs]

/-- No case of the switch writes the command register, and only `Waiting` touches the pending
flag, to clear it. -/
theorem exec_command {s : WD1770} {d : D} {r : WD1770 × D} (h : s.exec F drv d = some r) :
    r.1.command = s.command ∧ (r.1.hasCommand = true → s.hasCommand = true) := by
  cases hs : s.state <;>
    simp only [exec, hs, Option.some.injEq, reduceCtorEq] at h <;> subst h <;>
    simp only [waiting, waitForSixIndexPulses, beginType1, beginType1PostSpin, postSpinSetup_eq,
      testTrack, testDirection, testHead, stepDelay, testVerify, beginType2, testPause] <;>
    (try split_ifs) <;> simp_all

end WD1770

namespace Config

variable (F : Flags) {D : Type} (drv : Drive D)

/-- The top of the loop body: eight cycles off the accumulator, then, while the motor is on, a
cycle of the drive and the index holes it reports. -/
def driveCycle (c : Config D) : Config D :=
  let c := { c with cycles := c.cycles - 8 }
  if c.wd.motorOn F then
    { c with
      wd := c.wd.processIndexHoles (drv.runForCycle c.drive).2
      drive := (drv.runForCycle c.drive).1 }
  else c

/-- The switch on a configuration; it leaves the accumulator alone. -/
def exec (c : Config D) : Option (Config D) :=
  (c.wd.exec F drv c.drive).map fun r => { c with wd := r.1, drive := r.2 }

/-- The loop of `run_for_cycles`; `.error` is the exit through the switch's `default`. -/
def loop : Nat → Config D → Except (Config D) (Config D)
  | 0, c => .ok c
  | fuel + 1, c =>
    if 8 < c.cycles then
      match (driveCycle F drv c).exec F drv with
      | some c' => loop fuel c'
      | none => .error (driveCycle F drv c)
    else .ok c

/-- Where the loop ends, through its condition or through the switch's `default`. -/
def exit : Except (Config D) (Config D) → Config D
  | .ok c | .error c => c

/-- `WD1770::run_for_cycles`: the argument is added to the accumulator, modulo 2^32, and the
loop is given the sum as fuel, one unit for each of the at most `sum / 8` passes it makes. -/
def runForCycles (n : BitVec 32) (c : Config D) : Config D :=
  exit (loop F drv (c.cycles + n).toNat { c with cycles := c.cycles + n })

end Config
end ClockSignal.WD
