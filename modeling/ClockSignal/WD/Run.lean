import ClockSignal.WD.Step

/-! Runs of the controller, at two grains.

The host sees the controller through three calls: `set_register`, `process_index_hole` and
`run_for_cycles` (`Event`). Inside `run_for_cycles` the controller moves by passes of its loop,
and the drive reports index holes in the middle of a pass, after the accumulator and before the
switch. `Op` is the finer grain: a register write, an index hole, the accumulator's increment,
and a pass with the drive cycle's index holes taken out (`pass`). An index hole touches neither
the accumulator nor the status register, so a pass's holes may as well come first, and then
each host call is a list of `Op`s (`Event.ops`); `run_events` says that running the calls is
running their operations. Properties "under any interleaving" are stated over `Op` lists, which
cover every host run, and every placement of index holes besides.

`Reachable` is every configuration some run reaches from power-on. -/
namespace ClockSignal.WD

/-- The controller's atomic steps. -/
inductive Op where
  | setRegister (address : Int) (value : BitVec 8)
  | processIndexHole
  | addCycles (n : BitVec 32)
  | pass
  deriving DecidableEq

/-- Whether an operation writes a register. -/
def Op.isWrite : Op → Bool
  | .setRegister _ _ => true
  | _ => false

/-- A host call. -/
inductive Event where
  | setRegister (address : Int) (value : BitVec 8)
  | processIndexHole
  | runForCycles (n : BitVec 32)

namespace Config

variable (F : Flags) {D : Type} (drv : Drive D)

/-- One pass of the loop with its drive cycle's index holes taken out: eight cycles off the
accumulator, the drive's cycle while the motor is on, and the switch, which changes nothing at
a state it has no case for. -/
def pass (c : Config D) : Config D :=
  let c := { c with cycles := c.cycles - 8 }
  let c := if c.wd.motorOn F then { c with drive := (drv.runForCycle c.drive).1 } else c
  (c.exec F drv).getD c

/-- The drive after a pass's drive cycle. -/
def cycledDrive (c : Config D) : D := if c.wd.motorOn F then (drv.runForCycle c.drive).1 else c.drive

/-- A pass is the switch on the cycled drive, with eight cycles off the accumulator. -/
theorem pass_eq (c : Config D) :
    pass F drv c =
      match c.wd.exec F drv (cycledDrive F drv c) with
      | some r => ⟨r.1, c.cycles - 8, r.2⟩
      | none => ⟨c.wd, c.cycles - 8, cycledDrive F drv c⟩ := by
  simp only [pass, cycledDrive, exec]
  split_ifs <;> cases c.wd.exec F drv _ <;> rfl

def apply : Op → Config D → Config D
  | .setRegister a v, c => { c with wd := c.wd.setRegister a v }
  | .processIndexHole, c => { c with wd := c.wd.processIndexHole }
  | .addCycles n, c => { c with cycles := c.cycles + n }
  | .pass, c => pass F drv c

def run (c : Config D) : List Op → Config D
  | [] => c
  | op :: ops => run (apply F drv op c) ops

theorem run_append (c : Config D) (a b : List Op) :
    run F drv c (a ++ b) = run F drv (run F drv c a) b := by
  induction a generalizing c with
  | nil => rfl
  | cons op rest ih => exact ih _

/-- `n` passes of the loop. -/
def passes (n : Nat) (c : Config D) : Config D := (pass F drv)^[n] c

/-- The passes among some operations. -/
def passCount (ops : List Op) : Nat := ops.count .pass

@[simp] theorem passCount_nil : passCount [] = 0 := rfl

@[simp] theorem passCount_cons (op : Op) (ops : List Op) :
    passCount (op :: ops) = passCount ops + if op = .pass then 1 else 0 := by
  simp [passCount, List.count_cons]

@[simp] theorem passCount_append (a b : List Op) :
    passCount (a ++ b) = passCount a + passCount b :=
  List.count_append _ _ _

@[simp] theorem passCount_replicate_hole (k : Nat) :
    passCount (List.replicate k .processIndexHole) = 0 := by
  simp [passCount, List.count_replicate]

theorem passes_add (m n : Nat) (c : Config D) :
    passes F drv (m + n) c = passes F drv m (passes F drv n c) :=
  Function.iterate_add_apply _ _ _ _

/-- The index holes the drive reports in the pass that starts at `c`. -/
def holes (c : Config D) : Nat := if c.wd.motorOn F then (drv.runForCycle c.drive).2 else 0

/-- The operations of `loop`: each pass's index holes, then the pass. -/
def loopOps : Nat → Config D → List Op
  | 0, _ => []
  | fuel + 1, c =>
    if 8 < c.cycles then
      List.replicate (holes F drv c) .processIndexHole ++ .pass ::
        match (driveCycle F drv c).exec F drv with
        | some c' => loopOps fuel c'
        | none => []
    else []

theorem run_holes (c : Config D) (k : Nat) :
    run F drv c (List.replicate k .processIndexHole) =
      { c with wd := c.wd.processIndexHoles k } := by
  induction k generalizing c with
  | zero => rfl
  | succ k ih => exact ih _

theorem processIndexHoles_status (s : WD1770) (k : Nat) :
    (s.processIndexHoles k).status = s.status := by
  induction k generalizing s with
  | zero => rfl
  | succ k ih => simp [WD1770.processIndexHoles, ih]

theorem motorOn_processIndexHoles (s : WD1770) (k : Nat) :
    (s.processIndexHoles k).motorOn F = s.motorOn F := by
  simp only [WD1770.motorOn, processIndexHoles_status]

/-- A pass after its index holes is the loop's body. -/
theorem pass_after_holes (c : Config D) :
    pass F drv (run F drv c (List.replicate (holes F drv c) .processIndexHole)) =
      ((driveCycle F drv c).exec F drv).getD (driveCycle F drv c) := by
  rw [run_holes]
  by_cases hm : c.wd.motorOn F
  · simp only [pass, holes, driveCycle, hm, if_true, motorOn_processIndexHoles]
  · simp only [pass, holes, driveCycle, hm, if_false, Bool.false_eq_true,
      WD1770.processIndexHoles]

/-- The loop is the run of its operations. -/
theorem loop_run (fuel : Nat) (c : Config D) :
    exit (loop F drv fuel c) = run F drv c (loopOps F drv fuel c) := by
  induction fuel generalizing c with
  | zero => rfl
  | succ fuel ih =>
    by_cases h : 8 < c.cycles
    · have hp := pass_after_holes F drv c
      simp only [loop, loopOps, h, if_true, run_append]
      cases he : (driveCycle F drv c).exec F drv with
      | none => simp only [run, apply, hp, he, Option.getD_none]; rfl
      | some c' => simp only [run, apply, hp, he, Option.getD_some]; exact ih c'
    · rw [loop, loopOps, if_neg h, if_neg h]; rfl

/-! ### Host calls -/

namespace Event

def apply : Event → Config D → Config D
  | .setRegister a v, c => { c with wd := c.wd.setRegister a v }
  | .processIndexHole, c => { c with wd := c.wd.processIndexHole }
  | .runForCycles n, c => runForCycles F drv n c

/-- The operations a host call performs from `c`. -/
def ops : Event → Config D → List Op
  | .setRegister a v, _ => [.setRegister a v]
  | .processIndexHole, _ => [.processIndexHole]
  | .runForCycles n, c =>
    .addCycles n :: loopOps F drv (c.cycles + n).toNat { c with cycles := c.cycles + n }

theorem apply_eq_run (e : Event) (c : Config D) : apply F drv e c = run F drv c (ops F drv e c) := by
  cases e with
  | runForCycles n => exact loop_run F drv _ _
  | _ => rfl

end Event

def runEvents (c : Config D) : List Event → Config D
  | [] => c
  | e :: es => runEvents (Event.apply F drv e c) es

/-- The operations of a host run. -/
def eventOps (c : Config D) : List Event → List Op
  | [] => []
  | e :: es => Event.ops F drv e c ++ eventOps (Event.apply F drv e c) es

/-- **A host run is the run of its operations.** -/
theorem run_events (c : Config D) (es : List Event) :
    runEvents F drv c es = run F drv c (eventOps F drv c es) := by
  induction es generalizing c with
  | nil => rfl
  | cons e es ih => rw [runEvents, eventOps, run_append, ← Event.apply_eq_run, ih]

/-! ### Reachable configurations -/

/-- The configurations a run reaches from power-on, whatever the host and the drive do. -/
inductive Reachable : Config D → Prop
  | powerOn (c : Config D) : c.wd.PowerOn → Reachable c
  | step (op : Op) {c : Config D} : Reachable c → Reachable (apply F drv op c)

theorem Reachable.run {c : Config D} (h : Reachable F drv c) (ops : List Op) :
    Reachable F drv (run F drv c ops) := by
  induction ops generalizing c with
  | nil => exact h
  | cons op ops ih => exact ih (h.step op)

theorem Reachable.runEvents {c : Config D} (h : Reachable F drv c) (es : List Event) :
    Reachable F drv (runEvents F drv c es) := by
  rw [run_events]; exact Reachable.run F drv h _

end Config
end ClockSignal.WD
