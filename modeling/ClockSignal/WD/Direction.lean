import ClockSignal.WD.Seek

/-! Which way the head and the track register move.

`TestTrack` sets `is_step_in_` when the target lies below the track register, `TestDirection`
then counts the register down, and `TestHead` steps the head by +1: the two move opposite ways.
`direction_head_apart` says so for every drive: from `TestDirection`, the two passes that move
the register and step the head move them by one track in opposite directions, whatever the
flag. From power-on, a step-in with update takes the register down while its step takes the head
up, and a restore loads the register with 0xff before any step (`track_head_apart`).

Every step of a run comes from a pass at `TestHead` off the track-zero short-cut, one step a
pass, its direction fixed by `is_step_in_` (`run_steps`), and nothing but a pass touches the
flag (`apply_isStepIn`). -/
namespace ClockSignal.WD

/-- The directions of the steps among a drive's calls. -/
def stepsOf (calls : List DriveCall) : List Int :=
  calls.filterMap fun
    | .step d => some d
    | .runForCycle => none

@[simp] theorem stepsOf_append (a b : List DriveCall) :
    stepsOf (a ++ b) = stepsOf a ++ stepsOf b :=
  List.filterMap_append _ _ _

@[simp] theorem stepsOf_step (d : Int) : stepsOf [.step d] = [d] := rfl

@[simp] theorem stepsOf_runForCycle : stepsOf [.runForCycle] = [] := rfl

namespace Config

variable (F : Flags) {D : Type} (drv : Drive D)

/-- Whether a pass at `TestHead` from `c` takes the track-zero short-cut: after the pass's drive
cycle the drive reports track zero, and the command is not stepping in. -/
def shortcut (c : Config D) : Bool := drv.isTrackZero (cycledDrive F drv c) && !c.wd.isStepIn

/-- The steps the passes at `TestHead` of a run issue, `dir` giving each one's direction from
`is_step_in_`. -/
def issued (dir : Bool → Int) (c : Config D) : List Op → List Int
  | [] => []
  | op :: ops =>
    (if op = .pass ∧ c.wd.state = .testHead ∧ shortcut F drv c = false then
      [dir c.wd.isStepIn] else []) ++ issued dir (apply F drv op c) ops

theorem stepsOf_cycledDrive (c : Config (D × List DriveCall)) :
    stepsOf (cycledDrive F drv.logged c).2 = stepsOf c.drive.2 := by
  simp only [cycledDrive]
  split <;> simp [Drive.logged]

/-- One operation issues a step exactly when it is a pass at `TestHead` off the short-cut. -/
theorem apply_steps (op : Op) (c : Config (D × List DriveCall)) :
    stepsOf (apply F drv.logged op c).drive.2 = stepsOf c.drive.2 ++
      (if op = .pass ∧ c.wd.state = .testHead ∧ shortcut F drv.logged c = false then
        [if c.wd.isStepIn then 1 else -1] else []) := by
  cases op with
  | pass =>
    rw [apply, pass_eq]
    by_cases hs : c.wd.state = .testHead
    · simp only [WD1770.exec, hs, WD1770.testHead, shortcut]
      cases h : (drv.logged.isTrackZero (cycledDrive F drv.logged c) && !c.wd.isStepIn) <;>
        simp [h, stepsOf_cycledDrive, Drive.logged_step_snd]
    · cases h : c.wd.state <;> simp_all [WD1770.exec, stepsOf_cycledDrive]
  | _ => simp [apply]

theorem run_steps (c : Config (D × List DriveCall)) (ops : List Op) :
    stepsOf (run F drv.logged c ops).drive.2 =
      stepsOf c.drive.2 ++ issued F drv.logged (fun b => if b then 1 else -1) c ops := by
  induction ops generalizing c with
  | nil => simp [run, issued]
  | cons op ops ih => rw [run, ih, apply_steps, issued, List.append_assoc]

theorem pass_shortcut (c : Config D) (hs : c.wd.state = .testHead) (h : shortcut F drv c = true) :
    (pass F drv c).wd = { c.wd with track := 0, state := .testVerify } := by
  simp only [shortcut] at h
  simp only [pass_eq, WD1770.exec, hs, WD1770.testHead, h, if_true]

/-- Writes, index holes and cycles leave `is_step_in_` alone. -/
theorem apply_isStepIn (op : Op) (c : Config D) (hop : op ≠ .pass) :
    (apply F drv op c).wd.isStepIn = c.wd.isStepIn := by
  cases op with
  | pass => exact absurd rfl hop
  | _ => simp [apply]

/-- A pass at `TestHead` off the short-cut leaves the track register alone. -/
theorem pass_testHead_track (c : Config D) (hs : c.wd.state = .testHead)
    (h : shortcut F drv c = false) : (pass F drv c).wd.track = c.wd.track := by
  simp only [shortcut] at h
  simp only [pass_eq, WD1770.exec, hs, WD1770.testHead, h, Bool.false_eq_true, if_false]

/-- **The register and the head move apart.** From `TestDirection`, for every drive, the pass
there and the pass at `TestHead` after it, off the track-zero short-cut, move the track register
by one track and step the head by one track the other way: the head by `d`, `+1` for
`is_step_in_` and `-1` otherwise, the register by `-d`. -/
theorem direction_head_apart (c : Config (D × List DriveCall)) (hs : c.wd.state = .testDirection)
    (hsc : shortcut F drv.logged (pass F drv.logged c) = false) :
    let d : Int := if c.wd.isStepIn then 1 else -1
    (passes F drv.logged 2 c).wd.track = c.wd.track - BitVec.ofInt 8 d ∧
      stepsOf (passes F drv.logged 2 c).drive.2 = stepsOf c.drive.2 ++ [d] := by
  have h1 := pass_testDirection F drv.logged c hs
  have hh : (pass F drv.logged c).wd.state = .testHead := by rw [h1]
  have hd : (pass F drv.logged c).wd.isStepIn = c.wd.isStepIn := by rw [h1]
  refine ⟨?_, ?_⟩
  · show (pass F drv.logged (pass F drv.logged c)).wd.track = _
    rw [pass_testHead_track F _ _ hh hsc, h1]
    cases c.wd.isStepIn <;> simp only [if_true, if_false, Bool.false_eq_true] <;> bv_omega
  · rw [show passes F drv.logged 2 c = run F drv.logged c [.pass, .pass] from rfl, run_steps]
    simp [issued, apply, hs, hh, hsc, hd]

/-- The head and the track register do not move in step: a restore loads the register with 0xff
and makes no step, and a step-in with update from track 5 takes the register down to 4 while its
one step, +1, takes the head up to 6. -/
theorem track_head_apart :
    let restore : Config ((Nat × Unit) × List DriveCall) :=
      runEvents Flags.standard (Drive.head fun _ => ((), 0)).logged
        ⟨WD1770.zeroed, 0, ((0, ()), [])⟩ [.setRegister 0 0x00, .runForCycles 25]
    let stepIn : Config ((Nat × Unit) × List DriveCall) :=
      runEvents Flags.standard (Drive.head fun _ => ((), 0)).logged
        ⟨WD1770.zeroed, 0, ((5, ()), [])⟩
        [.setRegister 1 5, .setRegister 0 0x50, .runForCycles 57]
    (restore.wd.track = 0xff ∧ restore.drive.1.1 = 0 ∧ restore.drive.2 = []) ∧
      (stepIn.wd.track = 4 ∧ stepIn.drive.1.1 = 6 ∧ stepIn.drive.2 = [.step 1]) := by
  decide

end Config
end ClockSignal.WD
