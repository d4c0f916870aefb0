import ClockSignal.WD.Run

/-! Slicing `run_for_cycles`.

The switch never reads the accumulator, and the loop's condition reads nothing else, so cycles
given to the controller in one call or in two make the same passes in the same order as long
as the accumulator does not wrap: `runForCycles_add` says that `run_for_cycles(a)` then
`run_for_cycles(b)` is `run_for_cycles(a + b)`, state, accumulator and drive, for every drive,
whenever the accumulator and the two arguments sum to less than 2^32 and the single call ends
through its loop condition rather than the switch's `default`. Since it holds for every drive,
it holds for one that records the calls made of it (`Drive.logged`): the two make the same
drive calls. At the wrap the slicing shows: a call that wraps the accumulator round below
nine makes no pass where two smaller calls make one (`slicing_wraps`). -/
namespace ClockSignal.WD

/-- A call the controller makes of its drive. -/
inductive DriveCall where
  | runForCycle
  | step (direction : Int)
  deriving DecidableEq

/-- `drv`, recording each call made of it. -/
def Drive.logged {D : Type} (drv : Drive D) : Drive (D × List DriveCall) where
  step d direction := (drv.step d.1 direction, d.2 ++ [.step direction])
  isTrackZero d := drv.isTrackZero d.1
  runForCycle d := (((drv.runForCycle d.1).1, d.2 ++ [.runForCycle]), (drv.runForCycle d.1).2)

theorem Drive.logged_step_snd {D : Type} (drv : Drive D) (d : D × List DriveCall) (dir : Int) :
    (drv.logged.step d dir).2 = d.2 ++ [.step dir] := rfl

namespace Config

variable (F : Flags) {D : Type} (drv : Drive D)

/-- The loop's condition on the value of the accumulator. -/
theorem eight_lt_iff {x : BitVec 32} : 8 < x ↔ 8 < x.toNat := BitVec.lt_def

/-- Eight off an accumulator of more than eight leaves the rest: the loop's subtraction never
wraps. -/
theorem toNat_sub_eight {x : BitVec 32} (h : 8 < x.toNat) : (x - 8).toNat = x.toNat - 8 :=
  BitVec.toNat_sub_of_le (BitVec.le_def.2 (Nat.le_of_lt h))

/-- Whether `run_for_cycles(n)` from `c` leaves through its loop condition, never reaching the
switch's `default`. -/
def completes (n : BitVec 32) (c : Config D) : Bool :=
  match loop F drv (c.cycles + n).toNat { c with cycles := c.cycles + n } with
  | .ok _ => true
  | .error _ => false

theorem exec_cycles {c c' : Config D} (h : c.exec F drv = some c') : c'.cycles = c.cycles := by
  simp only [exec, Option.map_eq_some'] at h
  obtain ⟨r, -, rfl⟩ := h
  rfl

theorem exec_setCycles (c : Config D) (x : BitVec 32) :
    exec F drv { c with cycles := x } = (exec F drv c).map fun c' => { c' with cycles := x } := by
  simp only [exec, Option.map_map]
  rfl

theorem driveCycle_cycles (c : Config D) : (driveCycle F drv c).cycles = c.cycles - 8 := by
  simp only [driveCycle]; split <;> rfl

/-- A pass of the loop from more than eight cycles takes eight of them. -/
theorem exec_driveCycle_cycles {c c' : Config D} (h8 : 8 < c.cycles.toNat)
    (he : (driveCycle F drv c).exec F drv = some c') : c'.cycles.toNat = c.cycles.toNat - 8 := by
  rw [exec_cycles F drv he, driveCycle_cycles, toNat_sub_eight h8]

theorem driveCycle_add (c : Config D) (b : BitVec 32) :
    driveCycle F drv { c with cycles := c.cycles + b } =
      { driveCycle F drv c with cycles := c.cycles - 8 + b } := by
  have hb : c.cycles + b - 8 = c.cycles - 8 + b := by
    rw [BitVec.sub_toAdd, BitVec.sub_toAdd]; ac_rfl
  simp only [driveCycle, hb]
  split <;> rfl

/-- With the accumulator in reach of the fuel, one more unit of fuel changes nothing. -/
theorem loop_succ_fuel (fuel : Nat) (c : Config D) (h : c.cycles.toNat ≤ 8 * fuel + 8) :
    loop F drv (fuel + 1) c = loop F drv fuel c := by
  induction fuel generalizing c with
  | zero => simp only [loop, if_neg (show ¬ 8 < c.cycles by rw [eight_lt_iff]; omega)]
  | succ fuel ih =>
    rw [loop, loop]
    split_ifs with h8
    · cases he : (driveCycle F drv c).exec F drv with
      | none => rfl
      | some c' =>
        exact ih c' (by rw [exec_driveCycle_cycles F drv (eight_lt_iff.1 h8) he]; omega)
    · rfl

theorem loop_fuel (fuel fuel' : Nat) (c : Config D) (h : c.cycles.toNat ≤ 8 * fuel + 8)
    (hle : fuel ≤ fuel') : loop F drv fuel' c = loop F drv fuel c := by
  induction fuel', hle using Nat.le_induction with
  | base => rfl
  | succ fuel' hle ih => rw [loop_succ_fuel F drv fuel' c (by omega), ih]

theorem loop_ok_cycles (fuel : Nat) {c c' : Config D} (h : loop F drv fuel c = .ok c') :
    c'.cycles.toNat ≤ c.cycles.toNat := by
  induction fuel generalizing c with
  | zero => cases h; exact le_rfl
  | succ fuel ih =>
    rw [loop] at h
    split_ifs at h with h8
    · cases he : (driveCycle F drv c).exec F drv with
      | none => rw [he] at h; cases h
      | some c₁ =>
        rw [he] at h
        have := exec_driveCycle_cycles F drv (eight_lt_iff.1 h8) he
        have := ih h
        omega
    · cases h; exact le_rfl

/-- **Extra cycles resume the loop where it stopped**: with `b` more on the accumulator, short
of its range, the loop makes the passes it made without them, then carries on from where it
stopped, `b` cycles richer; at the switch's `default` it stops at the same pass. -/
theorem loop_add (fuel : Nat) (b : BitVec 32) (c : Config D)
    (h : c.cycles.toNat + b.toNat ≤ 8 * fuel + 8) (hb : c.cycles.toNat + b.toNat < 2 ^ 32) :
    loop F drv fuel { c with cycles := c.cycles + b } =
      match loop F drv fuel c with
      | .ok c' => loop F drv fuel { c' with cycles := c'.cycles + b }
      | .error c' => .error { c' with cycles := c'.cycles + b } := by
  induction fuel generalizing c with
  | zero => rfl
  | succ fuel ih =>
    by_cases h8 : 8 < c.cycles
    · have h8' := eight_lt_iff.1 h8
      have hcb : 8 < c.cycles + b := by rw [eight_lt_iff, BitVec.toNat_add_of_lt hb]; omega
      simp only [loop, h8, hcb, if_true]
      rw [driveCycle_add F drv c b, exec_setCycles]
      cases he : (driveCycle F drv c).exec F drv with
      | none => simp only [Option.map_none', driveCycle_cycles]
      | some c₁ =>
        have hc₁ := exec_driveCycle_cycles F drv h8' he
        simp only [Option.map_some']
        rw [← driveCycle_cycles F drv c, ← exec_cycles F drv he, ih c₁ (by omega) (by omega)]
        cases hl : loop F drv fuel c₁ with
        | error c' => rfl
        | ok c' =>
          have := loop_ok_cycles F drv fuel hl
          refine (loop_succ_fuel F drv fuel _ ?_).symm
          simp only
          rw [BitVec.toNat_add_of_lt (by omega)]
          omega
    · simp only [loop, h8, if_false]

/-- **Slicing.** Two calls of `run_for_cycles` are the call of their sum, controller,
accumulator and drive alike, for every drive, whenever the accumulator and the two arguments
sum to less than 2^32 and the single call never reaches the switch's `default`. -/
theorem runForCycles_add (a b : BitVec 32) (c : Config D)
    (hab : c.cycles.toNat + a.toNat + b.toNat < 2 ^ 32) (h : completes F drv (a + b) c = true) :
    runForCycles F drv b (runForCycles F drv a c) = runForCycles F drv (a + b) c := by
  have ha : (c.cycles + a).toNat = c.cycles.toNat + a.toNat := BitVec.toNat_add_of_lt (by omega)
  have habN : (c.cycles + a + b).toNat = c.cycles.toNat + a.toNat + b.toNat := by
    rw [BitVec.toNat_add_of_lt (by omega), ha]
  have hsplit := loop_add F drv (c.cycles + a + b).toNat b { c with cycles := c.cycles + a }
    (by simp only; omega) (by simp only; omega)
  have hfirst : loop F drv (c.cycles + a + b).toNat { c with cycles := c.cycles + a } =
      loop F drv (c.cycles + a).toNat { c with cycles := c.cycles + a } :=
    loop_fuel F drv _ _ _ (by simp only; omega) (by omega)
  simp only [hfirst, completes, runForCycles, ← BitVec.add_assoc] at h hsplit ⊢
  rw [hsplit] at h ⊢
  cases hl : loop F drv (c.cycles + a).toNat { c with cycles := c.cycles + a } with
  | error c' => rw [hl] at h; cases h
  | ok c' =>
    have := loop_ok_cycles F drv _ hl
    have hb : (c'.cycles + b).toNat = c'.cycles.toNat + b.toNat :=
      BitVec.toNat_add_of_lt (by simp only at this; omega)
    simp only [exit] at this ⊢
    rw [loop_fuel F drv (c'.cycles + b).toNat (c.cycles + a + b).toNat _ (by simp only; omega)
      (by omega)]

theorem runForCycles_add_seek :
    let c : Config Unit := ⟨WD1770.zeroed.setRegister 0 0x10, 0, ()⟩
    (c.cycles.toNat + (20 : BitVec 32).toNat + (30 : BitVec 32).toNat < 2 ^ 32 ∧
      completes Flags.standard Drive.idle (20 + 30) c = true) ∧
      runForCycles Flags.standard Drive.idle 30 (runForCycles Flags.standard Drive.idle 20 c) =
        runForCycles Flags.standard Drive.idle (20 + 30) c :=
  ⟨⟨by decide, by decide⟩, runForCycles_add _ _ 20 30 _ (by decide) (by decide)⟩

/-- At `BeginType3`, four cycles short of the accumulator's range: one call of twelve cycles
wraps the accumulator round to eight and makes no pass, so it never reaches the switch's
`default` and keeps eight cycles, while calls of two and then ten make one pass, which reaches
the `default`, and leave the accumulator at zero. -/
theorem slicing_wraps :
    let c : Config Unit := ⟨{ WD1770.zeroed with state := .beginType3 }, 0xFFFFFFFC, ()⟩
    completes Flags.standard Drive.idle (2 + 10) c = true ∧
      (runForCycles Flags.standard Drive.idle (2 + 10) c).cycles = 8 ∧
      (runForCycles Flags.standard Drive.idle 10
        (runForCycles Flags.standard Drive.idle 2 c)).cycles = 0 := by
  decide

end Config
end ClockSignal.WD
