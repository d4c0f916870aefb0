import ClockSignal.WD.Slicing
import ClockSignal.WD.Status
import Mathlib.Data.Nat.Bitwise

/-! Restore and seek.

Restore and seek share their stepping loop: `TestTrack` compares the track register with the
target in the data register, `TestDirection` moves the register one track toward it, `TestHead`
steps the head, and the step delay waits `r + 1` passes. Both commands zero the data register in
`BeginType1PostSpin` (the statement sits under seek's label, where restore falls through to it),
so the target is always track 0; and while the register comes down, `TestHead` steps the head
up.

With the head modelled by `Drive.head`, `restore_seek_passes` follows a restore or seek with the
h and v bits clear from `Waiting` back to `Waiting`, for every head position and track register:
taking the command (`passes_beginType1`, `pass_postSpin`), one step cycle (`passes_stepCycle`),
the cycles by induction (`passes_stepCycles`), and arriving (`passes_arrive`). `restore_seek_run` carries it to
every interleaving of the host's calls: such a command never waits for index holes
(`WD1770.exec_quiet`), and outside the wait they only count. -/
namespace ClockSignal.WD

/-- With the h and v bits clear together, each of them is clear. -/
theorem hv_clear_bits {x : BitVec 8} (h : x &&& 0x0C = 0) : x &&& 0x08 = 0 ∧ x &&& 0x04 = 0 := by
  constructor
  · rw [show (0x08 : BitVec 8) = 0x0C &&& 0x08 from rfl, ← BitVec.and_assoc, h]; rfl
  · rw [show (0x04 : BitVec 8) = 0x0C &&& 0x04 from rfl, ← BitVec.and_assoc, h]; rfl

/-- A command whose top three bits are at most 011 is a Type 1 command: its bit 7 is clear. -/
theorem bit7_clear {x : BitVec 8} (h : (x >>> 5).toNat < 4) : x &&& 0x80 = 0 := by
  have hx : x.toNat < 2 ^ 7 := by
    simp only [BitVec.toNat_ushiftRight, Nat.shiftRight_eq_div_pow] at h; omega
  apply BitVec.eq_of_toNat_eq
  rw [BitVec.toNat_and, show (0x80 : BitVec 8).toNat = 2 ^ 7 from rfl, Nat.and_two_pow,
    Nat.testBit_lt_two_pow hx]
  rfl

theorem toNat_shift_four (x : BitVec 8) : (x >>> 4).toNat / 2 = (x >>> 5).toNat := by
  simp only [BitVec.toNat_ushiftRight, Nat.shiftRight_eq_div_pow, Nat.div_div_eq_div_mul]

namespace WD1770

variable (F : Flags) {D : Type} (drv : Drive D)

/-- The track register a restore or seek steps from: 0xff for a restore, which loads it, and the
track register itself for a seek. -/
def startTrack (s : WD1770) : BitVec 8 := if (s.command >>> 4).toNat = 0 then 0xff else s.track

/-- What a restore or seek keeps once taken: no command pending, the h bit clear, and neither
the wait nor `BeginType2`. -/
def Quiet (s : WD1770) : Prop :=
  s.hasCommand = false ∧ s.command &&& 0x08 = 0 ∧ s.state ≠ .waitForSixIndexPulses ∧
    s.state ≠ .beginType2

/-- In the control-flow graph the wait is entered only from a `BeginType` state. -/
theorem mem_successors_wait {st : State} (h : .waitForSixIndexPulses ∈ successors st) :
    st = .waitForSixIndexPulses ∨ st = .beginType1 ∨ st = .beginType2 := by
  cases st <;> simp [successors] at h ⊢

/-- In the control-flow graph `BeginType2` is entered only from `Waiting`. -/
theorem mem_successors_beginType2 {st : State} (h : .beginType2 ∈ successors st) :
    st = .waiting := by
  cases st <;> simp [successors] at h ⊢

theorem exec_quiet {s : WD1770} {d : D} {r : WD1770 × D} (h : s.exec F drv d = some r)
    (hq : s.Quiet) : r.1.Quiet := by
  obtain ⟨hc, hh, hw, hb⟩ := hq
  obtain ⟨hcmd, hpend⟩ := exec_command F drv h
  refine ⟨by cases hr : r.1.hasCommand <;> simp_all, hcmd ▸ hh, ?_⟩
  by_cases hs : s.state = .waiting
  · simp only [exec, hs, Option.some.injEq] at h; subst h
    simp [waiting, hc, hs]
  by_cases hs1 : s.state = .beginType1
  · simp only [exec, hs1, Option.some.injEq] at h; subst h
    refine ⟨mt (beginType1_waits F s).1 (by simpa using hh), ?_⟩
    simp only [beginType1]; split_ifs <;> simp
  have hsucc := exec_successor F drv h
  refine ⟨fun h' => ?_, fun h' => hs (mem_successors_beginType2 (h' ▸ hsucc))⟩
  rcases mem_successors_wait (h' ▸ hsucc) with h | h | h <;> contradiction

end WD1770

namespace Config

variable (F : Flags) {D : Type} (drv : Drive D)

/-- `Waiting` takes a pending Type 1 command. -/
theorem pass_take (c : Config D) (hs : c.wd.state = .waiting) (hc : c.wd.hasCommand = true)
    (h7 : c.wd.command &&& 0x80 = 0) :
    (pass F drv c).wd = { c.wd with hasCommand := false, state := .beginType1 } := by
  simp only [pass_eq, WD1770.exec, hs, WD1770.waiting, hc, h7, bne_self_eq_false,
    Bool.false_eq_true, if_false, if_true]

theorem pass_quiet (c : Config D) (hq : c.wd.Quiet) : (pass F drv c).wd.Quiet := by
  rw [pass_eq]
  cases h : c.wd.exec F drv (cycledDrive F drv c) with
  | none => exact hq
  | some r => exact WD1770.exec_quiet F drv h hq

theorem passes_quiet (n : Nat) (c : Config D) (hq : c.wd.Quiet) : (passes F drv n c).wd.Quiet := by
  induction n generalizing c with
  | zero => exact hq
  | succ n ih => exact ih _ (pass_quiet F drv c hq)

theorem pass_testDirection (c : Config D) (hs : c.wd.state = .testDirection) :
    (pass F drv c).wd =
      { c.wd with track := c.wd.track + (if c.wd.isStepIn then -1 else 1), state := .testHead } := by
  simp only [pass_eq, WD1770.exec, hs, WD1770.testDirection]

/-- A pass in `StepDelay` whose count is not at the step rate counts one more. -/
theorem pass_stepDelay_count (c : Config D) (hs : c.wd.state = .stepDelay)
    (hk : c.wd.stepDelayCount.toNat ≠ (c.wd.command &&& 3).toNat) :
    (pass F drv c).wd = { c.wd with stepDelayCount := c.wd.stepDelayCount + 1 } := by
  simp only [pass_eq, WD1770.exec, hs, WD1770.stepDelay, hk, if_false]

/-- `TestVerify` with the v bit clear ends the command: the interrupt request is raised, Busy
cleared, and the controller waits for the next command. -/
theorem pass_testVerify (c : Config D) (hs : c.wd.state = .testVerify)
    (hv : c.wd.command &&& 0x04 = 0) :
    (pass F drv c).wd =
      { c.wd with
        interruptRequest := true
        status := c.wd.status &&& ~~~F.busy
        state := .waiting } := by
  simp only [pass_eq, WD1770.exec, hs, WD1770.testVerify, hv, bne_self_eq_false,
    Bool.false_eq_true, if_false]

section Head

variable {R : Type} (rotate : R → R × Nat)

theorem cycledDrive_head (c : Config (Nat × R)) :
    (cycledDrive F (Drive.head rotate) c).1 = c.drive.1 := by
  simp only [cycledDrive]; split <;> rfl

/-- A pass anywhere but at `TestHead` leaves the head where it is. -/
theorem pass_head (c : Config (Nat × R)) (hs : c.wd.state ≠ .testHead) :
    (pass F (Drive.head rotate) c).drive.1 = c.drive.1 := by
  rw [pass_eq]
  cases h : c.wd.state <;> simp [WD1770.exec, h, cycledDrive_head] at hs ⊢

theorem passes_stepDelay (m : Nat) (c : Config (Nat × R)) (hs : c.wd.state = .stepDelay)
    (hm : c.wd.stepDelayCount.toNat + m = (c.wd.command &&& 3).toNat) :
    (passes F (Drive.head rotate) (m + 1) c).wd =
        { c.wd with
          state := if c.wd.command >>> 5 != 0 then .testVerify else .testTrack
          stepDelayCount := BitVec.ofNat 32 ((c.wd.command &&& 3).toNat + 1) } ∧
      (passes F (Drive.head rotate) (m + 1) c).drive.1 = c.drive.1 := by
  induction m generalizing c with
  | zero =>
    have hr : c.wd.stepDelayCount.toNat = (c.wd.command &&& 3).toNat := by omega
    have h8 : (c.wd.command &&& 3).toNat < 2 ^ 8 := (c.wd.command &&& 3).isLt
    have hn : c.wd.stepDelayCount + 1 = BitVec.ofNat 32 ((c.wd.command &&& 3).toNat + 1) := by
      rw [BitVec.toNat_eq, toNat_succ (by omega), BitVec.toNat_ofNat, hr,
        Nat.mod_eq_of_lt (by omega)]
    refine ⟨?_, pass_head F rotate c (by simp [hs])⟩
    simp only [passes, Nat.zero_add, Function.iterate_one, pass_eq, WD1770.exec, hs,
      WD1770.stepDelay, hr, if_true, hn]
  | succ m ih =>
    have h8 : (c.wd.command &&& 3).toNat < 2 ^ 8 := (c.wd.command &&& 3).isLt
    have h1 := pass_stepDelay_count F (Drive.head rotate) c hs (by omega)
    obtain ⟨h2, h3⟩ := ih (pass F (Drive.head rotate) c) (by rw [h1, hs])
      (by rw [h1]; simp only; rw [toNat_succ (by omega)]; omega)
    rw [h1] at h2
    exact ⟨h2, h3.trans (pass_head F rotate c (by simp [hs]))⟩

/-- A pass at `TestHead` stepping in moves the head one track up and starts the step delay. -/
theorem pass_stepIn (c : Config (Nat × R)) (hs : c.wd.state = .testHead)
    (hi : c.wd.isStepIn = true) :
    (pass F (Drive.head rotate) c).wd = { c.wd with state := .stepDelay, stepDelayCount := 0 } ∧
      (pass F (Drive.head rotate) c).drive.1 = c.drive.1 + 1 := by
  rw [pass_eq]
  simp only [WD1770.exec, hs, WD1770.testHead, hi, Bool.not_true, Bool.and_false,
    Bool.false_eq_true, if_false, if_true]
  refine ⟨trivial, ?_⟩
  show (((cycledDrive F (Drive.head rotate) c).1 + 1 : Int).toNat) = _
  rw [Int.toNat_ofNat_add_one, cycledDrive_head]

/-- One step toward a lower track register: `TestTrack`, `TestDirection`, `TestHead` and the
step delay, `r + 4` passes, take the track register one down and the head one track up. -/
theorem passes_stepCycle (c : Config (Nat × R)) (hs : c.wd.state = .testTrack)
    (hcmd : c.wd.command >>> 5 = 0) (hlt : c.wd.data < c.wd.track) :
    (passes F (Drive.head rotate) ((c.wd.command &&& 3).toNat + 4) c).wd =
        { c.wd with
          track := c.wd.track - 1
          isStepIn := true
          dataShiftRegister := c.wd.data
          stepDelayCount := BitVec.ofNat 32 ((c.wd.command &&& 3).toNat + 1) } ∧
      (passes F (Drive.head rotate) ((c.wd.command &&& 3).toNat + 4) c).drive.1 =
        c.drive.1 + 1 := by
  set H := Drive.head rotate with hH
  have hne : c.wd.track ≠ c.wd.data := by bv_omega
  have h1 : (pass F H c).wd = { c.wd with
      dataShiftRegister := c.wd.data, isStepIn := true, state := .testDirection } := by
    simp [pass_eq, WD1770.exec, hs, WD1770.testTrack, hne, hlt]
  have h2 : (pass F H (pass F H c)).wd = { c.wd with
      dataShiftRegister := c.wd.data, isStepIn := true, track := c.wd.track - 1,
      state := .testHead } := by
    rw [pass_testDirection F H _ (by rw [h1]), h1]
    simp only [if_true, ← BitVec.sub_toAdd]
  obtain ⟨h3, h3d⟩ := pass_stepIn F rotate (pass F H (pass F H c)) (by rw [h2]) (by rw [h2])
  rw [← hH, h2] at h3
  rw [← hH, pass_head F rotate (pass F H c) (by rw [h1]; simp),
    pass_head F rotate c (by rw [hs]; simp)] at h3d
  obtain ⟨h4, h5⟩ := passes_stepDelay F rotate (c.wd.command &&& 3).toNat
    (pass F H (pass F H (pass F H c))) (by rw [h3]) (by rw [h3]; exact Nat.zero_add _)
  rw [h3] at h4
  simp only [hcmd, bne_self_eq_false, Bool.false_eq_true, if_false, ← hs] at h4
  exact ⟨h4, h5.trans h3d⟩

/-- Stepping down: from `TestTrack` with the data register `k + 1` or more below the track
register, `k + 1` step cycles take the track register `k + 1` down and the head `k + 1` up. -/
theorem passes_stepCycles (k : Nat) (c : Config (Nat × R)) (hs : c.wd.state = .testTrack)
    (hcmd : c.wd.command >>> 5 = 0) (hk : c.wd.data.toNat + k < c.wd.track.toNat) :
    (passes F (Drive.head rotate) ((k + 1) * ((c.wd.command &&& 3).toNat + 4)) c).wd =
        { c.wd with
          track := c.wd.track - BitVec.ofNat 8 (k + 1)
          isStepIn := true
          dataShiftRegister := c.wd.data
          stepDelayCount := BitVec.ofNat 32 ((c.wd.command &&& 3).toNat + 1) } ∧
      (passes F (Drive.head rotate) ((k + 1) * ((c.wd.command &&& 3).toNat + 4)) c).drive.1 =
        c.drive.1 + (k + 1) := by
  induction k with
  | zero =>
    simpa only [Nat.zero_add, Nat.one_mul] using
      passes_stepCycle F rotate c hs hcmd (by bv_omega)
  | succ k ih =>
    obtain ⟨h1, h2⟩ := ih (by omega)
    have hlt : (passes F (Drive.head rotate) ((k + 1) * ((c.wd.command &&& 3).toNat + 4)) c).wd.data <
        (passes F (Drive.head rotate) ((k + 1) * ((c.wd.command &&& 3).toNat + 4)) c).wd.track := by
      rw [h1]; simp only; bv_omega
    obtain ⟨h3, h4⟩ := passes_stepCycle F rotate _ (by rw [h1]; exact hs) (by rw [h1]; exact hcmd) hlt
    have e : (k + 1 + 1) * ((c.wd.command &&& 3).toNat + 4) =
        ((c.wd.command &&& 3).toNat + 4) + (k + 1) * ((c.wd.command &&& 3).toNat + 4) := by
      rw [Nat.succ_mul, Nat.add_comm]
    simp only [h1] at h3 h4
    rw [e, passes_add]
    refine ⟨?_, by rw [h4, h2]; omega⟩
    rw [h3]
    congr 1
    bv_omega

/-- Arriving: from `TestTrack` with the track register on the data register and the verify bit
clear, two passes return to `Waiting`, Busy cleared and the interrupt raised. -/
theorem passes_arrive (c : Config (Nat × R)) (hs : c.wd.state = .testTrack)
    (heq : c.wd.track = c.wd.data) (hv : c.wd.command &&& 0x04 = 0) :
    (passes F (Drive.head rotate) 2 c).wd =
        { c.wd with
          dataShiftRegister := c.wd.data
          interruptRequest := true
          status := c.wd.status &&& ~~~F.busy
          state := .waiting } ∧
      (passes F (Drive.head rotate) 2 c).drive.1 = c.drive.1 := by
  have h1 : (pass F (Drive.head rotate) c).wd =
      { c.wd with dataShiftRegister := c.wd.data, state := .testVerify } := by
    simp only [pass_eq, WD1770.exec, hs, WD1770.testTrack, heq, if_true]
  refine ⟨?_, ?_⟩
  · show (pass F _ (pass F _ c)).wd = _
    rw [pass_testVerify F _ _ (by rw [h1]) (by rw [h1]; exact hv), h1]
  · show (pass F _ (pass F _ c)).drive.1 = _
    rw [pass_head F rotate _ (by rw [h1]; simp), pass_head F rotate _ (by rw [hs]; simp)]

/-- Taking a Type 1 command with the h bit clear: two passes, from `Waiting` to
`BeginType1PostSpin`, set Busy and clear the interrupt request and the bits a Type 1 command
clears. -/
theorem passes_beginType1 (c : Config (Nat × R)) (hs : c.wd.state = .waiting)
    (hc : c.wd.hasCommand = true) (h7 : c.wd.command &&& 0x80 = 0)
    (hh : c.wd.command &&& 0x08 = 0) :
    (passes F (Drive.head rotate) 2 c).wd =
        { c.wd with
          hasCommand := false
          status := (c.wd.status ||| F.busy) &&& ~~~(F.dataRequest ||| F.crcError)
          interruptRequest := false
          state := .beginType1PostSpin } ∧
      (passes F (Drive.head rotate) 2 c).drive.1 = c.drive.1 := by
  have h1 := pass_take F (Drive.head rotate) c hs hc h7
  refine ⟨?_, ?_⟩
  · show (pass F _ (pass F _ c)).wd = _
    rw [pass_eq]
    simp only [h1, WD1770.exec, WD1770.beginType1, hh, bne_self_eq_false, Bool.false_eq_true,
      if_false]
  · show (pass F _ (pass F _ c)).drive.1 = _
    rw [pass_head F rotate _ (by rw [h1]; simp), pass_head F rotate _ (by rw [hs]; simp)]

/-- `BeginType1PostSpin` for a restore or seek: restore loads the track register with 0xff,
both clear the data register, and the loop goes on to `TestTrack`. -/
theorem pass_postSpin (c : Config (Nat × R)) (hs : c.wd.state = .beginType1PostSpin)
    (hcmd : c.wd.command >>> 5 = 0) :
    (passes F (Drive.head rotate) 1 c).wd =
        { c.wd with track := c.wd.startTrack, data := 0, state := .testTrack } ∧
      (passes F (Drive.head rotate) 1 c).drive.1 = c.drive.1 := by
  have hn : (c.wd.command >>> 4).toNat ≤ 1 := by
    have := toNat_shift_four c.wd.command
    rw [hcmd, show (0 : BitVec 8).toNat = 0 from rfl] at this
    omega
  have h45 : ¬((c.wd.command >>> 4).toNat = 4 ∨ (c.wd.command >>> 4).toNat = 5) := by omega
  have h67 : ¬((c.wd.command >>> 4).toNat = 6 ∨ (c.wd.command >>> 4).toNat = 7) := by omega
  refine ⟨?_, pass_head F rotate c (by rw [hs]; simp)⟩
  show (pass F _ c).wd = _
  rw [pass_eq]
  simp only [WD1770.exec, hs, WD1770.beginType1PostSpin, WD1770.postSpinSetup_eq, hcmd, hn, h45,
    h67, if_true, if_false, WD1770.startTrack]

/-- From `TestTrack` with the data register at zero, the step cycles bring the track register down
to zero, the head as many tracks up. -/
theorem passes_toZero (c : Config (Nat × R)) (hs : c.wd.state = .testTrack)
    (hcmd : c.wd.command >>> 5 = 0) (hd : c.wd.data = 0) :
    let c' := passes F (Drive.head rotate) (c.wd.track.toNat * ((c.wd.command &&& 3).toNat + 4)) c
    c'.wd.state = .testTrack ∧ c'.wd.track = 0 ∧ c'.wd.data = 0 ∧
      c'.wd.command = c.wd.command ∧ c'.drive.1 = c.drive.1 + c.wd.track.toNat := by
  intro c'
  rcases ht : c.wd.track.toNat with _ | j
  · have : c.wd.track = 0 := by bv_omega
    simp only [c', ht, Nat.zero_mul]
    exact ⟨hs, this, hd, rfl, rfl⟩
  · obtain ⟨h1, h2⟩ := passes_stepCycles F rotate j c hs hcmd (by rw [hd]; bv_omega)
    simp only [c', ht, h1, h2]
    exact ⟨hs, by bv_omega, hd, trivial, trivial⟩

/-- From `BeginType1PostSpin`, a restore or seek with the v bit clear is back at `Waiting` after
`3 + k * (r + 4)` passes, `k` the track register it steps from: the track and data registers
zero, the head `k` tracks up, Busy clear and the interrupt raised. -/
theorem passes_fromPostSpin (c : Config (Nat × R)) (hs : c.wd.state = .beginType1PostSpin)
    (hcmd : c.wd.command >>> 5 = 0) (hv : c.wd.command &&& 0x04 = 0) :
    let c' := passes F (Drive.head rotate)
      (3 + c.wd.startTrack.toNat * ((c.wd.command &&& 3).toNat + 4)) c
    c'.wd.state = .waiting ∧ c'.wd.track = 0 ∧ c'.wd.data = 0 ∧
      c'.drive.1 = c.drive.1 + c.wd.startTrack.toNat ∧ c'.wd.interruptRequest = true ∧
      c'.wd.busy F = false := by
  intro c'
  obtain ⟨h1, h1d⟩ := pass_postSpin F rotate c hs hcmd
  obtain ⟨h4s, h4t, h4d, h4c, h4h⟩ := passes_toZero F rotate (passes F (Drive.head rotate) 1 c)
    (by rw [h1]) (by rw [h1]; exact hcmd) (by rw [h1])
  obtain ⟨h5, h5d⟩ :=
    passes_arrive F rotate _ h4s (h4t.trans h4d.symm) (by rw [h4c, h1]; exact hv)
  have h1t : (passes F (Drive.head rotate) 1 c).wd.track = c.wd.startTrack := by rw [h1]
  have h1c : (passes F (Drive.head rotate) 1 c).wd.command = c.wd.command := by rw [h1]
  have e : 3 + c.wd.startTrack.toNat * ((c.wd.command &&& 3).toNat + 4) =
      2 + ((passes F (Drive.head rotate) 1 c).wd.track.toNat *
        (((passes F (Drive.head rotate) 1 c).wd.command &&& 3).toNat + 4) + 1) := by
    rw [h1t, h1c]; omega
  simp only [c']
  rw [e, passes_add, passes_add]
  refine ⟨by rw [h5], by rw [h5]; exact h4t, by rw [h5]; exact h4d,
    by rw [h5d, h4h, h1d, h1t], by rw [h5], ?_⟩
  simp only [WD1770.busy, h5, and_not_and_self, bne_self_eq_false]

/-- **Restore and seek step the head away from track zero.** A restore or seek with the h and v
bits clear, taken from `Waiting`, is back at `Waiting` after `5 + k * (r + 4)` passes, where `r`
is the step rate and `k` the track register it steps from (`startTrack`). Both have zeroed the
data register, their target, so by then the track and data registers are zero, the head has
moved `k` tracks up from wherever it was, Busy is clear and the interrupt raised. -/
theorem restore_seek_passes (c : Config (Nat × R)) (hs : c.wd.state = .waiting)
    (hc : c.wd.hasCommand = true) (hcmd : c.wd.command >>> 5 = 0)
    (hhv : c.wd.command &&& 0x0C = 0) :
    let c' := passes F (Drive.head rotate)
      (5 + c.wd.startTrack.toNat * ((c.wd.command &&& 3).toNat + 4)) c
    c'.wd.state = .waiting ∧ c'.wd.track = 0 ∧ c'.wd.data = 0 ∧
      c'.drive.1 = c.drive.1 + c.wd.startTrack.toNat ∧ c'.wd.interruptRequest = true ∧
      c'.wd.busy F = false := by
  intro c'
  have hb := hv_clear_bits hhv
  have h7 : c.wd.command &&& 0x80 = 0 := bit7_clear (by rw [hcmd]; decide)
  obtain ⟨h2, h2d⟩ := passes_beginType1 F rotate c hs hc h7 hb.1
  have hp := passes_fromPostSpin F rotate (passes F (Drive.head rotate) 2 c) (by rw [h2])
    (by rw [h2]; exact hcmd) (by rw [h2]; exact hb.2)
  have hk : (passes F (Drive.head rotate) 2 c).wd.startTrack = c.wd.startTrack := by rw [h2]; rfl
  rw [hk, h2d, show (passes F (Drive.head rotate) 2 c).wd.command = c.wd.command by rw [h2],
    ← passes_add] at hp
  simp only [c']
  rwa [show 5 + c.wd.startTrack.toNat * ((c.wd.command &&& 3).toNat + 4) =
    3 + c.wd.startTrack.toNat * ((c.wd.command &&& 3).toNat + 4) + 2 by omega]

/-- **Restore and seek, under any interleaving.** The same holds after any operations with no
register write whose passes number `5 + k * (r + 4)`: however the host slices
`run_for_cycles` and whenever index holes come, since a restore or seek with the h bit clear
never waits for them. -/
theorem restore_seek_run (c : Config (Nat × R)) (hs : c.wd.state = .waiting)
    (hc : c.wd.hasCommand = true) (hcmd : c.wd.command >>> 5 = 0)
    (hhv : c.wd.command &&& 0x0C = 0) (ops : List Op) (hw : ∀ op ∈ ops, op.isWrite = false)
    (hn : passCount ops = 5 + c.wd.startTrack.toNat * ((c.wd.command &&& 3).toNat + 4)) :
    let c' := run F (Drive.head rotate) c ops
    c'.wd.state = .waiting ∧ c'.wd.track = 0 ∧ c'.wd.data = 0 ∧
      c'.drive.1 = c.drive.1 + c.wd.startTrack.toNat ∧ c'.wd.interruptRequest = true ∧
      c'.wd.busy F = false := by
  have hbits : c.wd.command &&& 0x80 = 0 ∧ c.wd.command &&& 0x08 = 0 := by
    revert hhv hcmd; generalize c.wd.command = x; revert x; decide
  have hq : ∀ j, (passes F (Drive.head rotate) j c).wd.state ≠ .waitForSixIndexPulses := by
    rintro (_ | j)
    · simp [passes, hs]
    · have h1 := pass_take F (Drive.head rotate) c hs hc hbits.1
      exact (passes_quiet F _ j _ (by rw [h1]; exact ⟨rfl, hbits.2, by simp, by simp⟩)).2.2.1
  have ha := run_alike_passes F (Drive.head rotate) ops hw ⟨rfl, rfl⟩ (fun j _ => hq j)
  rw [hn] at ha
  intro c'
  simp only [c']
  rw [ha.wd_eq, ha.2]
  exact restore_seek_passes F rotate c hs hc hcmd hhv

theorem restore_seek_run_seek :
    let c : Config (Nat × Unit) := ⟨(WD1770.zeroed.setRegister 1 2).setRegister 0 0x10, 0, (3, ())⟩
    let ops := List.replicate 13 Op.pass
    (c.wd.state = .waiting ∧ c.wd.hasCommand = true ∧ c.wd.command >>> 5 = 0 ∧
      c.wd.command &&& 0x0C = 0 ∧ (∀ op ∈ ops, op.isWrite = false) ∧
      passCount ops = 5 + c.wd.startTrack.toNat * ((c.wd.command &&& 3).toNat + 4)) ∧
    let c' := run Flags.standard (Drive.head fun _ => ((), 0)) c ops
    c'.wd.state = .waiting ∧ c'.wd.track = 0 ∧ c'.wd.data = 0 ∧
      c'.drive.1 = c.drive.1 + c.wd.startTrack.toNat ∧ c'.wd.interruptRequest = true ∧
      c'.wd.busy Flags.standard = false :=
  ⟨by decide, restore_seek_run Flags.standard (fun _ => ((), 0)) _ (by decide) (by decide)
    (by decide) (by decide) _ (by decide) (by decide)⟩

end Head

/-- A seek from track 0 to track 5 goes nowhere: it zeroes its own target, makes no step, and
returns to `Waiting` with the track and data registers at 0 and the head still at track 0. -/
theorem seek_zeroes_target :
    let c : Config ((Nat × Unit) × List DriveCall) :=
      runEvents Flags.standard (Drive.head fun _ => ((), 0)).logged
      ⟨WD1770.zeroed, 0, ((0, ()), [])⟩
      [.setRegister 1 0, .setRegister 3 5, .setRegister 0 0x10, .runForCycles 41]
    c.wd.state = .waiting ∧ c.wd.track = 0 ∧ c.wd.data = 0 ∧ c.drive.1.1 = 0 ∧ c.drive.2 = [] := by
  decide

set_option maxRecDepth 8000 in
/-- A restore with the head at track 0 makes 255 steps, each one track up, and returns to
`Waiting` with the track register at 0 and the head at track 255. -/
theorem restore_from_track_zero :
    let c : Config ((Nat × Unit) × List DriveCall) :=
      runEvents Flags.standard (Drive.head fun _ => ((), 0)).logged
      ⟨WD1770.zeroed, 0, ((0, ()), [])⟩ [.setRegister 0 0x00, .runForCycles 8201]
    c.wd.state = .waiting ∧ c.wd.track = 0 ∧ c.drive.1.1 = 255 ∧
      c.drive.2 = List.replicate 255 (.step 1) ∧ c.wd.busy Flags.standard = false ∧
      c.wd.interruptRequest = true := by
  decide
end Config
end ClockSignal.WD
