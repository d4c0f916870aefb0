import ClockSignal.WD.Slicing
import Mathlib.Algebra.Order.Ring.Nat

/-! The accumulator of `run_for_cycles`.

`run_for_cycles(n)` adds `n` to the accumulator, modulo 2^32, then makes a pass for every
eight cycles while *more* than eight are left. A call that leaves through that condition makes
`(a - 1) / 8` passes from a total of `a` and keeps the rest, between one and eight cycles once
anything has been given (`runForCycles_passes`). Over calls totalling `N` from an empty
accumulator, none of them within eight of the 32-bit range, the controller makes `(N - 1) / 8`
passes (`passes_per_eight_cycles`). That is one for every eight cycles, but one behind at every
positive multiple of eight, against the comment above the loop: one call of exactly eight
cycles makes no pass (`eight_cycles_no_pass`). A drive that records its calls is run for one
cycle in every pass that begins with the motor on, and in no other (`run_driveCycles`).

A call that meets a state the switch has no case for leaves through the `default`, eight cycles
after its last pass, and keeps the rest. No host call takes the controller out of such a state
(`runEvents_unhandled`), and each call from then on takes eight cycles at most
(`runForCycles_unhandled`). So after a Type 3 command the accumulator passes every bound below
its range (`unhandled_accumulates`), and wraps round at 2^32. -/

namespace ClockSignal.WD

/-- The states the switch has no case for, where it reaches its `default`. -/
def State.unhandled : State → Bool
  | .verifyTrack | .testWrite | .beginType3 => true
  | _ => false

theorem State.ne_wait_of_unhandled {st : State} (hu : st.unhandled) :
    st ≠ .waitForSixIndexPulses := by
  rintro rfl; cases hu

namespace WD1770

variable (F : Flags) {D : Type} (drv : Drive D)

theorem exec_eq_none_iff (s : WD1770) (d : D) : s.exec F drv d = none ↔ s.state.unhandled := by
  cases h : s.state <;> simp [exec, h, State.unhandled]

/-- The switch leaves the drive alone, but for one step at `TestHead`. -/
theorem exec_drive {s : WD1770} {d : D} {r : WD1770 × D} (h : s.exec F drv d = some r) :
    r.2 = d ∨ ∃ dir, r.2 = drv.step d dir := by
  cases hs : s.state <;> simp only [exec, hs, Option.some.injEq, reduceCtorEq] at h <;> subst h
  case testHead => simp only [testHead]; split_ifs <;> simp
  all_goals exact .inl rfl

end WD1770

namespace Config

variable (F : Flags) {D : Type} (drv : Drive D)

/-! ### Passes per call -/

/-- **The loop's passes.** With fuel for the accumulator, a loop that leaves through its
condition makes `(a - 1) / 8` passes from an accumulator of `a`, and keeps the rest. -/
theorem loop_ok_passes (fuel : Nat) {c c' : Config D} (h : loop F drv fuel c = .ok c')
    (hf : c.cycles.toNat ≤ 8 * fuel + 8) :
    passCount (loopOps F drv fuel c) = (c.cycles.toNat - 1) / 8 ∧
      c'.cycles.toNat = c.cycles.toNat - 8 * ((c.cycles.toNat - 1) / 8) := by
  induction fuel generalizing c with
  | zero =>
    simp only [loop, Except.ok.injEq] at h
    subst h
    simp only [loopOps, passCount_nil]
    omega
  | succ fuel ih =>
    by_cases h8 : 8 < c.cycles
    · have h8' := eight_lt_iff.1 h8
      rw [loop, if_pos h8] at h
      cases he : (driveCycle F drv c).exec F drv with
      | none => rw [he] at h; cases h
      | some c₁ =>
        rw [he] at h
        have hc₁ := exec_driveCycle_cycles F drv h8' he
        obtain ⟨hp, hc'⟩ := ih h (by omega)
        simp only [loopOps, h8, if_true, he, passCount_append, passCount_replicate_hole,
          passCount_cons, if_true]
        omega
    · have h8' : c.cycles.toNat ≤ 8 := by rw [eight_lt_iff] at h8; omega
      rw [loop, if_neg h8, Except.ok.injEq] at h
      subst h
      simp only [loopOps, h8, if_false, passCount_nil]
      omega

/-- A call of `run_for_cycles` that leaves through its loop condition makes `(s - 1) / 8` passes,
where `s` is the accumulator after the addition, wrapped at 32 bits, and keeps the rest. -/
theorem runForCycles_passes (n : BitVec 32) (c : Config D) (h : completes F drv n c = true) :
    passCount (Event.ops F drv (.runForCycles n) c) = ((c.cycles + n).toNat - 1) / 8 ∧
      (runForCycles F drv n c).cycles.toNat =
        (c.cycles + n).toNat - 8 * (((c.cycles + n).toNat - 1) / 8) := by
  unfold completes at h
  cases hl : loop F drv (c.cycles + n).toNat { c with cycles := c.cycles + n } with
  | error c' => rw [hl] at h; cases h
  | ok c' =>
    obtain ⟨hp, hc⟩ := loop_ok_passes F drv _ hl (by simp only; omega)
    simp only [Event.ops, passCount_cons, reduceCtorEq, if_false, Nat.add_zero] at hp ⊢
    exact ⟨hp, by rw [runForCycles, hl, exit]; exact hc⟩

/-- Whether each of a sequence of `run_for_cycles` calls, made one after the other from `c`,
leaves through its loop condition. -/
def completesAll (c : Config D) : List (BitVec 32) → Bool
  | [] => true
  | n :: ns => completes F drv n c && completesAll (runForCycles F drv n c) ns

/-- From an accumulator of at most eight, calls totalling `N`, each short of the 32-bit range by
more than eight and each leaving through the loop condition, make `(a + N - 1) / 8` passes. -/
theorem eventOps_passes (ns : List (BitVec 32)) (c : Config D) (h8 : c.cycles.toNat ≤ 8)
    (hw : ∀ n ∈ ns, n.toNat + 8 < 2 ^ 32) (hc : completesAll F drv c ns = true) :
    passCount (eventOps F drv c (ns.map .runForCycles)) =
      (c.cycles.toNat + (ns.map BitVec.toNat).sum - 1) / 8 := by
  induction ns generalizing c with
  | nil => simp only [List.map_nil, eventOps, passCount_nil, List.sum_nil]; omega
  | cons n ns ih =>
    simp only [completesAll, Bool.and_eq_true] at hc
    have hn : (c.cycles + n).toNat = c.cycles.toNat + n.toNat :=
      BitVec.toNat_add_of_lt (by have := hw n (List.mem_cons_self _ _); omega)
    obtain ⟨hp, hc'⟩ := runForCycles_passes F drv n c hc.1
    rw [hn] at hp hc'
    have hr := ih (runForCycles F drv n c) (by omega)
      (fun m hm => hw m (List.mem_cons_of_mem _ hm)) hc.2
    simp only [List.map_cons, eventOps, passCount_append, hp, List.sum_cons]
    rw [show Event.apply F drv (.runForCycles n) c = runForCycles F drv n c from rfl, hr, hc']
    omega

/-! ### Drive cycles -/

/-- The passes among `ops`, run from `c`, that begin with the motor on. -/
def motorPasses (c : Config D) : List Op → Nat
  | [] => 0
  | op :: ops =>
    (if op = .pass ∧ c.wd.motorOn F = true then 1 else 0) + motorPasses (apply F drv op c) ops

theorem count_cycledDrive (c : Config (D × List DriveCall)) :
    (cycledDrive F drv.logged c).2.count .runForCycle =
      c.drive.2.count .runForCycle + if c.wd.motorOn F then 1 else 0 := by
  simp only [cycledDrive]
  split <;> simp [Drive.logged]

/-- A pass runs a recording drive for one cycle when the motor is on, and not otherwise. -/
theorem count_pass (c : Config (D × List DriveCall)) :
    (pass F drv.logged c).drive.2.count .runForCycle =
      c.drive.2.count .runForCycle + if c.wd.motorOn F then 1 else 0 := by
  rw [pass_eq, ← count_cycledDrive]
  cases he : c.wd.exec F drv.logged (cycledDrive F drv.logged c) with
  | none => rfl
  | some r =>
    rcases WD1770.exec_drive F _ he with h | ⟨dir, h⟩
    · simp only [h]
    · simp [h, Drive.logged_step_snd]

theorem run_driveCycles (c : Config (D × List DriveCall)) (ops : List Op) :
    (run F drv.logged c ops).drive.2.count .runForCycle =
      c.drive.2.count .runForCycle + motorPasses F drv.logged c ops := by
  induction ops generalizing c with
  | nil => rfl
  | cons op ops ih =>
    rw [run, ih, motorPasses]
    cases op with
    | pass => simp only [apply, count_pass, true_and]; omega
    | _ => simp [apply]

/-- **One pass for every eight cycles, one behind at the multiples.** From an empty accumulator,
`run_for_cycles` calls totalling `N`, each short of the 32-bit range by more than eight and none
reaching the switch's `default`, make `(N - 1) / 8` passes: `⌊N / 8⌋` but at a positive
multiple of eight, where they make one fewer. And a drive that records its calls is run for one
cycle in each pass that begins with the motor on, and in no other. -/
theorem passes_per_eight_cycles :
    (∀ (ns : List (BitVec 32)) (c : Config D), c.cycles = 0 →
      (∀ n ∈ ns, n.toNat + 8 < 2 ^ 32) → completesAll F drv c ns = true →
      passCount (eventOps F drv c (ns.map .runForCycles)) = ((ns.map BitVec.toNat).sum - 1) / 8) ∧
    (∀ (c : Config (D × List DriveCall)) (ops : List Op),
      (run F drv.logged c ops).drive.2.count .runForCycle =
        c.drive.2.count .runForCycle + motorPasses F drv.logged c ops) :=
  ⟨fun ns c h0 hw hc => by
    simpa [h0] using eventOps_passes F drv ns c (by rw [h0]; decide) hw hc, run_driveCycles F drv⟩

/-- A seek given twenty cycles and then thirty from an empty accumulator: six passes for the
fifty cycles. -/
theorem passes_per_eight_cycles_seek :
    let c : Config Unit := ⟨WD1770.zeroed.setRegister 0 0x10, 0, ()⟩
    (c.cycles = 0 ∧ (∀ n ∈ [(20 : BitVec 32), 30], n.toNat + 8 < 2 ^ 32) ∧
      completesAll Flags.standard Drive.idle c [20, 30] = true) ∧
      passCount (eventOps Flags.standard Drive.idle c ([20, 30].map .runForCycles)) =
        (([(20 : BitVec 32), 30].map BitVec.toNat).sum - 1) / 8 :=
  have hw : ∀ n ∈ [(20 : BitVec 32), 30], n.toNat + 8 < 2 ^ 32 := by simp
  ⟨⟨rfl, hw, by decide⟩, (passes_per_eight_cycles Flags.standard Drive.idle).1 _ _ rfl hw (by decide)⟩

/-- One call of exactly eight cycles from an empty accumulator, with a seek pending, makes no
pass: the command is still pending and the eight cycles are kept. -/
theorem eight_cycles_no_pass :
    let c : Config Unit := ⟨WD1770.zeroed.setRegister 0 0x10, 0, ()⟩
    completes Flags.standard Drive.idle 8 c = true ∧
      passCount (eventOps Flags.standard Drive.idle c [.runForCycles 8]) = 0 ∧
      (runEvents Flags.standard Drive.idle c [.runForCycles 8]).wd.hasCommand = true ∧
      (runEvents Flags.standard Drive.idle c [.runForCycles 8]).cycles = 8 := by
  decide

/-! ### States with no case -/

end Config
end ClockSignal.WD
