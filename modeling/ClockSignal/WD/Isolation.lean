import ClockSignal.WD.Direction

/-! Command-register writes during a command.

`set_register` takes a write to the command register at once: the byte replaces `command_` and
raises the pending flag, whatever the controller is doing. The command in flight reads
`command_` afresh wherever it tests it, so a write is isolated from it only in the bits it no
longer reads. Once `BeginType1PostSpin` has run, the remaining micro-steps read bits 0–1 (the
step rate, in `StepDelay`), bit 2 (verify, in `TestVerify`) and bits 5–7 (`command_ >> 5`, in
`StepDelay`), and never the pending flag (`WD1770.exec_command_bits`). Two runs that differ only
in command writes agreeing on those bits stay alike, but for bits 3 and 4 of the command and
the pending flag, up to the return to `Waiting` (`command_writes_isolated`).

A write that changes the step rate during `StepDelay` is not isolated: the delay ends when the
count reaches the new rate, and if the count has already passed it the controller stays in
`StepDelay` until the 32-bit count wraps round to the rate, `2^32 - count + rate` passes, and
leaves at the pass after (`command_writes_isolated`, `step_rate_write`).

The sector register is isolated from everything: no case of the switch and not
`process_index_hole` reads or writes it (`WD1770.exec_sector`), so under any operations it holds
the last byte written to it and changes nothing else (`run_sector`). -/
namespace ClockSignal.WD

/-- The states of a Type 1 command after `BeginType1PostSpin`. -/
def State.stepping : State → Bool
  | .testTrack | .testDirection | .testHead | .stepDelay | .testVerify | .verifyTrack => true
  | _ => false

/-- The command bits the stepping states read. -/
theorem command_bits {x y : BitVec 8} (h : x &&& 0xE7 = y &&& 0xE7) :
    x &&& 3 = y &&& 3 ∧ x >>> 5 = y >>> 5 ∧ x &&& 4 = y &&& 4 := by
  have h3 : ∀ z : BitVec 8, z &&& 3 = (z &&& 0xE7) &&& 3 := by decide
  have h5 : ∀ z : BitVec 8, z >>> 5 = (z &&& 0xE7) >>> 5 := by decide
  have h4 : ∀ z : BitVec 8, z &&& 4 = (z &&& 0xE7) &&& 4 := by decide
  exact ⟨by rw [h3 x, h3 y, h], by rw [h5 x, h5 y, h], by rw [h4 x, h4 y, h]⟩

namespace WD1770

variable (F : Flags) {D : Type} (drv : Drive D)

/-- In a stepping state the switch reads only bits 0–2 and 5–7 of the command register, and
never the pending flag. -/
theorem exec_command_bits (s : WD1770) (x : BitVec 8) (b : Bool) (hst : s.state.stepping)
    (hx : x &&& 0xE7 = s.command &&& 0xE7) (d : D) :
    { s with command := x, hasCommand := b }.exec F drv d =
      (s.exec F drv d).map fun r => ({ r.1 with command := x, hasCommand := b }, r.2) := by
  obtain ⟨h3, h5, h4⟩ := command_bits hx
  obtain ⟨state, _, _, _, _, _, _, _, _, _, _, _, _⟩ := s
  cases state <;> simp only [State.stepping, Bool.false_eq_true] at hst <;>
    simp only [exec, Option.map_some', Option.map_none', testTrack, testDirection, testHead,
      stepDelay, testVerify, h3, h5, h4] <;>
    (try split_ifs) <;> rfl

theorem processIndexHole_command (s : WD1770) (x : BitVec 8) (b : Bool) :
    { s with command := x, hasCommand := b }.processIndexHole =
      { s.processIndexHole with command := x, hasCommand := b } := by
  simp only [processIndexHole_eq]

theorem setRegister_command (s : WD1770) (a : Int) (v x : BitVec 8) (b : Bool) (ha : a % 4 ≠ 0) :
    { s with command := x, hasCommand := b }.setRegister a v =
      { s.setRegister a v with command := x, hasCommand := b } := by
  simp only [setRegister_eq, ha, if_false, decide_False, Bool.false_or]

/-- No case of the switch reads or writes the sector register. -/
theorem exec_sector (s : WD1770) (v : BitVec 8) (d : D) :
    { s with sector := v }.exec F drv d =
      (s.exec F drv d).map fun r => ({ r.1 with sector := v }, r.2) := by
  obtain ⟨state, _, _, _, _, _, _, _, _, _, _, _, _⟩ := s
  cases state <;>
    simp only [exec, Option.map_some', Option.map_none', waiting, waitForSixIndexPulses,
      beginType1, beginType1PostSpin, postSpinSetup_eq, testTrack, testDirection, testHead,
      stepDelay, testVerify, beginType2, testPause] <;>
    (try split_ifs) <;> rfl

end WD1770

/-- Whether an operation writes the command register. -/
def Op.commandWrite : Op → Bool
  | .setRegister a _ => a % 4 = 0
  | _ => false

namespace Config

variable (F : Flags) {D : Type} (drv : Drive D)

/-- `c₂` is `c₁` with another command register and pending flag, the two registers agreeing with
`cmd` on bits 0–2 and 5–7. -/
def Twins (cmd : BitVec 8) (c₁ c₂ : Config D) : Prop :=
  c₁.wd.command &&& 0xE7 = cmd &&& 0xE7 ∧
    ∃ x b, x &&& 0xE7 = cmd &&& 0xE7 ∧
      c₂ = { c₁ with wd := { c₁.wd with command := x, hasCommand := b } }

/-- Two runs' operations, alike but for writes to the command register whose bytes agree with
`cmd` on bits 0–2 and 5–7, in either run. -/
inductive Differ (cmd : BitVec 8) : List Op → List Op → Prop
  | nil : Differ cmd [] []
  | same {op : Op} {ops₁ ops₂ : List Op} :
      op.commandWrite = false → Differ cmd ops₁ ops₂ → Differ cmd (op :: ops₁) (op :: ops₂)
  | left {a : Int} {v : BitVec 8} {ops₁ ops₂ : List Op} : a % 4 = 0 →
      v &&& 0xE7 = cmd &&& 0xE7 → Differ cmd ops₁ ops₂ → Differ cmd (.setRegister a v :: ops₁) ops₂
  | right {a : Int} {v : BitVec 8} {ops₁ ops₂ : List Op} : a % 4 = 0 →
      v &&& 0xE7 = cmd &&& 0xE7 → Differ cmd ops₁ ops₂ → Differ cmd ops₁ (.setRegister a v :: ops₂)

theorem pass_twins (cmd : BitVec 8) {c₁ c₂ : Config D} (h : Twins cmd c₁ c₂)
    (hst : c₁.wd.state.stepping) : Twins cmd (pass F drv c₁) (pass F drv c₂) := by
  obtain ⟨h1, x, b, hx, rfl⟩ := h
  have hcd : cycledDrive F drv { c₁ with wd := { c₁.wd with command := x, hasCommand := b } } =
      cycledDrive F drv c₁ := rfl
  rw [pass_eq, pass_eq, hcd, WD1770.exec_command_bits F drv c₁.wd x b hst (hx.trans h1.symm)]
  cases he : c₁.wd.exec F drv (cycledDrive F drv c₁) with
  | none => exact ⟨h1, x, b, hx, rfl⟩
  | some r => exact ⟨(WD1770.exec_command F drv he).1 ▸ h1, x, b, hx, rfl⟩

theorem apply_twins (cmd : BitVec 8) (op : Op) (hop : op.commandWrite = false) {c₁ c₂ : Config D}
    (h : Twins cmd c₁ c₂) (hst : op = .pass → c₁.wd.state.stepping) :
    Twins cmd (apply F drv op c₁) (apply F drv op c₂) := by
  obtain ⟨h1, x, b, hx, rfl⟩ := h
  cases op with
  | pass => exact pass_twins F drv cmd ⟨h1, x, b, hx, rfl⟩ (hst rfl)
  | setRegister a v =>
    have ha : a % 4 ≠ 0 := by simpa [Op.commandWrite] using hop
    refine ⟨?_, x, b, hx, ?_⟩
    · simp only [apply, WD1770.setRegister_eq, ha, if_false]; exact h1
    · show { c₁ with wd := ({ c₁.wd with command := x, hasCommand := b }).setRegister a v } = _
      rw [WD1770.setRegister_command _ _ _ _ _ ha]; rfl
  | processIndexHole =>
    refine ⟨?_, x, b, hx, ?_⟩
    · show (WD1770.processIndexHole c₁.wd).command &&& 0xE7 = _
      rw [WD1770.processIndexHole_eq]
      exact h1
    · show { c₁ with wd := ({ c₁.wd with command := x, hasCommand := b }).processIndexHole } = _
      rw [WD1770.processIndexHole_command]; rfl
  | addCycles n => exact ⟨h1, x, b, hx, rfl⟩

theorem write_twins_left (cmd : BitVec 8) {a : Int} {v : BitVec 8} (ha : a % 4 = 0)
    (hv : v &&& 0xE7 = cmd &&& 0xE7) {c₁ c₂ : Config D} (h : Twins cmd c₁ c₂) :
    Twins cmd (apply F drv (.setRegister a v) c₁) c₂ := by
  obtain ⟨-, x, b, hx, rfl⟩ := h
  refine ⟨by simpa [apply, WD1770.setRegister_eq, ha] using hv, x, b, hx, ?_⟩
  simp [apply, WD1770.setRegister_eq, ha]

theorem write_twins_right (cmd : BitVec 8) {a : Int} {v : BitVec 8} (ha : a % 4 = 0)
    (hv : v &&& 0xE7 = cmd &&& 0xE7) {c₁ c₂ : Config D} (h : Twins cmd c₁ c₂) :
    Twins cmd c₁ (apply F drv (.setRegister a v) c₂) := by
  obtain ⟨h1, x, b, hx, rfl⟩ := h
  exact ⟨h1, v, true, hv, by simp [apply, WD1770.setRegister_eq, ha]⟩

/-- Whether every pass of a run from `c` is made from a stepping state. -/
def passesStepping (c : Config D) : List Op → Bool
  | [] => true
  | op :: ops => (op != .pass || c.wd.state.stepping) && passesStepping (apply F drv op c) ops

/-- Runs whose operations `Differ`, from twins, stay twins as long as the first run makes its
passes from stepping states. -/
theorem run_twins (cmd : BitVec 8) {ops₁ ops₂ : List Op} (hd : Differ cmd ops₁ ops₂)
    {c₁ c₂ : Config D} (h : Twins cmd c₁ c₂) (hs : passesStepping F drv c₁ ops₁ = true) :
    Twins cmd (run F drv c₁ ops₁) (run F drv c₂ ops₂) := by
  induction hd generalizing c₁ c₂ with
  | nil => exact h
  | @same op ops₁ ops₂ hop _ ih =>
    simp only [passesStepping, Bool.and_eq_true, Bool.or_eq_true, bne_iff_ne, ne_eq] at hs
    exact ih (apply_twins F drv cmd op hop h fun hp => hs.1.resolve_left (not_not.2 hp)) hs.2
  | left ha hv _ ih =>
    simp only [passesStepping, Bool.and_eq_true] at hs
    exact ih (write_twins_left F drv cmd ha hv h) hs.2
  | right ha hv _ ih => exact ih (write_twins_right F drv cmd ha hv h) hs

/-- While the count does not come round to the step rate, `StepDelay` counts on, wrapping at
32 bits. -/
theorem passes_stepDelay_count (n : Nat) (c : Config D) (hs : c.wd.state = .stepDelay)
    (hn : ∀ j < n, (c.wd.stepDelayCount.toNat + j) % 2 ^ 32 ≠ (c.wd.command &&& 3).toNat) :
    (passes F drv n c).wd =
      { c.wd with stepDelayCount := c.wd.stepDelayCount + BitVec.ofNat 32 n } := by
  induction n generalizing c with
  | zero => simp only [passes, Function.iterate_zero, id, BitVec.add_zero]
  | succ n ih =>
    have one : (1 : BitVec 32).toNat = 1 := rfl
    have h0 := hn 0 (by omega)
    rw [Nat.add_zero, Nat.mod_eq_of_lt c.wd.stepDelayCount.isLt] at h0
    have h1 := pass_stepDelay_count F drv c hs h0
    have h2 := ih (pass F drv c) (by rw [h1, hs]) fun j hj => by
      have := hn (j + 1) (by omega)
      rw [h1]; simp only [BitVec.toNat_add, one]; omega
    rw [show passes F drv (n + 1) c = passes F drv n (pass F drv c) from rfl, h2, h1]
    simp only [WD1770.mk.injEq, true_and, and_true, BitVec.toNat_eq, BitVec.toNat_add,
      BitVec.toNat_ofNat, one]
    omega

/-- A pass in `StepDelay` with the count at the step rate leaves it. -/
theorem pass_stepDelay_leaves (c : Config D) (hs : c.wd.state = .stepDelay)
    (hr : c.wd.stepDelayCount.toNat = (c.wd.command &&& 3).toNat) :
    (pass F drv c).wd.state ≠ .stepDelay := by
  simp only [pass_eq, WD1770.exec, hs, WD1770.stepDelay, hr, if_true]
  split <;> simp

/-- **Command writes during a command.** Runs that differ only in writes to the command register
agreeing with `cmd` on bits 0–2 and 5–7, from configurations alike but for the command
register's bits 3 and 4 and the pending flag, stay so alike while the first run makes its passes
after `BeginType1PostSpin`: same state, registers, status, counters, interrupt request and
drive. And once the step-delay count has passed the step rate, which a write of another rate can
bring about, `StepDelay` lasts until the 32-bit count wraps round to the rate,
`2^32 - count + rate` passes, and ends at the pass after. -/
theorem command_writes_isolated :
    (∀ (cmd : BitVec 8) (ops₁ ops₂ : List Op) (c₁ c₂ : Config D), Differ cmd ops₁ ops₂ →
      Twins cmd c₁ c₂ → passesStepping F drv c₁ ops₁ = true →
      Twins cmd (run F drv c₁ ops₁) (run F drv c₂ ops₂)) ∧
    (∀ (n : Nat) (c : Config D), c.wd.state = .stepDelay →
      (c.wd.command &&& 3).toNat < c.wd.stepDelayCount.toNat →
      n ≤ 2 ^ 32 - c.wd.stepDelayCount.toNat + (c.wd.command &&& 3).toNat →
      (passes F drv n c).wd.state = .stepDelay) ∧
    (∀ c : Config D, c.wd.state = .stepDelay →
      (c.wd.command &&& 3).toNat < c.wd.stepDelayCount.toNat →
      (passes F drv (2 ^ 32 - c.wd.stepDelayCount.toNat + (c.wd.command &&& 3).toNat + 1)
        c).wd.state ≠ .stepDelay) := by
  refine ⟨fun cmd _ _ _ _ hd h hs => run_twins F drv cmd hd h hs, fun n c hs hk hn => ?_,
    fun c hs hk => ?_⟩
  · rw [passes_stepDelay_count F drv n c hs fun j hj => by omega]
    exact hs
  · have hr := (c.wd.command &&& 3).isLt
    have hc := c.wd.stepDelayCount.isLt
    rw [show passes F drv (2 ^ 32 - c.wd.stepDelayCount.toNat + (c.wd.command &&& 3).toNat + 1) c =
      pass F drv (passes F drv (2 ^ 32 - c.wd.stepDelayCount.toNat + (c.wd.command &&& 3).toNat) c)
      from Function.iterate_succ_apply' _ _ _]
    refine pass_stepDelay_leaves F drv _ ?_ ?_ <;>
      rw [passes_stepDelay_count F drv _ c hs fun j hj => by omega]
    · exact hs
    · simp only [BitVec.toNat_add, BitVec.toNat_ofNat]
      omega

/-- A seek at `TestTrack`, run on for three passes with and without a write of 0x18 between the
first and second: the byte differs from the seek's 0x10 in bit 3 alone, and the two runs stay
twins, both in the step delay after the head's first step. -/
theorem command_writes_isolated_seek :
    let c : Config Unit := run Flags.standard Drive.idle
      ⟨(WD1770.zeroed.setRegister 1 2).setRegister 0 0x10, 0, ()⟩ [.pass, .pass, .pass]
    let ops₁ : List Op := [.pass, .setRegister 0 0x18, .pass, .pass]
    let ops₂ : List Op := [.pass, .pass, .pass]
    (Differ 0x10 ops₁ ops₂ ∧ Twins 0x10 c c ∧ passesStepping Flags.standard Drive.idle c ops₁ = true) ∧
      Twins 0x10 (run Flags.standard Drive.idle c ops₁) (run Flags.standard Drive.idle c ops₂) ∧
      (run Flags.standard Drive.idle c ops₂).wd.state = .stepDelay :=
  have hd : Differ 0x10 [.pass, .setRegister 0 0x18, .pass, .pass] [.pass, .pass, .pass] :=
    .same rfl (.left (by decide) (by decide) (.same rfl (.same rfl .nil)))
  have ht : Twins (D := Unit) 0x10 (run Flags.standard Drive.idle
      ⟨(WD1770.zeroed.setRegister 1 2).setRegister 0 0x10, 0, ()⟩ [.pass, .pass, .pass])
      (run Flags.standard Drive.idle
      ⟨(WD1770.zeroed.setRegister 1 2).setRegister 0 0x10, 0, ()⟩ [.pass, .pass, .pass]) :=
    ⟨by decide, _, _, by decide, rfl⟩
  have hs : passesStepping Flags.standard Drive.idle (run Flags.standard Drive.idle
      ⟨(WD1770.zeroed.setRegister 1 2).setRegister 0 0x10, 0, ()⟩ [.pass, .pass, .pass])
      [.pass, .setRegister 0 0x18, .pass, .pass] = true := by decide
  ⟨⟨hd, ht, hs⟩, (command_writes_isolated Flags.standard Drive.idle).1 _ _ _ _ _ hd ht hs,
    by decide⟩

/-- A restore at step rate 3, in `StepDelay` with its count at 2, run on with and without a write
of step rate 0: without it the restore steps on, with it the controller is still in `StepDelay`
ten passes later, its count at 12. -/
theorem step_rate_write :
    let kept : Config Unit := runEvents Flags.standard Drive.idle ⟨WD1770.zeroed, 0, ()⟩
      [.setRegister 0 0x03, .runForCycles 65, .runForCycles 80]
    let written : Config Unit := runEvents Flags.standard Drive.idle ⟨WD1770.zeroed, 0, ()⟩
      [.setRegister 0 0x03, .runForCycles 65, .setRegister 0 0x00, .runForCycles 80]
    kept.wd.state = .testDirection ∧ written.wd.state = .stepDelay ∧
      written.wd.stepDelayCount = 12 := by
  decide

/-! ### The sector register -/

/-- The sector register after some operations, from `v`: the last byte written to it, or `v`. -/
def sectorAfter (v : BitVec 8) : List Op → BitVec 8
  | [] => v
  | .setRegister a x :: ops => sectorAfter (if a % 4 = 2 then x else v) ops
  | _ :: ops => sectorAfter v ops

theorem sectorAfter_cons (v : BitVec 8) (op : Op) (ops : List Op) :
    sectorAfter v (op :: ops) = sectorAfter (sectorAfter v [op]) ops := by
  cases op <;> rfl

theorem apply_sector (op : Op) (c : Config D) (v : BitVec 8) :
    apply F drv op { c with wd := { c.wd with sector := v } } =
      { apply F drv op c with wd := { (apply F drv op c).wd with sector := sectorAfter v [op] } } := by
  cases op with
  | pass =>
    have hcd : cycledDrive F drv { c with wd := { c.wd with sector := v } } =
        cycledDrive F drv c := rfl
    rw [apply, apply, pass_eq, pass_eq, hcd, WD1770.exec_sector]
    cases c.wd.exec F drv (cycledDrive F drv c) <;> rfl
  | _ => simp [apply, sectorAfter]

/-- **The sector register is inert.** Under any operations, a run from a configuration with
another sector register is the same run but for the sector register, which holds the last byte
written to it, or the one it started with: no micro-state of `run_for_cycles`, and not
`process_index_hole`, reads it or writes it. -/
theorem run_sector (ops : List Op) (c : Config D) (v : BitVec 8) :
    run F drv { c with wd := { c.wd with sector := v } } ops =
      { run F drv c ops with wd := { (run F drv c ops).wd with sector := sectorAfter v ops } } := by
  induction ops generalizing c v with
  | nil => rfl
  | cons op ops ih =>
    rw [run, apply_sector, ih, sectorAfter_cons v op ops]
    rfl

end Config
end ClockSignal.WD
