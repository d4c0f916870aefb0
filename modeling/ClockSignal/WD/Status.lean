import ClockSignal.WD.IndexPulses

/-! The Busy bit and the interrupt request.

`Reachable.busy_eq_executing`: in every reachable configuration the Busy bit is set exactly when
a command is executing, that is when the controller is neither waiting nor at a `BeginType`
state. Both families set Busy on starting and only `TestVerify` clears it, on the way back to
waiting, so this holds for every flag layout in which Busy is a bit of its own.

The interrupt request is another matter. `BeginType1` clears it, and while a Type 1 command
runs it stays clear (`Reachable.type1_no_interrupt`); `BeginType2` sets Busy and leaves the
request as it was, so a read-sector command issued after a Type 1 command has completed runs
Busy with the interrupt still raised (`busy_with_interrupt`).

The motor-on bit is set by the six-pulse wait and by nothing else, and nothing clears it
(`motor_on_run`): once a command has spun the motor up, every later pass runs the drive. No
other bit of the status register is ever set (`Reachable.status_only_busy_motorOn`): the
controller never reports a data request or an error. -/
namespace ClockSignal.WD

section Bits

variable {x b m : BitVec 8}

theorem or_and_not_and_self (h : b &&& m = 0) : ((x ||| b) &&& ~~~m) &&& b = b := by
  ext i
  have := congrArg (fun v => v.getLsbD i) h
  simp only [BitVec.getLsbD_and, BitVec.getLsbD_zero] at this
  simp only [BitVec.getLsbD_and, BitVec.getLsbD_or, BitVec.getLsbD_not, i.isLt, decide_True,
    Bool.true_and]
  cases hb : b.getLsbD i <;> cases hm : m.getLsbD i <;> simp_all

theorem and_not_and_self (x b : BitVec 8) : (x &&& ~~~b) &&& b = 0 := by
  ext i
  simp only [BitVec.getLsbD_and, BitVec.getLsbD_not, BitVec.getLsbD_zero, i.isLt, decide_True,
    Bool.true_and]
  cases b.getLsbD i <;> simp

theorem or_and_ne_zero (h : x &&& b ≠ 0) : (x ||| m) &&& b ≠ 0 := by
  intro h0
  apply h
  ext i
  have := congrArg (fun v => v.getLsbD i) h0
  simp only [BitVec.getLsbD_and, BitVec.getLsbD_or, BitVec.getLsbD_zero] at this ⊢
  cases hx : x.getLsbD i <;> cases hb : b.getLsbD i <;> simp_all

theorem or_and_eq (h : b &&& m = 0) : (x ||| b) &&& m = x &&& m := by
  ext i
  have := congrArg (fun v => v.getLsbD i) h
  simp only [BitVec.getLsbD_and, BitVec.getLsbD_or, BitVec.getLsbD_zero] at this ⊢
  cases hb : b.getLsbD i <;> cases hm : m.getLsbD i <;> simp_all

theorem and_not_and_eq (h : m &&& b = 0) : (x &&& ~~~b) &&& m = x &&& m := by
  ext i
  have := congrArg (fun v => v.getLsbD i) h
  simp only [BitVec.getLsbD_and, BitVec.getLsbD_not, BitVec.getLsbD_zero, i.isLt, decide_True,
    Bool.true_and] at this ⊢
  cases hb : b.getLsbD i <;> cases hm : m.getLsbD i <;> simp_all

theorem and_not_or_self (x k : BitVec 8) : x &&& ~~~(x ||| k) = 0 := by
  ext i
  simp only [BitVec.getLsbD_and, BitVec.getLsbD_or, BitVec.getLsbD_not, BitVec.getLsbD_zero,
    i.isLt, decide_True, Bool.true_and]
  cases x.getLsbD i <;> simp

/-- Bits within `b` and `m`, where `b`'s are within `m`, are within `m`. -/
theorem and_not_trans (h : x &&& ~~~(b ||| m) = 0) (h' : b &&& ~~~m = 0) : x &&& ~~~m = 0 := by
  ext i
  have e := congrArg (fun v => v.getLsbD i) h
  have e' := congrArg (fun v => v.getLsbD i) h'
  simp only [BitVec.getLsbD_and, BitVec.getLsbD_or, BitVec.getLsbD_not, BitVec.getLsbD_zero,
    i.isLt, decide_True, Bool.true_and] at e e' ⊢
  cases hx : x.getLsbD i <;> cases hb : b.getLsbD i <;> simp_all

theorem or_self_and (x m : BitVec 8) : (x ||| m) &&& m = m := by
  ext i
  simp only [BitVec.getLsbD_and, BitVec.getLsbD_or]
  cases m.getLsbD i <;> simp

end Bits

/-- Whether a command is executing: the controller is neither waiting nor at a `BeginType`
state. -/
def State.executing : State → Bool
  | .waiting | .beginType1 | .beginType2 | .beginType3 => false
  | _ => true

/-- The states of a Type 1 command after `BeginType1`. -/
def State.type1 : State → Bool
  | .beginType1PostSpin | .testTrack | .testDirection | .testHead | .stepDelay | .testVerify
  | .verifyTrack => true
  | _ => false

namespace WD1770

variable (F : Flags) {D : Type} (drv : Drive D)

theorem busy_start (s : WD1770) (mask : BitVec 8) (h : F.busy &&& mask = 0) :
    ((s.status ||| F.busy) &&& ~~~mask) &&& F.busy ≠ 0 := by
  rw [or_and_not_and_self h]; exact F.busy_ne_zero

/-- The passes that leave the status, the interrupt request and the recorded next state as they
were: all but the wait, the two `BeginType` cases that set Busy, and `TestVerify`. -/
theorem exec_frame {s : WD1770} {d : D} {r : WD1770 × D} (h : s.exec F drv d = some r)
    (hs : s.state ∉ [.waitForSixIndexPulses, .beginType1, .beginType2, .testVerify]) :
    r.1.status = s.status ∧ r.1.interruptRequest = s.interruptRequest ∧
      r.1.nextState = s.nextState := by
  cases hst : s.state <;> simp only [hst, List.mem_cons, List.mem_singleton, reduceCtorEq,
      or_false, or_true, not_true_eq_false, List.not_mem_nil] at hs <;>
    simp only [exec, hst, Option.some.injEq, reduceCtorEq] at h <;> subst h <;>
    simp only [waiting, beginType1PostSpin, postSpinSetup_eq, testTrack, testDirection, testHead,
      stepDelay, testPause] <;> (try split_ifs) <;> simp

/-- Those passes lead, along the control-flow graph, to states that execute when theirs did,
belong to a Type 1 command only when theirs did, and are not the wait. -/
theorem successors_frame (st : State)
    (hs : st ∉ [.waitForSixIndexPulses, .beginType1, .beginType2, .testVerify]) :
    ∀ st' ∈ successors st, st'.executing = st.executing ∧ (st'.type1 → st.type1) ∧
      st' ≠ .waitForSixIndexPulses := by
  revert hs; cases st <;> decide

/-- One pass keeps Busy equal to "executing". -/
theorem exec_busy {s : WD1770} {d : D} {r : WD1770 × D} (h : s.exec F drv d = some r)
    (hb : s.busy F = s.state.executing) : r.1.busy F = r.1.state.executing := by
  by_cases hf : s.state ∈ [.waitForSixIndexPulses, .beginType1, .beginType2, .testVerify]
  · simp only [List.mem_cons, List.mem_singleton, List.not_mem_nil, or_false] at hf
    rcases hf with hs | hs | hs | hs <;> simp only [exec, hs, Option.some.injEq] at h <;> subst h
    · simp only [busy, waitForSixIndexPulses, hs, State.executing, bne_iff_ne, ne_eq] at hb ⊢
      exact or_and_ne_zero hb
    · simp only [beginType1]
      split_ifs <;> simpa [busy, State.executing] using busy_start F s _ F.busy_type1
    · simp only [beginType2]
      split_ifs <;> simpa [busy, State.executing] using busy_start F s _ F.busy_type2
    · simp only [testVerify]
      split_ifs
      · simpa [busy, State.executing, hs] using hb
      · simp [busy, State.executing, and_not_and_self]
  · obtain ⟨hst, -, -⟩ := exec_frame F drv h hf
    rw [busy, hst, ← busy, hb, (successors_frame _ hf _ (exec_successor F drv h)).1]

/-- A Type 1 command, including its six-pulse wait. -/
def Type1 (s : WD1770) : Prop :=
  s.state.type1 ∨ s.state = .waitForSixIndexPulses ∧ s.nextState = .beginType1PostSpin

/-- One pass keeps the interrupt request clear through a Type 1 command. -/
theorem exec_type1 {s : WD1770} {d : D} {r : WD1770 × D} (h : s.exec F drv d = some r)
    (hi : s.Type1 → s.interruptRequest = false) : r.1.Type1 → r.1.interruptRequest = false := by
  by_cases hf : s.state ∈ [.waitForSixIndexPulses, .beginType1, .beginType2, .testVerify]
  · simp only [List.mem_cons, List.mem_singleton, List.not_mem_nil, or_false] at hf
    rcases hf with hs | hs | hs | hs <;> simp only [exec, hs, Option.some.injEq] at h <;> subst h
    · simpa [Type1, waitForSixIndexPulses, hs] using hi
    · simp only [beginType1]; split_ifs <;> simp
    · simp only [beginType2]; split_ifs <;> simp [Type1, State.type1]
    · simp only [testVerify]; split_ifs <;> simp_all [Type1, State.type1]
  · obtain ⟨-, hirq, hnext⟩ := exec_frame F drv h hf
    obtain ⟨-, ht, hw⟩ := successors_frame _ hf _ (exec_successor F drv h)
    rintro (hr | ⟨hr, -⟩)
    · exact hirq ▸ hi (.inl (ht hr))
    · exact absurd hr hw

/-- A pass sets no status bit but Busy and motor-on. -/
theorem exec_status {s : WD1770} {d : D} {r : WD1770 × D} (h : s.exec F drv d = some r) :
    r.1.status &&& ~~~(s.status ||| (F.busy ||| F.motorOn)) = 0 := by
  by_cases hf : s.state ∈ [.waitForSixIndexPulses, .beginType1, .beginType2, .testVerify]
  · simp only [List.mem_cons, List.mem_singleton, List.not_mem_nil, or_false] at hf
    rcases hf with hs | hs | hs | hs <;> simp only [exec, hs, Option.some.injEq] at h <;>
      subst h <;> simp only [waitForSixIndexPulses, beginType1, beginType2, testVerify] <;>
      (try split_ifs) <;> ext i <;>
      simp only [BitVec.getLsbD_and, BitVec.getLsbD_or, BitVec.getLsbD_not, BitVec.getLsbD_zero,
        i.isLt, decide_True, Bool.true_and] <;>
      cases s.status.getLsbD i <;> cases F.busy.getLsbD i <;> simp
  · rw [(exec_frame F drv h hf).1]
    exact and_not_or_self _ _

end WD1770

namespace Config

variable (F : Flags) {D : Type} (drv : Drive D)

/-- Busy is set exactly while a command executes. -/
def BusyInv (c : Config D) : Prop := c.wd.busy F = c.wd.state.executing

theorem apply_busyInv (op : Op) (c : Config D) (hw : WaitInv c) (h : BusyInv F c) :
    BusyInv F (apply F drv op c) := by
  cases op with
  | processIndexHole =>
    simp only [BusyInv, apply, WD1770.processIndexHole_eq] at h ⊢
    split_ifs with h6
    · rcases (hw h6.1).2 with hn | hn <;>
        simp [WD1770.busy, hn, h6.1, State.executing] at h ⊢ <;> exact h
    · exact h
  | pass =>
    simp only [BusyInv, apply, pass_eq]
    cases he : c.wd.exec F drv (cycledDrive F drv c) with
    | none => exact h
    | some r => exact WD1770.exec_busy F drv he h
  | _ => simpa [BusyInv, apply] using h

/-- **Busy is a decoded view of the state**: in every reachable configuration the Busy bit is
set exactly when a command is executing. -/
theorem Reachable.busy_eq_executing {c : Config D} (h : Reachable F drv c) :
    c.wd.busy F = c.wd.state.executing := by
  induction h with
  | powerOn c hp => simp [WD1770.busy, hp.1, hp.2.1, State.executing]
  | step op hr ih => exact apply_busyInv F drv op _ (Reachable.waitInv F drv hr) ih

theorem busy_eq_executing_seek :
    let c : Config Unit := runEvents Flags.standard Drive.idle ⟨WD1770.zeroed, 0, ()⟩
      [.setRegister 1 3, .setRegister 0 0x10, .runForCycles 40]
    Reachable Flags.standard Drive.idle c ∧ c.wd.busy Flags.standard = c.wd.state.executing :=
  have h := Reachable.runEvents _ _ (.powerOn _ WD1770.zeroed_powerOn) _
  ⟨h, Reachable.busy_eq_executing _ _ h⟩

theorem apply_type1 (op : Op) (c : Config D) (hw : WaitInv c)
    (h : c.wd.Type1 → c.wd.interruptRequest = false) :
    (apply F drv op c).wd.Type1 → (apply F drv op c).wd.interruptRequest = false := by
  cases op with
  | processIndexHole =>
    simp only [apply, WD1770.processIndexHole_eq]
    split_ifs with h6
    · rcases (hw h6.1).2 with hn | hn <;>
        simp_all [WD1770.Type1, State.type1]
    · simpa [WD1770.Type1] using h
  | pass =>
    simp only [apply, pass_eq]
    cases he : c.wd.exec F drv (cycledDrive F drv c) with
    | none => exact h
    | some r => exact WD1770.exec_type1 F drv he h
  | _ => simpa [apply, WD1770.Type1] using h

/-- **While a Type 1 command runs, the interrupt request is clear**: in every reachable
configuration whose state is one of a Type 1 command's after `BeginType1`, or the six-pulse
wait of a Type 1 command. -/
theorem Reachable.type1_no_interrupt {c : Config D} (h : Reachable F drv c) :
    c.wd.Type1 → c.wd.interruptRequest = false := by
  induction h with
  | powerOn c hp => simp [WD1770.Type1, hp.1, State.type1]
  | step op hr ih => exact apply_type1 F drv op _ (Reachable.waitInv F drv hr) ih

theorem type1_no_interrupt_seek :
    let c : Config Unit := runEvents Flags.standard Drive.idle ⟨WD1770.zeroed, 0, ()⟩
      [.setRegister 1 3, .setRegister 0 0x10, .runForCycles 40]
    Reachable Flags.standard Drive.idle c ∧ c.wd.Type1 ∧ c.wd.interruptRequest = false :=
  have h := Reachable.runEvents _ _ (.powerOn _ WD1770.zeroed_powerOn) _
  have ht : WD1770.Type1 _ := .inl (by decide)
  ⟨h, ht, Reachable.type1_no_interrupt _ _ h ht⟩

/-! ### The motor -/

/-- Whether a run from `c` makes a pass in the six-pulse wait, the one case that sets the
motor-on bit. -/
def spinsUp (c : Config D) : List Op → Bool
  | [] => false
  | op :: ops => (op = .pass ∧ c.wd.state = .waitForSixIndexPulses) || spinsUp (apply F drv op c) ops

/-- A pass keeps the motor-on bits of the status register, and sets them all in the six-pulse
wait, when motor-on is apart from Busy and from the bits the `BeginType` cases clear. -/
theorem pass_motorOn (hb : F.motorOn &&& F.busy = 0)
    (h1 : F.motorOn &&& (F.dataRequest ||| F.crcError) = 0)
    (h2 : F.motorOn &&& (F.dataRequest ||| F.lostData ||| F.recordNotFound ||| 0x60) = 0)
    (c : Config D) :
    (pass F drv c).wd.status &&& F.motorOn =
      if c.wd.state = .waitForSixIndexPulses then F.motorOn else c.wd.status &&& F.motorOn := by
  have hb' : F.busy &&& F.motorOn = 0 := by rw [BitVec.and_comm]; exact hb
  rw [pass_eq]
  cases h : c.wd.exec F drv (cycledDrive F drv c) with
  | none =>
    have hs : c.wd.state ≠ .waitForSixIndexPulses := by intro hs; simp [WD1770.exec, hs] at h
    simp [hs]
  | some r =>
    simp only
    by_cases hf : c.wd.state ∈ [.waitForSixIndexPulses, .beginType1, .beginType2, .testVerify]
    · simp only [List.mem_cons, List.mem_singleton, List.not_mem_nil, or_false] at hf
      rcases hf with hs | hs | hs | hs <;> simp only [WD1770.exec, hs, Option.some.injEq] at h <;>
        subst h <;> simp only [hs, reduceCtorEq, if_true, if_false]
      · exact or_self_and _ _
      · simp only [WD1770.beginType1]
        split_ifs <;> rw [and_not_and_eq h1, or_and_eq hb']
      · simp only [WD1770.beginType2]
        split_ifs <;> rw [and_not_and_eq h2, or_and_eq hb']
      · simp only [WD1770.testVerify]
        split_ifs
        · rfl
        · exact and_not_and_eq hb
    · have hs : c.wd.state ≠ .waitForSixIndexPulses := fun hs => hf (by simp [hs])
      rw [(WD1770.exec_frame F drv h hf).1, if_neg hs]

/-- **The motor is turned on only in the six-pulse wait, and never off.** For every flag layout
in which motor-on is apart from Busy and from the bits the `BeginType` cases clear, with any
drive and under any interleaving: after a run, the motor-on bits of the status register are
all set if the run made a pass in the six-pulse wait, and are as they were otherwise. -/
theorem motor_on_run (hb : F.motorOn &&& F.busy = 0)
    (h1 : F.motorOn &&& (F.dataRequest ||| F.crcError) = 0)
    (h2 : F.motorOn &&& (F.dataRequest ||| F.lostData ||| F.recordNotFound ||| 0x60) = 0)
    (c : Config D) (ops : List Op) :
    (run F drv c ops).wd.status &&& F.motorOn =
      if spinsUp F drv c ops then F.motorOn else c.wd.status &&& F.motorOn := by
  induction ops generalizing c with
  | nil => rfl
  | cons op ops ih =>
    have ha : (apply F drv op c).wd.status &&& F.motorOn =
        if op = .pass ∧ c.wd.state = .waitForSixIndexPulses then F.motorOn
        else c.wd.status &&& F.motorOn := by
      cases op with
      | pass => simpa using pass_motorOn F drv hb h1 h2 c
      | _ => simp [apply]
    simp only [run, spinsUp, ih, ha, Bool.or_eq_true, decide_eq_true_eq]
    by_cases hw : op = .pass ∧ c.wd.state = .waitForSixIndexPulses <;>
      cases spinsUp F drv (apply F drv op c) ops <;> simp [hw]

theorem motor_on_run_standard :
    let c : Config Unit := ⟨WD1770.zeroed.setRegister 0 0x08, 0, ()⟩
    (Flags.standard.motorOn &&& Flags.standard.busy = 0 ∧
      Flags.standard.motorOn &&& (Flags.standard.dataRequest ||| Flags.standard.crcError) = 0 ∧
      Flags.standard.motorOn &&& (Flags.standard.dataRequest ||| Flags.standard.lostData |||
        Flags.standard.recordNotFound ||| 0x60) = 0) ∧
    (run Flags.standard Drive.idle c [.pass, .pass, .pass]).wd.status &&& Flags.standard.motorOn =
      if spinsUp Flags.standard Drive.idle c [.pass, .pass, .pass] then Flags.standard.motorOn
      else c.wd.status &&& Flags.standard.motorOn :=
  ⟨by decide, motor_on_run Flags.standard Drive.idle (by decide) (by decide) (by decide) _ _⟩

/-! ### The other status bits -/

/-- No operation sets a status bit but Busy and motor-on. -/
theorem apply_status (op : Op) (c : Config D) :
    (apply F drv op c).wd.status &&& ~~~(c.wd.status ||| (F.busy ||| F.motorOn)) = 0 := by
  cases op with
  | pass =>
    rw [apply, pass_eq]
    cases h : c.wd.exec F drv (cycledDrive F drv c) with
    | none => exact and_not_or_self _ _
    | some r => exact WD1770.exec_status F drv h
  | _ => simpa [apply] using and_not_or_self c.wd.status (F.busy ||| F.motorOn)

/-- **The status register shows only Busy and motor-on.** In every reachable configuration, with
any drive and for every flag layout, no bit of the status register outside Busy and motor-on is
set: no code path sets Data Request, CRC Error, Lost Data, Record Not Found or any other bit. -/
theorem Reachable.status_only_busy_motorOn {c : Config D} (hr : Reachable F drv c) :
    c.wd.status &&& ~~~(F.busy ||| F.motorOn) = 0 := by
  induction hr with
  | powerOn c hp => rw [hp.2.1]; exact BitVec.zero_and
  | step op _ ih => exact and_not_trans (apply_status F drv op _) ih

/-- A restore with the h bit set, 25 cycles after power-on: in the six-pulse wait with Busy and
motor-on set, 0x81, and no other bit. -/
theorem status_only_busy_motorOn_spinUp :
    let c : Config Unit := runEvents Flags.standard Drive.idle ⟨WD1770.zeroed, 0, ()⟩
      [.setRegister 0 0x08, .runForCycles 25]
    Reachable Flags.standard Drive.idle c ∧ c.wd.status = 0x81 ∧
      c.wd.status &&& ~~~(Flags.standard.busy ||| Flags.standard.motorOn) = 0 :=
  have hr := Reachable.runEvents Flags.standard Drive.idle (.powerOn _ WD1770.zeroed_powerOn)
    [.setRegister 0 0x08, .runForCycles 25]
  ⟨hr, by decide, Reachable.status_only_busy_motorOn Flags.standard Drive.idle hr⟩

/-- A seek with the track register at zero completes and raises the interrupt; a read-sector
command issued after it is Busy with the interrupt still raised. -/
theorem busy_with_interrupt :
    let c : Config Unit := runEvents Flags.standard Drive.idle ⟨WD1770.zeroed, 0, ()⟩
      [.setRegister 1 0, .setRegister 0 0x10, .runForCycles 41, .setRegister 0 0x80,
        .runForCycles 16]
    c.wd.busy Flags.standard = true ∧ c.wd.interruptRequest = true := by
  decide

end Config
end ClockSignal.WD
