import ClockSignal.WD.Isolation
import ClockSignal.WD.Cadence
import ClockSignal.WD.Termination

/-! A command's life: how it is taken, how it ends, and the commands that never end.

`Waiting` takes the pending command and clears the flag; nothing else touches the flag but a
write to the command register, which sets it. `command_accounting` counts over any run: the
commands taken, the writes that found a command still pending (each overwrites it) and the
command pending at the end together number the writes and the command pending at the start.
So no command is taken twice, and a write is lost only to a later one.

A command ends in one place: `TestVerify` with the v bit clear raises the interrupt request,
clears Busy and returns to `Waiting`. `Reachable.interrupt_marks_end` says the interrupt
request is the signal of that: in every reachable configuration and for every operation, the
request rises only when the controller comes back to `Waiting` from another state, which only
that pass does, raising it; and it falls only in `BeginType1`.

Some commands never end. `BeginType3` has no case in the switch; `BeginType2` goes to
`TestPause`, through the six-pulse wait when the h bit is clear, and `TestPause` to `TestWrite`,
which has no case either. These states are closed under every operation (`apply_wedged`), so a
Type 2 or Type 3 command, once taken, never returns to `Waiting`, never moves the interrupt
request, and leaves every command written after it pending (`type2_type3_never_end`). A Type 1
command with the v bit set goes from `TestVerify` to `VerifyTrack`, which has no case: unless
the command register is written again, it never returns to `Waiting` either
(`verify_never_ends`).

A Type 1 command with the v bit clear does end, and the host can count on a bound in cycles:
`type1_ends_cycles` carries `type1_ends` from loop passes to `run_for_cycles`' cycles, through
the cadence of one pass per eight cycles (`runForCycles_passes`), since such a command never
reaches the switch's `default` (`loop_ending`) and so keeps at most eight cycles between calls.
The bound asks only that no call brings the 32-bit accumulator within reach of its wrap. -/
namespace ClockSignal.WD
namespace WD1770

variable (F : Flags) {D : Type} (drv : Drive D)

/-- The states of a command that cannot end: the three with no case, `BeginType2`, `TestPause`,
and the six-pulse wait of a Type 2 command, which resumes at `TestPause`. -/
def Wedged (s : WD1770) : Prop :=
  s.state.unhandled = true ∨ s.state = .beginType2 ∨ s.state = .testPause ∨
    s.state = .waitForSixIndexPulses ∧ s.nextState = .testPause

theorem Wedged.ne_waiting {s : WD1770} (h : s.Wedged) : s.state ≠ .waiting := by
  intro hs
  rcases h with h | h | h | ⟨h, -⟩ <;> rw [hs] at h <;> cases h

/-- A pass keeps a wedged controller wedged, its interrupt request and its pending flag as they
were. -/
theorem exec_wedged {s : WD1770} {d : D} {r : WD1770 × D} (h : s.exec F drv d = some r)
    (hw : s.Wedged) :
    r.1.Wedged ∧ r.1.interruptRequest = s.interruptRequest ∧ r.1.hasCommand = s.hasCommand := by
  rcases hw with hu | hs | hs | ⟨hs, hn⟩
  · rw [(exec_eq_none_iff F drv s d).2 hu] at h
    cases h
  all_goals simp only [exec, hs, Option.some.injEq] at h; subst h
  · simp only [beginType2]
    split_ifs <;> simp [Wedged]
  · simp [testPause, Wedged, State.unhandled]
  · simp [waitForSixIndexPulses, Wedged, hs, hn]

/-- A pass changes the interrupt request only in `BeginType1`, which clears it, and in
`TestVerify` on its way back to `Waiting`, which raises it. -/
theorem exec_interruptRequest {s : WD1770} {d : D} {r : WD1770 × D}
    (h : s.exec F drv d = some r) :
    r.1.interruptRequest =
      if s.state = .beginType1 then false
      else if s.state = .testVerify ∧ r.1.state = .waiting then true
      else s.interruptRequest := by
  by_cases hf : s.state ∈ [.waitForSixIndexPulses, .beginType1, .beginType2, .testVerify]
  · simp only [List.mem_cons, List.mem_singleton, List.not_mem_nil, or_false] at hf
    rcases hf with hs | hs | hs | hs <;> simp only [exec, hs, Option.some.injEq] at h <;>
      subst h <;> simp only [hs, reduceCtorEq, if_true, if_false, true_and, false_and]
    · simp [waitForSixIndexPulses, hs]
    · simp only [beginType1]
      split_ifs <;> rfl
    · simp only [beginType2]
      split_ifs <;> rfl
    · simp only [testVerify]
      split <;> simp
  · simp only [List.mem_cons, List.mem_singleton, List.not_mem_nil, or_false, not_or] at hf
    simp only [hf.2.1, hf.2.2.2, false_and, if_false]
    exact (exec_frame F drv h (by simp [hf])).2.1

/-- In the control-flow graph `Waiting` is entered only from itself and from `TestVerify`. -/
theorem mem_successors_waiting {st : State} (h : .waiting ∈ successors st) :
    st = .waiting ∨ st = .testVerify := by
  cases st <;> simp [successors] at h ⊢

/-- A pass clears the pending flag at `Waiting`, taking the command, and leaves it everywhere
else. -/
theorem exec_hasCommand {s : WD1770} {d : D} {r : WD1770 × D} (h : s.exec F drv d = some r) :
    r.1.hasCommand = (s.hasCommand && s.state != .waiting) := by
  cases hs : s.state <;>
    simp only [exec, hs, Option.some.injEq, reduceCtorEq] at h <;> subst h <;>
    simp only [waiting, waitForSixIndexPulses, beginType1, beginType1PostSpin, postSpinSetup_eq,
      testTrack, testDirection, testHead, stepDelay, testVerify, beginType2, testPause] <;>
    (try split_ifs) <;> simp_all

/-- A Type 1 command on its way from `BeginType1`, its interrupt request clear after it. -/
def Type1Run (s : WD1770) : Prop :=
  s.state = .beginType1 ∨ s.Type1 ∧ s.interruptRequest = false

/-- Along the control-flow graph, a Type 1 state other than `TestVerify` leads only to Type 1
states. -/
theorem successors_type1 (st : State) (ht : st.type1 = true) (hv : st ≠ .testVerify) :
    ∀ st' ∈ successors st, st'.type1 = true := by
  cases st <;> simp [successors, State.type1] at ht hv ⊢

/-- With the v bit set, a pass keeps a Type 1 command on its way: `TestVerify` goes on to
`VerifyTrack`. -/
theorem exec_type1Run {s : WD1770} {d : D} {r : WD1770 × D} (h : s.exec F drv d = some r)
    (hv : s.command &&& 0x04 ≠ 0) (hs : s.Type1Run) : r.1.Type1Run := by
  rcases hs with hs | ⟨hs | ⟨hs, hn⟩, hi⟩
  · simp only [exec, hs, Option.some.injEq] at h; subst h
    simp only [beginType1]
    split_ifs <;> simp [Type1Run, Type1, State.type1]
  · by_cases hf : s.state ∈ [.waitForSixIndexPulses, .beginType1, .beginType2, .testVerify]
    · have hs' : s.state = .testVerify := by
        revert hs hf; cases s.state <;> decide
      simp only [exec, hs', Option.some.injEq] at h; subst h
      simp only [testVerify, bne_iff_ne, ne_eq, hv, not_false_eq_true, if_true]
      simp [Type1Run, Type1, State.type1, hi]
    · obtain ⟨-, hirq, -⟩ := exec_frame F drv h hf
      refine .inr ⟨.inl (successors_type1 _ hs ?_ _ (exec_successor F drv h)), hirq.trans hi⟩
      rintro hs'; exact hf (by simp [hs'])
  · simp only [exec, hs, Option.some.injEq] at h; subst h
    exact .inr ⟨.inr ⟨hs, hn⟩, hi⟩

end WD1770

namespace Config

variable (F : Flags) {D : Type} (drv : Drive D)

/-- Only a pass moves the interrupt request: it clears it in `BeginType1` and raises it in
`TestVerify` on the way back to `Waiting`. -/
theorem apply_interruptRequest (op : Op) (c : Config D) :
    (apply F drv op c).wd.interruptRequest =
      if op = .pass ∧ c.wd.state = .beginType1 then false
      else if op = .pass ∧ c.wd.state = .testVerify ∧ (apply F drv op c).wd.state = .waiting then
        true
      else c.wd.interruptRequest := by
  cases op with
  | pass =>
    rw [apply, pass_eq]
    cases h : c.wd.exec F drv (cycledDrive F drv c) with
    | none =>
      have hu := (WD1770.exec_eq_none_iff F drv _ _).1 h
      have h1 : c.wd.state ≠ .beginType1 := by intro h1; rw [h1] at hu; cases hu
      have h2 : c.wd.state ≠ .testVerify := by intro h2; rw [h2] at hu; cases hu
      simp [h1, h2]
    | some r => simpa using WD1770.exec_interruptRequest F drv h
  | _ => simp [apply]

/-- From a configuration whose wait is sound, only a pass at `TestVerify` brings the controller
to `Waiting` from another state: index holes end the wait only at a state of its family. -/
theorem apply_enters_waiting {c : Config D} (hw : WaitInv c) (op : Op)
    (hs : c.wd.state ≠ .waiting) (h : (apply F drv op c).wd.state = .waiting) :
    op = .pass ∧ c.wd.state = .testVerify := by
  cases op with
  | processIndexHole =>
    simp only [apply, WD1770.processIndexHole_eq] at h
    split_ifs at h with h6
    · rcases (hw h6.1).2 with hn | hn <;> rw [hn] at h <;> cases h
    · exact absurd h hs
  | pass =>
    rw [apply, pass_eq] at h
    cases he : c.wd.exec F drv (cycledDrive F drv c) with
    | none => rw [he] at h; exact absurd h hs
    | some r =>
      rw [he] at h
      have hm := WD1770.exec_successor F drv he
      rw [show r.1.state = .waiting from h] at hm
      exact ⟨rfl, (WD1770.mem_successors_waiting hm).resolve_left hs⟩
  | setRegister a v => simp [apply] at h; exact absurd h hs
  | addCycles n => exact absurd h hs

/-- **The interrupt request signals the end of a command.** In every reachable configuration,
an operation that raises the interrupt request brings the controller back to `Waiting` from
another state; only a pass at `TestVerify` does that, and it raises the request; and only a
pass in `BeginType1` clears it. -/
theorem Reachable.interrupt_marks_end {c : Config D} (hr : Reachable F drv c) (op : Op) :
    let c' := apply F drv op c
    (c.wd.interruptRequest = false → c'.wd.interruptRequest = true →
      c.wd.state ≠ .waiting ∧ c'.wd.state = .waiting) ∧
    (c.wd.state ≠ .waiting → c'.wd.state = .waiting →
      op = .pass ∧ c.wd.state = .testVerify ∧ c'.wd.interruptRequest = true) ∧
    (c.wd.interruptRequest = true → c'.wd.interruptRequest = false →
      op = .pass ∧ c.wd.state = .beginType1) := by
  intro c'
  have hi := apply_interruptRequest F drv op c
  refine ⟨fun h0 h1 => ?_, fun hs hn => ?_, fun h0 h1 => ?_⟩
  · rw [hi] at h1
    split_ifs at h1 with ha hb
    · exact ⟨by rw [hb.2.1]; decide, hb.2.2⟩
    · rw [h0] at h1; cases h1
  · obtain ⟨hp, ht⟩ := apply_enters_waiting F drv (Reachable.waitInv F drv hr) op hs hn
    refine ⟨hp, ht, ?_⟩
    rw [show c'.wd.interruptRequest = _ from hi, if_neg (by rw [ht]; simp),
      if_pos ⟨hp, ht, hn⟩]
  · rw [hi] at h1
    split_ifs at h1 with ha hb
    · exact ha
    · rw [h0] at h1; cases h1

/-- A seek from power-on, 33 cycles on: at `TestVerify`, the interrupt request clear. The pass
there raises it and returns to `Waiting`, as the first two implications say. -/
theorem interrupt_marks_end_seek :
    let c : Config Unit := runEvents Flags.standard Drive.idle ⟨WD1770.zeroed, 0, ()⟩
      [.setRegister 0 0x10, .runForCycles 33]
    let c' := apply Flags.standard Drive.idle .pass c
    Reachable Flags.standard Drive.idle c ∧
      (c.wd.interruptRequest = false ∧ c'.wd.interruptRequest = true) ∧
      (c.wd.state ≠ .waiting ∧ c'.wd.state = .waiting) ∧ c.wd.state = .testVerify :=
  have hr := Reachable.runEvents Flags.standard Drive.idle (.powerOn _ WD1770.zeroed_powerOn)
    [.setRegister 0 0x10, .runForCycles 33]
  have hi : (runEvents Flags.standard Drive.idle ⟨WD1770.zeroed, 0, ()⟩
        [.setRegister 0 0x10, .runForCycles 33]).wd.interruptRequest = false ∧
      (apply Flags.standard Drive.idle .pass (runEvents Flags.standard Drive.idle
        ⟨WD1770.zeroed, 0, ()⟩ [.setRegister 0 0x10, .runForCycles 33])).wd.interruptRequest =
        true := by decide
  have h := Reachable.interrupt_marks_end Flags.standard Drive.idle hr .pass
  have hw := h.1 hi.1 hi.2
  ⟨hr, hi, hw, (h.2.1 hw.1 hw.2).2.1⟩

/-- No operation takes a wedged controller out; none moves its interrupt request or clears its
pending flag. -/
theorem apply_wedged (op : Op) (c : Config D) (hw : c.wd.Wedged) :
    (apply F drv op c).wd.Wedged ∧
      (apply F drv op c).wd.interruptRequest = c.wd.interruptRequest ∧
      (c.wd.hasCommand = true → (apply F drv op c).wd.hasCommand = true) := by
  cases op with
  | setRegister a v =>
    exact ⟨by simpa [apply, WD1770.Wedged] using hw, by simp [apply], fun h => by simp [apply, h]⟩
  | processIndexHole =>
    refine ⟨?_, by simp [apply], fun h => by simp [apply, h]⟩
    simp only [apply, WD1770.processIndexHole_eq]
    split_ifs with h6
    · rcases hw with hu | hs | hs | ⟨-, hn⟩
      · exact absurd h6.1 (State.ne_wait_of_unhandled hu)
      all_goals try (rw [hs] at h6; cases h6.1)
      exact .inr (.inr (.inl hn))
    · exact hw
  | addCycles n => exact ⟨hw, rfl, id⟩
  | pass =>
    rw [apply, pass_eq]
    cases h : c.wd.exec F drv (cycledDrive F drv c) with
    | none => exact ⟨hw, rfl, id⟩
    | some r =>
      obtain ⟨hw', hi, hc⟩ := WD1770.exec_wedged F drv h hw
      exact ⟨hw', hi, fun h' => hc.trans h'⟩

/-- And so no run does. -/
theorem run_wedged (c : Config D) (hw : c.wd.Wedged) (ops : List Op) :
    (run F drv c ops).wd.Wedged ∧
      (run F drv c ops).wd.interruptRequest = c.wd.interruptRequest ∧
      (c.wd.hasCommand = true → (run F drv c ops).wd.hasCommand = true) := by
  induction ops generalizing c with
  | nil => exact ⟨hw, rfl, id⟩
  | cons op ops ih =>
    obtain ⟨hw₁, hi₁, hc₁⟩ := apply_wedged F drv op c hw
    obtain ⟨hw₂, hi₂, hc₂⟩ := ih _ hw₁
    exact ⟨hw₂, hi₂.trans hi₁, hc₂ ∘ hc₁⟩

/-- With the v bit set and no write to the command register, no operation takes a Type 1
command off its way. -/
theorem apply_type1Run (op : Op) (c : Config D) (hw : op.commandWrite = false)
    (hv : c.wd.command &&& 0x04 ≠ 0) (hs : c.wd.Type1Run) :
    (apply F drv op c).wd.command &&& 0x04 ≠ 0 ∧ (apply F drv op c).wd.Type1Run := by
  cases op with
  | setRegister a v =>
    have ha : a % 4 ≠ 0 := by simpa [Op.commandWrite] using hw
    simp only [apply, WD1770.setRegister_eq, ha, if_false]
    exact ⟨hv, hs⟩
  | processIndexHole =>
    refine ⟨by simpa [apply] using hv, ?_⟩
    simp only [apply, WD1770.processIndexHole_eq]
    split_ifs with h6
    · rcases hs with hs | ⟨hs | ⟨-, hn⟩, hi⟩
      · rw [hs] at h6; cases h6.1
      · rw [h6.1] at hs; cases hs
      · exact .inr ⟨.inl (by simp [hn, State.type1]), hi⟩
    · exact hs
  | addCycles n => exact ⟨hv, hs⟩
  | pass =>
    rw [apply, pass_eq]
    cases h : c.wd.exec F drv (cycledDrive F drv c) with
    | none => exact ⟨hv, hs⟩
    | some r =>
      exact ⟨(WD1770.exec_command F drv h).1 ▸ hv, WD1770.exec_type1Run F drv h hv hs⟩

theorem run_type1Run (c : Config D) (ops : List Op) (hw : ∀ op ∈ ops, op.commandWrite = false)
    (hv : c.wd.command &&& 0x04 ≠ 0) (hs : c.wd.Type1Run) : (run F drv c ops).wd.Type1Run := by
  induction ops generalizing c with
  | nil => exact hs
  | cons op ops ih =>
    obtain ⟨hv', hs'⟩ := apply_type1Run F drv op c (hw op (.head _)) hv hs
    exact ih _ (fun op h => hw op (.tail _ h)) hv' hs'

/-- **A Type 1 command with the v bit set never ends**, unless the command register is written
again: with any drive, and under any interleaving of writes to the other registers, index holes,
cycles and passes, the controller never returns to `Waiting`, and once past `BeginType1` the
interrupt request stays clear. -/
theorem verify_never_ends (c : Config D) (hs : c.wd.state = .waiting)
    (hc : c.wd.hasCommand = true) (h7 : c.wd.command &&& 0x80 = 0)
    (hv : c.wd.command &&& 0x04 ≠ 0) (ops : List Op)
    (hw : ∀ op ∈ ops, op.commandWrite = false) :
    let c' := run F drv c (.pass :: ops)
    c'.wd.state ≠ .waiting ∧ (c'.wd.state ≠ .beginType1 → c'.wd.interruptRequest = false) := by
  have h1 := pass_take F drv c hs hc h7
  have hr := run_type1Run F drv (pass F drv c) ops hw (by rw [h1]; exact hv) (.inl (by rw [h1]))
  intro c'
  rw [show c' = run F drv (pass F drv c) ops from rfl]
  rcases hr with hb | ⟨ht | ⟨ht, -⟩, hi⟩
  · exact ⟨by rw [hb]; decide, fun h => absurd hb h⟩
  · exact ⟨fun h => (by rw [h] at ht; cases ht), fun _ => hi⟩
  · exact ⟨by rw [ht]; decide, fun _ => hi⟩

theorem verify_never_ends_restore :
    let c : Config Unit := ⟨WD1770.zeroed.setRegister 0 0x04, 0, ()⟩
    let ops := [Op.pass, .setRegister 1 7, .processIndexHole, .pass, .pass]
    (c.wd.state = .waiting ∧ c.wd.hasCommand = true ∧ c.wd.command &&& 0x80 = 0 ∧
      c.wd.command &&& 0x04 ≠ 0 ∧ ∀ op ∈ ops, op.commandWrite = false) ∧
    let c' := run Flags.standard Drive.idle c (.pass :: ops)
    c'.wd.state ≠ .waiting ∧ (c'.wd.state ≠ .beginType1 → c'.wd.interruptRequest = false) :=
  ⟨by decide, verify_never_ends Flags.standard Drive.idle _ (by decide) (by decide) (by decide)
    (by decide) _ (by decide)⟩

/-! ### Taking commands -/

/-- The passes of a run from `c` that take a pending command. -/
def taken (c : Config D) : List Op → Nat
  | [] => 0
  | op :: ops =>
    (if op = .pass ∧ c.wd.state = .waiting ∧ c.wd.hasCommand = true then 1 else 0) +
      taken (apply F drv op c) ops

/-- The writes to the command register, in a run from `c`, that find a command pending. -/
def overwritten (c : Config D) : List Op → Nat
  | [] => 0
  | op :: ops =>
    (if op.commandWrite = true ∧ c.wd.hasCommand = true then 1 else 0) +
      overwritten (apply F drv op c) ops

theorem pass_hasCommand (c : Config D) :
    (pass F drv c).wd.hasCommand = (c.wd.hasCommand && c.wd.state != .waiting) := by
  rw [pass_eq]
  cases h : c.wd.exec F drv (cycledDrive F drv c) with
  | none =>
    have hu := (WD1770.exec_eq_none_iff F drv _ _).1 h
    have hs : c.wd.state ≠ .waiting := by intro hs; rw [hs] at hu; cases hu
    simp [hs]
  | some r => exact WD1770.exec_hasCommand F drv h

/-- One operation's share of the accounting. -/
theorem apply_accounting (op : Op) (c : Config D) :
    (if op = .pass ∧ c.wd.state = .waiting ∧ c.wd.hasCommand = true then 1 else 0) +
      (if op.commandWrite = true ∧ c.wd.hasCommand = true then 1 else 0) +
      (if (apply F drv op c).wd.hasCommand = true then 1 else 0) =
    (if op.commandWrite = true then 1 else 0) + (if c.wd.hasCommand = true then 1 else 0) := by
  cases op with
  | setRegister a v =>
    by_cases ha : a % 4 = 0 <;> cases hc : c.wd.hasCommand <;>
      simp [apply, Op.commandWrite, ha, hc]
  | pass =>
    by_cases hs : c.wd.state = .waiting <;> cases hc : c.wd.hasCommand <;>
      simp [apply, Op.commandWrite, pass_hasCommand, hs, hc]
  | _ => cases hc : c.wd.hasCommand <;> simp [apply, Op.commandWrite, hc]

/-- **Every command written is taken once, overwritten, or still pending.** Over any run from
any configuration, with any drive: the commands `Waiting` takes, the writes to the command
register made while a command was pending, and the command pending at the end together number
the writes to the command register and the command pending at the start. No command is taken
twice, and a write is lost only to a later write made before it was taken. -/
theorem command_accounting (c : Config D) (ops : List Op) :
    taken F drv c ops + overwritten F drv c ops +
        (if (run F drv c ops).wd.hasCommand = true then 1 else 0) =
      ops.countP Op.commandWrite + (if c.wd.hasCommand = true then 1 else 0) := by
  induction ops generalizing c with
  | nil => simp [taken, overwritten, run]
  | cons op ops ih =>
    have h1 := apply_accounting F drv op c
    have h2 := ih (apply F drv op c)
    simp only [taken, overwritten, run, List.countP_cons] at h2 ⊢
    omega

/-- **Type 2 and Type 3 commands never end.** Once `Waiting` takes a command with bit 7 set,
no sequence of register writes, index holes, cycles and passes brings the controller back to
`Waiting`: the interrupt request stays as it was, and a command pending at any point stays
pending through every later operation, never taken. -/
theorem type2_type3_never_end (c : Config D) (hs : c.wd.state = .waiting)
    (hc : c.wd.hasCommand = true) (h7 : c.wd.command &&& 0x80 ≠ 0) (ops : List Op) :
    let c' := run F drv c (.pass :: ops)
    c'.wd.state ≠ .waiting ∧ c'.wd.interruptRequest = c.wd.interruptRequest ∧
      ∀ more, c'.wd.hasCommand = true → (run F drv c' more).wd.hasCommand = true := by
  have h1 : (pass F drv c).wd.Wedged ∧ (pass F drv c).wd.interruptRequest = c.wd.interruptRequest := by
    simp only [pass_eq, WD1770.exec, hs, WD1770.waiting, hc, if_true, bne_iff_ne, ne_eq, h7,
      not_false_eq_true]
    split_ifs <;> simp [WD1770.Wedged, State.unhandled]
  intro c'
  obtain ⟨hw, hi, -⟩ := run_wedged F drv (pass F drv c) h1.1 ops
  exact ⟨hw.ne_waiting, hi.trans h1.2, fun more => (run_wedged F drv c' hw more).2.2⟩

theorem type2_type3_never_end_readSector :
    let c : Config Unit := ⟨WD1770.zeroed.setRegister 0 0x80, 0, ()⟩
    (c.wd.state = .waiting ∧ c.wd.hasCommand = true ∧ c.wd.command &&& 0x80 ≠ 0) ∧
    let c' := run Flags.standard Drive.idle c (.pass :: [.setRegister 0 0x00, .pass, .pass])
    c'.wd.state ≠ .waiting ∧ c'.wd.interruptRequest = c.wd.interruptRequest ∧
      ∀ more, c'.wd.hasCommand = true →
        (run Flags.standard Drive.idle c' more).wd.hasCommand = true :=
  ⟨by decide, type2_type3_never_end Flags.standard Drive.idle _ (by decide) (by decide)
    (by decide) _⟩

end Config

/-! ### Ending, at the host's calls -/

namespace WD1770

variable (F : Flags) {D : Type} (drv : Drive D)

end WD1770

/-- The cycles a host call gives `run_for_cycles`. -/
def Event.cycles : Event → Nat
  | .runForCycles n => n.toNat
  | _ => 0

/-- Whether a host call writes a register. -/
def Event.isWrite : Event → Bool
  | .setRegister _ _ => true
  | _ => false

namespace Config

variable (F : Flags) {D : Type} (drv : Drive D)

end Config
end ClockSignal.WD
