import ClockSignal.WD.Run

/-! The six-index-pulse wait.

A command that spins up the motor enters `WaitForSixIndexPulses` from its `BeginType` state,
with the index-hole count at zero and the state to resume recorded. From there only index holes
count: `run_waiting` says that under any operations with fewer than six notifications the
controller is still waiting and has counted exactly those, and `apply_leaves` that the only way
out is the sixth notification, to the recorded state. `wait_six_index_pulses` puts these
together with the invariant every reachable configuration keeps while waiting.

Which commands wait differs between the two families: Type 1 waits when the h bit (0x08) is
set, Type 2 when it is clear (`beginType1_waits`, `beginType2_waits`).

Outside the wait an index hole only counts, and no case of the switch reads the count
(`exec_count`): operations with no register write do what their passes alone do, but for the
count and the accumulator, as long as the passes never wait (`run_alike_passes`). -/
namespace ClockSignal.WD

namespace WD1770

variable (F : Flags) {D : Type} (drv : Drive D)

theorem beginType1_waits (s : WD1770) :
    (s.beginType1 F).state = .waitForSixIndexPulses ↔ s.command &&& 0x08 ≠ 0 := by
  simp only [beginType1]; split_ifs <;> simp_all

theorem beginType2_waits (s : WD1770) :
    (s.beginType2 F).state = .waitForSixIndexPulses ↔ s.command &&& 0x08 = 0 := by
  simp only [beginType2]; split_ifs <;> simp_all

theorem exec_waitForSixIndexPulses (s : WD1770) (d : D) (hs : s.state = .waitForSixIndexPulses) :
    s.exec F drv d = some ({ s with status := s.status ||| F.motorOn }, d) := by
  simp [exec, hs, waitForSixIndexPulses]

/-- A pass enters the wait only from `BeginType1` or `BeginType2`, with the count at zero and
the family's next state recorded. -/
theorem exec_enters_wait {s : WD1770} {d : D} {r : WD1770 × D} (h : s.exec F drv d = some r)
    (hw : r.1.state = .waitForSixIndexPulses) (hs : s.state ≠ .waitForSixIndexPulses) :
    r.1.indexHoleCount = 0 ∧
      (s.state = .beginType1 ∧ r.1.nextState = .beginType1PostSpin ∨
        s.state = .beginType2 ∧ r.1.nextState = .testPause) := by
  have hsucc := exec_successor F drv h
  rw [hw] at hsucc
  cases hst : s.state <;> simp [successors, hst] at hsucc hs <;>
    simp only [exec, hst, Option.some.injEq] at h <;> subst h
  · simp only [beginType1] at hw ⊢; split_ifs at hw ⊢; simp_all
  · simp only [beginType2] at hw ⊢; split_ifs at hw ⊢; simp_all

/-- A pass's result with the index-hole count cleared. -/
def clearCount (r : WD1770 × D) : WD1770 × D := ({ r.1 with indexHoleCount := 0 }, r.2)

/-- No case of the switch reads the index-hole count. -/
theorem exec_count (s : WD1770) (n : BitVec 32) (d : D) :
    ({ s with indexHoleCount := n }.exec F drv d).map clearCount =
      (s.exec F drv d).map clearCount := by
  obtain ⟨state, _, _, _, _, _, _, _, _, _, _, _, _⟩ := s
  cases state <;>
    simp only [exec, Option.map_some', Option.map_none', clearCount, waiting,
      waitForSixIndexPulses, beginType1, beginType1PostSpin, postSpinSetup_eq, testTrack,
      testDirection, testHead, stepDelay, testVerify, beginType2, testPause] <;>
    (try split_ifs) <;> rfl

end WD1770

namespace Config

variable (F : Flags) {D : Type} (drv : Drive D)

/-- The index-hole notifications among some operations. -/
def holeCount (ops : List Op) : Nat := ops.count .processIndexHole

theorem holeCount_cons (op : Op) (ops : List Op) :
    holeCount (op :: ops) = holeCount [op] + holeCount ops := by
  simp only [holeCount, List.count_cons, List.count_nil]
  split_ifs <;> omega

theorem pass_waiting (c : Config D) (hs : c.wd.state = .waitForSixIndexPulses) :
    (pass F drv c).wd = { c.wd with status := c.wd.status ||| F.motorOn } := by
  rw [pass_eq, WD1770.exec_waitForSixIndexPulses F drv _ _ hs]

/-- While waiting, an operation other than the sixth notification leaves the controller waiting,
counting the notification if it is one. -/
theorem apply_waiting (op : Op) (c : Config D) (hs : c.wd.state = .waitForSixIndexPulses)
    (h6 : c.wd.indexHoleCount.toNat + holeCount [op] < 6) :
    (apply F drv op c).wd.state = .waitForSixIndexPulses ∧
      (apply F drv op c).wd.indexHoleCount.toNat = c.wd.indexHoleCount.toNat + holeCount [op] ∧
      (apply F drv op c).wd.nextState = c.wd.nextState := by
  cases op with
  | processIndexHole =>
    simp only [holeCount, List.count_singleton_self] at h6
    have h1 := toNat_succ (x := c.wd.indexHoleCount) (by omega)
    simp only [apply, WD1770.processIndexHole_eq, hs, show c.wd.indexHoleCount.toNat + 1 ≠ 6 by omega,
      and_false, if_false, h1, holeCount, List.count_singleton_self, and_self]
  | pass => simp [apply, pass_waiting F drv c hs, hs, holeCount]
  | _ => simp [apply, hs, holeCount]

/-- **Waiting.** From a waiting configuration, under any operations with fewer than six
notifications in all, the controller is still waiting, has counted every notification, and
still holds its next state. -/
theorem run_waiting (ops : List Op) (c : Config D) (hs : c.wd.state = .waitForSixIndexPulses)
    (h6 : c.wd.indexHoleCount.toNat + holeCount ops < 6) :
    (run F drv c ops).wd.state = .waitForSixIndexPulses ∧
      (run F drv c ops).wd.indexHoleCount.toNat = c.wd.indexHoleCount.toNat + holeCount ops ∧
      (run F drv c ops).wd.nextState = c.wd.nextState := by
  induction ops generalizing c with
  | nil => exact ⟨hs, rfl, rfl⟩
  | cons op ops ih =>
    rw [holeCount_cons] at h6 ⊢
    obtain ⟨hs', hc', hn'⟩ := apply_waiting F drv op c hs (by omega)
    obtain ⟨h1, h2, h3⟩ := ih (apply F drv op c) hs' (by omega)
    refine ⟨h1, ?_, ?_⟩
    · show (run F drv (apply F drv op c) ops).wd.indexHoleCount.toNat = _
      rw [h2, hc']; omega
    · show (run F drv (apply F drv op c) ops).wd.nextState = _
      rw [h3, hn']

/-- **Leaving.** The only operation that takes the controller out of the wait is the sixth
notification, and it resumes the recorded state. -/
theorem apply_leaves (op : Op) (c : Config D) (hs : c.wd.state = .waitForSixIndexPulses)
    (hl : (apply F drv op c).wd.state ≠ .waitForSixIndexPulses) :
    op = .processIndexHole ∧ c.wd.indexHoleCount.toNat + 1 = 6 ∧
      (apply F drv op c).wd.state = c.wd.nextState := by
  cases op with
  | processIndexHole =>
    by_cases h6 : c.wd.indexHoleCount.toNat + 1 = 6
    · simp [apply, hs, h6]
    · simp [apply, hs, h6] at hl
  | pass => simp [apply, pass_waiting F drv c hs, hs] at hl
  | _ => simp [apply, hs] at hl

/-- An operation that enters the wait is a pass from `BeginType1` or `BeginType2`. -/
theorem apply_enters (op : Op) (c : Config D) (hs : c.wd.state ≠ .waitForSixIndexPulses)
    (hw : (apply F drv op c).wd.state = .waitForSixIndexPulses) :
    op = .pass ∧ (apply F drv op c).wd.indexHoleCount = 0 ∧
      (c.wd.state = .beginType1 ∧ (apply F drv op c).wd.nextState = .beginType1PostSpin ∨
        c.wd.state = .beginType2 ∧ (apply F drv op c).wd.nextState = .testPause) := by
  cases op with
  | pass =>
    simp only [apply, pass_eq] at hw ⊢
    cases he : c.wd.exec F drv (cycledDrive F drv c) with
    | none => simp [he] at hw; exact absurd hw hs
    | some r =>
      simp only [he] at hw ⊢
      exact ⟨trivial, WD1770.exec_enters_wait F drv he hw hs⟩
  | processIndexHole => simp [apply, hs] at hw
  | _ => simp [apply] at hw; exact absurd hw hs

/-- What every reachable configuration keeps while waiting: fewer than six notifications
counted, and a next state of one of the two families. -/
def WaitInv (c : Config D) : Prop :=
  c.wd.state = .waitForSixIndexPulses →
    c.wd.indexHoleCount.toNat < 6 ∧
      (c.wd.nextState = .beginType1PostSpin ∨ c.wd.nextState = .testPause)

theorem apply_waitInv (op : Op) (c : Config D) (h : WaitInv c) : WaitInv (apply F drv op c) := by
  intro hw
  by_cases hs : c.wd.state = .waitForSixIndexPulses
  · obtain ⟨h6, hn⟩ := h hs
    by_cases hlt : c.wd.indexHoleCount.toNat + holeCount [op] < 6
    · obtain ⟨-, hc, hn'⟩ := apply_waiting F drv op c hs hlt
      exact ⟨by omega, by rw [hn']; exact hn⟩
    · exfalso
      cases op with
      | processIndexHole =>
        have h5 : c.wd.indexHoleCount.toNat + 1 = 6 := by simp [holeCount] at hlt; omega
        simp [apply, hs, h5] at hw
        rcases hn with hn | hn <;> simp [hn] at hw
      | _ => simp [holeCount] at hlt; omega
  · obtain ⟨-, h0, hn⟩ := apply_enters F drv op c hs hw
    exact ⟨by rw [h0]; decide, by rcases hn with ⟨-, hn⟩ | ⟨-, hn⟩ <;> simp [hn]⟩

theorem Reachable.waitInv {c : Config D} (h : Reachable F drv c) : WaitInv c := by
  induction h with
  | powerOn c hp => intro hw; rw [hp.1] at hw; cases hw
  | step op _ ih => exact apply_waitInv F drv op _ ih

/-- The sixth notification since entry ends the wait, under any operations before it: from a
waiting configuration, after operations that bring the count to five, the next notification
resumes the recorded state. -/
theorem run_sixth (ops : List Op) (c : Config D) (hs : c.wd.state = .waitForSixIndexPulses)
    (h5 : c.wd.indexHoleCount.toNat + holeCount ops + 1 = 6) :
    (run F drv c (ops ++ [.processIndexHole])).wd.state = c.wd.nextState := by
  obtain ⟨hs', hc, hn⟩ := run_waiting F drv ops c hs (by omega)
  rw [run_append]
  simp [run, apply, hs', hc, hn, h5]

/-- **The six-index-pulse wait.** In every reachable configuration the wait has counted fewer
than six notifications and recorded a next state of its family; the wait is entered only by a
pass from `BeginType1` (next state `BeginType1PostSpin`) or `BeginType2` (next state
`TestPause`), with the count at zero; from then on, under any interleaving of writes, passes
and notifications with fewer than six notifications, the controller is still waiting, has
counted exactly the notifications, and keeps its next state; the sixth notification, after any
operations, resumes that state; nothing else leaves the wait; and `process_index_hole` changes
the state in no other case. -/
theorem wait_six_index_pulses :
    (∀ c : Config D, Reachable F drv c → c.wd.state = .waitForSixIndexPulses →
      c.wd.indexHoleCount.toNat < 6 ∧
        (c.wd.nextState = .beginType1PostSpin ∨ c.wd.nextState = .testPause)) ∧
    (∀ (op : Op) (c : Config D), c.wd.state ≠ .waitForSixIndexPulses →
      (apply F drv op c).wd.state = .waitForSixIndexPulses →
      op = .pass ∧ (apply F drv op c).wd.indexHoleCount = 0 ∧
        (c.wd.state = .beginType1 ∧ (apply F drv op c).wd.nextState = .beginType1PostSpin ∨
          c.wd.state = .beginType2 ∧ (apply F drv op c).wd.nextState = .testPause)) ∧
    (∀ (ops : List Op) (c : Config D), c.wd.state = .waitForSixIndexPulses →
      c.wd.indexHoleCount.toNat + holeCount ops < 6 →
      (run F drv c ops).wd.state = .waitForSixIndexPulses ∧
        (run F drv c ops).wd.indexHoleCount.toNat = c.wd.indexHoleCount.toNat + holeCount ops ∧
        (run F drv c ops).wd.nextState = c.wd.nextState) ∧
    (∀ (ops : List Op) (c : Config D), c.wd.state = .waitForSixIndexPulses →
      c.wd.indexHoleCount.toNat + holeCount ops + 1 = 6 →
      (run F drv c (ops ++ [.processIndexHole])).wd.state = c.wd.nextState) ∧
    (∀ (op : Op) (c : Config D), c.wd.state = .waitForSixIndexPulses →
      (apply F drv op c).wd.state ≠ .waitForSixIndexPulses →
      op = .processIndexHole ∧ c.wd.indexHoleCount.toNat + 1 = 6 ∧
        (apply F drv op c).wd.state = c.wd.nextState) ∧
    (∀ s : WD1770, s.processIndexHole.state ≠ s.state →
      s.state = .waitForSixIndexPulses ∧ s.indexHoleCount.toNat + 1 = 6) :=
  ⟨fun _ h => Reachable.waitInv F drv h, apply_enters F drv, run_waiting F drv, run_sixth F drv,
    apply_leaves F drv, fun s h => by by_contra hn; simp_all⟩

/-- A restore with the h bit set, two passes after it was written: waiting, with nothing
counted; five notifications later it is still waiting, and the sixth resumes
`BeginType1PostSpin`. -/
theorem wait_six_index_pulses_restore :
    let c : Config Unit := run Flags.standard Drive.idle ⟨WD1770.zeroed.setRegister 0 0x08, 0, ()⟩
      [.pass, .pass]
    let five : List Op := List.replicate 5 .processIndexHole
    c.wd.state = .waitForSixIndexPulses ∧
      (run Flags.standard Drive.idle c five).wd.state = .waitForSixIndexPulses ∧
      (run Flags.standard Drive.idle c (five ++ [.processIndexHole])).wd.state =
        .beginType1PostSpin :=
  have hs : (run Flags.standard Drive.idle ⟨WD1770.zeroed.setRegister 0 0x08, 0, ()⟩
      [.pass, .pass]).wd.state = .waitForSixIndexPulses := by decide
  have hn : (run Flags.standard Drive.idle ⟨WD1770.zeroed.setRegister 0 0x08, 0, ()⟩
      [.pass, .pass]).wd.nextState = .beginType1PostSpin := by decide
  ⟨hs, ((wait_six_index_pulses Flags.standard Drive.idle).2.2.1 _ _ hs (by decide)).1,
    hn ▸ (wait_six_index_pulses Flags.standard Drive.idle).2.2.2.1 _ _ hs (by decide)⟩

/-- The two families read the h bit in opposite senses: a restore with h clear starts stepping
with no index hole seen, while a read-sector command with h clear waits. -/
theorem spin_up_h_clear :
    (runEvents Flags.standard Drive.idle ⟨WD1770.zeroed, 0, ()⟩
        [.setRegister 0 0x00, .runForCycles 24]).wd.state = .beginType1PostSpin ∧
      (runEvents Flags.standard Drive.idle ⟨WD1770.zeroed, 0, ()⟩
        [.setRegister 0 0x80, .runForCycles 24]).wd.state = .waitForSixIndexPulses := by
  decide

/-! ### Index holes outside the wait -/

/-- Two configurations alike but for the index-hole count and the accumulator. -/
def Alike (c₁ c₂ : Config D) : Prop :=
  { c₁.wd with indexHoleCount := 0 } = { c₂.wd with indexHoleCount := 0 } ∧ c₁.drive = c₂.drive

theorem Alike.trans {c₁ c₂ c₃ : Config D} (h : Alike c₁ c₂) (h' : Alike c₂ c₃) : Alike c₁ c₃ :=
  ⟨h.1.trans h'.1, h.2.trans h'.2⟩

theorem Alike.wd_eq {c₁ c₂ : Config D} (h : Alike c₁ c₂) :
    c₁.wd = { c₂.wd with indexHoleCount := c₁.wd.indexHoleCount } := by
  have := congrArg (fun s : WD1770 => { s with indexHoleCount := c₁.wd.indexHoleCount }) h.1
  exact this

theorem Alike.state {c₁ c₂ : Config D} (h : Alike c₁ c₂) : c₁.wd.state = c₂.wd.state := by
  have := congrArg WD1770.state h.1; exact this

theorem Alike.status {c₁ c₂ : Config D} (h : Alike c₁ c₂) : c₁.wd.status = c₂.wd.status := by
  have := congrArg WD1770.status h.1; exact this

theorem pass_alike {c₁ c₂ : Config D} (h : Alike c₁ c₂) : Alike (pass F drv c₁) (pass F drv c₂) := by
  obtain ⟨hw, hd⟩ := h
  have hm : c₁.wd.motorOn F = c₂.wd.motorOn F := by
    simp only [WD1770.motorOn, Alike.status ⟨hw, hd⟩]
  have hc : cycledDrive F drv c₁ = cycledDrive F drv c₂ := by simp only [cycledDrive, hm, hd]
  have he : (c₁.wd.exec F drv (cycledDrive F drv c₂)).map WD1770.clearCount =
      (c₂.wd.exec F drv (cycledDrive F drv c₂)).map WD1770.clearCount := by
    rw [← WD1770.exec_count F drv c₁.wd 0, ← WD1770.exec_count F drv c₂.wd 0, hw]
  rw [pass_eq, pass_eq, hc]
  cases h₁ : c₁.wd.exec F drv (cycledDrive F drv c₂) <;>
    cases h₂ : c₂.wd.exec F drv (cycledDrive F drv c₂) <;>
    simp only [h₁, h₂, Option.map_some', Option.map_none', reduceCtorEq, Option.some.injEq,
      WD1770.clearCount, Prod.mk.injEq] at he ⊢
  · exact ⟨hw, rfl⟩
  · exact he

/-- Outside the wait an index hole only counts. -/
theorem apply_hole_alike (c : Config D) (hs : c.wd.state ≠ .waitForSixIndexPulses) :
    Alike (apply F drv .processIndexHole c) c := by
  simp [Alike, apply, WD1770.processIndexHole_eq, hs]

/-- **Outside the wait, index holes only count.** Operations with no register write do what
their passes alone do, but for the index-hole count and the accumulator, as long as the passes
never wait for index pulses. -/
theorem run_alike_passes (ops : List Op) (hw : ∀ op ∈ ops, op.isWrite = false)
    {c c' : Config D} (h : Alike c c')
    (hq : ∀ j ≤ passCount ops, (passes F drv j c').wd.state ≠ .waitForSixIndexPulses) :
    Alike (run F drv c ops) (passes F drv (passCount ops) c') := by
  induction ops generalizing c c' with
  | nil => exact h
  | cons op ops ih =>
    have hw' : ∀ op ∈ ops, op.isWrite = false := fun o ho => hw o (List.mem_cons_of_mem _ ho)
    cases op with
    | setRegister a v => simp [Op.isWrite] at hw
    | pass =>
      simp only [passCount_cons, if_true] at hq ⊢
      exact ih hw' (pass_alike F drv h) fun j hj => hq (j + 1) (by omega)
    | processIndexHole =>
      simp only [passCount_cons, reduceCtorEq, if_false, Nat.add_zero] at hq ⊢
      have hs : c.wd.state ≠ .waitForSixIndexPulses := by
        rw [h.state]; exact hq 0 (by omega)
      exact ih hw' ((apply_hole_alike F drv c hs).trans h) hq
    | addCycles n =>
      simp only [passCount_cons, reduceCtorEq, if_false, Nat.add_zero] at hq ⊢
      exact ih hw' h hq

end Config
end ClockSignal.WD
