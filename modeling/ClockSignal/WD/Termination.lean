import ClockSignal.WD.Seek

/-! Type 1 commands with the v bit clear always end.

`budget` bounds the passes a Type 1 command still needs to reach `Waiting`, state by state: the
step delay's remaining count, and for a restore or seek one step cycle of `r + 4` passes for each
track between the track and data registers, `r` the step rate. Each pass of such a command takes
at least one off the budget (`exec_budget`): `TestTrack` steps towards the data register, and
`TestHead` can only cut the cycle short. So from any Type 1 state but `VerifyTrack` the command
is back at `Waiting` within `257 * (r + 4)` passes, whatever the drive reports and wherever the
index holes fall (`type1_ends`), provided the step delay has not counted past the rate: one that
has waits for its 32-bit count to wrap round, as `command_writes_isolated` shows. -/
namespace ClockSignal.WD
namespace WD1770

variable (F : Flags) {D : Type} (drv : Drive D)

/-- How many tracks apart two values of the track register are. -/
def trackGap (a b : BitVec 8) : Nat := (a.toNat - b.toNat) + (b.toNat - a.toNat)

theorem trackGap_le (a b : BitVec 8) : trackGap a b ≤ 255 := by
  unfold trackGap; bv_omega

/-- `TestTrack`'s step goes one track towards the data register. -/
theorem trackGap_toward (a b : BitVec 8) (h : a ≠ b) :
    trackGap (a + if decide (b < a) then -1 else 1) b + 1 = trackGap a b := by
  have hne : a.toNat ≠ b.toNat := fun e => h (BitVec.eq_of_toNat_eq e)
  have h1 : (1 : BitVec 8).toNat = 1 := rfl
  unfold trackGap
  by_cases hl : b < a
  · have hba : b.toNat < a.toNat := hl
    rw [if_pos (decide_eq_true hl), ← BitVec.sub_toAdd,
      BitVec.toNat_sub_of_le (show (1 : BitVec 8).toNat ≤ a.toNat by omega), h1]
    omega
  · have hab : ¬b.toNat < a.toNat := hl
    have hb := b.isLt
    rw [if_neg (by simpa using hl), BitVec.toNat_add_of_lt (by omega), h1]
    omega

/-- The step rate, `command_ & 3`. -/
def rate (s : WD1770) : Nat := (s.command &&& 3).toNat

/-- The passes from the end of a step delay to `Waiting`, with the track register at `track`:
`TestVerify` alone for a step, and for a restore or seek a step cycle for each track between
`track` and the data register, then `TestTrack` and `TestVerify`. -/
def afterDelay (s : WD1770) (track : BitVec 8) : Nat :=
  if s.command >>> 5 = 0 then trackGap track s.data * (s.rate + 4) + 2 else 1

/-- The budget of the states a Type 1 command passes through after `BeginType1PostSpin`. -/
def stepBudget (s : WD1770) : Nat :=
  match s.state with
  | .testTrack =>
    if s.track = s.data then 2
    else s.rate + 4 + s.afterDelay (s.track + if decide (s.data < s.track) then -1 else 1)
  | .testDirection => s.rate + 3 + s.afterDelay (s.track + if s.isStepIn then -1 else 1)
  | .testHead => s.rate + 2 + s.afterDelay s.track
  | .stepDelay => s.rate - s.stepDelayCount.toNat + 1 + s.afterDelay s.track
  | .testVerify => 1
  | _ => 0

/-- An upper bound on the passes a Type 1 command with the v bit clear needs to reach
`Waiting`. -/
def budget (s : WD1770) : Nat :=
  if s.state = .beginType1PostSpin then s.beginType1PostSpin.stepBudget + 1 else s.stepBudget

theorem budget_of_ne {s : WD1770} (h : s.state ≠ .beginType1PostSpin) : s.budget = s.stepBudget :=
  if_neg h

/-- A Type 1 command with the v bit clear and nothing pending: on its way to `Waiting`, its step
delay not past the rate, or there with the interrupt raised and Busy clear. -/
def Ending (s : WD1770) : Prop :=
  s.hasCommand = false ∧ s.command &&& 0x04 = 0 ∧
    (s.state = .waiting ∧ s.interruptRequest = true ∧ s.busy F = false ∨
      s.state.type1 = true ∧ s.state ≠ .verifyTrack ∧
        (s.state = .stepDelay → s.stepDelayCount.toNat ≤ s.rate))

theorem afterDelay_pos (s : WD1770) (track : BitVec 8) : 0 < s.afterDelay track := by
  unfold afterDelay; split <;> omega

theorem afterDelay_le (s : WD1770) (track : BitVec 8) :
    s.afterDelay track ≤ 255 * (s.rate + 4) + 2 := by
  unfold afterDelay
  split
  · have := Nat.mul_le_mul_right (s.rate + 4) (trackGap_le track s.data); omega
  · omega

theorem stepBudget_le (s : WD1770) : s.stepBudget ≤ 256 * (s.rate + 4) + 2 := by
  have h := afterDelay_le s
  unfold stepBudget
  split
  · split
    · omega
    · have := h (s.track + if decide (s.data < s.track) then -1 else 1); omega
  · have := h (s.track + if s.isStepIn then -1 else 1); omega
  · have := h s.track; omega
  · have := h s.track; omega
  · omega
  · omega

theorem budget_le (s : WD1770) : s.budget ≤ 257 * (s.rate + 4) := by
  have hr : s.beginType1PostSpin.rate = s.rate := by
    simp only [rate, beginType1PostSpin, postSpinSetup_eq]
  unfold budget
  split
  · have := stepBudget_le s.beginType1PostSpin; rw [hr] at this; omega
  · have := stepBudget_le s; omega

/-- From the end of a restore's or seek's step delay, `TestTrack` takes one pass off what is
left. -/
theorem stepBudget_testTrack (s : WD1770) (hcmd : s.command >>> 5 = 0) :
    ({ s with state := .testTrack } : WD1770).stepBudget < s.afterDelay s.track + 1 := by
  simp only [stepBudget, afterDelay, rate, hcmd, if_true]
  split
  · omega
  · rw [← trackGap_toward s.track s.data ‹_›, Nat.succ_mul]; omega

theorem Ending.ne_wait {s : WD1770} (he : s.Ending F) : s.state ≠ .waitForSixIndexPulses := by
  obtain ⟨-, -, ⟨hs, -⟩ | ⟨ht, -⟩⟩ := he
  · rw [hs]; simp
  · intro hs; rw [hs] at ht; cases ht

/-- An ending command with nothing left of its budget is at `Waiting`. -/
theorem Ending.waiting_of_budget {s : WD1770} (he : s.Ending F) (hb : s.budget = 0) :
    s.state = .waiting := by
  obtain ⟨-, -, ⟨hs, -⟩ | ⟨ht, hvt, -⟩⟩ := he
  · exact hs
  cases hst : s.state <;> simp only [hst, State.type1, Bool.false_eq_true] at ht hvt
  case verifyTrack => exact absurd rfl hvt
  case beginType1PostSpin => simp [budget, hst] at hb
  case testTrack =>
    rw [budget_of_ne (by simp [hst])] at hb; simp only [stepBudget, hst] at hb; split at hb <;> omega
  all_goals rw [budget_of_ne (by simp [hst])] at hb; simp only [stepBudget, hst] at hb; omega

/-- In the control-flow graph `BeginType1PostSpin` is entered only from `BeginType1`. -/
theorem mem_successors_postSpin {st : State} (h : .beginType1PostSpin ∈ successors st) :
    st = .beginType1 := by
  cases st <;> simp [successors] at h ⊢

/-- **One pass of a Type 1 command that is ending** keeps it ending and takes at least one pass
off its budget. -/
theorem exec_budget {s : WD1770} {d : D} {r : WD1770 × D} (h : s.exec F drv d = some r)
    (he : s.Ending F) (hw : s.state ≠ .waiting) : r.1.Ending F ∧ r.1.budget < s.budget := by
  obtain ⟨hc, hv, ⟨hs, -⟩ | ⟨ht, hvt, hd⟩⟩ := he
  · exact absurd hs hw
  have hn : r.1.state ≠ .beginType1PostSpin := fun h' => by
    have := mem_successors_postSpin (h' ▸ exec_successor F drv h)
    rw [this] at ht; cases ht
  rw [budget_of_ne hn]
  cases hst : s.state <;>
    simp only [hst, State.type1, Bool.false_eq_true, ne_eq, not_true_eq_false, true_implies]
      at ht hvt hd
  all_goals
    simp only [exec, hst, Option.some.injEq] at h
    subst h
  case beginType1PostSpin =>
    refine ⟨⟨by simpa [beginType1PostSpin, postSpinSetup_eq] using hc,
      by simpa [beginType1PostSpin, postSpinSetup_eq] using hv, .inr ?_⟩, ?_⟩
    · simp only [beginType1PostSpin]; split_ifs <;> simp [State.type1]
    · rw [budget, if_pos hst]; exact Nat.lt_succ_self _
  all_goals rw [budget_of_ne (by simp [hst])]
  case testTrack =>
    simp only [testTrack]
    split_ifs with heq
    · exact ⟨⟨hc, hv, .inr ⟨rfl, by simp, by simp⟩⟩, by simp [stepBudget, hst, heq]⟩
    · refine ⟨⟨hc, hv, .inr ⟨rfl, by simp, by simp⟩⟩, ?_⟩
      simp only [stepBudget, hst, heq, if_false, afterDelay, rate]
      omega
  case testDirection =>
    simp only [testDirection]
    refine ⟨⟨hc, hv, .inr ⟨rfl, by simp, by simp⟩⟩, ?_⟩
    simp only [stepBudget, hst, afterDelay, rate]
    omega
  case testHead =>
    simp only [testHead]
    split
    · refine ⟨⟨hc, hv, .inr ⟨rfl, by simp, by simp⟩⟩, ?_⟩
      simp only [stepBudget, hst]
      omega
    · refine ⟨⟨hc, hv, .inr ⟨rfl, by simp, fun _ => Nat.zero_le _⟩⟩, ?_⟩
      simp only [stepBudget, hst, afterDelay, rate]
      omega
  case stepDelay =>
    have hb : s.stepBudget = s.rate - s.stepDelayCount.toNat + 1 + s.afterDelay s.track := by
      simp only [stepBudget, hst]
    simp only [stepDelay]
    split_ifs with heq h5
    · refine ⟨⟨hc, hv, .inr ⟨rfl, by simp, by simp⟩⟩, ?_⟩
      have := afterDelay_pos s s.track
      rw [hb]; simp only [stepBudget]
      omega
    · refine ⟨⟨hc, hv, .inr ⟨rfl, by simp, by simp⟩⟩, ?_⟩
      refine lt_of_lt_of_le (stepBudget_testTrack s (by simpa using h5)) ?_
      rw [hb, rate, ← heq]; omega
    · have hr : s.rate < 2 ^ 8 := (s.command &&& 3).isLt
      have h1 := toNat_succ (x := s.stepDelayCount) (by simp only [rate] at hd hr heq; omega)
      refine ⟨⟨hc, hv, .inr ⟨by simp [hst, State.type1], by simp [hst],
        fun _ => by simp only [rate, h1] at hd heq ⊢; omega⟩⟩, ?_⟩
      rw [hb]; simp only [stepBudget, hst, afterDelay, rate, h1] at hd heq ⊢
      omega
  case testVerify =>
    simp only [testVerify, hv, bne_self_eq_false, Bool.false_eq_true, if_false]
    refine ⟨⟨hc, hv, .inl ⟨rfl, rfl, ?_⟩⟩, ?_⟩
    · simp only [busy, and_not_and_self, bne_self_eq_false]
    · simp [stepBudget, hst]

end WD1770

namespace Config

variable (F : Flags) {D : Type} (drv : Drive D)

/-- A pass keeps an ending command ending and takes at least one pass off its budget, or finds
it at `Waiting` with nothing pending and changes nothing. -/
theorem pass_ending (c : Config D) (he : c.wd.Ending F) :
    (pass F drv c).wd.Ending F ∧ (pass F drv c).wd.budget ≤ c.wd.budget - 1 := by
  by_cases hw : c.wd.state = .waiting
  · have hp : (pass F drv c).wd = c.wd := by
      simp only [pass_eq, WD1770.exec, hw, WD1770.waiting, he.1, Bool.false_eq_true, if_false]
    rw [hp]
    exact ⟨he, by simp [WD1770.budget, WD1770.stepBudget, hw]⟩
  rw [pass_eq]
  cases h : c.wd.exec F drv (cycledDrive F drv c) with
  | none =>
    obtain ⟨-, -, ⟨hs, -⟩ | ⟨ht, hvt, -⟩⟩ := he
    · exact absurd hs hw
    · cases hst : c.wd.state <;> simp_all [WD1770.exec, State.type1]
  | some r =>
    have := WD1770.exec_budget F drv h he hw
    exact ⟨this.1, show r.1.budget ≤ _ by omega⟩

/-- **Within the budget.** Passes keep an ending command ending, each taking at least one pass
off its budget. -/
theorem passes_ending (n : Nat) (c : Config D) (he : c.wd.Ending F) :
    (passes F drv n c).wd.Ending F ∧ (passes F drv n c).wd.budget ≤ c.wd.budget - n := by
  induction n generalizing c with
  | zero => exact ⟨he, Nat.le_refl _⟩
  | succ n ih =>
    obtain ⟨he₁, hb₁⟩ := pass_ending F drv c he
    obtain ⟨he', hb'⟩ := ih (pass F drv c) he₁
    exact ⟨he', by show (passes F drv n (pass F drv c)).wd.budget ≤ _; omega⟩

/-- An ending command, under operations with no register write holding as many passes as its
budget, is at `Waiting` with the interrupt raised and Busy clear. -/
theorem run_ending (c : Config D) (he : c.wd.Ending F) (ops : List Op)
    (hw : ∀ op ∈ ops, op.isWrite = false) (hn : c.wd.budget ≤ passCount ops) :
    (run F drv c ops).wd.state = .waiting ∧ (run F drv c ops).wd.interruptRequest = true ∧
      (run F drv c ops).wd.busy F = false := by
  have ha := run_alike_passes F drv ops hw (⟨rfl, rfl⟩ : Alike c c)
    fun j _ => (passes_ending F drv j c he).1.ne_wait
  obtain ⟨he', hb⟩ := passes_ending F drv (passCount ops) c he
  have hs := WD1770.Ending.waiting_of_budget F he'
    (by rw [Nat.sub_eq_zero_of_le hn] at hb; omega)
  obtain ⟨-, -, ⟨-, hi, hbusy⟩ | ⟨ht', -⟩⟩ := he'
  · rw [ha.wd_eq]; exact ⟨hs, hi, hbusy⟩
  · rw [hs] at ht'; cases ht'

/-- **A Type 1 command with the v bit clear always ends.** From any Type 1 state but
`VerifyTrack`, with nothing pending and the step delay not counted past the rate `r`, any
operations with no register write holding at least `257 * (r + 4)` passes bring the controller
to `Waiting` with the interrupt raised and Busy clear, whatever the drive does and wherever the
index holes fall. -/
theorem type1_ends (c : Config D) (ht : c.wd.state.type1 = true)
    (hvt : c.wd.state ≠ .verifyTrack) (hv : c.wd.command &&& 0x04 = 0)
    (hc : c.wd.hasCommand = false)
    (hd : c.wd.state = .stepDelay → c.wd.stepDelayCount.toNat ≤ (c.wd.command &&& 3).toNat)
    (ops : List Op) (hw : ∀ op ∈ ops, op.isWrite = false)
    (hn : 257 * ((c.wd.command &&& 3).toNat + 4) ≤ passCount ops) :
    let c' := run F drv c ops
    c'.wd.state = .waiting ∧ c'.wd.interruptRequest = true ∧ c'.wd.busy F = false := by
  have hle : c.wd.budget ≤ passCount ops := by
    have := WD1770.budget_le c.wd; simp only [WD1770.rate] at this; omega
  exact run_ending F drv c ⟨hc, hv, .inr ⟨ht, hvt, hd⟩⟩ ops hw hle

/-- A seek caught at `TestDirection` about to step away from its target, on a drive whose
track-zero sensor is always on: 1028 passes bring it to `Waiting`. -/
theorem type1_ends_seek :
    let c : Config Unit :=
      ⟨{ WD1770.zeroed with
          state := .testDirection
          track := 1
          data := 200
          command := 0x10
          isStepIn := true }, 0, ()⟩
    let ops := List.replicate 1028 Op.pass
    (c.wd.state.type1 = true ∧ c.wd.state ≠ .verifyTrack ∧ c.wd.command &&& 0x04 = 0 ∧
      c.wd.hasCommand = false ∧
      (c.wd.state = .stepDelay → c.wd.stepDelayCount.toNat ≤ (c.wd.command &&& 3).toNat) ∧
      (∀ op ∈ ops, op.isWrite = false) ∧ 257 * ((c.wd.command &&& 3).toNat + 4) ≤ passCount ops) ∧
    let c' := run Flags.standard Drive.idle c ops
    c'.wd.state = .waiting ∧ c'.wd.interruptRequest = true ∧ c'.wd.busy Flags.standard = false :=
  ⟨⟨by decide, by decide, by decide, by decide, by decide,
      fun _ h => by rw [List.eq_of_mem_replicate h]; rfl,
      by rw [passCount, List.count_replicate_self]; decide⟩,
    type1_ends Flags.standard Drive.idle _ (by decide) (by decide) (by decide) (by decide)
      (by decide) _ (fun _ h => by rw [List.eq_of_mem_replicate h]; rfl)
      (by rw [passCount, List.count_replicate_self]; decide)⟩

end Config
end ClockSignal.WD
