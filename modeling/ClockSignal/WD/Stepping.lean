import ClockSignal.WD.Seek

/-! Step, step-in and step-out.

The stepping commands are the Type 1 commands whose high bits are 001 (step), 010 (step-in) and
011 (step-out). After the spin-up, `BeginType1PostSpin` sets the direction (step-in and step-out
do; step keeps the last one) and goes to `TestDirection` when the u bit asks for the track
register to follow the head, to `TestHead` otherwise. From there the command runs restore and
seek's loop once: the step, the step delay, and `StepDelay` sends it to `TestVerify`, where it
ends.

With the head modelled by `Drive.head`, `step_passes` follows such a command with the h and v
bits clear from `Waiting` back to `Waiting`, for every head position, track register, direction
and step rate: taking it (`passes_takeStep`), moving the track register (`passes_toTestHead`),
and the step itself (`passes_fromTestHead`). `step_run` carries it to every interleaving of the
host's calls, and `stepIn_stepOut_run` composes two commands: a step-in followed by a step-out
with the same u bit is a round trip for the head and the track register. -/
namespace ClockSignal.WD

/-- A command with one of its top three bits set has `command >> 4` of 2 or more. -/
theorem two_le_shift_four {x : BitVec 8} (h : x >>> 5 ≠ 0) : 2 ≤ (x >>> 4).toNat := by
  have h' : (x >>> 5).toNat ≠ 0 := fun e => h (BitVec.eq_of_toNat_eq (by simpa using e))
  have := toNat_shift_four x
  omega

/-- Step-in, whose top three bits are 010, sets the direction in. -/
theorem postSpinSetup_stepIn (s : WD1770) (h : s.command >>> 5 = 2) :
    s.postSpinSetup.isStepIn = true := by
  have h4 := toNat_shift_four s.command
  rw [h, show (2 : BitVec 8).toNat = 2 from rfl] at h4
  have h45 : (s.command >>> 4).toNat = 4 ∨ (s.command >>> 4).toNat = 5 := by omega
  simp only [WD1770.postSpinSetup_eq, h45, if_true]

/-- Step-out, whose top three bits are 011, sets the direction out. -/
theorem postSpinSetup_stepOut (s : WD1770) (h : s.command >>> 5 = 3) :
    s.postSpinSetup.isStepIn = false := by
  have h4 := toNat_shift_four s.command
  rw [h, show (3 : BitVec 8).toNat = 3 from rfl] at h4
  have h45 : ¬((s.command >>> 4).toNat = 4 ∨ (s.command >>> 4).toNat = 5) := by omega
  have h67 : (s.command >>> 4).toNat = 6 ∨ (s.command >>> 4).toNat = 7 := by omega
  simp only [WD1770.postSpinSetup_eq, h45, h67, if_true, if_false]

namespace Config

variable (F : Flags)

/-- A Type 1 command with the h bit clear never waits for index holes: from its taking on, any
operations with no register write run it as their passes do. -/
theorem run_type1_alike {D : Type} (drv : Drive D) (c : Config D) (hs : c.wd.state = .waiting)
    (hc : c.wd.hasCommand = true) (h7 : c.wd.command &&& 0x80 = 0)
    (hh : c.wd.command &&& 0x08 = 0) (ops : List Op) (hw : ∀ op ∈ ops, op.isWrite = false) :
    Alike (run F drv c ops) (passes F drv (passCount ops) c) := by
  have hq : ∀ j, (passes F drv j c).wd.state ≠ .waitForSixIndexPulses := by
    rintro (_ | j)
    · simp [passes, hs]
    · have h1 := pass_take F drv c hs hc h7
      exact (passes_quiet F _ j _ (by rw [h1]; exact ⟨rfl, hh, by simp, by simp⟩)).2.2.1
  exact run_alike_passes F drv ops hw ⟨rfl, rfl⟩ (fun j _ => hq j)

variable {R : Type} (rotate : R → R × Nat)

/-- A pass at `TestHead`: stepping out at track zero zeroes the track register and goes to
`TestVerify`; otherwise the head steps one track in or out and the step delay starts. -/
theorem pass_testHead (c : Config (Nat × R)) (hs : c.wd.state = .testHead) :
    (pass F (Drive.head rotate) c).wd =
        (if c.drive.1 = 0 ∧ c.wd.isStepIn = false then
          { c.wd with track := 0, state := .testVerify }
        else { c.wd with state := .stepDelay, stepDelayCount := 0 }) ∧
      (pass F (Drive.head rotate) c).drive.1 =
        if c.wd.isStepIn then c.drive.1 + 1 else c.drive.1 - 1 := by
  rw [pass_eq]
  generalize hd : cycledDrive F (Drive.head rotate) c = d
  have h1 : d.1 = c.drive.1 := hd ▸ cycledDrive_head F rotate c
  cases hi : c.wd.isStepIn with
  | true => simp [WD1770.exec, hs, WD1770.testHead, hi, Drive.head, h1]
  | false =>
    by_cases h0 : c.drive.1 = 0
    · simp [WD1770.exec, hs, WD1770.testHead, hi, h0, Drive.head, h1]
    · simp [WD1770.exec, hs, WD1770.testHead, hi, h0, Drive.head, h1]; omega

/-- Taking a stepping command with the h bit clear: three passes, from `Waiting` to
`TestDirection` when the u bit is set and to `TestHead` otherwise. Step-in and step-out set the
direction; no register but the status is loaded. -/
theorem passes_takeStep (c : Config (Nat × R)) (hs : c.wd.state = .waiting)
    (hc : c.wd.hasCommand = true) (h7 : c.wd.command &&& 0x80 = 0)
    (h5 : c.wd.command >>> 5 ≠ 0) (hh : c.wd.command &&& 0x08 = 0) :
    (passes F (Drive.head rotate) 3 c).wd =
        { c.wd with
          hasCommand := false
          status := (c.wd.status ||| F.busy) &&& ~~~(F.dataRequest ||| F.crcError)
          interruptRequest := false
          isStepIn := c.wd.postSpinSetup.isStepIn
          state := if c.wd.command &&& 0x10 != 0 then .testDirection else .testHead } ∧
      (passes F (Drive.head rotate) 3 c).drive.1 = c.drive.1 := by
  have hn := two_le_shift_four h5
  obtain ⟨h2, h2d⟩ := passes_beginType1 F rotate c hs hc h7 hh
  refine ⟨?_, ?_⟩
  · show (pass F _ (passes F _ 2 c)).wd = _
    rw [pass_eq]
    have h0 : ¬(c.wd.command >>> 4).toNat = 0 := by omega
    have h1 : ¬(c.wd.command >>> 4).toNat ≤ 1 := by omega
    simp only [h2, WD1770.exec, WD1770.beginType1PostSpin, WD1770.postSpinSetup_eq, h5, h0, h1,
      if_false]
  · show (pass F _ (passes F _ 2 c)).drive.1 = _
    rw [pass_head F rotate _ (by rw [h2]; simp), h2d]

/-- Taken, a stepping command reaches `TestHead` one pass later when the u bit is set, the track
register moved one track against the step's direction (`TestDirection`'s sense), and at once
otherwise. -/
theorem passes_toTestHead (c : Config (Nat × R)) (hs : c.wd.state = .waiting)
    (hc : c.wd.hasCommand = true) (h7 : c.wd.command &&& 0x80 = 0)
    (h5 : c.wd.command >>> 5 ≠ 0) (hh : c.wd.command &&& 0x08 = 0) :
    (passes F (Drive.head rotate) (if c.wd.command &&& 0x10 != 0 then 4 else 3) c).wd =
        { c.wd with
          hasCommand := false
          status := (c.wd.status ||| F.busy) &&& ~~~(F.dataRequest ||| F.crcError)
          interruptRequest := false
          isStepIn := c.wd.postSpinSetup.isStepIn
          track := if c.wd.command &&& 0x10 != 0 then
              c.wd.track + (if c.wd.postSpinSetup.isStepIn then -1 else 1)
            else c.wd.track
          state := .testHead } ∧
      (passes F (Drive.head rotate) (if c.wd.command &&& 0x10 != 0 then 4 else 3) c).drive.1 =
        c.drive.1 := by
  obtain ⟨h3, h3d⟩ := passes_takeStep F rotate c hs hc h7 h5 hh
  cases hu : c.wd.command &&& 0x10 != 0 with
  | false =>
    simp only [hu, Bool.false_eq_true, if_false] at h3 ⊢
    exact ⟨h3, h3d⟩
  | true =>
    simp only [hu, if_true] at h3 ⊢
    have h4 := pass_testDirection F (Drive.head rotate) _ (by rw [h3])
    refine ⟨?_, ?_⟩
    · show (pass F _ (passes F _ 3 c)).wd = _
      rw [h4, h3]
    · show (pass F _ (passes F _ 3 c)).drive.1 = _
      rw [pass_head F rotate _ (by rw [h3]; simp), h3d]

/-- From `TestHead` a stepping command with the v bit clear ends in two passes when the head is
stepping out at track zero, the track register zeroed; otherwise in `r + 3`, the head one track
further in or out and the step delay counted out. -/
theorem passes_fromTestHead (c : Config (Nat × R)) (hs : c.wd.state = .testHead)
    (h5 : c.wd.command >>> 5 ≠ 0) (hv : c.wd.command &&& 0x04 = 0) :
    (passes F (Drive.head rotate) (if c.drive.1 = 0 ∧ c.wd.isStepIn = false then 2
        else (c.wd.command &&& 3).toNat + 3) c).wd =
        { c.wd with
          track := if c.drive.1 = 0 ∧ c.wd.isStepIn = false then 0 else c.wd.track
          stepDelayCount := if c.drive.1 = 0 ∧ c.wd.isStepIn = false then c.wd.stepDelayCount
            else BitVec.ofNat 32 ((c.wd.command &&& 3).toNat + 1)
          interruptRequest := true
          status := c.wd.status &&& ~~~F.busy
          state := .waiting } ∧
      (passes F (Drive.head rotate) (if c.drive.1 = 0 ∧ c.wd.isStepIn = false then 2
        else (c.wd.command &&& 3).toNat + 3) c).drive.1 =
        if c.wd.isStepIn then c.drive.1 + 1 else c.drive.1 - 1 := by
  obtain ⟨h1, h1d⟩ := pass_testHead F rotate c hs
  by_cases hz : c.drive.1 = 0 ∧ c.wd.isStepIn = false
  · simp only [if_pos hz] at h1 ⊢
    refine ⟨?_, ?_⟩
    · show (pass F _ (pass F _ c)).wd = _
      rw [pass_testVerify F _ _ (by rw [h1]) (by rw [h1]; exact hv), h1]
    · show (pass F _ (pass F _ c)).drive.1 = _
      rw [pass_head F rotate _ (by rw [h1]; simp), h1d]
  · simp only [if_neg hz] at h1 ⊢
    obtain ⟨h2, h2d⟩ := passes_stepDelay F rotate (c.wd.command &&& 3).toNat
      (pass F (Drive.head rotate) c) (by rw [h1]) (by rw [h1]; simp)
    rw [h1] at h2
    have e : passes F (Drive.head rotate) ((c.wd.command &&& 3).toNat + 3) c =
        pass F (Drive.head rotate) (passes F (Drive.head rotate) ((c.wd.command &&& 3).toNat + 1)
          (pass F (Drive.head rotate) c)) := by
      rw [show (c.wd.command &&& 3).toNat + 3 = 1 + ((c.wd.command &&& 3).toNat + 1) + 1 by omega,
        passes_add, passes_add]
      rfl
    have hv' : _ := pass_testVerify F (Drive.head rotate) _ (by rw [h2]; simpa using h5) (by rw [h2]; exact hv)
    refine ⟨?_, ?_⟩
    · rw [e, hv', h2]
    · rw [e, pass_head F rotate _ (by rw [h2]; split <;> simp), h2d, h1d]

/-- **Step, step-in and step-out.** A stepping command with the h and v bits clear, taken at
`Waiting`, returns there with the interrupt raised and Busy clear: after `2` passes from
`TestHead` when the head steps out from track zero and `r + 3` otherwise, and `4` passes to
`TestHead` when the u bit is set, `3` otherwise. The head moves one track in the direction
`BeginType1PostSpin` sets (none below track zero); the track register, when the u bit is set,
moves one track against it, and is zeroed on a step out from track zero. The data register is
left alone. -/
theorem step_passes (c : Config (Nat × R)) (hs : c.wd.state = .waiting)
    (hc : c.wd.hasCommand = true) (h7 : c.wd.command &&& 0x80 = 0)
    (h5 : c.wd.command >>> 5 ≠ 0) (hhv : c.wd.command &&& 0x0C = 0) :
    let dir := c.wd.postSpinSetup.isStepIn
    let u := c.wd.command &&& 0x10 != 0
    let atZero := c.drive.1 = 0 ∧ dir = false
    let c' := passes F (Drive.head rotate)
      ((if atZero then 2 else (c.wd.command &&& 3).toNat + 3) + if u then 4 else 3) c
    c'.wd.state = .waiting ∧ c'.wd.interruptRequest = true ∧ c'.wd.busy F = false ∧
      c'.wd.isStepIn = dir ∧ c'.wd.data = c.wd.data ∧
      c'.wd.track = (if atZero then 0
        else if u then c.wd.track + (if dir then -1 else 1) else c.wd.track) ∧
      c'.drive.1 = if dir then c.drive.1 + 1 else c.drive.1 - 1 := by
  have hb := hv_clear_bits hhv
  obtain ⟨h4, h4d⟩ := passes_toTestHead F rotate c hs hc h7 h5 hb.1
  generalize ht : passes F (Drive.head rotate) (if c.wd.command &&& 0x10 != 0 then 4 else 3) c = t
    at h4 h4d
  obtain ⟨h6, h6d⟩ := passes_fromTestHead F rotate t (by rw [h4]) (by rw [h4]; exact h5)
    (by rw [h4]; exact hb.2)
  have hi : t.wd.isStepIn = c.wd.postSpinSetup.isStepIn := by rw [h4]
  have hk : t.wd.command = c.wd.command := by rw [h4]
  rw [h4d, hi, hk] at h6 h6d
  intro dir u atZero c'
  simp only [c', passes_add, ht]
  rw [h6, h6d, h4]
  exact ⟨rfl, rfl, by simp only [WD1770.busy, and_not_and_self, bne_self_eq_false], rfl, rfl,
    rfl, rfl⟩

/-- **Step, step-in and step-out, under any interleaving.** The same holds after any operations
with no register write whose passes number as many: however the host slices `run_for_cycles`
and whenever index holes come, since a stepping command with the h bit clear never waits for
them. -/
theorem step_run (c : Config (Nat × R)) (hs : c.wd.state = .waiting)
    (hc : c.wd.hasCommand = true) (h7 : c.wd.command &&& 0x80 = 0)
    (h5 : c.wd.command >>> 5 ≠ 0) (hhv : c.wd.command &&& 0x0C = 0) (ops : List Op)
    (hw : ∀ op ∈ ops, op.isWrite = false)
    (hn : passCount ops =
      (if c.drive.1 = 0 ∧ c.wd.postSpinSetup.isStepIn = false then 2
        else (c.wd.command &&& 3).toNat + 3) + if c.wd.command &&& 0x10 != 0 then 4 else 3) :
    let dir := c.wd.postSpinSetup.isStepIn
    let u := c.wd.command &&& 0x10 != 0
    let atZero := c.drive.1 = 0 ∧ dir = false
    let c' := run F (Drive.head rotate) c ops
    c'.wd.state = .waiting ∧ c'.wd.interruptRequest = true ∧ c'.wd.busy F = false ∧
      c'.wd.isStepIn = dir ∧ c'.wd.data = c.wd.data ∧
      c'.wd.track = (if atZero then 0
        else if u then c.wd.track + (if dir then -1 else 1) else c.wd.track) ∧
      c'.drive.1 = if dir then c.drive.1 + 1 else c.drive.1 - 1 := by
  have ha := run_type1_alike F (Drive.head rotate) c hs hc h7 (hv_clear_bits hhv).1 ops hw
  rw [hn] at ha
  intro dir u atZero c'
  simp only [c']
  rw [ha.wd_eq, ha.2]
  exact step_passes F rotate c hs hc h7 h5 hhv

theorem step_run_stepIn :
    let c : Config (Nat × Unit) := ⟨(WD1770.zeroed.setRegister 1 3).setRegister 0 0x50, 0, (3, ())⟩
    let ops := List.replicate 7 Op.pass
    (c.wd.state = .waiting ∧ c.wd.hasCommand = true ∧ c.wd.command &&& 0x80 = 0 ∧
      c.wd.command >>> 5 ≠ 0 ∧ c.wd.command &&& 0x0C = 0 ∧ (∀ op ∈ ops, op.isWrite = false) ∧
      passCount ops =
        (if c.drive.1 = 0 ∧ c.wd.postSpinSetup.isStepIn = false then 2
          else (c.wd.command &&& 3).toNat + 3) + if c.wd.command &&& 0x10 != 0 then 4 else 3) ∧
    let dir := c.wd.postSpinSetup.isStepIn
    let u := c.wd.command &&& 0x10 != 0
    let atZero := c.drive.1 = 0 ∧ dir = false
    let c' := run Flags.standard (Drive.head fun _ => ((), 0)) c ops
    c'.wd.state = .waiting ∧ c'.wd.interruptRequest = true ∧ c'.wd.busy Flags.standard = false ∧
      c'.wd.isStepIn = dir ∧ c'.wd.data = c.wd.data ∧
      c'.wd.track = (if atZero then 0
        else if u then c.wd.track + (if dir then -1 else 1) else c.wd.track) ∧
      c'.drive.1 = if dir then c.drive.1 + 1 else c.drive.1 - 1 :=
  ⟨by decide, step_run Flags.standard (fun _ => ((), 0)) _ (by decide) (by decide) (by decide)
    (by decide) (by decide) _ (by decide) (by decide)⟩

/-- A write to the command register makes the command pending and changes nothing else a
stepping command reads. -/
theorem apply_write (c : Config (Nat × R)) (cmd : BitVec 8) :
    let c₁ := apply F (Drive.head rotate) (.setRegister 0 cmd) c
    c₁.wd.state = c.wd.state ∧ c₁.wd.hasCommand = true ∧ c₁.wd.command = cmd ∧
      c₁.wd.track = c.wd.track ∧ c₁.drive = c.drive := by
  simp [apply]

/-- **Step-in then step-out is a round trip.** From `Waiting`, a step-in and then a step-out,
both with the h and v bits clear and the same u bit, each written to the command register and
given its passes under any interleaving of operations with no register write, leave the head
and the track register where they were, and the controller waiting with the interrupt raised and
Busy clear. -/
theorem stepIn_stepOut_run (c : Config (Nat × R)) (hs : c.wd.state = .waiting)
    (cmd₁ cmd₂ : BitVec 8) (h₁ : cmd₁ >>> 5 = 2) (h₂ : cmd₂ >>> 5 = 3)
    (hhv₁ : cmd₁ &&& 0x0C = 0) (hhv₂ : cmd₂ &&& 0x0C = 0) (hu : cmd₁ &&& 0x10 = cmd₂ &&& 0x10)
    (ops₁ ops₂ : List Op) (hw₁ : ∀ op ∈ ops₁, op.isWrite = false)
    (hw₂ : ∀ op ∈ ops₂, op.isWrite = false)
    (hn₁ : passCount ops₁ = (cmd₁ &&& 3).toNat + 3 + if cmd₁ &&& 0x10 != 0 then 4 else 3)
    (hn₂ : passCount ops₂ = (cmd₂ &&& 3).toNat + 3 + if cmd₂ &&& 0x10 != 0 then 4 else 3) :
    let c' := run F (Drive.head rotate) c
      (.setRegister 0 cmd₁ :: ops₁ ++ .setRegister 0 cmd₂ :: ops₂)
    c'.wd.state = .waiting ∧ c'.wd.track = c.wd.track ∧ c'.drive.1 = c.drive.1 ∧
      c'.wd.interruptRequest = true ∧ c'.wd.busy F = false := by
  -- the step-in: the head one track in, the track register one down if the u bit is set
  obtain ⟨hs₁, hp₁, hk₁, ht₁, hd₁⟩ := apply_write F rotate c cmd₁
  generalize hc₁ : apply F (Drive.head rotate) (.setRegister 0 cmd₁) c = c₁ at *
  have h7₁ : c₁.wd.command &&& 0x80 = 0 := hk₁ ▸ bit7_clear (by rw [h₁]; decide)
  have hv₁ : c₁.wd.command &&& 0x0C = 0 := hk₁ ▸ hhv₁
  have ha₁ := run_type1_alike F (Drive.head rotate) c₁ (hs₁.trans hs) hp₁ h7₁
    (hv_clear_bits hv₁).1 ops₁ hw₁
  have hq₁ := step_passes F rotate c₁ (hs₁.trans hs) hp₁ h7₁ (by rw [hk₁, h₁]; decide) hv₁
  simp only [postSpinSetup_stepIn c₁.wd (by rw [hk₁]; exact h₁)] at hq₁
  simp only [hk₁, ht₁, hd₁, Bool.true_eq_false, and_false, if_false, if_true, ← hn₁] at hq₁
  obtain ⟨s₁, -, -, -, -, t₁, k₁⟩ := hq₁
  generalize hc₂ : run F (Drive.head rotate) c₁ ops₁ = c₂ at ha₁
  -- the step-out: the head, off track zero, one track out, the track register one up
  obtain ⟨hs₃, hp₃, hk₃, ht₃, hd₃⟩ := apply_write F rotate c₂ cmd₂
  generalize hc₃ : apply F (Drive.head rotate) (.setRegister 0 cmd₂) c₂ = c₃ at *
  have h7₃ : c₃.wd.command &&& 0x80 = 0 := hk₃ ▸ bit7_clear (by rw [h₂]; decide)
  have hv₃ : c₃.wd.command &&& 0x0C = 0 := hk₃ ▸ hhv₂
  have hw₃ : c₃.wd.state = .waiting := by rw [hs₃, ha₁.state, s₁]
  have ha₃ := run_type1_alike F (Drive.head rotate) c₃ hw₃ hp₃ h7₃ (hv_clear_bits hv₃).1 ops₂ hw₂
  have hq₃ := step_passes F rotate c₃ hw₃ hp₃ h7₃ (by rw [hk₃, h₂]; decide) hv₃
  simp only [postSpinSetup_stepOut c₃.wd (by rw [hk₃]; exact h₂)] at hq₃
  simp only [hk₃, ht₃, hd₃, ha₁.2, k₁, Nat.add_one_ne_zero, false_and, if_false,
    Bool.false_eq_true, ← hn₂] at hq₃
  obtain ⟨s₃, i₃, b₃, -, -, t₃, k₃⟩ := hq₃
  -- the run is the two commands'
  intro c'
  rw [show c' = run F (Drive.head rotate) c₃ ops₂ by
    rw [← hc₃, ← hc₂, ← hc₁]; simp only [c', run, run_append]]
  refine ⟨by rw [ha₃.state, s₃], ?_, by rw [ha₃.2, k₃, Nat.add_sub_cancel],
    by rw [ha₃.wd_eq]; exact i₃, by rw [WD1770.busy, ha₃.status]; exact b₃⟩
  rw [ha₃.wd_eq]
  show (passes F (Drive.head rotate) (passCount ops₂) c₃).wd.track = _
  rw [t₃, ha₁.wd_eq]
  show (if _ then (passes F (Drive.head rotate) (passCount ops₁) c₁).wd.track + 1 else _) = _
  rw [t₁, ← hu]
  split <;> simp [BitVec.add_assoc]

theorem stepIn_stepOut_run_twoTracks :
    let c : Config (Nat × Unit) := ⟨WD1770.zeroed.setRegister 1 5, 0, (2, ())⟩
    let ops := List.replicate 7 Op.pass
    (c.wd.state = .waiting ∧ (0x50 : BitVec 8) >>> 5 = 2 ∧ (0x70 : BitVec 8) >>> 5 = 3 ∧
      (0x50 : BitVec 8) &&& 0x0C = 0 ∧ (0x70 : BitVec 8) &&& 0x0C = 0 ∧
      (0x50 : BitVec 8) &&& 0x10 = (0x70 : BitVec 8) &&& 0x10 ∧
      (∀ op ∈ ops, op.isWrite = false) ∧
      passCount ops = ((0x50 : BitVec 8) &&& 3).toNat + 3 +
        (if (0x50 : BitVec 8) &&& 0x10 != 0 then 4 else 3) ∧
      passCount ops = ((0x70 : BitVec 8) &&& 3).toNat + 3 +
        (if (0x70 : BitVec 8) &&& 0x10 != 0 then 4 else 3)) ∧
    let c' := run Flags.standard (Drive.head fun _ => ((), 0)) c
      (.setRegister 0 0x50 :: ops ++ .setRegister 0 0x70 :: ops)
    c'.wd.state = .waiting ∧ c'.wd.track = c.wd.track ∧ c'.drive.1 = c.drive.1 ∧
      c'.wd.interruptRequest = true ∧ c'.wd.busy Flags.standard = false :=
  ⟨by decide, stepIn_stepOut_run Flags.standard (fun _ => ((), 0)) _ (by decide) 0x50 0x70
    (by decide) (by decide) (by decide) (by decide) (by decide) _ _ (by decide) (by decide)
    (by decide) (by decide)⟩

end Config
end ClockSignal.WD
