import ClockSignal.WD.Seek

/-! Restore and seek with the h bit set: the spin-up.

With the h bit set, `BeginType1` does not go straight on to `BeginType1PostSpin` but records it
as the wait's next state and enters `WaitForSixIndexPulses` with the count at zero; only the sixth
index hole after that resumes the command. `restore_seek_spinUp_run` follows such a command
through every interleaving the host and the drive can produce, split where the wait begins and
ends, one lemma a phase: operations holding the pass that takes the command (`run_take`); the
pass that enters the wait, operations holding five index holes, and the sixth (`run_spinUp`,
from `run_waiting_wd`: passes only turn the motor on, holes only count); and operations holding
the passes of the stepping (`run_fromPostSpin`), which never waits again (`passes_pastSpinUp`)
and so ends as `passes_fromPostSpin` says. -/
namespace ClockSignal.WD
namespace WD1770

variable (F : Flags) {D : Type} (drv : Drive D)

/-- What a Type 1 command keeps once past its spin-up: no command pending, and neither a
`BeginType` state nor the wait. -/
def PastSpinUp (s : WD1770) : Prop :=
  s.hasCommand = false ∧ s.state ≠ .waitForSixIndexPulses ∧ s.state ≠ .beginType1 ∧
    s.state ≠ .beginType2

/-- In the control-flow graph `BeginType1` is entered only from `Waiting`. -/
theorem mem_successors_beginType1 {st : State} (h : .beginType1 ∈ successors st) :
    st = .waiting := by
  cases st <;> simp [successors] at h ⊢

theorem exec_pastSpinUp {s : WD1770} {d : D} {r : WD1770 × D} (h : s.exec F drv d = some r)
    (hp : s.PastSpinUp) : r.1.PastSpinUp := by
  obtain ⟨hc, hw, h1, h2⟩ := hp
  have hc' : r.1.hasCommand = false := by
    cases hr : r.1.hasCommand
    · rfl
    · simpa [hc] using (exec_command F drv h).2 hr
  by_cases hs : s.state = .waiting
  · simp only [exec, hs, Option.some.injEq] at h; subst h
    simp [PastSpinUp, waiting, hc, hs]
  have hsucc := exec_successor F drv h
  refine ⟨hc', fun h' => ?_, fun h' => hs (mem_successors_beginType1 (h' ▸ hsucc)),
    fun h' => hs (mem_successors_beginType2 (h' ▸ hsucc))⟩
  rcases mem_successors_wait (h' ▸ hsucc) with h | h | h <;> contradiction

end WD1770

namespace Config

variable (F : Flags) {D : Type} (drv : Drive D)

theorem passes_pastSpinUp (n : Nat) (c : Config D) (hp : c.wd.PastSpinUp) :
    (passes F drv n c).wd.PastSpinUp := by
  induction n generalizing c with
  | zero => exact hp
  | succ n ih =>
    refine ih _ ?_
    rw [pass_eq]
    cases h : c.wd.exec F drv (cycledDrive F drv c) with
    | none => exact hp
    | some r => exact WD1770.exec_pastSpinUp F drv h hp

section Head

variable {R : Type} (rotate : R → R × Nat)

/-- `BeginType1` with the h bit set sets Busy, clears the interrupt request and the bits a Type 1
command clears, and enters the wait with the count at zero and `BeginType1PostSpin` to resume. -/
theorem pass_beginType1_wait (c : Config (Nat × R)) (hs : c.wd.state = .beginType1)
    (hh : c.wd.command &&& 0x08 ≠ 0) :
    (pass F (Drive.head rotate) c).wd =
        { c.wd with
          status := (c.wd.status ||| F.busy) &&& ~~~(F.dataRequest ||| F.crcError)
          interruptRequest := false
          nextState := .beginType1PostSpin
          indexHoleCount := 0
          state := .waitForSixIndexPulses } ∧
      (pass F (Drive.head rotate) c).drive.1 = c.drive.1 := by
  refine ⟨?_, pass_head F rotate c (by rw [hs]; simp)⟩
  simp only [pass_eq, WD1770.exec, hs, WD1770.beginType1, bne_iff_ne, ne_eq, hh,
    not_false_eq_true, if_true]

/-- One operation of the wait with no register write, short of the sixth index hole: a pass
only sets the motor-on bit, an index hole only counts. -/
theorem apply_waiting_wd (op : Op) (hw : op.isWrite = false) (c : Config (Nat × R))
    (hs : c.wd.state = .waitForSixIndexPulses)
    (h6 : c.wd.indexHoleCount.toNat + holeCount [op] < 6) :
    ∃ st, (apply F (Drive.head rotate) op c).wd =
        { c.wd with
          status := st
          indexHoleCount := c.wd.indexHoleCount + BitVec.ofNat 32 (holeCount [op]) } ∧
      (apply F (Drive.head rotate) op c).drive.1 = c.drive.1 := by
  cases op with
  | setRegister a v => cases hw
  | processIndexHole =>
    simp only [holeCount, List.count_singleton_self] at h6 ⊢
    have h5 : c.wd.indexHoleCount.toNat + 1 ≠ 6 := by omega
    refine ⟨c.wd.status, ?_, rfl⟩
    simp only [apply, WD1770.processIndexHole_eq, hs, h5, and_false, if_false]
    rfl
  | addCycles n => exact ⟨c.wd.status, by simp [apply, holeCount], rfl⟩
  | pass =>
    refine ⟨c.wd.status ||| F.motorOn, ?_, pass_head F rotate c (by rw [hs]; simp)⟩
    simp [apply, pass_waiting F _ c hs, holeCount]

/-- **The wait.** Operations with no register write and fewer than six index holes in all leave
every register but the status register as it was, count the holes, and leave the head where it
is. -/
theorem run_waiting_wd (ops : List Op) (hw : ∀ op ∈ ops, op.isWrite = false)
    (c : Config (Nat × R)) (hs : c.wd.state = .waitForSixIndexPulses)
    (h6 : c.wd.indexHoleCount.toNat + holeCount ops < 6) :
    ∃ st, (run F (Drive.head rotate) c ops).wd =
        { c.wd with
          status := st
          indexHoleCount := c.wd.indexHoleCount + BitVec.ofNat 32 (holeCount ops) } ∧
      (run F (Drive.head rotate) c ops).drive.1 = c.drive.1 := by
  induction ops generalizing c with
  | nil => exact ⟨c.wd.status, by simp only [holeCount, List.count_nil, BitVec.add_zero]; rfl, rfl⟩
  | cons op ops ih =>
    rw [holeCount_cons] at h6 ⊢
    obtain ⟨st, hwd, hd⟩ := apply_waiting_wd F rotate op (hw op (List.mem_cons_self _ _)) c hs
      (by omega)
    have hk : (apply F (Drive.head rotate) op c).wd.indexHoleCount.toNat =
        c.wd.indexHoleCount.toNat + holeCount [op] := by
      rw [hwd]
      simp only [BitVec.toNat_add, BitVec.toNat_ofNat]
      omega
    obtain ⟨st', hwd', hd'⟩ := ih (fun o ho => hw o (List.mem_cons_of_mem _ ho))
      (apply F (Drive.head rotate) op c) (by rw [hwd]; exact hs) (by rw [hk]; omega)
    refine ⟨st', ?_, hd'.trans hd⟩
    show (run F _ (apply F _ op c) ops).wd = _
    rw [hwd', hwd, BitVec.add_assoc, BitVec.ofNat_add_ofNat]

/-- **Taking the command.** From `Waiting` with a Type 1 command pending, operations with no
register write holding one pass take it: the controller is at `BeginType1` with nothing pending,
every other register but the index-hole count as it was, and the head where it was. -/
theorem run_take (c : Config (Nat × R)) (hs : c.wd.state = .waiting) (hc : c.wd.hasCommand = true)
    (h7 : c.wd.command &&& 0x80 = 0) (ops : List Op) (hw : ∀ op ∈ ops, op.isWrite = false)
    (ht : passCount ops = 1) :
    ∃ k, (run F (Drive.head rotate) c ops).wd =
        { c.wd with
          hasCommand := false
          state := .beginType1
          indexHoleCount := k } ∧
      (run F (Drive.head rotate) c ops).drive.1 = c.drive.1 := by
  have h1 := pass_take F (Drive.head rotate) c hs hc h7
  have ha := run_alike_passes F (Drive.head rotate) ops hw (⟨rfl, rfl⟩ : Alike c c) (by
    rw [ht]; rintro (_ | _ | j) hj
    · simp [passes, hs]
    · rw [show passes F _ 1 c = pass F _ c from rfl, h1]; simp
    · omega)
  rw [ht] at ha
  refine ⟨_, ha.wd_eq.trans (congrArg (fun s : WD1770 =>
    { s with indexHoleCount := (run F (Drive.head rotate) c ops).wd.indexHoleCount }) h1), ?_⟩
  rw [ha.2]
  exact pass_head F rotate c (by rw [hs]; simp)

/-- **The spin-up.** From `BeginType1` with the h bit set, the pass that enters the wait, any
operations with no register write holding five index holes, and the sixth resume the command at
`BeginType1PostSpin`, with every register but the status register as the pass left it and the
head where it was. -/
theorem run_spinUp (c : Config (Nat × R)) (hs : c.wd.state = .beginType1)
    (hh : c.wd.command &&& 0x08 ≠ 0) (wait : List Op) (hw : ∀ op ∈ wait, op.isWrite = false)
    (hwait : holeCount wait = 5) :
    ∃ st, (run F (Drive.head rotate) c (.pass :: wait ++ [.processIndexHole])).wd =
        { c.wd with
          status := st
          interruptRequest := false
          nextState := .beginType1PostSpin
          indexHoleCount := 6
          state := .beginType1PostSpin } ∧
      (run F (Drive.head rotate) c (.pass :: wait ++ [.processIndexHole])).drive.1 = c.drive.1 := by
  obtain ⟨h2, h2d⟩ := pass_beginType1_wait F rotate c hs hh
  have h2k : (pass F (Drive.head rotate) c).wd.indexHoleCount = 0 := by rw [h2]
  obtain ⟨st, h3, h3d⟩ := run_waiting_wd F rotate wait hw (pass F (Drive.head rotate) c)
    (by rw [h2]) (by rw [h2k, hwait]; decide)
  rw [List.cons_append, run, run_append]
  refine ⟨st, ?_, h3d.trans h2d⟩
  show (run F _ (pass F _ c) wait).wd.processIndexHole = _
  simp only [WD1770.processIndexHole_eq, h3, h2, hwait]
  rfl

/-- **After the spin-up.** From `BeginType1PostSpin` with no command pending, a restore or seek with
the v bit clear never waits for index holes again, so under any operations with no register
write holding `3 + k * (r + 4)` passes it ends as `passes_fromPostSpin` says. -/
theorem run_fromPostSpin (c : Config (Nat × R)) (hs : c.wd.state = .beginType1PostSpin)
    (hc : c.wd.hasCommand = false) (hcmd : c.wd.command >>> 5 = 0)
    (hv : c.wd.command &&& 0x04 = 0) (ops : List Op) (hw : ∀ op ∈ ops, op.isWrite = false)
    (hn : passCount ops = 3 + c.wd.startTrack.toNat * ((c.wd.command &&& 3).toNat + 4)) :
    let c' := run F (Drive.head rotate) c ops
    c'.wd.state = .waiting ∧ c'.wd.track = 0 ∧ c'.wd.data = 0 ∧
      c'.drive.1 = c.drive.1 + c.wd.startTrack.toNat ∧ c'.wd.interruptRequest = true ∧
      c'.wd.busy F = false := by
  have hp := run_alike_passes F (Drive.head rotate) ops hw (⟨rfl, rfl⟩ : Alike c c)
    fun j _ => (passes_pastSpinUp F _ j c ⟨hc, by simp [hs], by simp [hs], by simp [hs]⟩).2.1
  rw [hn] at hp
  obtain ⟨h1, h2, h3, h4, h5, h6⟩ := passes_fromPostSpin F rotate c hs hcmd hv
  have hwd := hp.wd_eq
  refine ⟨hp.state.trans h1, by rw [hwd]; exact h2, by rw [hwd]; exact h3, hp.2 ▸ h4,
    by rw [hwd]; exact h5, ?_⟩
  simp only [WD1770.busy, hp.status] at h6 ⊢
  exact h6

/-- **Restore and seek with the spin-up, under any interleaving.** A restore or seek with the h
bit set and the v bit clear, taken from `Waiting`, ends as one with the h bit clear
(`restore_seek_passes`): the track and data registers zero, the head `k` tracks up, Busy clear
and the interrupt raised, `k` the track register it steps from. The host and the drive may
space the operations as they like, none a register write: first those holding one pass (the one
that takes the command), then the pass that enters the wait, then any holding five index holes,
the sixth, and any holding the `3 + k * (r + 4)` passes of the stepping, `r` the step rate. -/
theorem restore_seek_spinUp_run (c : Config (Nat × R)) (hs : c.wd.state = .waiting)
    (hc : c.wd.hasCommand = true) (hcmd : c.wd.command >>> 5 = 0)
    (hh : c.wd.command &&& 0x08 ≠ 0) (hv : c.wd.command &&& 0x04 = 0)
    (take wait post : List Op) (hw : ∀ op ∈ take ++ wait ++ post, op.isWrite = false)
    (ht : passCount take = 1) (hwait : holeCount wait = 5)
    (hn : passCount post = 3 + c.wd.startTrack.toNat * ((c.wd.command &&& 3).toNat + 4)) :
    let c' := run F (Drive.head rotate) c
      (take ++ .pass :: wait ++ .processIndexHole :: post)
    c'.wd.state = .waiting ∧ c'.wd.track = 0 ∧ c'.wd.data = 0 ∧
      c'.drive.1 = c.drive.1 + c.wd.startTrack.toNat ∧ c'.wd.interruptRequest = true ∧
      c'.wd.busy F = false := by
  simp only [List.mem_append, or_imp, forall_and] at hw
  obtain ⟨⟨hwt, hww⟩, hwp⟩ := hw
  -- taking the command
  obtain ⟨k, h1w, h1d⟩ := run_take F rotate c hs hc (bit7_clear (by rw [hcmd]; decide)) take hwt ht
  generalize hc₁ : run F (Drive.head rotate) c take = c₁ at h1w h1d
  -- the spin-up
  obtain ⟨st, h4, h4d⟩ :=
    run_spinUp F rotate c₁ (by rw [h1w]) (by rw [h1w]; exact hh) wait hww hwait
  generalize hc₄ : run F (Drive.head rotate) c₁ (.pass :: wait ++ [.processIndexHole]) = c₄
    at h4 h4d
  -- the stepping
  have hk : c₄.wd.startTrack = c.wd.startTrack := by rw [h4, h1w]; rfl
  have h4c : c₄.wd.command = c.wd.command := by rw [h4, h1w]
  have hf := run_fromPostSpin F rotate c₄ (by rw [h4]) (by rw [h4, h1w]) (by rw [h4c]; exact hcmd)
    (by rw [h4c]; exact hv) post hwp (by rw [hk, h4c, hn])
  rw [hk, h4d, h1d] at hf
  have e : take ++ .pass :: wait ++ .processIndexHole :: post =
      take ++ (.pass :: wait ++ [.processIndexHole]) ++ post := by simp
  intro c'
  simp only [c']
  rwa [e, run_append, run_append, hc₁, hc₄]

/-- A seek from track 2 with the h bit set, the head at track 3: a pass takes it, a pass enters
the wait, six index holes end the wait, and eleven passes bring it back to `Waiting`. -/
theorem restore_seek_spinUp_run_seek :
    let c : Config (Nat × Unit) := ⟨(WD1770.zeroed.setRegister 1 2).setRegister 0 0x18, 0, (3, ())⟩
    let take := [Op.pass]
    let wait := List.replicate 5 Op.processIndexHole
    let post := List.replicate 11 Op.pass
    (c.wd.state = .waiting ∧ c.wd.hasCommand = true ∧ c.wd.command >>> 5 = 0 ∧
      c.wd.command &&& 0x08 ≠ 0 ∧ c.wd.command &&& 0x04 = 0 ∧
      (∀ op ∈ take ++ wait ++ post, op.isWrite = false) ∧ passCount take = 1 ∧
      holeCount wait = 5 ∧
      passCount post = 3 + c.wd.startTrack.toNat * ((c.wd.command &&& 3).toNat + 4)) ∧
    let c' := run Flags.standard (Drive.head fun _ => ((), 0)) c
      (take ++ .pass :: wait ++ .processIndexHole :: post)
    c'.wd.state = .waiting ∧ c'.wd.track = 0 ∧ c'.wd.data = 0 ∧
      c'.drive.1 = c.drive.1 + c.wd.startTrack.toNat ∧ c'.wd.interruptRequest = true ∧
      c'.wd.busy Flags.standard = false :=
  ⟨by decide, restore_seek_spinUp_run Flags.standard (fun _ => ((), 0)) _ (by decide) (by decide)
    (by decide) (by decide) (by decide) _ _ _ (by decide) (by decide) (by decide) (by decide)⟩

end Head

end Config
end ClockSignal.WD
