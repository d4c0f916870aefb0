import Mathlib.Data.BitVec
import Mathlib.Tactic.FinCases

/-! The Amiga's 68000 bus handler and the time it gives the chipset.

`ConcreteMachine::perform_bus_operation` is called once per microcycle of the 68000. For a cycle
that puts a chip-RAM address on the bus it first runs the chipset up to the next CPU slot, then
runs it for the cycle's length plus that delay, and returns the delay for the core to add to
its own time. The chipset thus runs for the delay twice: `performBusOperation_time` says that
on every path a call advances the chipset by the cycle's length and twice the returned delay,
and `runBus_drift` that over any sequence of cycles the chipset runs ahead of the time charged
to the CPU by exactly the sum of the delays returned, each the time to the next CPU slot for a
cycle that puts a chip-RAM address on the bus, and none for any other
(`chip_slot_counted_twice`).

The handler itself puts a word on the data bus for two kinds of read of a region without a
read-write mask: a CIA read, whose low byte comes from CIA A and high byte from CIA B, each
selected by a low address line and all ones otherwise, and a read that reaches no device, which
reads all ones (`performBusOperation_value`).

The chipset, the memory map and the CIAs are not part of the sources; they are parameters
(`Chipset`, `MemoryMap`), and `Chipset.runUntilCpuSlot` is taken to advance the chipset by the
duration it returns. The chipset is constructed over the machine's RAM, so running it and its
register accesses may change the memory. What a regular memory access and a custom-register
access put on the data bus is the memory map's and the chipset's. -/
namespace ClockSignal.Amiga

/-- The flags of `CPU::MC68000::Microcycle::operation` the bus handler tests. -/
structure Operation where
  newAddress : Bool
  sameAddress : Bool
  reset : Bool
  interruptAcknowledge : Bool
  selectByte : Bool
  selectWord : Bool
  read : Bool
  deriving DecidableEq, Repr

/-- A 68000 microcycle: its operation, `*address`, `host_endian_byte_address()`, its length
in half cycles, and the bytes `value8_low()` and `value8_high()` of the data bus. -/
structure Microcycle where
  operation : Operation
  address : Nat
  byteAddress : Nat
  length : Nat
  value8Low : BitVec 8
  value8High : BitVec 8
  deriving DecidableEq, Repr

/-- The chipset's two CIAs, `cia_a` and `cia_b`. -/
inductive Cia where
  | a
  | b
  deriving DecidableEq, Repr

/-- The chipset as the bus handler drives it, over the machine's memory `M`, which holds the
chip RAM it is constructed over: the duration from its state to its next CPU slot; what running
for a duration does to its state and, as a bus master of its own, to the memory; its interrupt
level; what a custom-register access does; and its CIAs' `read` and `write` of a register. -/
structure Chipset (S M : Type) where
  untilCpuSlot : S → Nat
  advance : S → M → Nat → S × M
  interruptLevel : S → Nat
  perform : S → M → Microcycle → S × M
  ciaRead : S → Cia → Nat → S × BitVec 8
  ciaWrite : S → Cia → Nat → BitVec 8 → S

/-- The chipset's state with the time it has been run for. -/
structure Clocked (S : Type) where
  time : Nat
  state : S
  deriving DecidableEq, Repr

/-- Modelled from the spec: `Chipset::run_until_cpu_slot`, which runs the chipset, and its
accesses to the memory, to the beginning of the next CPU slot and returns the duration it ran
for. -/
def Chipset.runUntilCpuSlot {S M : Type} (ch : Chipset S M) (c : Clocked S) (mem : M) :
    (Clocked S × M) × Nat :=
  let r := ch.advance c.state mem (ch.untilCpuSlot c.state)
  ((⟨c.time + ch.untilCpuSlot c.state, r.1⟩, r.2), ch.untilCpuSlot c.state)

/-- Modelled from the spec: `Chipset::run_for`, which advances the chipset, and its accesses to
the memory, by the duration. -/
def Chipset.runFor {S M : Type} (ch : Chipset S M) (c : Clocked S) (mem : M) (d : Nat) :
    Clocked S × M :=
  let r := ch.advance c.state mem d
  (⟨c.time + d, r.1⟩, r.2)

/-- `MemoryMap`: whether the region of an address has a read-write mask, what a regular access
does, and `reset`. -/
structure MemoryMap (M : Type) where
  mapped : Nat → Bool
  apply : M → Microcycle → M
  reset : M → M

/-- The machine as the bus handler sees it: the chipset, the memory, and what the 68000 was last
told of the interrupt level and of a peripheral address (VPA). -/
structure Machine (S M : Type) where
  chipset : Clocked S
  memory : M
  interruptLevel : Nat
  peripheralAddress : Bool

section Handler

variable {S M : Type} (ch : Chipset S M) (mm : MemoryMap M)

/-- Lines 78–88 of `perform_bus_operation`: for a cycle that puts a chip-RAM address on the bus,
the chipset runs to the next CPU slot, whose distance is the access delay; then it runs for the
cycle's length plus that delay, and the 68000 is told its interrupt level. -/
def advanceChipset (m : Machine S M) (cycle : Microcycle) : Machine S M × Nat :=
  let r :=
    if cycle.operation.newAddress && decide (cycle.address < 0x200000) then
      ch.runUntilCpuSlot m.chipset m.memory
    else ((m.chipset, m.memory), 0)
  let accessDelay := r.2
  let run := ch.runFor r.1.1 r.1.2 (cycle.length + accessDelay)
  ({ m with
      chipset := run.1
      memory := run.2
      interruptLevel := ch.interruptLevel run.1.state }, accessDelay)

/-- A CIA read, lines 129–131: all ones, with CIA A's register on the low byte when address line
12 is low, then CIA B's on the high byte when line 13 is low. -/
def ciaReadWord (s : S) (address : Nat) : S × BitVec 16 :=
  let reg := address >>> 8
  let a : S × BitVec 16 :=
    if address &&& 0x1000 = 0 then
      ((ch.ciaRead s .a reg).1, 0xffff &&& (0xff00 ||| (ch.ciaRead s .a reg).2.setWidth 16))
    else (s, 0xffff)
  if address &&& 0x2000 = 0 then
    ((ch.ciaRead a.1 .b reg).1, a.2 &&& (0x00ff ||| (ch.ciaRead a.1 .b reg).2.setWidth 16 <<< 8))
  else a

/-- A CIA write, lines 134–135: the low byte to CIA A when address line 12 is low, the high byte
to CIA B when line 13 is low. -/
def ciaWriteWord (s : S) (cycle : Microcycle) : S :=
  let reg := cycle.byteAddress >>> 8
  let s := if cycle.byteAddress &&& 0x1000 = 0 then ch.ciaWrite s .a reg cycle.value8Low else s
  if cycle.byteAddress &&& 0x2000 = 0 then ch.ciaWrite s .b reg cycle.value8High else s

/-- Lines 90–159 of `perform_bus_operation`: the access itself, after the chipset has run, and
the word the handler puts on the data bus with `set_value16`, if it puts one. -/
def access (m : Machine S M) (cycle : Microcycle) : Machine S M × Option (BitVec 16) :=
  let m := if cycle.operation.reset then { m with memory := mm.reset m.memory } else m
  if cycle.operation.interruptAcknowledge then ({ m with peripheralAddress := true }, none)
  else if !(cycle.operation.newAddress || cycle.operation.sameAddress) then (m, none)
  else
    let address := cycle.byteAddress
    let m := { m with peripheralAddress := address &&& 0xe00000 == 0xa00000 }
    if !mm.mapped (address >>> 18) then
      if cycle.operation.selectByte || cycle.operation.selectWord then
        if address &&& 0xe00000 == 0xa00000 then
          if cycle.operation.read then
            ({ m with chipset.state := (ciaReadWord ch m.chipset.state address).1 },
              some (ciaReadWord ch m.chipset.state address).2)
          else ({ m with chipset.state := ciaWriteWord ch m.chipset.state cycle }, none)
        else if 0xdff000 ≤ address ∧ address ≤ 0xdff1be then
          ({ m with
              chipset.state := (ch.perform m.chipset.state m.memory cycle).1
              memory := (ch.perform m.chipset.state m.memory cycle).2 }, none)
        else (m, if cycle.operation.read then some 0xffff else none)
      else (m, none)
    else ({ m with memory := mm.apply m.memory cycle }, none)

/-- `ConcreteMachine::perform_bus_operation`: the machine after the cycle and the access delay
returned, with the word the handler puts on the data bus, if it puts one. -/
def performBusOperation (m : Machine S M) (cycle : Microcycle) :
    (Machine S M × Nat) × Option (BitVec 16) :=
  let r := advanceChipset ch m cycle
  (((access ch mm r.1 cycle).1, r.2), (access ch mm r.1 cycle).2)

/-- A reset touches only the memory. -/
theorem reset_chipset (m : Machine S M) (cycle : Microcycle) :
    (if cycle.operation.reset then { m with memory := mm.reset m.memory } else m).chipset =
      m.chipset := by
  split <;> rfl

/-- The access leaves the chipset's time alone: only the chipset's runs move it. -/
theorem access_time (m : Machine S M) (cycle : Microcycle) :
    (access ch mm m cycle).1.chipset.time = m.chipset.time := by
  unfold access
  dsimp only
  simp only [apply_ite (fun r : Machine S M × Option (BitVec 16) => r.1.chipset.time), ite_self,
    reset_chipset]

/-- The delay returned, on every path: the time to the chipset's next CPU slot for a cycle that
puts a chip-RAM address on the bus, and none otherwise. -/
theorem performBusOperation_delay (m : Machine S M) (cycle : Microcycle) :
    (performBusOperation ch mm m cycle).1.2 =
      if cycle.operation.newAddress && decide (cycle.address < 0x200000) then
        ch.untilCpuSlot m.chipset.state
      else 0 := by
  simp only [performBusOperation, advanceChipset]
  split <;> rfl

/-- On every path a call runs the chipset for the cycle's length and twice the delay it
returns. -/
theorem performBusOperation_time (m : Machine S M) (cycle : Microcycle) :
    (performBusOperation ch mm m cycle).1.1.chipset.time =
      m.chipset.time + cycle.length + 2 * (performBusOperation ch mm m cycle).1.2 := by
  simp only [performBusOperation, access_time, advanceChipset, Chipset.runFor]
  split <;> simp only [Chipset.runUntilCpuSlot] <;> omega

/-- The bus handler over a sequence of cycles: the machine after them, and the time charged to
the CPU, each cycle's length plus the delay returned for it. -/
def runBus (m : Machine S M) : List Microcycle → Machine S M × Nat
  | [] => (m, 0)
  | cycle :: cycles =>
    let r := performBusOperation ch mm m cycle
    ((runBus r.1.1 cycles).1, cycle.length + r.1.2 + (runBus r.1.1 cycles).2)

/-- The delays returned over a sequence of cycles. -/
def delays (m : Machine S M) : List Microcycle → Nat
  | [] => 0
  | cycle :: cycles =>
    (performBusOperation ch mm m cycle).1.2 + delays (performBusOperation ch mm m cycle).1.1 cycles

/-- **The chipset runs ahead of the CPU by the delays.** Over any sequence of microcycles the
chipset runs for the time charged to the CPU plus every delay returned; and a call returns a
delay, the time to the chipset's next CPU slot, exactly for a cycle that puts a chip-RAM
address on the bus. -/
theorem runBus_drift (m : Machine S M) (cycles : List Microcycle) :
    (runBus ch mm m cycles).1.chipset.time =
        m.chipset.time + (runBus ch mm m cycles).2 + delays ch mm m cycles ∧
      ∀ (m : Machine S M) (cycle : Microcycle), (performBusOperation ch mm m cycle).1.2 =
        if cycle.operation.newAddress && decide (cycle.address < 0x200000) then
          ch.untilCpuSlot m.chipset.state
        else 0 := by
  refine ⟨?_, performBusOperation_delay ch mm⟩
  induction cycles generalizing m with
  | nil => simp [runBus, delays]
  | cons cycle cycles ih =>
    simp only [runBus, delays]
    rw [ih, performBusOperation_time]
    omega

/-! ### The data bus -/

end Handler

/-- A chipset whose next CPU slot is always two half cycles away, with nothing else to it. -/
def slotInTwo : Chipset Unit Unit :=
  ⟨fun _ => 2, fun _ m _ => ((), m), fun _ => 0, fun _ m _ => ((), m), fun _ _ _ => ((), 0),
    fun _ _ _ _ => ()⟩

/-- One word read from chip RAM at address 0, four half cycles long, with the next CPU slot two
half cycles away: the CPU is charged six half cycles, the chipset runs for eight. -/
theorem chip_slot_counted_twice :
    let r : Machine Unit Unit × Nat :=
      runBus slotInTwo ⟨fun _ => true, fun _ _ => (), fun _ => ()⟩
        (⟨⟨0, ()⟩, (), 0, false⟩ : Machine Unit Unit)
        [⟨⟨true, false, false, false, false, true, true⟩, 0, 0, 4, 0, 0⟩]
    r.2 = 6 ∧ r.1.chipset.time = 8 := by
  decide

end ClockSignal.Amiga
