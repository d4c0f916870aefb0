import Mathlib.Data.BitVec

/-! The PowerPC instruction word and its field accessors.

`InstructionSets::PowerPC::Instruction` decodes only the operation ahead of time; every field is
read from the 32-bit opcode on demand. Most accessors are one of three shapes: a shifted and
masked field (`field`), a flag left in place (`flag`), or a 16-bit immediate (`half`); `li`
sign-extends through a table of its own.

A `Slot` is a field of the word together with its bits re-encoded from an accessor's value,
carrying the proof that they are the word's bits there; each accessor gives one, checked against
its shift and mask. `decode_lossless` then says that every instruction form, re-encoded from its
accessors, gives back the word, and that the signed immediates are the two's-complement values
of their fields. -/
namespace ClockSignal.PowerPC

/-- `InstructionSets::PowerPC::Instruction`, as its accessors see it: the opcode word. -/
structure Instruction where
  opcode : BitVec 32
  deriving DecidableEq, Repr

namespace Instruction

/-- The accessors `(opcode >> shift) & mask`. -/
def field (shift : Nat) (mask : BitVec 32) (i : Instruction) : BitVec 32 :=
  (i.opcode >>> shift) &&& mask

/-- The accessors `opcode & bit`: `0` or non-`0`. -/
def flag (bit : BitVec 32) (i : Instruction) : BitVec 32 := i.opcode &&& bit

/-- The 16-bit immediates `uint16_t(opcode & mask)` and `int16_t(opcode & mask)`. -/
def half (mask : BitVec 32) (i : Instruction) : BitVec 16 := (i.opcode &&& mask).setWidth 16

def uimm := half 0xffff
def simm := half 0xffff
def d := half 0xffff
def ds := half 0xfffc
def imm := field 12 0xf
/-- `to`, which is a keyword here. -/
def to' := field 21 0x1f
def rA := field 16 0x1f
def rB := field 11 0x1f
def rD := field 21 0x1f
def rS := field 21 0x1f
def frA := field 16 0x1f
def frB := field 11 0x1f
def frC := field 6 0x1f
def frS := field 21 0x1f
def frD := field 21 0x1f
def bo := field 21 0x1f
def branchOptions := field 22 0xf
def branchPredictionHint := flag 0x200000
def bi := field 16 0x1f
def bd := half 0xfffc
def mb := field 6 0x1f
def me := field 1 0x1f
def crbA := field 16 0x1f
def crbB := field 11 0x1f
def crbD := field 21 0x1f
def crfD := field 23 0x07
def crfS := field 18 0x07
def crm := field 12 0xff
def fm := field 17 0xff
def nb := field 11 0x1f
def sh := field 11 0x1f
def sr := field 16 0xf

/-- `li`: the 24-bit displacement, extended through a table on bit 25. -/
def li (i : Instruction) : BitVec 32 :=
  let extensions : List (BitVec 32) := [0x00000000, 0xfc000000]
  (i.opcode &&& (0x03fffffc : BitVec 32)) |||
    extensions.getD ((i.opcode >>> 25) &&& (1 : BitVec 32)).toNat 0

def aa := flag 0x02
def lk := flag 0x01
def rc := flag 0x01
def l := flag 0x200000
def oe := flag 0x400

end Instruction

/-! ### Re-encoding fields -/

section Bits

variable (w m a b : BitVec 32)

theorem field_shiftLeft (s : Nat) : ((w >>> s) &&& m) <<< s = w &&& (m <<< s) := by
  ext i
  simp only [BitVec.getLsbD_shiftLeft, BitVec.getLsbD_and, BitVec.getLsbD_ushiftRight]
  by_cases h : (i : Nat) < s
  · simp [h]
  · have e : s + ((i : Nat) - s) = i := by omega
    simp [h, e, Bool.and_comm]

theorem and_or_and : (w &&& a) ||| (w &&& b) = w &&& (a ||| b) := by
  ext i; simp only [BitVec.getLsbD_and, BitVec.getLsbD_or, Bool.and_or_distrib_left]

theorem and_or_and_not : (w &&& m) ||| (w &&& ~~~m) = w := by
  ext i
  simp only [BitVec.getLsbD_and, BitVec.getLsbD_or, BitVec.getLsbD_not, i.isLt, decide_True,
    Bool.true_and]
  cases w.getLsbD i <;> cases m.getLsbD i <;> rfl

/-- A single bit, tested and put back. -/
theorem flag_bit (k : Nat) (hk : k < 32) :
    (if w &&& BitVec.twoPow 32 k != 0 then BitVec.twoPow 32 k else 0) =
      w &&& BitVec.twoPow 32 k := by
  have hne : BitVec.twoPow 32 k ≠ 0 := by
    intro h0
    have := congrArg (fun v => v.getLsbD k) h0
    simp [BitVec.getLsbD_twoPow, hk] at this
  rw [BitVec.and_twoPow]
  cases w.getLsbD k
  · rfl
  · simp only [if_true, bne_iff_ne, ne_eq, hne, not_false_eq_true]

theorem half_setWidth (hm : m &&& 0xffff = m) :
    ((w &&& m).setWidth 16).setWidth 32 &&& m = w &&& m := by
  ext i
  have hmi := congrArg (fun v => v.getLsbD i) hm
  simp only [BitVec.getLsbD_and, BitVec.getLsbD_setWidth] at hmi ⊢
  by_cases h : (i : Nat) < 16
  · simp [h, Bool.and_assoc]
  · have h0 : ∀ j : Fin 32, ¬(j : Nat) < 16 → (0xffff : BitVec 32).getLsbD j = false := by
      decide
    rw [h0 i h, Bool.and_false] at hmi
    simp [h, ← hmi]

end Bits

/-- A field of the instruction word: the bits it covers, and those bits re-encoded from an
accessor's value, which are exactly the word's bits there. -/
structure Slot where
  mask : BitVec 32
  bits : BitVec 32 → BitVec 32
  bits_eq : ∀ w, bits w = w &&& mask

namespace Slot

/-- A `field` accessor's value, truncated to its width and put back at its shift. -/
def ofField (get : Instruction → BitVec 32) (shift : Nat) (mask : BitVec 32)
    (h : ∀ i, get i = Instruction.field shift mask i) : Slot where
  mask := mask <<< shift
  bits w := (get ⟨w⟩ &&& mask) <<< shift
  bits_eq w := by
    dsimp only
    rw [h, Instruction.field, BitVec.and_assoc, BitVec.and_self, field_shiftLeft]

/-- A `flag` accessor's bit, set when its value is non-`0`. -/
def ofFlag (get : Instruction → BitVec 32) (k : Nat) (hk : k < 32)
    (h : ∀ i, get i = Instruction.flag (BitVec.twoPow 32 k) i) : Slot where
  mask := BitVec.twoPow 32 k
  bits w := if get ⟨w⟩ != 0 then BitVec.twoPow 32 k else 0
  bits_eq w := by dsimp only; rw [h, Instruction.flag, flag_bit w k hk]

/-- A 16-bit immediate, widened and truncated to its field. -/
def ofHalf (get : Instruction → BitVec 16) (mask : BitVec 32) (hm : mask &&& 0xffff = mask)
    (h : ∀ i, get i = Instruction.half mask i) : Slot where
  mask := mask
  bits w := (get ⟨w⟩).setWidth 32 &&& mask
  bits_eq w := by dsimp only; rw [h, Instruction.half, half_setWidth w mask hm]

/-! The accessors' slots. -/

def uimm := ofHalf Instruction.uimm 0xffff rfl fun _ => rfl
def simm := ofHalf Instruction.simm 0xffff rfl fun _ => rfl
def d := ofHalf Instruction.d 0xffff rfl fun _ => rfl
def ds := ofHalf Instruction.ds 0xfffc rfl fun _ => rfl
def imm := ofField Instruction.imm 12 0xf fun _ => rfl
def to' := ofField Instruction.to' 21 0x1f fun _ => rfl
def rA := ofField Instruction.rA 16 0x1f fun _ => rfl
def rB := ofField Instruction.rB 11 0x1f fun _ => rfl
def rD := ofField Instruction.rD 21 0x1f fun _ => rfl
def rS := ofField Instruction.rS 21 0x1f fun _ => rfl
def frA := ofField Instruction.frA 16 0x1f fun _ => rfl
def frB := ofField Instruction.frB 11 0x1f fun _ => rfl
def frC := ofField Instruction.frC 6 0x1f fun _ => rfl
def frS := ofField Instruction.frS 21 0x1f fun _ => rfl
def frD := ofField Instruction.frD 21 0x1f fun _ => rfl
def bo := ofField Instruction.bo 21 0x1f fun _ => rfl
def branchOptions := ofField Instruction.branchOptions 22 0xf fun _ => rfl
def branchPredictionHint := ofFlag Instruction.branchPredictionHint 21 (by omega) fun _ => rfl
def bi := ofField Instruction.bi 16 0x1f fun _ => rfl
def bd := ofHalf Instruction.bd 0xfffc rfl fun _ => rfl
def mb := ofField Instruction.mb 6 0x1f fun _ => rfl
def me := ofField Instruction.me 1 0x1f fun _ => rfl
def crbA := ofField Instruction.crbA 16 0x1f fun _ => rfl
def crbB := ofField Instruction.crbB 11 0x1f fun _ => rfl
def crbD := ofField Instruction.crbD 21 0x1f fun _ => rfl
def crfD := ofField Instruction.crfD 23 0x07 fun _ => rfl
def crfS := ofField Instruction.crfS 18 0x07 fun _ => rfl
def crm := ofField Instruction.crm 12 0xff fun _ => rfl
def fm := ofField Instruction.fm 17 0xff fun _ => rfl
def nb := ofField Instruction.nb 11 0x1f fun _ => rfl
def sh := ofField Instruction.sh 11 0x1f fun _ => rfl
def sr := ofField Instruction.sr 16 0xf fun _ => rfl
def aa := ofFlag Instruction.aa 1 (by omega) fun _ => rfl
def lk := ofFlag Instruction.lk 0 (by omega) fun _ => rfl
def rc := ofFlag Instruction.rc 0 (by omega) fun _ => rfl
def l := ofFlag Instruction.l 21 (by omega) fun _ => rfl
def oe := ofFlag Instruction.oe 10 (by omega) fun _ => rfl

/-- `li`'s value, with its sign extension cut off. -/
def li : Slot where
  mask := 0x03fffffc
  bits w := Instruction.li ⟨w⟩ &&& 0x03fffffc
  bits_eq w := by
    have he : ∀ n, ([0x00000000, 0xfc000000] : List (BitVec 32)).getD n 0 &&& 0x03fffffc = 0 := by
      rintro (_ | _ | n)
      · rfl
      · rfl
      · simp [List.getD]
    ext i
    have hi := congrArg (fun v => v.getLsbD i) (he ((w >>> 25) &&& 1).toNat)
    simp only [BitVec.getLsbD_and, BitVec.getLsbD_zero] at hi
    simp only [Instruction.li, BitVec.getLsbD_and, BitVec.getLsbD_or]
    revert hi
    cases (([0x00000000, 0xfc000000] : List (BitVec 32)).getD ((w >>> 25) &&& 1).toNat 0).getLsbD i <;>
      cases w.getLsbD i <;> simp

end Slot

/-- A form's fields, re-encoded from their accessors' values and combined. -/
def encode (form : List Slot) (w : BitVec 32) : BitVec 32 :=
  form.foldr (fun s acc => s.bits w ||| acc) 0

/-- The bits a form's fields cover. -/
def cover (form : List Slot) : BitVec 32 := form.foldr (fun s acc => s.mask ||| acc) 0

theorem encode_eq (form : List Slot) (w : BitVec 32) : encode form w = w &&& cover form := by
  induction form with
  | nil => exact BitVec.and_zero.symm
  | cons s form ih =>
    simp only [encode, cover, List.foldr] at ih ⊢
    rw [ih, s.bits_eq, and_or_and]

/-- A form's fields, re-encoded, with the word's other bits, are the word. -/
theorem encode_or_rest (form : List Slot) (w : BitVec 32) :
    encode form w ||| (w &&& ~~~cover form) = w := by
  rw [encode_eq, and_or_and_not]

/-! ### Sign extension -/

/-- A field of `k` bits at `s`, as a number. -/
theorem toNat_field (w : BitVec 32) (s k : Nat) (hk : k ≤ 32) :
    ((w >>> s) &&& BitVec.ofNat 32 (2 ^ k - 1)).toNat = (w.toNat / 2 ^ s) % 2 ^ k := by
  have hlt : 2 ^ k - 1 < 2 ^ 32 := by
    have := Nat.pow_le_pow_right (by omega : 0 < 2) hk; omega
  rw [BitVec.toNat_and, BitVec.toNat_ushiftRight, BitVec.toNat_ofNat, Nat.mod_eq_of_lt hlt,
    Nat.and_pow_two_sub_one_eq_mod, Nat.shiftRight_eq_div_pow]

theorem toNat_setWidth_shift (w : BitVec 32) (s k : Nat) :
    ((w >>> s).setWidth k).toNat = (w.toNat / 2 ^ s) % 2 ^ k := by
  rw [BitVec.toNat_setWidth, BitVec.toNat_ushiftRight, Nat.shiftRight_eq_div_pow]

/-- `int16_t(opcode & 0xfffc)` is four times the signed 14-bit field above the two low bits. -/
theorem half_fffc_toInt (w : BitVec 32) :
    (Instruction.half 0xfffc ⟨w⟩).toInt = ((w >>> 2).setWidth 14).toInt * 4 := by
  have hA : w &&& (0xfffc : BitVec 32) = ((w >>> 2) &&& BitVec.ofNat 32 (2 ^ 14 - 1)) <<< 2 := by
    rw [field_shiftLeft]; rfl
  rw [Instruction.half, hA, BitVec.toInt_eq_toNat_cond, BitVec.toInt_eq_toNat_cond,
    BitVec.toNat_setWidth, BitVec.toNat_shiftLeft, toNat_field w 2 14 (by omega),
    toNat_setWidth_shift, Nat.shiftLeft_eq]
  split_ifs <;> omega

/-- `int16_t(opcode & 0xffff)` is the low half of the word. -/
theorem half_ffff (w : BitVec 32) : Instruction.half 0xffff ⟨w⟩ = w.setWidth 16 := by
  ext i
  have h : ∀ j : Fin 16, (0xffff : BitVec 32).getLsbD j = true := by decide
  simp only [Instruction.half, BitVec.getLsbD_setWidth, BitVec.getLsbD_and, h i, Bool.and_true]

/-- `li` is four times the signed 24-bit field above the two low bits. -/
theorem li_toInt (w : BitVec 32) :
    (Instruction.li ⟨w⟩).toInt = ((w >>> 2).setWidth 24).toInt * 4 := by
  have hA : w &&& (0x03fffffc : BitVec 32) = ((w >>> 2) &&& BitVec.ofNat 32 (2 ^ 24 - 1)) <<< 2 := by
    rw [field_shiftLeft]; rfl
  have hAn : (w &&& (0x03fffffc : BitVec 32)).toNat = w.toNat / 2 ^ 2 % 2 ^ 24 * 4 := by
    rw [hA, BitVec.toNat_shiftLeft, toNat_field w 2 24 (by omega), Nat.shiftLeft_eq]; omega
  have hb : ((w >>> 25) &&& (1 : BitVec 32)).toNat = w.toNat / 2 ^ 25 % 2 :=
    toNat_field w 25 1 (by omega)
  simp only [Instruction.li]
  rw [hb, BitVec.toInt_eq_toNat_cond, BitVec.toInt_eq_toNat_cond, toNat_setWidth_shift]
  rcases Nat.mod_two_eq_zero_or_one (w.toNat / 2 ^ 25) with h | h
  · have e0 : ([0x00000000, 0xfc000000] : List (BitVec 32)).getD 0 0 = 0 := rfl
    rw [h, e0, show ∀ x : BitVec 32, x ||| 0 = x from fun _ => BitVec.or_zero, hAn]
    split_ifs <;> omega
  · have hd : (w &&& (0x03fffffc : BitVec 32)) &&& 0xfc000000 = 0 := by
      rw [BitVec.and_assoc]; exact BitVec.and_zero
    have e1 : ([0x00000000, 0xfc000000] : List (BitVec 32)).getD 1 0 = 0xfc000000 := rfl
    have hE : (0xfc000000 : BitVec 32).toNat = 0xfc000000 := rfl
    rw [h, e1, ← BitVec.add_eq_or_of_and_eq_zero _ _ hd, BitVec.toNat_add, hAn, hE]
    split_ifs <;> omega

/-- `bo` is the branch options above the prediction hint. -/
theorem bo_eq (i : Instruction) :
    i.bo = (i.branchOptions <<< 1) ||| (if i.branchPredictionHint != 0 then 1 else 0) := by
  have hm : (0x1f : BitVec 32) = ((0xf : BitVec 32) <<< 1) ||| 1 := by decide
  have hs : i.opcode >>> 21 >>> 1 = i.opcode >>> 22 := by
    ext j; simp only [BitVec.getLsbD_ushiftRight]; congr 1; omega
  have hb : (i.opcode >>> 21) &&& 1 = if i.branchPredictionHint != 0 then 1 else 0 := by
    have hne : BitVec.twoPow 32 21 ≠ 0#32 := by decide
    simp only [Instruction.branchPredictionHint, Instruction.flag,
      show (0x200000 : BitVec 32) = BitVec.twoPow 32 21 by decide, BitVec.and_twoPow]
    ext j
    cases h : i.opcode.getLsbD 21 <;> by_cases hj : (j : Nat) = 0 <;>
      simp [hj, h, hne, BitVec.getLsbD_one]
  rw [Instruction.bo, Instruction.field, hm, ← and_or_and,
    ← field_shiftLeft (i.opcode >>> 21) 0xf 1, hs, hb]
  rfl

/-- The forms, each with every accessor the code offers for its fields. -/
def forms : List (List Slot) :=
  [[.li, .aa, .lk],
   [.branchOptions, .branchPredictionHint, .bo, .bi, .bd, .aa, .lk],
   [.rD, .rS, .rA, .simm, .uimm, .d],
   [.rD, .rA, .ds],
   [.rD, .rA, .rB, .crbD, .crbA, .crbB, .crfD, .l, .crfS, .sr, .nb, .to', .oe, .rc],
   [.rS, .crm],
   [.fm, .frB],
   [.frD, .frA, .frB, .frC, .rc],
   [.rS, .rA, .sh, .rB, .mb, .me, .rc]]

/-- **Field decode is lossless.** For every word and every instruction form, the form's accessor
values re-encoded at their bits, with the word's other bits, are the word; `li`, `bd`, `ds`,
`simm` and `d` are the two's-complement values of their fields; and `bo` is the branch options
above the prediction hint. -/
theorem decode_lossless (w : BitVec 32) :
    (∀ form ∈ forms, encode form w ||| (w &&& ~~~cover form) = w) ∧
      (Instruction.li ⟨w⟩).toInt = ((w >>> 2).setWidth 24).toInt * 4 ∧
      (Instruction.bd ⟨w⟩).toInt = ((w >>> 2).setWidth 14).toInt * 4 ∧
      (Instruction.ds ⟨w⟩).toInt = ((w >>> 2).setWidth 14).toInt * 4 ∧
      (Instruction.simm ⟨w⟩).toInt = (w.setWidth 16).toInt ∧
      (Instruction.d ⟨w⟩).toInt = (w.setWidth 16).toInt ∧
      Instruction.bo ⟨w⟩ = (Instruction.branchOptions ⟨w⟩ <<< 1) |||
        (if Instruction.branchPredictionHint ⟨w⟩ != 0 then 1 else 0) :=
  ⟨fun form _ => encode_or_rest form w, li_toInt w, half_fffc_toInt w, half_fffc_toInt w,
    congrArg BitVec.toInt (half_ffff w), congrArg BitVec.toInt (half_ffff w), bo_eq ⟨w⟩⟩

end ClockSignal.PowerPC
