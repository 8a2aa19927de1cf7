import RvCores.Block.DividerResult
import RvCores.Pipe.PowerUp
import RvCores.Pipe.Execute

/-!
# Word division in the wide divider

The word forms of the division instructions have no divider of their own.  Their operands
are extended to the register width, and the low word of what the wide divider answers is
extended again.
-/

namespace RvCores
namespace Block

variable {v w : Nat}

/-!
# Division of extended operands

Division commutes with the extension that fits its signedness, the case without a divisor
and the overflow included.
-/

def extendAs (isSigned : Bool) (w : Nat) (x : BitVec v) : BitVec w :=
  if isSigned then x.signExtend w else x.setWidth w

theorem setWidth_ofInt (hvw : v <= w) (n : Int) :
    (BitVec.ofInt w n).setWidth v = BitVec.ofInt v n := by
  have hdvd : ((2 ^ v : Nat) : Int) ∣ (2 ^ w : Nat) :=
    Int.natCast_dvd_natCast.mpr (Nat.pow_dvd_pow 2 hvw)
  have hpos : (0 : Int) <= n % (2 ^ w : Nat) :=
    Int.emod_nonneg n (Int.natCast_ne_zero.mpr (Nat.two_pow_pos w).ne')
  apply BitVec.eq_of_toNat_eq
  rw [BitVec.toNat_setWidth, BitVec.toNat_ofInt, BitVec.toNat_ofInt,
    ← Int.toNat_natCast (2 ^ v), ← Int.toNat_emod hpos (Int.natCast_nonneg _),
    Int.emod_emod_of_dvd n hdvd, Int.toNat_natCast]

theorem setWidth_extendAs (hvw : v <= w) (isSigned : Bool) (x : BitVec v) :
    (extendAs isSigned w x).setWidth v = x := by
  apply BitVec.eq_of_getLsbD_eq
  intro k hk
  cases isSigned with
  | true =>
      simp only [extendAs, if_true, BitVec.getLsbD_setWidth, BitVec.getLsbD_signExtend, hk,
        Nat.lt_of_lt_of_le hk hvw, decide_true, Bool.true_and]
  | false => simp [extendAs, hk, Nat.lt_of_lt_of_le hk hvw]

theorem extendAs_zero (isSigned : Bool) : extendAs isSigned w (0 : BitVec v) = 0 := by
  apply BitVec.eq_of_getLsbD_eq
  intro k hk
  cases isSigned <;> simp [extendAs, BitVec.getLsbD_signExtend]

theorem extendAs_eq_zero_iff (hvw : v <= w) {isSigned : Bool} {y : BitVec v} :
    extendAs isSigned w y = 0 <-> y = 0 := by
  constructor
  · intro hzero
    rw [← setWidth_extendAs hvw isSigned y, hzero]
    simp
  · rintro rfl
    exact extendAs_zero isSigned

theorem toInt_extendAs (hvw : v <= w) (x : BitVec v) : (extendAs true w x).toInt = x.toInt :=
  BitVec.toInt_signExtend_of_le hvw

theorem toNat_extendAs (hvw : v <= w) (x : BitVec v) : (extendAs false w x).toNat = x.toNat :=
  BitVec.toNat_setWidth_of_le hvw

theorem setWidth_riscvDiv (hvw : v <= w) (isSigned : Bool) (x y : BitVec v) :
    (riscvDiv isSigned (extendAs isSigned w x) (extendAs isSigned w y)).setWidth v
      = riscvDiv isSigned x y := by
  unfold riscvDiv
  by_cases hzero : y = 0
  · rw [if_pos hzero, if_pos ((extendAs_eq_zero_iff hvw).mpr hzero)]
    apply BitVec.eq_of_getLsbD_eq
    intro k hk
    simp [hk, Nat.lt_of_lt_of_le hk hvw]
  · rw [if_neg hzero, if_neg (fun h => hzero ((extendAs_eq_zero_iff hvw).mp h))]
    cases isSigned with
    | true =>
        rw [if_pos rfl, if_pos rfl, setWidth_ofInt hvw, toInt_extendAs hvw, toInt_extendAs hvw]
    | false =>
        rw [if_neg Bool.false_ne_true, if_neg Bool.false_ne_true,
          BitVec.setWidth_ofNat_of_le hvw, toNat_extendAs hvw, toNat_extendAs hvw]

theorem setWidth_riscvRem (hvw : v <= w) (isSigned : Bool) (x y : BitVec v) :
    (riscvRem isSigned (extendAs isSigned w x) (extendAs isSigned w y)).setWidth v
      = riscvRem isSigned x y := by
  unfold riscvRem
  by_cases hzero : y = 0
  · rw [if_pos hzero, if_pos ((extendAs_eq_zero_iff hvw).mpr hzero),
      setWidth_extendAs hvw]
  · rw [if_neg hzero, if_neg (fun h => hzero ((extendAs_eq_zero_iff hvw).mp h))]
    cases isSigned with
    | true =>
        rw [if_pos rfl, if_pos rfl, setWidth_ofInt hvw, toInt_extendAs hvw, toInt_extendAs hvw]
    | false =>
        rw [if_neg Bool.false_ne_true, if_neg Bool.false_ne_true,
          BitVec.setWidth_ofNat_of_le hvw, toNat_extendAs hvw, toNat_extendAs hvw]

end Block

namespace Pipe

open Isa Block

/-!
# The instructions of the manual

The low words are divided as words, and the result is extended with its sign whatever the
operands were.
-/

def riscvDivW (isSigned : Bool) (x y : BitVec 64) : BitVec 64 :=
  (riscvDiv isSigned (x.setWidth 32) (y.setWidth 32)).signExtend 64

def riscvRemW (isSigned : Bool) (x y : BitVec 64) : BitVec 64 :=
  (riscvRem isSigned (x.setWidth 32) (y.setWidth 32)).signExtend 64

inductive DivOp where
  | div
  | divu
  | rem
  | remu
deriving DecidableEq, Repr

namespace DivOp

def funct3 : DivOp -> BitVec 3
  | div => 0b100
  | divu => 0b101
  | rem => 0b110
  | remu => 0b111

def word (op : DivOp) (x y : BitVec 64) : BitVec 64 :=
  match op with
  | div => riscvDivW true x y
  | divu => riscvDivW false x y
  | rem => riscvRemW true x y
  | remu => riscvRemW false x y

end DivOp

/--
The word form of a division, with any registers.
-/
structure IsDivW (inst : Word) (op : DivOp) : Prop where
  opcode : inst.opcode = opcodeOp32
  funct7 : inst.funct7 = 0b0000001
  funct3 : inst.funct3 = op.funct3

/-!
# The word forms in execute
-/

namespace Instr

variable {w : Nat}

/--
What execute makes of the outputs of the divider.
-/
def divResultOf (x : Instr w) (u : Divider w) : BitVec w :=
  let raw := if x.aluCtl == .div || x.aluCtl == .divu then u.quotient else u.remainder
  if x.isWordOp then (raw.setWidth 32).signExtend w else raw

theorem divResultOf_core {m : Mmu w} {s : Core m} {x : Instr w} (h : Core.HoldsInstr s x) :
    s.divResult = x.divResultOf s.divider := by
  rw [Core.divResult, divResultOf, h.aluCtl, h.isWordOp]

variable {x : Instr 64} {op : DivOp}

theorem ctrl_of_isDivW (h : IsDivW x.inst op) :
    x.ctrl = { aluOp := .rtype, regWrite := true } := by
  unfold ctrl Isa.control
  rw [h.opcode]
  rfl

theorem aluCtl_of_isDivW (h : IsDivW x.inst op) :
    x.aluCtl = match op with
      | .div => .div
      | .divu => .divu
      | .rem => .rem
      | .remu => .remu := by
  unfold aluCtl
  rw [ctrl_of_isDivW h, h.funct7, h.funct3]
  cases op <;> rfl

theorem isWordOp_of_isDivW (h : IsDivW x.inst op) : x.isWordOp = true := by
  unfold isWordOp
  rw [h.opcode]
  rfl

theorem operands_of_isDivW (h : IsDivW x.inst op) : x.aluA = x.rs1 ∧ x.aluB = x.rs2 := by
  unfold aluA aluB
  rw [ctrl_of_isDivW h]
  exact ⟨rfl, rfl⟩

theorem dividerIn_of_isDivW (h : IsDivW x.inst op) :
    x.dividerIn
      = { start := true
          isSigned := op == .div || op == .rem
          dividend := extendAs (op == .div || op == .rem) 64 (x.rs1.setWidth 32)
          divisor := extendAs (op == .div || op == .rem) 64 (x.rs2.setWidth 32) } := by
  obtain ⟨hA, hB⟩ := operands_of_isDivW h
  unfold dividerIn divOperand isDivRem isDivSigned extendAs
  rw [hA, hB, isWordOp_of_isDivW h, aluCtl_of_isDivW h]
  cases op <;> rfl

/--
The wide divider answers the word forms of the manual, whatever it has left over, for
every pair of registers, and the core takes that answer from it.
-/
theorem word_division (x : Instr 64) (op : DivOp) (h : IsDivW x.inst op) (u : Divider 64)
    (hidle : u.busy = false) (hdone : u.done = false) (j : Nat -> DividerIn 64)
    (hj : j 0 = x.dividerIn) :
    exists n, 0 < n ∧ n <= 66 ∧
      (forall m, m < n -> (Divider.run u j m).done = false) ∧
      (Divider.run u j n).done = true ∧
      x.divResultOf (Divider.run u j n) = op.word x.rs1 x.rs2 ∧
      forall {m : Mmu 64} (s : Core m), Core.HoldsInstr s x -> s.divider = Divider.run u j n ->
        s.divResult = op.word x.rs1 x.rs2 := by
  have hin := hj.trans (dividerIn_of_isDivW h)
  have hstart : (j 0).start = true := by rw [hin]
  obtain ⟨n, hle, hpulses⟩ := Lib.Sequencer.pulses_of_start (Divider.sequencer_lawful 64)
    ⟨hidle, hdone⟩ hstart (fun _ _ => rfl)
  obtain ⟨hquotient, hremainder⟩ := Prod.mk.inj (Divider.output_pulse (by decide) hpulses)
  have hdiv (isSigned : Bool) := setWidth_riscvDiv (by decide : 32 <= 64) isSigned
    (x.rs1.setWidth 32) (x.rs2.setWidth 32)
  have hrem (isSigned : Bool) := setWidth_riscvRem (by decide : 32 <= 64) isSigned
    (x.rs1.setWidth 32) (x.rs2.setWidth 32)
  have hresult : x.divResultOf (Divider.run u j n) = op.word x.rs1 x.rs2 := by
    unfold divResultOf
    rw [isWordOp_of_isDivW h, aluCtl_of_isDivW h, hquotient, hremainder, hin, if_pos rfl]
    cases op with
    | div => exact congrArg (BitVec.signExtend 64) (hdiv true)
    | divu => exact congrArg (BitVec.signExtend 64) (hdiv false)
    | rem => exact congrArg (BitVec.signExtend 64) (hrem true)
    | remu => exact congrArg (BitVec.signExtend 64) (hrem false)
  refine ⟨n, hpulses.positive, hle, fun m hm => Divider.done_before hpulses hm,
    Divider.done_pulse hpulses, hresult, ?_⟩
  intro _ s hholds hdivider
  rw [divResultOf_core hholds, hdivider, hresult]

/--
`divw a0, a1, a2` on the smallest word and minus one, with other bits above the words.
-/
def overflowing : Instr 64 :=
  { inst := 0x02C5C53B, pc := 0, isCompressed := false, csr := .powerUp 64
    rs1 := 0x1234567880000000, rs2 := 0x00000000FFFFFFFF, frs1 := 0, frs2 := 0, frs3 := 0 }

theorem word_division_overflow :
    exists n,
      (Divider.run (Divider.fresh 64) (fun _ => overflowing.dividerIn) n).done = true ∧
        overflowing.divResultOf
          (Divider.run (Divider.fresh 64) (fun _ => overflowing.dividerIn) n)
            = 0xFFFFFFFF80000000 := by
  obtain ⟨n, -, -, -, hpulse, hresult, -⟩ :=
    word_division overflowing .div ⟨by decide, by decide, by decide⟩ (Divider.fresh 64) rfl rfl
      (fun _ => overflowing.dividerIn) rfl
  exact ⟨n, hpulse, hresult.trans (by decide)⟩

end Instr
end Pipe
end RvCores
