import RvCores.Pipe.Compressed
import RvCores.Soc.Sequential

/-!
# Compressed instructions on the sequential machine

The machine changes its program counter, registers and memory by the effect of the
instruction it has fetched, and this is the effect of the manual for the compressed
instructions that the expander keeps.
-/

namespace RvCores
namespace Soc

open Isa Block Pipe

namespace Machine

variable (p : Platform 64) (σ : Machine 64) (t : Moment 64)

def effect : Effect := (σ.instr p t).effect p.fma t.lines

/--
The instruction fetched has its operands from the registers.
-/
theorem expands {c : BitVec 16} (hfetch : (p.fetch σ.pc).extractLsb' 0 16 = c)
    (hcompressed : Compressed.op c ≠ 0b11) : Expands c σ.readReg (σ.instr p t) := by
  have hop : (p.fetch σ.pc).extractLsb' 0 2 = Compressed.op c := by
    rw [← hfetch, Compressed.op]
    apply BitVec.eq_of_getLsbD_eq
    intro i hi
    simp
  have hshort : isCompressed (p.fetch σ.pc) = true := by
    rw [isCompressed, hop]
    exact decide_eq_true hcompressed
  have hinst : instFinal (p.fetch σ.pc) = compressedExpander c := by
    rw [instFinal, hshort, if_pos rfl, hfetch]
  exact
    { inst := hinst
      compressed := hshort
      rs1 := rfl
      rs2 := rfl
      zero := if_pos rfl }

/--
A compressed integer instruction has the effect of the manual, in every state, unless the
expander departs from it there.  A reserved word traps as illegal.
-/
theorem compressed_effect_iff (c : BitVec 16) (hfetch : (p.fetch σ.pc).extractLsb' 0 16 = c)
    (hcompressed : Compressed.op c ≠ 0b11) (hinteger : Rvc.decode c ≠ .float) :
    (σ.effect p t = (Rvc.decode c).effect σ.pc σ.readReg <-> ¬ Rvc.misexpanded c) ∧
      (Rvc.decode c = .reserved -> σ.effect p t = .trap 2) := by
  have hiff : σ.effect p t = (Rvc.decode c).effect σ.pc σ.readReg <-> ¬ Rvc.misexpanded c :=
    (σ.expands p t hfetch hcompressed).effect_iff hcompressed hinteger
  refine ⟨hiff, ?_⟩
  intro hreserved
  have hgood := Rvc.not_misexpanded_of_reserved hreserved
  have heffect := hiff.mpr hgood
  rw [hreserved] at heffect
  exact heffect

/--
A machine whose program is one word repeated, with the stack pointer and the short
registers at different places.
-/
def repeated (inst : Word) : Platform 64 := { fetch := fun _ => inst, size := 65536, fma := noFma }

def atRest : Machine 64 :=
  { pc := 0x400
    regs := fun k => if k = 11 then 0x1000 else if k = 2 then 0x8000 else 0
    fregs := fun _ => 0
    mem := fun _ => 0
    csr := .powerUp 64 }

def quiet : Moment 64 :=
  { counters := .zero
    lines := { msipPending := false, timerPending := false, extPending := false }
    dev := 0 }

/--
`c.lw a0, 4(a1)` loads from the address it names.
-/
theorem compressed_effect_iff_lw :
    atRest.effect (repeated 0x41C8) quiet =
      .retire 0x402 (some (10, .loaded 0x1004 0b010)) none := by
  have heffect := (compressed_effect_iff (repeated 0x41C8) atRest quiet 0x41C8 (by decide)
    (by decide) (by decide)).left.mpr (by unfold Rvc.misexpanded; decide)
  rw [heffect]
  decide

/--
`c.lw a0, 64(a1)` loads below the base.
-/
theorem compressed_offset_negative :
    ¬ forall (p : Platform 64) (σ : Machine 64) (t : Moment 64) (c : BitVec 16),
      (p.fetch σ.pc).extractLsb' 0 16 = c -> Compressed.op c ≠ 0b11 -> Rvc.decode c ≠ .float ->
        σ.effect p t = (Rvc.decode c).effect σ.pc σ.readReg := by
  intro hclaim
  have heq := hclaim (repeated 0x41A8) atRest quiet 0x41A8 (by decide) (by decide) (by decide)
  have hmachine : atRest.effect (repeated 0x41A8) quiet =
      .retire 0x402 (some (10, .loaded 0xFC0 0b010)) none := by
    decide
  have hmanual : (Rvc.decode 0x41A8).effect atRest.pc atRest.readReg =
      .retire 0x402 (some (10, .loaded 0x1040 0b010)) none := by
    decide
  exact absurd (hmachine.symm.trans (heq.trans hmanual)) (by decide)

end Machine
end Soc
end RvCores
