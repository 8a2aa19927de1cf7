import RvCores.Block.CsrBits
import RvCores.Block.Mmu
import RvCores.Lib.Run

/-!
# Well-formed trap state

The privilege mode and the saved mode of machine traps are encodings that exist, and
the status registers hold no bit outside the mask they are written through.  Reset
establishes this, and every event keeps it but one: a CSR instruction can store the
reserved encoding in the saved mode, and the next return enters it.
-/

namespace RvCores
namespace Block
namespace Csr

variable {w : Nat} {csr : Csr w} {i : CsrIn w} {vlen : Nat}

/-!
# The invariant
-/

def Within (positions : List Nat) (x : BitVec w) : Prop :=
  forall k, k ∉ positions -> x.getLsbD k = false

def LegalMode (mode : BitVec 2) : Prop :=
  mode = privU ∨ mode = privS ∨ mode = privM

instance (mode : BitVec 2) : Decidable (LegalMode mode) :=
  inferInstanceAs (Decidable (_ ∨ _ ∨ _))

structure TrapState (csr : Csr w) : Prop where
  privMode : LegalMode csr.privMode
  mpp : LegalMode (mpp csr.mstatus)
  mstatus : Within mstatusBits csr.mstatus
  mie : Within mieBits csr.mie
  mideleg : Within midelegBits csr.mideleg
  medeleg : Within medelegBits csr.medeleg
  mipSw : Within sieBits csr.mipSw

def privReserved : BitVec 2 := 0b10

theorem legalMode_iff (mode : BitVec 2) : LegalMode mode ↔ mode ≠ privReserved := by
  revert mode
  decide

/--
The cycle writes `mstatus`, no trap or return goes before the write, and the value
has the reserved encoding in its saved mode.
-/
def storesReservedMpp (vlen : Nat) (csr : Csr w) (i : CsrIn w) : Bool :=
  !i.trapTaken && !i.mretTaken && !i.sretTaken && writes i CsrAddr.mstatus &&
    decide (mpp (csr.newVal vlen i) = privReserved)

/-!
# Masked values
-/

theorem within_zero (positions : List Nat) : Within positions (0 : BitVec w) := by
  intro k _
  exact BitVec.getLsbD_zero

theorem within_keepBits (positions : List Nat) (x : BitVec w) :
    Within positions (keepBits positions x) := by
  intro k hk
  simp [hk]

theorem Within.ite {positions : List Nat} {x y : BitVec w} {c : Bool}
    (hx : Within positions x) (hy : Within positions y) :
    Within positions (if c then x else y) := by
  cases c with
  | false => exact hy
  | true => exact hx

theorem Within.setBit {positions : List Nat} {x : BitVec w} (h : Within positions x)
    {k : Nat} (hk : k ∈ positions) (b : Bool) : Within positions (setBit x k b) := by
  intro j hj
  have hne : j ≠ k := fun heq => hj (heq ▸ hk)
  simp [hne, h j hj]

theorem Within.merge {outer inner : List Nat} {x : BitVec w} (h : Within outer x)
    (hsub : forall k, k ∈ inner -> k ∈ outer) (v : BitVec w) :
    Within outer ((x &&& ~~~(keepBits inner (BitVec.allOnes w))) ||| keepBits inner v) := by
  intro k hk
  rw [getLsbD_merge inner x v fun hin => hk (hsub k hin)]
  exact h k hk

/-!
# The saved mode
-/

theorem mpp_congr {x y : BitVec w} (h11 : x.getLsbD 11 = y.getLsbD 11)
    (h12 : x.getLsbD 12 = y.getLsbD 12) : mpp x = mpp y := by
  apply BitVec.eq_of_getLsbD_eq
  intro k hk
  rcases (by omega : k = 0 ∨ k = 1) with rfl | rfl
  · simpa [mpp] using h11
  · simpa [mpp] using h12

theorem mpp_setMpp (hw : 12 < w) (x : BitVec w) (mode : BitVec 2) :
    mpp (setMpp x mode) = mode := by
  have h11 : 11 < w := by omega
  apply BitVec.eq_of_getLsbD_eq
  intro k hk
  rw [mpp, BitVec.getLsbD_extractLsb', getLsbD_setMpp]
  rcases (by omega : k = 0 ∨ k = 1) with rfl | rfl
  · simp [h11]
  · simp [hw]

theorem mpp_setBit {x : BitVec w} {k : Nat} (h11 : k ≠ 11) (h12 : k ≠ 12) (b : Bool) :
    mpp (setBit x k b) = mpp x := by
  apply mpp_congr
  · simp [h11.symm]
  · simp [h12.symm]

theorem mpp_keepBits (x : BitVec w) : mpp (keepBits mstatusBits x) = mpp x := by
  apply mpp_congr
  · simp [mstatusBits]
  · simp [mstatusBits]

theorem mpp_merge (x v : BitVec w) :
    mpp ((x &&& ~~~(keepBits sstatusBits (BitVec.allOnes w))) ||| keepBits sstatusBits v) =
      mpp x := by
  apply mpp_congr
  · exact getLsbD_merge _ _ _ (by decide)
  · exact getLsbD_merge _ _ _ (by decide)

/-!
# One event

The saved mode after an event is the mode the trap interrupted, user mode after a
return from machine mode, or the field of the value written; every other event
leaves it alone.
-/

theorem mpp_step (hw : 12 < w) :
    mpp (csr.step vlen i).mstatus =
      if i.trapTaken && !csr.trapTargetIsS i then csr.privMode
      else if i.trapTaken then mpp csr.mstatus
      else if i.mretTaken then privU
      else if !i.sretTaken && writes i CsrAddr.mstatus then mpp (csr.newVal vlen i)
      else mpp csr.mstatus := by
  show mpp (csr.nextMstatus vlen i) = _
  unfold nextMstatus
  cases htrap : i.trapTaken with
  | true =>
      cases hs : csr.trapTargetIsS i with
      | false =>
          simp only [Bool.not_false, Bool.and_true, if_true]
          exact mpp_setMpp hw _ _
      | true =>
          simp only [Bool.not_true, Bool.and_false, Bool.and_true, Bool.false_eq_true,
            if_false, if_true]
          rw [mpp_setBit (by decide) (by decide), mpp_setBit (by decide) (by decide),
            mpp_setBit (by decide) (by decide)]
  | false =>
      cases hmret : i.mretTaken with
      | true =>
          simp only [Bool.false_and, Bool.false_eq_true, if_false, if_true]
          exact mpp_setMpp hw _ _
      | false =>
          cases hsret : i.sretTaken with
          | true =>
              simp only [Bool.false_and, Bool.not_true, Bool.false_eq_true, if_false, if_true]
              rw [mpp_setBit (by decide) (by decide), mpp_setBit (by decide) (by decide),
                mpp_setBit (by decide) (by decide)]
          | false =>
              simp only [Bool.false_and, Bool.not_false, Bool.true_and, Bool.false_eq_true,
                if_false]
              cases hwrite : writes i CsrAddr.mstatus with
              | true =>
                  simp only [if_true]
                  exact mpp_keepBits _
              | false =>
                  simp only [Bool.false_eq_true, if_false]
                  cases hsstatus : writes i CsrAddr.sstatus with
                  | true =>
                      simp only [if_true]
                      exact mpp_merge _ _
                  | false => rfl

theorem mpp_step_of_stores (hw : 12 < w) (h : storesReservedMpp vlen csr i = true) :
    mpp (csr.step vlen i).mstatus = privReserved := by
  simp only [storesReservedMpp, Bool.and_eq_true, Bool.not_eq_true',
    decide_eq_true_eq] at h
  obtain ⟨⟨⟨⟨htrap, hmret⟩, hsret⟩, hwrite⟩, hval⟩ := h
  rw [mpp_step hw]
  simp [htrap, hmret, hsret, hwrite, hval]

theorem legal_mpp_step (hw : 12 < w) (hpriv : LegalMode csr.privMode)
    (hmpp : LegalMode (mpp csr.mstatus)) (h : storesReservedMpp vlen csr i = false) :
    LegalMode (mpp (csr.step vlen i).mstatus) := by
  rw [mpp_step hw]
  cases htrap : i.trapTaken with
  | true =>
      cases hs : csr.trapTargetIsS i with
      | false => simpa using hpriv
      | true => simpa using hmpp
  | false =>
      cases hmret : i.mretTaken with
      | true => exact Or.inl rfl
      | false =>
          cases hwrite : !i.sretTaken && writes i CsrAddr.mstatus with
          | false => simpa using hmpp
          | true =>
              have hval : mpp (csr.newVal vlen i) ≠ privReserved := by
                simpa [storesReservedMpp, htrap, hmret, hwrite] using h
              simpa using (legalMode_iff _).mpr hval

theorem legal_privMode_step (hpriv : LegalMode csr.privMode)
    (hmpp : LegalMode (mpp csr.mstatus)) : LegalMode (csr.step vlen i).privMode := by
  show LegalMode (csr.nextPrivMode i)
  unfold nextPrivMode
  cases i.trapTaken with
  | true =>
      cases csr.trapTargetIsS i with
      | false => exact Or.inr (Or.inr rfl)
      | true => exact Or.inr (Or.inl rfl)
  | false =>
      cases i.mretTaken with
      | true => exact hmpp
      | false =>
          cases i.sretTaken with
          | true =>
              cases csr.mstatus.getLsbD 8 with
              | false => exact Or.inl rfl
              | true => exact Or.inr (Or.inl rfl)
          | false => exact hpriv

theorem within_mstatus_step (h : Within mstatusBits csr.mstatus) :
    Within mstatusBits (csr.step vlen i).mstatus := by
  have hsub : forall k, k ∈ sstatusBits -> k ∈ mstatusBits := by decide
  show Within mstatusBits (csr.nextMstatus vlen i)
  unfold nextMstatus setMpp
  refine Within.ite ?_ (Within.ite ?_ (Within.ite ?_ (Within.ite ?_
    (Within.ite (within_keepBits _ _) (Within.ite (h.merge hsub _) h)))))
  · exact (((h.setBit (by decide) _).setBit (by decide) _).setBit (by decide) _).setBit
      (by decide) _
  · exact ((h.setBit (by decide) _).setBit (by decide) _).setBit (by decide) _
  · exact (((h.setBit (by decide) _).setBit (by decide) _).setBit (by decide) _).setBit
      (by decide) _
  · exact ((h.setBit (by decide) _).setBit (by decide) _).setBit (by decide) _

theorem within_mie_step (h : Within mieBits csr.mie) :
    Within mieBits (csr.step vlen i).mie := by
  have hsub : forall k, k ∈ sieBits -> k ∈ mieBits := by decide
  exact (within_keepBits _ _).ite ((h.merge hsub _).ite h)

theorem TrapState.step (h : TrapState csr) (hw : 12 < w)
    (hwrite : storesReservedMpp vlen csr i = false) : TrapState (csr.step vlen i) where
  privMode := legal_privMode_step h.privMode h.mpp
  mpp := legal_mpp_step hw h.privMode h.mpp hwrite
  mstatus := within_mstatus_step h.mstatus
  mie := within_mie_step h.mie
  mideleg := (within_keepBits _ _).ite h.mideleg
  medeleg := (within_keepBits _ _).ite h.medeleg
  mipSw := (within_keepBits _ _).ite h.mipSw

theorem trapState_reset (csr : Csr w) : TrapState csr.reset where
  privMode := Or.inr (Or.inr rfl)
  mpp := by
    left
    show BitVec.extractLsb' 11 2 (0 : BitVec w) = 0
    exact BitVec.extractLsb'_zero
  mstatus := within_zero _
  mie := within_zero _
  mideleg := within_zero _
  medeleg := within_zero _
  mipSw := within_zero _

/-!
# Whole runs
-/

/--
The registers after the events of the first cycles since reset.
-/
def afterEvents (vlen : Nat) (csr : Csr w) (events : Nat -> CsrIn w) : Nat -> Csr w
  | 0 => csr.reset
  | n + 1 => (afterEvents vlen csr events n).step vlen (events n)

/--
The trap state of a run is well formed throughout exactly when no cycle stores the
reserved encoding.
-/
theorem trapState_wellFormed_iff (x : Xlen) (vlen : Nat) (csr : Csr x.bits)
    (events : Nat -> CsrIn x.bits) :
    (forall n, TrapState (afterEvents vlen csr events n)) ↔
      forall n, storesReservedMpp vlen (afterEvents vlen csr events n) (events n) =
        false := by
  have hw : 12 < x.bits := by cases x <;> decide
  constructor
  · intro h n
    have hlegal := (legalMode_iff _).mp (h (n + 1)).mpp
    cases hstores : storesReservedMpp vlen (afterEvents vlen csr events n) (events n) with
    | false => rfl
    | true => exact absurd (mpp_step_of_stores hw hstores) hlegal
  · intro h n
    induction n with
    | zero => exact trapState_reset csr
    | succ n ih => exact ih.step hw (h n)

/-!
A program writes `mstatus` with the reserved encoding and returns.
-/

def quietEvent (w : Nat) : CsrIn w :=
  { writeEn := false, addr := 0, op := 0, wdata := 0, trapTaken := false, trapPc := 0
    trapCause := 0, trapIsInterrupt := false, trapValue := 0, mretTaken := false
    sretTaken := false, fpFlagsWe := false, fpFlagsIn := 0, msipPending := false
    timerPending := false, extPending := false, instretPulse := true
    hpmEventPulse := fun _ => false, vecCfgWriteEn := false, vecCfgNewVtype := 0
    vecCfgNewVill := false, vecCfgNewVl := 0 }

def reservedReturn (w : Nat) : Nat -> CsrIn w
  | 0 => { quietEvent w with
      writeEn := true, addr := CsrAddr.mstatus, op := 0b01, wdata := 0x1000 }
  | 1 => { quietEvent w with mretTaken := true }
  | _ => quietEvent w

theorem reserved_mode_entered :
    ¬ LegalMode (mpp (afterEvents 128 (powerUp 32) (reservedReturn 32) 1).mstatus) ∧
      ¬ LegalMode (afterEvents 128 (powerUp 32) (reservedReturn 32) 2).privMode ∧
      ¬ LegalMode (mpp (afterEvents 128 (powerUp 64) (reservedReturn 64) 1).mstatus) ∧
      ¬ LegalMode (afterEvents 128 (powerUp 64) (reservedReturn 64) 2).privMode := by
  decide +kernel

end Csr
end Block
end RvCores
