import RvCores.Block.Units
import RvCores.Lib.DigitRecurrence

/-!
# The result of the iterative divider

The registers of the divider follow the division recurrence on magnitudes.  A remainder
has at most as many bits as there were steps, so the shift drops a zero in each of them.
-/

namespace RvCores
namespace Block

open Lib

variable {w : Nat}

/-!
# Registers of the recurrence
-/

theorem toNat_shiftLeft_or_bit (hw : 0 < w) (x : BitVec w) (b : Bool) :
    (x <<< 1 ||| BitVec.ofNat w b.toNat).toNat = 2 * x.toNat % 2 ^ w + b.toNat := by
  obtain ⟨n, rfl⟩ : exists n, w = n + 1 := ⟨w - 1, by omega⟩
  have hbit : b.toNat < 2 ^ 1 := by cases b <;> decide
  have hfits : b.toNat < 2 ^ (n + 1) := by
    have hpos := Nat.two_pow_pos n
    rw [Nat.pow_succ]
    omega
  have heven : 2 * x.toNat % 2 ^ (n + 1) = (x.toNat % 2 ^ n) <<< 1 := by
    rw [Nat.shiftLeft_eq, Nat.pow_succ, Nat.mul_comm (2 ^ n), Nat.mul_mod_mul_left,
      Nat.mul_comm, pow_one]
  rw [BitVec.toNat_or, BitVec.toNat_shiftLeft, BitVec.toNat_ofNat, Nat.mod_eq_of_lt hfits,
    Nat.shiftLeft_eq, pow_one, Nat.mul_comm, heven]
  exact (Nat.shiftLeft_add_eq_or_of_lt hbit _).symm

theorem toNat_msb (hw : 0 < w) (x : BitVec w) : x.msb.toNat = x.toNat / 2 ^ (w - 1) := by
  have hlt := x.isLt
  have hwidth : 2 ^ w = 2 * 2 ^ (w - 1) := by
    rw [← Nat.pow_succ']
    congr 1
    omega
  rw [BitVec.msb_eq_decide]
  by_cases hle : 2 ^ (w - 1) <= x.toNat
  · have hone : x.toNat / 2 ^ (w - 1) = 1 := Nat.div_eq_of_lt_le (by omega) (by omega)
    rw [decide_eq_true hle, hone]
    rfl
  · rw [decide_eq_false hle, Nat.div_eq_of_lt (not_le.mp hle)]
    rfl

/--
The comparison decides both the remainder and the new digit.
-/
theorem toNat_restored {x d : BitVec w} {fits : Bool}
    (hfits : fits = decide (d.toNat <= x.toNat)) :
    (if fits then x - d else x).toNat = restored d.toNat x.toNat := by
  unfold restored
  rw [hfits]
  by_cases hle : d.toNat <= x.toNat
  · rw [if_pos hle, if_pos (decide_eq_true hle), BitVec.toNat_sub_of_le hle]
  · rw [if_neg hle, if_neg (by simpa using hle)]

theorem toNat_digit {d x : Nat} : (decide (d <= x)).toNat = digit d x := by
  unfold digit
  by_cases hle : d <= x
  · rw [if_pos hle, decide_eq_true hle]
    rfl
  · rw [if_neg hle, decide_eq_false hle]
    rfl

/-!
# RISC-V division
-/

/--
The quotient of the manual: all ones without a divisor, rounded towards zero with signs.
The one overflow wraps around.
-/
def riscvDiv (isSigned : Bool) (x y : BitVec w) : BitVec w :=
  if y = 0 then BitVec.allOnes w
  else if isSigned then BitVec.ofInt w (x.toInt.tdiv y.toInt)
  else BitVec.ofNat w (x.toNat / y.toNat)

/--
The remainder has the sign of the dividend.
-/
def riscvRem (isSigned : Bool) (x y : BitVec w) : BitVec w :=
  if y = 0 then x
  else if isSigned then BitVec.ofInt w (x.toInt.tmod y.toInt)
  else BitVec.ofNat w (x.toNat % y.toNat)

theorem toInt_eq_signed (x : BitVec w) :
    x.toInt = if x.msb then -((-x).toNat : Int) else (x.toNat : Int) := by
  rw [BitVec.toInt_eq_msb_cond]
  cases hmsb : x.msb with
  | false => simp
  | true =>
      have hpos : 0 < x.toNat := by
        rw [BitVec.msb_eq_decide, decide_eq_true_eq] at hmsb
        exact lt_of_lt_of_le (Nat.two_pow_pos _) hmsb
      have hlt := x.isLt
      rw [if_pos rfl, if_pos rfl, BitVec.toNat_neg, Nat.mod_eq_of_lt (by omega)]
      push_cast [hlt.le]
      ring

namespace Divider

/-!
# Magnitudes
-/

theorem toInt_eq_absIf (x : BitVec w) :
    x.toInt = if x.msb then -((absIf true x).toNat : Int) else (absIf true x).toNat := by
  rw [toInt_eq_signed]
  unfold absIf
  cases x.msb <;> rfl

theorem absIf_pos {isSigned : Bool} {x : BitVec w} (hne : x ≠ 0) :
    0 < (absIf isSigned x).toNat := by
  rw [Nat.pos_iff_ne_zero, ← BitVec.toNat_zero (w := w), Ne, BitVec.toNat_inj]
  unfold absIf
  split
  · intro hzero
    exact hne (BitVec.neg_eq_zero_iff.mp hzero)
  · exact hne

/--
Dividing the magnitudes and restoring the signs gives the quotient and the remainder.
-/
theorem signed_division {isSigned : Bool} {x y : BitVec w} (hy : y ≠ 0) {q r : BitVec w}
    (hq : q.toNat = (absIf isSigned x).toNat / (absIf isSigned y).toNat)
    (hr : r.toNat = (absIf isSigned x).toNat % (absIf isSigned y).toNat) :
    (if isSigned && (x.msb ^^ y.msb) then -q else q) = riscvDiv isSigned x y ∧
      (if isSigned && x.msb then -r else r) = riscvRem isSigned x y := by
  have hquotient : q = BitVec.ofNat w ((absIf isSigned x).toNat / (absIf isSigned y).toNat) := by
    rw [← hq, BitVec.ofNat_toNat, BitVec.setWidth_eq]
  have hremainder : r = BitVec.ofNat w ((absIf isSigned x).toNat % (absIf isSigned y).toNat) := by
    rw [← hr, BitVec.ofNat_toNat, BitVec.setWidth_eq]
  unfold riscvDiv riscvRem
  rw [if_neg hy, if_neg hy, hquotient, hremainder]
  cases isSigned with
  | false => exact ⟨rfl, rfl⟩
  | true =>
      have hdiv (m n : Nat) : BitVec.ofInt w ((m : Int).tdiv n) = BitVec.ofNat w (m / n) := by
        rw [← Int.ofNat_tdiv, BitVec.ofInt_natCast]
      have hmod (m n : Nat) : BitVec.ofInt w ((m : Int).tmod n) = BitVec.ofNat w (m % n) := by
        rw [← Int.ofNat_tmod, BitVec.ofInt_natCast]
      rw [if_pos rfl, if_pos rfl, toInt_eq_absIf x, toInt_eq_absIf y, Bool.true_and,
        Bool.true_and]
      cases x.msb <;> cases y.msb <;>
        simp only [Bool.xor_false, Bool.xor_true, Bool.not_true, Bool.not_false, if_true,
          Bool.false_eq_true, if_false, Int.neg_tdiv, Int.tdiv_neg, Int.neg_tmod, Int.tmod_neg,
          neg_neg, BitVec.ofInt_neg, hdiv, hmod, and_self]

/-!
# The recurrence
-/

/--
The unit has done `k` steps of the division that it was started with.
-/
structure Iterating (i : DividerIn w) (k : Nat) (u : Divider w) : Prop where
  busy : u.busy = true
  count : u.count = k
  divisor : u.d = absIf i.isSigned i.divisor
  negQuotient : u.negQuotient = (i.isSigned && (i.dividend.msb ^^ i.divisor.msb))
  negRemainder : u.negRemainder = (i.isSigned && i.dividend.msb)
  dividing : Dividing w (absIf i.isSigned i.dividend).toNat (absIf i.isSigned i.divisor).toNat k
    u.r.toNat u.q.toNat

/--
Nothing is lost when the remainder is shifted in its own width.
-/
theorem room_of_dividing {n d k : Nat} {r q : BitVec w} (hn : n < 2 ^ w) (hk : k < w)
    (h : Dividing w n d k r.toNat q.toNat) : 2 * r.toNat + q.msb.toNat < 2 ^ w := by
  have hr := h.remainder_lt hn hk.le
  have hbit : q.msb.toNat < 2 := Bool.toNat_lt q.msb
  have hpow : 2 ^ (k + 1) <= 2 ^ w := Nat.pow_le_pow_right two_pos hk
  rw [Nat.pow_succ] at hpow
  omega

variable {i : DividerIn w} {k : Nat} {u : Divider w}

theorem Iterating.room (h : Iterating i k u) (hk : k < w) :
    2 * u.r.toNat + u.q.msb.toNat < 2 ^ w :=
  room_of_dividing (absIf i.isSigned i.dividend).isLt hk h.dividing

theorem Iterating.dividing_iterate (h : Iterating i k u) (hk : k < w) (hdivisor : i.divisor ≠ 0) :
    Dividing w (absIf i.isSigned i.dividend).toNat (absIf i.isSigned i.divisor).toNat (k + 1)
      u.iterate.r.toNat u.iterate.q.toNat := by
  have hw : 0 < w := by omega
  have hroom := h.room hk
  have hnext := h.dividing.step (absIf i.isSigned i.dividend).isLt (absIf_pos hdivisor) hk
  rw [← toNat_msb hw] at hnext
  have hshifted : (shiftIn u.r u.q.msb).toNat = 2 * u.r.toNat + u.q.msb.toNat := by
    unfold shiftIn
    rw [toNat_shiftLeft_or_bit hw, Nat.mod_eq_of_lt (by omega)]
  have hr : u.iterate.r.toNat
      = restored (absIf i.isSigned i.divisor).toNat (2 * u.r.toNat + u.q.msb.toNat) := by
    rw [← hshifted, ← h.divisor]
    exact toNat_restored rfl
  have hq : u.iterate.q.toNat = 2 * u.q.toNat % 2 ^ w
      + digit (absIf i.isSigned i.divisor).toNat (2 * u.r.toNat + u.q.msb.toNat) := by
    rw [← hshifted, ← h.divisor, ← toNat_digit]
    exact toNat_shiftLeft_or_bit hw _ _
  rw [hr, hq]
  exact hnext

theorem Iterating.iterate (h : Iterating i k u) (hk : k < w - 1) (hdivisor : i.divisor ≠ 0) :
    Iterating i (k + 1) u.iterate where
  busy := by
    rw [iterate_busy h.busy, h.count, decide_eq_false hk.ne]
    rfl
  count := by rw [count_iterate, h.count]
  divisor := h.divisor
  negQuotient := h.negQuotient
  negRemainder := h.negRemainder
  dividing := h.dividing_iterate (by omega) hdivisor

theorem Iterating.last (h : Iterating i (w - 1) u) (hw : 0 < w) (hdivisor : i.divisor ≠ 0) :
    u.iterate.busy = false ∧
      (u.iterate.quotient, u.iterate.remainder)
        = (riscvDiv i.isSigned i.dividend i.divisor, riscvRem i.isSigned i.dividend i.divisor) := by
  have hdividing := h.dividing_iterate (by omega) hdivisor
  have hsteps : w - 1 + 1 = w := by omega
  rw [hsteps] at hdividing
  obtain ⟨hq, hr⟩ := hdividing.finish
  obtain ⟨hquotient, hremainder⟩ := signed_division hdivisor hq hr
  constructor
  · rw [iterate_busy h.busy, h.count, decide_eq_true rfl]
    rfl
  · rw [← hquotient, ← hremainder]
    have hlast : decide (u.count = w - 1) = true := decide_eq_true h.count
    unfold Divider.iterate
    simp only [hlast, if_true, h.negQuotient, h.negRemainder]

theorem iterating_begin (v : Divider w) (hdivisor : i.divisor ≠ 0)
    (hoverflow : signedOverflow i = false) : Iterating i 0 (v.begin i) := by
  unfold begin
  rw [if_neg hdivisor, hoverflow, if_neg Bool.false_ne_true]
  exact ⟨rfl, rfl, rfl, rfl, rfl, Dividing.start (BitVec.isLt _)⟩

/-!
# The result
-/

/--
The one signed overflow is answered at once, with what the division would give.
-/
theorem overflow_result (hw : 2 <= w) (hoverflow : signedOverflow i = true) :
    riscvDiv i.isSigned i.dividend i.divisor = i.dividend ∧
      riscvRem i.isSigned i.dividend i.divisor = 0 := by
  unfold signedOverflow at hoverflow
  rw [Bool.and_eq_true, Bool.and_eq_true, decide_eq_true_eq, decide_eq_true_eq] at hoverflow
  obtain ⟨⟨hsigned, hdividend⟩, hdivisor⟩ := hoverflow
  have hne : i.divisor ≠ 0 := by
    intro hzero
    rw [hzero] at hdivisor
    have hnat := congrArg BitVec.toNat hdivisor
    rw [BitVec.toNat_allOnes] at hnat
    have hpow := Nat.pow_le_pow_right two_pos (by omega : 1 <= w)
    simp at hnat
    omega
  have hminusOne : i.divisor.toInt = -1 := by
    rw [hdivisor, BitVec.toInt_allOnes, if_pos (by omega)]
  unfold riscvDiv riscvRem
  rw [if_neg hne, if_neg hne, hsigned, if_pos rfl, if_pos rfl, hminusOne]
  constructor
  · rw [Int.tdiv_neg, Int.tdiv_one, BitVec.ofInt_neg, BitVec.ofInt_toInt, hdividend,
      BitVec.neg_intMin]
  · rw [Int.tmod_neg, Int.tmod_one]
    rfl

theorem result_eq (hw : 2 <= w) (i : DividerIn w) :
    (sequencer w).result i
      = (riscvDiv i.isSigned i.dividend i.divisor, riscvRem i.isSigned i.dividend i.divisor) := by
  unfold Sequencer.result
  by_cases hzero : i.divisor = 0
  · have hbegin : (fresh w).begin i = { fresh w with
        quotient := BitVec.allOnes w, remainder := i.dividend, done := true } := by
      unfold begin
      rw [if_pos hzero]
    have hidle : (sequencer w).busy ((fresh w).begin i) = false := by
      rw [hbegin]
      rfl
    unfold riscvDiv riscvRem
    rw [if_pos hzero, if_pos hzero]
    show (sequencer w).output ((sequencer w).settle _ _ ((fresh w).begin i)) = _
    rw [Sequencer.settle_idle hidle, hbegin]
    rfl
  · cases hoverflow : signedOverflow i with
    | true =>
        have hbegin : (fresh w).begin i = { fresh w with
            quotient := i.dividend, remainder := 0, done := true } := by
          unfold begin
          rw [if_neg hzero, if_pos hoverflow]
        have hidle : (sequencer w).busy ((fresh w).begin i) = false := by
          rw [hbegin]
          rfl
        obtain ⟨hquotient, hremainder⟩ := overflow_result hw hoverflow
        rw [hquotient, hremainder]
        show (sequencer w).output ((sequencer w).settle _ _ ((fresh w).begin i)) = _
        rw [Sequencer.settle_idle hidle, hbegin]
        rfl
    | false =>
        refine Sequencer.settle_of_invariant (S := sequencer w) (P := Iterating i)
          (Q := fun u => (u.quotient, u.remainder) = _) ?_ ?_ ?_ (w + 1) (Nat.zero_le (w - 1))
          (by omega) (iterating_begin (fresh w) hzero hoverflow)
        · exact fun k u h => h.busy
        · exact fun k u hk h => h.iterate hk hzero
        · exact fun u h => h.last (by omega) hzero

/-!
# Runs
-/

def run (u : Divider w) (j : Nat -> DividerIn w) : Nat -> Divider w
  | 0 => u
  | n + 1 => (run u j n).step (j n)

theorem run_eq (u : Divider w) (j : Nat -> DividerIn w) (n : Nat) :
    run u j n = (sequencer w).run u j n := by
  induction n with
  | zero => rfl
  | succ n ih =>
      rw [run, ih]
      rfl

theorem begins_busy {v : Divider w} (hidle : v.busy = false) (h : (v.begin i).busy = true) :
    i.divisor ≠ 0 ∧ signedOverflow i = false := by
  unfold begin at h
  split at h
  · exact absurd (hidle.symm.trans h) Bool.false_ne_true
  · next hdivisor =>
      split at h
      · exact absurd (hidle.symm.trans h) Bool.false_ne_true
      · next hoverflow => exact ⟨hdivisor, Bool.eq_false_iff.mpr hoverflow⟩

/--
While it is busy the unit works on the operands of the cycle in which it was started.
-/
theorem iterating_run {j : Nat -> DividerIn w} (hidle : (sequencer w).Idle u)
    (hstart : (j 0).start = true) (m : Nat)
    (hbusy : forall l, 0 < l -> l <= m + 1 -> (run u j l).busy = true) :
    (j 0).divisor ≠ 0 ∧ m < w ∧ Iterating (j 0) m (run u j (m + 1)) := by
  have hbegin : run u j 1 = u.begin (j 0) := Sequencer.step_of_start hidle hstart
  induction m with
  | zero =>
      have hfirst := hbusy 1 Nat.one_pos (Nat.le_refl 1)
      rw [hbegin] at hfirst ⊢
      obtain ⟨hdivisor, hoverflow⟩ := begins_busy hidle.left hfirst
      have hw : 0 < w := by
        rcases Nat.eq_zero_or_pos w with hzero | hpos
        · subst hzero
          exact absurd (BitVec.of_length_zero) hdivisor
        · exact hpos
      exact ⟨hdivisor, hw, iterating_begin u hdivisor hoverflow⟩
  | succ m ih =>
      obtain ⟨hdivisor, hm, hiterating⟩ := ih (fun l hpos hle => hbusy l hpos (by omega))
      have hstep : run u j (m + 2) = (run u j (m + 1)).iterate :=
        Sequencer.step_of_busy (S := sequencer w) (i := j (m + 1)) hiterating.busy
      have hgoes := hbusy (m + 2) (by omega) (Nat.le_refl _)
      rw [hstep, iterate_busy hiterating.busy, hiterating.count] at hgoes
      have hnotLast : m ≠ w - 1 := by simpa using hgoes
      rw [hstep]
      exact ⟨hdivisor, by omega, hiterating.iterate (by omega) hdivisor⟩

section Pulse

variable {j : Nat -> DividerIn w} {n : Nat}

theorem done_before (h : (sequencer w).Pulses u j n) {m : Nat} (hm : m < n) :
    (run u j m).done = false := by
  rw [run_eq]
  exact h.before m hm

theorem done_pulse (h : (sequencer w).Pulses u j n) : (run u j n).done = true := by
  rw [run_eq]
  exact h.shows.left

theorem output_pulse (hw : 2 <= w) (h : (sequencer w).Pulses u j n) :
    ((run u j n).quotient, (run u j n).remainder)
      = (riscvDiv (j 0).isSigned (j 0).dividend (j 0).divisor,
          riscvRem (j 0).isSigned (j 0).dividend (j 0).divisor) := by
  rw [run_eq, ← result_eq hw]
  exact h.output

end Pulse

/--
Whatever an idle unit has left over, it answers a start with one pulse, which shows the
quotient and the remainder of the manual.
-/
theorem divides_riscv (hw : 2 <= w) (u : Divider w) (hidle : u.busy = false)
    (hdone : u.done = false) (j : Nat -> DividerIn w) (hstart : (j 0).start = true) :
    exists n, 0 < n ∧ n <= w + 2 ∧
      (forall m, m < n -> (run u j m).done = false) ∧
      (run u j n).done = true ∧ (run u j (n + 1)).done = false ∧
      ((forall m, n < m -> (j m).start = false) ->
        forall m, (run u j m).done = true <-> m = n) ∧
      (run u j n).quotient = riscvDiv (j 0).isSigned (j 0).dividend (j 0).divisor ∧
      (run u j n).remainder = riscvRem (j 0).isSigned (j 0).dividend (j 0).divisor ∧
      forall m, m < n -> (run u j m).busy = true ->
        2 * (run u j m).r.toNat + (run u j m).q.msb.toNat < 2 ^ w := by
  have hstarted : (sequencer w).Idle u := ⟨hidle, hdone⟩
  obtain ⟨n, hle, hpulses⟩ := Sequencer.pulses_of_start (sequencer_lawful w) hstarted hstart
    (fun _ _ => rfl)
  have hshown := output_pulse hw hpulses
  have hbefore (m : Nat) (hm : m < n) : (run u j m).done = false := done_before hpulses hm
  have hpulse := done_pulse hpulses
  have hafter : (run u j (n + 1)).done = false := by
    rw [run_eq]
    exact hpulses.after.right
  refine ⟨n, hpulses.positive, hle, hbefore, hpulse, hafter, ?_, congrArg Prod.fst hshown,
    congrArg Prod.snd hshown, ?_⟩
  · intro hquiet m
    rcases Nat.lt_trichotomy m n with hlt | heq | hgt
    · rw [hbefore m hlt]
      simp [hlt.ne]
    · rw [heq, hpulse]
      simp
    · have hrests : (run u j m).done = false := by
        rw [run_eq]
        exact (Sequencer.idle_run (sequencer_lawful w) hpulses.after hquiet m hgt).right
      rw [hrests]
      simp [hgt.ne']
  · intro m hm hbusy
    cases m with
    | zero => exact absurd (hidle.symm.trans hbusy) Bool.false_ne_true
    | succ m =>
        obtain ⟨-, hlt, hiterating⟩ := iterating_run hstarted hstart m (by
          intro l hpos hl
          rw [run_eq]
          exact hpulses.works l hpos (by omega))
        exact hiterating.room hlt

/--
Minus seven by two, with signs.
-/
theorem divides_riscv_signed :
    exists n, (run (fresh 8) (fun _ => ⟨true, true, 0xF9#8, 2#8⟩) n).done = true ∧
      (run (fresh 8) (fun _ => ⟨true, true, 0xF9#8, 2#8⟩) n).quotient = 0xFD#8 ∧
      (run (fresh 8) (fun _ => ⟨true, true, 0xF9#8, 2#8⟩) n).remainder = 0xFF#8 := by
  obtain ⟨n, -, -, -, hdone, -, -, hquotient, hremainder, -⟩ :=
    divides_riscv (by decide) (fresh 8) rfl rfl (fun _ => ⟨true, true, 0xF9#8, 2#8⟩) rfl
  exact ⟨n, hdone, hquotient, hremainder⟩

end Divider
end Block
end RvCores
