import RvCores.Sim.IssFloat
import RvCores.Block.FSqrtResult
import Mathlib.Data.Rat.Floor
import Mathlib.Tactic.IntervalCases

/-!
# The simulator rounds correctly

The exponent of a fraction or of its root is found in at most one step from the estimate
by bit lengths.  What is left of the significand below its integer part is classified as
the units do with their guard and sticky bits, and the packing is theirs but for the
inexact flag of a flushed result.
-/

namespace RvCores
namespace Sim

open Block Lib F32

/-!
# The search for the exponent
-/

theorem bitLength_bounds {n : Int} (hn : 0 < n) :
    (2 : Rat) ^ (bitLength n - 1) <= n ∧ (n : Rat) < 2 ^ bitLength n := by
  obtain ⟨k, rfl⟩ := Int.eq_ofNat_of_zero_le hn.le
  have hk : 0 < k := by omega
  have hsize := Nat.size_pos.mpr hk
  have hlow : 2 ^ (Nat.size k - 1) <= k := Nat.lt_size.mp (by omega)
  have hhigh : k < 2 ^ Nat.size k := Nat.lt_size_self k
  unfold bitLength
  rw [Int.natAbs_natCast]
  constructor
  · have hcast : ((Nat.size k : Int) - 1) = ((Nat.size k - 1 : Nat) : Int) := by omega
    rw [hcast, zpow_natCast]
    exact_mod_cast hlow
  · rw [zpow_natCast]
    exact_mod_cast hhigh

/--
The estimate is at most one too small.
-/
theorem estimate_bounds {q : Rat} (hq : 0 < q) :
    (2 : Rat) ^ (bitLength q.num - bitLength q.den - 1) <= q ∧
      q < 2 ^ (bitLength q.num - bitLength q.den + 1) := by
  obtain ⟨hnumLow, hnumHigh⟩ := bitLength_bounds (Rat.num_pos.mpr hq)
  obtain ⟨hdenLow, hdenHigh⟩ := bitLength_bounds (n := q.den) (by exact_mod_cast q.den_pos)
  have hden : (0 : Rat) < (q.den : Int) := by exact_mod_cast q.den_pos
  have hvalue : q * (q.den : Int) = q.num := by exact_mod_cast Rat.mul_den_eq_num q
  constructor
  · rw [← mul_le_mul_iff_of_pos_right hden, hvalue]
    calc (2 : Rat) ^ (bitLength q.num - bitLength q.den - 1) * (q.den : Int)
        <= 2 ^ (bitLength q.num - bitLength q.den - 1) * 2 ^ bitLength q.den :=
          mul_le_mul_of_nonneg_left hdenHigh.le (zpow_pos two_pos _).le
      _ = 2 ^ (bitLength q.num - 1) := by
          rw [← zpow_add₀ two_ne_zero]
          congr 1
          omega
      _ <= q.num := hnumLow
  · rw [← mul_lt_mul_iff_of_pos_right hden, hvalue]
    calc (q.num : Rat) < 2 ^ bitLength q.num := hnumHigh
      _ = 2 ^ (bitLength q.num - bitLength q.den + 1) * 2 ^ (bitLength q.den - 1) := by
          rw [← zpow_add₀ two_ne_zero]
          congr 1
          omega
      _ <= 2 ^ (bitLength q.num - bitLength q.den + 1) * (q.den : Int) :=
          mul_le_mul_of_nonneg_left hdenLow (zpow_pos two_pos _).le

/--
Two loops that look for the step of an increasing function below a value, the second of
which has nothing to do.
-/
theorem search_found {step : Int -> Rat} (hmono : Monotone step) {q : Rat} {e0 : Int}
    (hlow : step e0 <= q) (hhigh : q < step (e0 + 2)) :
    exists e, (forall fuel, 2 <= fuel ->
        loop fuel (fun e => decide (q >= step (e + 1))) (fun e => e + 1) e0 = .ok e ∧
        loop fuel (fun e => decide (q < step e)) (fun e => e - 1) e = .ok e) ∧
      step e <= q ∧ q < step (e + 1) := by
  have hstep : forall e : Int, step e <= q -> decide (q >= step (e + 1)) = true ->
      step (e + 1) <= q ∧ (e0 + 1 - (e + 1)).toNat < (e0 + 1 - e).toNat := by
    intro e _ hcond
    have hle : step (e + 1) <= q := of_decide_eq_true hcond
    have hless : e + 1 < e0 + 2 := by
      by_contra hge
      exact absurd hhigh (not_lt.mpr (le_trans (hmono (not_lt.mp hge)) hle))
    exact ⟨hle, by omega⟩
  obtain ⟨e, hrun, hfrom, hto⟩ := whileFuel_total (fun e : Int => step e <= q)
    (fun e => (e0 + 1 - e).toNat) hlow hstep (show (e0 + 1 - e0).toNat < 2 by omega)
  refine ⟨e, fun fuel hfuel => ⟨?_, ?_⟩, hfrom, not_le.mp (of_decide_eq_false hto)⟩
  · rw [loop, whileFuel_more hrun hfuel]
  · have hdone : whileFuel (fun e : Int => decide (q < step e)) (fun e => e - 1) fuel e
        = some e := whileFuel_of_false (decide_eq_false (not_lt.mpr hfrom)) (by omega)
    rw [loop, hdone]

/-!
# What is left below the integer part
-/

namespace RemainderClass

def guard : RemainderClass -> Bool
  | exact => false
  | below => false
  | tie => true
  | above => true

def rest : RemainderClass -> Bool
  | exact => false
  | below => true
  | tie => false
  | above => true

end RemainderClass

theorem truncates_classify {n : Nat} {y : Rat} (hle : (n : Rat) <= y) (hlt : y < n + 1) :
    Truncates (2 * n + (f32Classify (y - n)).guard.toNat) (f32Classify (y - n)).rest (2 * y) := by
  unfold f32Classify
  by_cases hexact : y - n = 0
  · rw [if_pos hexact]
    have hy : y = n := sub_eq_zero.mp hexact
    refine ⟨?_, ?_, ?_⟩
    · simp [RemainderClass.guard, hy]
    · simp [RemainderClass.guard, hy]
    · simp [RemainderClass.guard, RemainderClass.rest, hy]
  · rw [if_neg hexact]
    have hne : y ≠ n := sub_ne_zero.mp hexact
    by_cases hbelow : y - n < 1 / 2
    · rw [if_pos hbelow]
      refine ⟨?_, ?_, ?_⟩
      · simp only [RemainderClass.guard, Bool.toNat_false]
        push_cast
        linarith
      · simp only [RemainderClass.guard, Bool.toNat_false]
        push_cast
        linarith
      · simpa [RemainderClass.guard, RemainderClass.rest] using hne
    · rw [if_neg hbelow]
      by_cases habove : y - n > 1 / 2
      · rw [if_pos habove]
        refine ⟨?_, ?_, ?_⟩
        · simp only [RemainderClass.guard, Bool.toNat_true]
          push_cast
          linarith
        · simp only [RemainderClass.guard, Bool.toNat_true]
          push_cast
          linarith
        · simp only [RemainderClass.guard, RemainderClass.rest, Bool.toNat_true, true_iff]
          push_cast
          intro heq
          linarith
      · rw [if_neg habove]
        have htie : 2 * y = 2 * n + 1 := by linarith
        refine ⟨?_, ?_, ?_⟩
        · simp only [RemainderClass.guard, Bool.toNat_true]
          push_cast
          linarith
        · simp only [RemainderClass.guard, Bool.toNat_true]
          push_cast
          linarith
        · simp only [RemainderClass.guard, RemainderClass.rest, Bool.toNat_true, Bool.false_eq_true,
            false_iff, not_not]
          push_cast
          exact htie

/--
Every positive fraction is normalised to an exponent and the bits of its significand.
-/
theorem normalize_fraction_spec {q : Rat} (hq : 0 < q) :
    exists (e : Int) (n : Nat) (cls : RemainderClass),
      (forall fuel, 2 <= fuel -> f32NormalizeFraction fuel q = .ok (e, n, cls)) ∧
        2 ^ 23 <= n ∧ n < 2 ^ 24 ∧
        Truncates (2 * n + cls.guard.toNat) cls.rest (2 * (q * 2 ^ (23 - e))) := by
  obtain ⟨hlow, hhigh⟩ := estimate_bounds hq
  have hmono : Monotone (fun e : Int => (2 : Rat) ^ e) :=
    fun _ _ h => zpow_le_zpow_right₀ one_le_two h
  obtain ⟨e, hloops, hfrom, hto⟩ := search_found hmono hlow
    (by rw [show bitLength q.num - bitLength q.den - 1 + 2
          = bitLength q.num - bitLength q.den + 1 by omega]
        exact hhigh)
  have hscale : (0 : Rat) < 2 ^ (23 - e) := zpow_pos two_pos _
  have hsigLow : (2 : Rat) ^ 23 <= q * 2 ^ (23 - e) := by
    calc (2 : Rat) ^ 23 = 2 ^ e * 2 ^ (23 - e) := by
          rw [← zpow_add₀ two_ne_zero, add_sub_cancel]
          norm_cast
      _ <= q * 2 ^ (23 - e) := mul_le_mul_of_nonneg_right hfrom hscale.le
  have hsigHigh : q * 2 ^ (23 - e) < (2 : Rat) ^ 24 := by
    calc q * 2 ^ (23 - e) < 2 ^ (e + 1) * 2 ^ (23 - e) := mul_lt_mul_of_pos_right hto hscale
      _ = (2 : Rat) ^ 24 := by
          rw [← zpow_add₀ two_ne_zero, show e + 1 + (23 - e) = 24 by omega]
          norm_cast
  obtain ⟨n, hn⟩ := Int.eq_ofNat_of_zero_le
    (Int.floor_nonneg.mpr (le_trans (by norm_num) hsigLow))
  have hfloor : (q * 2 ^ (23 - e)).num / (q * 2 ^ (23 - e)).den = (n : Int) :=
    Rat.floor_def'.symm.trans hn
  have hle : (n : Rat) <= q * 2 ^ (23 - e) := by
    have h := Int.floor_le (q * 2 ^ (23 - e))
    rw [hn] at h
    exact_mod_cast h
  have hlt : q * 2 ^ (23 - e) < n + 1 := by
    have h := Int.lt_floor_add_one (q * 2 ^ (23 - e))
    rw [hn] at h
    exact_mod_cast h
  refine ⟨e, n, f32Classify (q * 2 ^ (23 - e) - n), ?_, ?_, ?_, truncates_classify hle hlt⟩
  · intro fuel hfuel
    obtain ⟨hup, hdown⟩ := hloops fuel hfuel
    unfold f32NormalizeFraction
    rw [hup]
    change (loop fuel _ _ e >>= _) = _
    rw [hdown]
    change Except.ok _ = _
    rw [hfloor]
    rfl
  · have h : (2 : Rat) ^ 23 < n + 1 := lt_of_le_of_lt hsigLow hlt
    have hnat : 2 ^ 23 < n + 1 := by exact_mod_cast h
    omega
  · have h : (n : Rat) < 2 ^ 24 := lt_of_le_of_lt hle hsigHigh
    exact_mod_cast h

/-!
# Square roots
-/

/--
The class of an integer square root by the square of the half-way point.
-/
def sqrtClass (s n : Int) : RemainderClass :=
  if s * s = n then .exact
  else if 4 * n < (2 * s + 1) ^ 2 then .below
  else if 4 * n > (2 * s + 1) ^ 2 then .above
  else .tie

theorem truncates_sqrtClass {s n : Nat} {y : Real} (hy : 0 <= y) (hsquare : y * y = 4 * n)
    (hle : s * s <= n) (hlt : n < (s + 1) * (s + 1)) :
    Truncates (2 * s + (sqrtClass s n).guard.toNat) (sqrtClass s n).rest y := by
  have hs : (0 : Real) <= s := Nat.cast_nonneg s
  have hbelowNext : y < 2 * s + 2 := by
    rw [mul_self_lt_mul_self_iff hy (by linarith), hsquare]
    have hcast : (n : Real) < (s + 1) * (s + 1) := by exact_mod_cast hlt
    linarith
  unfold sqrtClass
  by_cases hexact : (s : Int) * s = n
  · rw [if_pos hexact]
    have hvalue : y = 2 * s := by
      rw [← mul_self_inj hy (by linarith), hsquare]
      have hcast : (s : Real) * s = n := by exact_mod_cast hexact
      linarith
    refine ⟨?_, ?_, ?_⟩ <;> simp [RemainderClass.guard, RemainderClass.rest, hvalue]
  · rw [if_neg hexact]
    have hstrict : 2 * (s : Real) < y := by
      rw [mul_self_lt_mul_self_iff (by linarith) hy, hsquare]
      have hnat : s * s < n := lt_of_le_of_ne hle (fun h => hexact (by exact_mod_cast h))
      have hcast : (s : Real) * s < n := by exact_mod_cast hnat
      linarith
    by_cases hbelow : 4 * (n : Int) < (2 * s + 1) ^ 2
    · rw [if_pos hbelow]
      have hhalf : y < 2 * s + 1 := by
        rw [mul_self_lt_mul_self_iff hy (by linarith), hsquare]
        have hcast : 4 * (n : Real) < (2 * s + 1) ^ 2 := by exact_mod_cast hbelow
        linarith
      refine ⟨?_, ?_, ?_⟩
      · simpa [RemainderClass.guard] using hstrict.le
      · simpa [RemainderClass.guard] using hhalf
      · simpa [RemainderClass.guard, RemainderClass.rest] using hstrict.ne'
    · rw [if_neg hbelow]
      -- an odd square is no multiple of four
      have habove : 4 * (n : Int) > (2 * s + 1) ^ 2 := by
        have hodd : (2 * (s : Int) + 1) ^ 2 = 4 * (s * s + s) + 1 := by ring
        omega
      rw [if_pos habove]
      have hhalf : 2 * (s : Real) + 1 < y := by
        rw [mul_self_lt_mul_self_iff (by linarith) hy, hsquare]
        have hcast : (2 * (s : Real) + 1) ^ 2 < 4 * n := by exact_mod_cast habove
        linarith
      refine ⟨?_, ?_, ?_⟩
      · simpa [RemainderClass.guard] using hhalf.le
      · simp only [RemainderClass.guard, Bool.toNat_true]
        push_cast
        linarith
      · simpa [RemainderClass.guard, RemainderClass.rest] using hhalf.ne'

/--
The scaled operand of a root is an integer, so the assertion holds.
-/
theorem normalize_sqrt_spec {q : Rat} {m : Nat} {k : Int} (hmLow : 2 ^ 23 <= m)
    (hmHigh : m < 2 ^ 24) (hq : q = m * 2 ^ (k - 23)) :
    exists (e : Int) (n : Nat) (cls : RemainderClass),
      (forall fuel, 2 <= fuel -> f32SqrtNormalize fuel q = .ok (e, n, cls)) ∧
        2 ^ 23 <= n ∧ n < 2 ^ 24 ∧
        Truncates (2 * n + cls.guard.toNat) cls.rest
          (2 * (Real.sqrt (q : Real) * 2 ^ (23 - e))) := by
  have hpos : 0 < q := by
    rw [hq]
    exact mul_pos (Nat.cast_pos.mpr (by omega)) (zpow_pos two_pos _)
  obtain ⟨hlow, hhigh⟩ := estimate_bounds hpos
  have hmono : Monotone (fun e : Int => (2 : Rat) ^ (2 * e)) :=
    fun _ _ h => zpow_le_zpow_right₀ one_le_two (by omega)
  obtain ⟨e, hloops, hfrom, hto⟩ := @search_found _ hmono q
    ((bitLength q.num - bitLength q.den) / 2 - 1)
    (le_trans (zpow_le_zpow_right₀ one_le_two (by omega)) hlow)
    (lt_of_lt_of_le hhigh (zpow_le_zpow_right₀ one_le_two (by omega)))
  -- the exponent of the operand is twice that of the root, or one more
  have hrange := fun a => pow_le_significand (K := Rat) (e := k) hmLow hmHigh a
  rw [← hq] at hrange
  have hfloor := (hrange (2 * e)).mp hfrom
  have hceil : k < 2 * (e + 1) := by
    by_contra hge
    exact absurd hto (not_lt.mpr ((hrange (2 * (e + 1))).mpr (not_lt.mp hge)))
  obtain ⟨d, hd⟩ := Int.le.dest hfloor
  have hscaled : q * 2 ^ (2 * (23 - e)) = ((m * 2 ^ (d + 23) : Nat) : Rat) := by
    rw [hq, mul_assoc, ← zpow_add₀ two_ne_zero,
      show k - 23 + 2 * (23 - e) = ((d + 23 : Nat) : Int) by push_cast; omega, zpow_natCast]
    push_cast
    rfl
  have hN : 2 ^ 46 <= m * 2 ^ (d + 23) ∧ m * 2 ^ (d + 23) < 2 ^ 48 := by
    have hcase : d = 0 ∨ d = 1 := by omega
    rcases hcase with rfl | rfl
    · constructor <;> norm_num <;> omega
    · constructor <;> norm_num <;> omega
  generalize m * 2 ^ (d + 23) = N at hscaled hN
  have hrootLow : 2 ^ 23 <= Nat.sqrt N := Nat.le_sqrt.mpr (by omega)
  have hrootHigh : Nat.sqrt N < 2 ^ 24 := Nat.sqrt_lt.mpr (by omega)
  have hvalue : (q : Real) * 2 ^ (2 * (23 - e)) = N := by
    have hcast := congrArg (fun x : Rat => (x : Real)) hscaled
    push_cast at hcast
    exact hcast
  have hsquare : 2 * (Real.sqrt (q : Real) * 2 ^ (23 - e)) *
      (2 * (Real.sqrt (q : Real) * 2 ^ (23 - e))) = 4 * N := by
    have hroot := Real.mul_self_sqrt (show (0 : Real) <= q by exact_mod_cast hpos.le)
    have hpow : (2 : Real) ^ (2 * (23 - e)) = 2 ^ (23 - e) * 2 ^ (23 - e) := by
      rw [← zpow_add₀ two_ne_zero]
      congr 1
      omega
    rw [← hvalue, hpow]
    calc _ = 4 * (Real.sqrt (q : Real) * Real.sqrt (q : Real)) * (2 ^ (23 - e) * 2 ^ (23 - e)) := by
          ring
      _ = _ := by
          rw [hroot]
          ring
  have hnonneg : 0 <= 2 * (Real.sqrt (q : Real) * 2 ^ (23 - e)) := by positivity
  refine ⟨e, Nat.sqrt N, sqrtClass (Nat.sqrt N) N, ?_, hrootLow, hrootHigh,
    truncates_sqrtClass hnonneg hsquare (Nat.sqrt_le N) (Nat.lt_succ_sqrt N)⟩
  intro fuel hfuel
  obtain ⟨hup, hdown⟩ := hloops fuel hfuel
  unfold f32SqrtNormalize
  rw [hup]
  change (loop fuel _ _ e >>= _) = _
  rw [hdown]
  change (if (q * 2 ^ (2 * (23 - e))).den = 1 then _ else _) = _
  rw [hscaled, if_pos (Rat.den_natCast N)]
  rfl

/-!
# Packing
-/

theorem f32RoundUpDecision_eq (cls : RemainderClass) (n : Nat) (sign : Bool)
    (mode : RoundingMode) :
    f32RoundUpDecision cls n sign (modeBits mode) =
      (roundsAway mode sign cls.guard cls.rest (decide (n % 2 = 1)), cls.guard || cls.rest) := by
  have hodd : decide ((n : Int) % 2 = 1) = decide (n % 2 = 1) := by
    congr 1
    apply propext
    omega
  unfold f32RoundUpDecision
  rw [hodd]
  cases mode <;> cases cls <;> cases sign <;> rfl

theorem build_eq_or (sign : Bool) (x : BitVec 8) (f : BitVec 32) :
    BitVec.ofNat 32 sign.toNat <<< 31 ||| x.setWidth 32 <<< 23 ||| (f &&& 0x7FFFFF)
      = build sign x (f.setWidth 23) := by
  unfold build
  apply BitVec.eq_of_getLsbD_eq
  intro i hi
  simp only [BitVec.getLsbD_append, BitVec.getLsbD_or, BitVec.getLsbD_and,
    BitVec.getLsbD_shiftLeft, BitVec.getLsbD_setWidth]
  cases sign <;> interval_cases i <;> simp

/--
The flags of the simulator: a flushed result counts as inexact.
-/
def flagBits (p : Packed) : BitVec 5 :=
  (if p.of then fOf else 0) ||| (if p.uf then fUf ||| fNx else 0) ||| (if p.nx then fNx else 0)

/--
What the simulator returns once the significand has been rounded.
-/
def f32Packed (sign : Bool) (e sig : Int) (inexact : Bool) (rm : BitVec 3) : F32 × BitVec 5 :=
  if e > 127 then
    if rm = rmRtz ∨ (rm = rmRdn ∧ sign = false) ∨ (rm = rmRup ∧ sign = true) then
      (BitVec.ofNat 32 sign.toNat <<< 31 ||| 0xFE#32 <<< 23 ||| 0x7FFFFF, fOf ||| fNx)
    else (BitVec.ofNat 32 sign.toNat <<< 31 ||| 0xFF#32 <<< 23, fOf ||| fNx)
  else if e < -126 then (f32PackZero sign, fUf ||| fNx)
  else
    (BitVec.ofNat 32 sign.toNat <<< 31 ||| BitVec.ofInt 32 (e + 127) <<< 23 |||
        (BitVec.ofInt 32 sig &&& 0x7FFFFF),
      if inexact then fNx else 0)

theorem f32Packed_eq {s : BitVec 25} (hlow : 2 ^ 23 <= s.toNat) (hhigh : s.toNat < 2 ^ 24)
    (sign : Bool) (e : Int) (inexact : Bool) (mode : RoundingMode) :
    f32Packed sign e s.toNat inexact (modeBits mode) =
      ((packed sign e s inexact (modeBits mode)).result,
        flagBits (packed sign e s inexact (modeBits mode))) := by
  have hnonzero : s.setWidth 24 ≠ 0 := by
    intro heq
    have hnat := congrArg BitVec.toNat heq
    rw [BitVec.toNat_setWidth, Nat.mod_eq_of_lt hhigh] at hnat
    have hzero : s.toNat = 0 := hnat
    omega
  unfold f32Packed packed
  by_cases hover : e > 127
  · rw [if_pos hover, if_pos hover]
    cases mode <;> cases sign <;> rfl
  · rw [if_neg hover, if_neg hover]
    by_cases htiny : e < -126
    · rw [if_pos htiny, if_pos (Or.inl htiny), decide_eq_true htiny, decide_eq_true hnonzero]
      cases inexact <;> cases sign <;> rfl
    · have hnot : ¬ (e < -126 ∨ s.setWidth 24 = 0) := not_or.mpr ⟨htiny, hnonzero⟩
      have hexp : BitVec.ofInt 32 (e + 127) = (BitVec.ofInt 8 (e + 127)).setWidth 32 := by
        apply BitVec.eq_of_toNat_eq
        rw [BitVec.toNat_setWidth, BitVec.toNat_ofInt, BitVec.toNat_ofInt]
        omega
      have hsig : (BitVec.ofInt 32 (s.toNat : Int)).setWidth 23 = s.setWidth 23 := by
        apply BitVec.eq_of_toNat_eq
        rw [BitVec.ofInt_natCast, BitVec.toNat_setWidth, BitVec.toNat_setWidth,
          BitVec.toNat_ofNat]
        omega
      rw [if_neg htiny, if_neg hnot, hexp, build_eq_or, hsig]
      refine Prod.ext rfl ?_
      cases inexact with
      | false => exact (by decide : (0 : BitVec 5) = 0 ||| 0 ||| 0)
      | true => exact (by decide : fNx = 0 ||| 0 ||| fNx)

/--
The simulator packs what the units pack.
-/
theorem f32PackRounded_eq {n : Nat} (hlow : 2 ^ 23 <= n) (hhigh : n < 2 ^ 24) (sign : Bool)
    (e : Int) (cls : RemainderClass) (mode : RoundingMode) :
    f32PackRounded sign e n cls (modeBits mode) =
      ((roundAndPack sign e (BitVec.ofNat 25 n) cls.guard cls.rest false (modeBits mode)).result,
        flagBits (roundAndPack sign e (BitVec.ofNat 25 n) cls.guard cls.rest false
          (modeBits mode))) := by
  have hbits : (BitVec.ofNat 25 n).toNat = n := by
    rw [BitVec.toNat_ofNat]
    omega
  have hsucc : (BitVec.ofNat 25 n + 1).toNat = n + 1 := by
    rw [BitVec.toNat_add, hbits]
    simp
    omega
  have hnarrow : (BitVec.ofNat 25 n).getLsbD 24 = false := by
    rw [BitVec.getLsbD, hbits, Nat.testBit_lt_two_pow hhigh]
  have hodd : (BitVec.ofNat 25 n).getLsbD 0 = decide (n % 2 = 1) := by
    rw [BitVec.getLsbD, hbits, Nat.testBit_zero]
  have hcarry : (BitVec.ofNat 25 n + 1).getLsbD 24 = decide ((n : Int) + 1 = 2 ^ 24) := by
    rw [BitVec.getLsbD, hsucc, Nat.testBit_eq_decide_div_mod_eq]
    congr 1
    apply propext
    omega
  have hunit : f32PackRounded sign e n cls (modeBits mode) =
      let decision := f32RoundUpDecision cls n sign (modeBits mode)
      let carry := decision.1 && decide ((n : Int) + 1 = 2 ^ 24)
      f32Packed sign (if carry then e + 1 else e)
        (if decision.1 then if carry then ((n : Int) + 1) / 2 else (n : Int) + 1 else n)
        decision.2 (modeBits mode) := rfl
  rw [hunit, f32RoundUpDecision_eq]
  unfold roundAndPack
  simp only [hnarrow, Bool.false_eq_true, if_false]
  rw [roundUp_modeBits, hodd, Bool.or_false, Bool.or_false]
  cases roundsAway mode sign cls.guard cls.rest (decide (n % 2 = 1)) with
  | false =>
      have hpacked := f32Packed_eq (s := BitVec.ofNat 25 n) (by omega) (by omega) sign e
        (cls.guard || cls.rest) mode
      rw [hbits] at hpacked
      simp only [Bool.false_and, Bool.false_eq_true, if_false]
      exact hpacked
  | true =>
      simp only [Bool.true_and, if_true, hcarry]
      by_cases htop : (n : Int) + 1 = 2 ^ 24
      · have hshift : ((BitVec.ofNat 25 n + 1) >>> 1).toNat = 2 ^ 23 := by
          rw [BitVec.toNat_ushiftRight, hsucc, Nat.shiftRight_eq_div_pow]
          omega
        have hpacked := f32Packed_eq (s := (BitVec.ofNat 25 n + 1) >>> 1) (by omega) (by omega)
          sign (e + 1) (cls.guard || cls.rest) mode
        have hhalf : ((n : Int) + 1) / 2 = ((2 ^ 23 : Nat) : Int) := by omega
        rw [hshift, ← hhalf] at hpacked
        simp only [htop, decide_true, if_true]
        rw [htop] at hpacked
        exact hpacked
      · have hpacked := f32Packed_eq (s := BitVec.ofNat 25 n + 1) (by omega) (by omega) sign e
          (cls.guard || cls.rest) mode
        rw [hsucc, Nat.cast_add, Nat.cast_one] at hpacked
        simp only [htop, decide_false, Bool.false_eq_true, if_false]
        exact hpacked

/-!
# What has to be returned
-/

variable {K : Type} [Field K] [LinearOrder K] [IsStrictOrderedRing K]

/--
What the simulator has to return for an exact value `x` whose rounding to 24 bits is `v`.
The inexact flag says whether the value returned is another one.
-/
structure Returns (mode : RoundingMode) (x v : K) (out : F32 × BitVec 5) : Prop where
  normal : 2 ^ (-126 : Int) <= |v| -> |v| < 2 ^ (128 : Int) ->
    F32.Normal out.1 ∧ F32.value K out.1 = v ∧ out.2 = if v = x then 0 else fNx
  overflow : 2 ^ (128 : Int) <= |v| ->
    out.1 = overflowResult mode (decide (x < 0)) ∧ out.2 = fOf ||| fNx
  tiny : |v| < 2 ^ (-126 : Int) ->
    out.1 = F32.zero (decide (x < 0)) ∧ out.2 = fUf ||| fNx

theorem returns_of_delivers {mode : RoundingMode} {x v : K} {p : Packed}
    (hrounds : forall u, RoundsTo 24 mode x u <-> u = v) (h : Delivers mode x v p.out) :
    Returns mode x v (p.result, flagBits p) := by
  have hexact : v = x <-> Representable 24 x := by
    constructor
    · intro heq
      rw [← heq]
      exact ((hrounds v).mpr rfl).representable
    · intro hrep
      exact (hrep.roundsTo_iff mode).mp ((hrounds v).mpr rfl)
  constructor
  · intro hmin hmax
    obtain ⟨hnormal, hvalue, hof, huf⟩ := h.normal hmin hmax
    have hnx := h.inexact hmax
    rw [← hexact] at hnx
    have hof' : p.of = false := hof
    have huf' : p.uf = false := huf
    refine ⟨hnormal, hvalue, ?_⟩
    show flagBits p = _
    unfold flagBits
    rw [hof', huf']
    by_cases heq : v = x
    · have hzero : p.nx = false := Bool.eq_false_iff.mpr fun hone => hnx.mp hone heq
      rw [if_pos heq, hzero]
      rfl
    · have hone : p.nx = true := hnx.mpr heq
      rw [if_neg heq, hone]
      rfl
  · intro hlarge
    obtain ⟨hresult, hof, huf, hnx⟩ := h.overflow hlarge
    have hof' : p.of = true := hof
    have huf' : p.uf = false := huf
    have hnx' : p.nx = true := hnx
    refine ⟨hresult, ?_⟩
    show flagBits p = _
    unfold flagBits
    rw [hof', huf', hnx']
    rfl
  · intro htiny
    obtain ⟨hresult, hof, huf⟩ := h.tiny htiny
    have hof' : p.of = false := hof
    have huf' : p.uf = true := huf
    refine ⟨hresult, ?_⟩
    show flagBits p = _
    unfold flagBits
    rw [hof', huf']
    cases p.nx <;> rfl

/--
The bits of a significand round what they were cut from.
-/
theorem f32PackRounded_returns {n : Nat} {e : Int} {cls : RemainderClass} {y : K}
    (hlow : 2 ^ 23 <= n) (hhigh : n < 2 ^ 24)
    (h : Truncates (2 * n + cls.guard.toNat) cls.rest (2 * (y * 2 ^ (23 - e)))) (sign : Bool)
    (mode : RoundingMode) :
    exists v : K, (forall u, RoundsTo 24 mode (applySign sign y) u <-> u = v) ∧
      Returns mode (applySign sign y) v (f32PackRounded sign e n cls (modeBits mode)) := by
  have hbits : (BitVec.ofNat 25 n).toNat = n := by
    rw [BitVec.toNat_ofNat]
    omega
  have hscale : 2 * (y * 2 ^ (23 - e)) * 2 ^ (e - 24) = y := by
    have hpow : (2 : K) ^ (23 - e) * 2 ^ (e - 24) = 2⁻¹ := by
      rw [← zpow_add₀ two_ne_zero, show 23 - e + (e - 24) = -1 by omega, zpow_neg_one]
    calc 2 * (y * 2 ^ (23 - e)) * 2 ^ (e - 24) = y * (2 * (2 ^ (23 - e) * 2 ^ (e - 24))) := by
          ring
      _ = y := by rw [hpow, mul_inv_cancel₀ two_ne_zero, mul_one]
  have hcut : Truncates (2 * (BitVec.ofNat 25 n).toNat + cls.guard.toNat) (cls.rest || false)
      (2 * (y * 2 ^ (23 - e))) := by
    rw [hbits, Bool.or_false]
    exact h
  have hrounded : Rounded mode (applySign sign (2 * (y * 2 ^ (23 - e)) * 2 ^ (e - 24))) _ :=
    roundAndPack_rounded (by omega) hcut
  rw [hscale] at hrounded
  obtain ⟨v, hrounds, hdelivers⟩ := hrounded
  refine ⟨v, hrounds, ?_⟩
  rw [f32PackRounded_eq hlow hhigh]
  exact returns_of_delivers hrounds hdelivers

/-!
# Results
-/

theorem f32RoundFromFraction_returns {q : Rat} (hq : 0 < q) (sign : Bool)
    (mode : RoundingMode) :
    exists out v,
      (forall fuel, 2 <= fuel ->
        f32RoundFromFraction fuel sign q (modeBits mode) = .ok out) ∧
      (forall u, RoundsTo 24 mode (applySign sign q) u <-> u = v) ∧
      Returns mode (applySign sign q) v out := by
  obtain ⟨e, n, cls, hrun, hlow, hhigh, hcut⟩ := normalize_fraction_spec hq
  obtain ⟨v, hrounds, hreturns⟩ := f32PackRounded_returns hlow hhigh hcut sign mode
  refine ⟨_, v, ?_, hrounds, hreturns⟩
  intro fuel hfuel
  unfold f32RoundFromFraction
  rw [hrun fuel hfuel]
  rfl

/--
A normal operand decodes to its magnitude.
-/
theorem f32Decode_normal {a : F32} (ha : F32.Normal a) :
    (f32Decode a).magnitude
      = some (((mant a).toNat : Rat) * 2 ^ (expUnbiased a - 23)) := by
  have hexp : ((a >>> 23) &&& 0xFF).toNat = (F32.exp a).toNat := by
    have hmask : (0xFF : BitVec 32).toNat = 2 ^ 8 - 1 := rfl
    rw [BitVec.toNat_and, BitVec.toNat_ushiftRight, hmask, Nat.and_two_pow_sub_one_eq_mod]
    unfold F32.exp
    rw [BitVec.extractLsb_toNat]
  have hmant : (1#32 <<< 23 ||| (a &&& 0x7FFFFF)).toNat = (mant a).toNat := by
    have hmask : (0x7FFFFF : BitVec 32).toNat = 2 ^ 23 - 1 := rfl
    have hlead : (1#32 <<< 23).toNat = 1 <<< 23 := rfl
    have hlt : a.toNat % 2 ^ 23 < 2 ^ 23 := Nat.mod_lt _ (Nat.two_pow_pos 23)
    rw [mant_toNat, BitVec.toNat_or, BitVec.toNat_and, hmask, Nat.and_two_pow_sub_one_eq_mod,
      hlead, ← Nat.shiftLeft_add_eq_or_of_lt hlt]
    unfold frac
    rw [BitVec.extractLsb_toNat]
    rfl
  have hnotMax : ((a >>> 23) &&& 0xFF) ≠ 0xFF := by
    intro heq
    have hnat := congrArg BitVec.toNat heq
    rw [hexp] at hnat
    exact ha.right (BitVec.eq_of_toNat_eq hnat)
  have hnotZero : ((a >>> 23) &&& 0xFF) ≠ 0 := by
    intro heq
    have hnat := congrArg BitVec.toNat heq
    rw [hexp] at hnat
    exact ha.left (BitVec.eq_of_toNat_eq hnat)
  unfold f32Decode
  rw [if_neg hnotMax, if_neg hnotZero]
  show some _ = some _
  rw [hmant, hexp]
  congr 1
  have hsplit : expUnbiased a - 23 = ((F32.exp a).toNat : Int) - 127 + -((23 : Nat) : Int) := by
    unfold expUnbiased
    omega
  rw [hsplit, zpow_add₀ two_ne_zero, zpow_neg, zpow_natCast]
  ring

theorem f32RoundFromSqrt_returns {a : F32} (ha : F32.Normal a) (hsign : a.sign = false)
    (mode : RoundingMode) :
    exists q out,
      (f32Decode a).magnitude = some q ∧
      (forall fuel, 2 <= fuel -> f32RoundFromSqrt fuel false q (modeBits mode) = .ok out) ∧
      F32.Normal out.1 ∧
      (forall u, RoundsTo 24 mode (Real.sqrt (value Real a)) u <-> u = value Real out.1) ∧
      out.2 = if value Real out.1 = Real.sqrt (value Real a) then 0 else fNx := by
  obtain ⟨e, n, cls, hrun, hlow, hhigh, hcut⟩ :=
    normalize_sqrt_spec (mant_low a) (mant a).isLt
      (rfl : ((mant a).toNat : Rat) * 2 ^ (expUnbiased a - 23) = _)
  have hvalue : (((((mant a).toNat : Rat) * 2 ^ (expUnbiased a - 23) : Rat)) : Real)
      = value Real a := by
    rw [value_of_nonzero ha.left, hsign]
    push_cast
    rfl
  rw [hvalue] at hcut
  obtain ⟨v, hrounds, hreturns⟩ := f32PackRounded_returns hlow hhigh hcut false mode
  have hplain : applySign false (Real.sqrt (value Real a)) = Real.sqrt (value Real a) := rfl
  rw [hplain] at hrounds hreturns
  obtain ⟨hfrom, hto⟩ := FSqrt.sqrt_range ha hsign
  have habs : |Real.sqrt (value Real a)| = Real.sqrt (value Real a) :=
    abs_of_nonneg (Real.sqrt_nonneg _)
  rw [← habs] at hfrom hto
  obtain ⟨hmin, hmax⟩ := ((hrounds v).mpr rfl).abs_bounds (by decide) hfrom hto
  obtain ⟨hnormal, hresult, hflags⟩ := hreturns.normal
    (le_trans (zpow_le_zpow_right₀ one_le_two (by decide)) hmin)
    (lt_of_le_of_lt hmax (zpow_lt_zpow_right₀ one_lt_two (by decide)))
  refine ⟨_, _, f32Decode_normal ha, ?_, hnormal, ?_, ?_⟩
  · intro fuel hfuel
    unfold f32RoundFromSqrt
    rw [hrun fuel hfuel]
    rfl
  · rw [hresult]
    exact hrounds
  · rw [hresult]
    exact hflags

/--
Fractions and square roots are rounded once; the loops end after their second test.
-/
theorem iss_rounds (mode : RoundingMode) :
    (forall (sign : Bool) (q : Rat), 0 < q ->
      exists out v,
        (forall fuel, 2 <= fuel ->
          f32RoundFromFraction fuel sign q (modeBits mode) = .ok out) ∧
        (forall u, RoundsTo 24 mode (applySign sign q) u <-> u = v) ∧
        Returns mode (applySign sign q) v out) ∧
    (forall a : F32, F32.Normal a -> a.sign = false ->
      exists q out,
        (f32Decode a).magnitude = some q ∧
        (forall fuel, 2 <= fuel -> f32RoundFromSqrt fuel false q (modeBits mode) = .ok out) ∧
        F32.Normal out.1 ∧
        (forall u, RoundsTo 24 mode (Real.sqrt (value Real a)) u <-> u = value Real out.1) ∧
        out.2 = if value Real out.1 = Real.sqrt (value Real a) then 0 else fNx) :=
  ⟨fun sign _ hq => f32RoundFromFraction_returns hq sign mode,
    fun _ ha hsign => f32RoundFromSqrt_returns ha hsign mode⟩

/--
One third, and the root of two.
-/
theorem iss_rounds_third :
    (exists out v,
      (forall fuel, 2 <= fuel ->
        f32RoundFromFraction fuel true (1 / 3) (modeBits .up) = .ok out) ∧
      (forall u, RoundsTo 24 .up (applySign true (1 / 3 : Rat)) u <-> u = v) ∧
      Returns .up (applySign true (1 / 3)) v out) ∧
    exists q out,
      (f32Decode 0x40000000#32).magnitude = some q ∧
      (forall fuel, 2 <= fuel -> f32RoundFromSqrt fuel false q (modeBits .up) = .ok out) ∧
      F32.Normal out.1 ∧
      (forall u, RoundsTo 24 .up (Real.sqrt (value Real 0x40000000#32)) u <->
        u = value Real out.1) ∧
      out.2 = if value Real out.1 = Real.sqrt (value Real 0x40000000#32) then 0 else fNx :=
  ⟨(iss_rounds .up).left true (1 / 3) (by norm_num),
    (iss_rounds .up).right 0x40000000#32 (by unfold F32.Normal; decide) (by decide)⟩

end Sim
end RvCores
