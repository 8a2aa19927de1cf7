import RvCores.Block.Csr

/-!
# Bits of the status registers

Each masked write of the status registers, bit by bit, and what one clock edge may do
to a register: keep it, or take the value of the one source that is active.
-/

namespace RvCores
namespace Block
namespace Csr

variable {w : Nat}

/-!
# Masks
-/

theorem getLsbD_bitAt (i : Nat) (b : Bool) (k : Nat) :
    (bitAt i b : BitVec w).getLsbD k = (decide (k < w) && decide (k = i) && b) := by
  cases b with
  | false => simp [bitAt]
  | true =>
      by_cases hk : k < w
      · rcases Nat.lt_trichotomy k i with hlt | heq | hgt
        · simp [bitAt, hk, hlt, Nat.ne_of_lt hlt]
        · have hone : (1 : BitVec w).getLsbD 0 = true := by
            simp [BitVec.getLsbD_one]
            omega
          simp [bitAt, heq]
          omega
        · have hsub : k - i ≠ 0 := by omega
          have hnot : ¬ k < i := by omega
          have hne : k ≠ i := by omega
          simp [bitAt, hk, hnot, hne, hsub]
      · simp [hk, BitVec.getLsbD_of_ge _ _ (Nat.le_of_not_lt hk)]

theorem getLsbD_foldl_bitAt (positions : List Nat) (x acc : BitVec w) (k : Nat) :
    (positions.foldl (fun acc i => acc ||| bitAt i (x.getLsbD i)) acc).getLsbD k =
      (acc.getLsbD k || (decide (k ∈ positions) && x.getLsbD k)) := by
  induction positions generalizing acc with
  | nil => simp
  | cons i rest ih =>
      rw [List.foldl_cons, ih, BitVec.getLsbD_or, getLsbD_bitAt]
      by_cases hk : k = i
      · subst hk
        cases hx : x.getLsbD k with
        | false => simp
        | true => simp [BitVec.lt_of_getLsbD hx]
      · simp [hk]

@[simp] theorem getLsbD_keepBits (positions : List Nat) (x : BitVec w) (k : Nat) :
    (keepBits positions x).getLsbD k = (decide (k ∈ positions) && x.getLsbD k) := by
  simp [keepBits, getLsbD_foldl_bitAt]

@[simp] theorem getLsbD_setBit (x : BitVec w) (i : Nat) (b : Bool) (k : Nat) :
    (setBit x i b).getLsbD k =
      if k = i then decide (k < w) && b else x.getLsbD k := by
  have hmask : (1#w <<< i).getLsbD k = (decide (k < w) && decide (k = i)) := by
    have h := getLsbD_bitAt (w := w) i true k
    simpa [bitAt] using h
  rw [setBit, BitVec.getLsbD_or, BitVec.getLsbD_and, BitVec.getLsbD_not, hmask,
    getLsbD_bitAt]
  by_cases hk : k = i
  · by_cases hw : k < w
    · simp [hk]
    · simp [hk, BitVec.getLsbD_of_ge _ _ (Nat.le_of_not_lt (hk ▸ hw))]
  · by_cases hw : k < w
    · simp [hk, hw]
    · simp [hk, BitVec.getLsbD_of_ge _ _ (Nat.le_of_not_lt hw)]

theorem getLsbD_setMpp (x : BitVec w) (mode : BitVec 2) (k : Nat) :
    (setMpp x mode).getLsbD k =
      if k = 12 then decide (k < w) && mode.getLsbD 1
      else if k = 11 then decide (k < w) && mode.getLsbD 0
      else x.getLsbD k := by
  simp [setMpp]

/--
A masked write changes the bits of its mask only.
-/
theorem getLsbD_merge (positions : List Nat) (old new : BitVec w) {k : Nat}
    (hk : k ∉ positions) :
    ((old &&& ~~~(keepBits positions (BitVec.allOnes w))) |||
      keepBits positions new).getLsbD k = old.getLsbD k := by
  rw [BitVec.getLsbD_or, BitVec.getLsbD_and, BitVec.getLsbD_not, getLsbD_keepBits,
    getLsbD_keepBits]
  by_cases hw : k < w
  · simp [hk, hw]
  · simp [hk, BitVec.getLsbD_of_ge _ _ (Nat.le_of_not_lt hw)]

end Csr
end Block
end RvCores
