import Mathlib.Algebra.Group.Nat.Defs
import Mathlib.Logic.Basic

/-!
# One-hot selection

Hardware selects one of several candidates by gating every candidate with its
own select line and joining the results, a chain of or gates in the common case.
The chain picks a candidate only when at most one select line is raised, and
this module states exactly that.
-/

namespace RvCores
namespace Lib

variable {alpha : Type}

def anyUpTo (n : Nat) (hit : Nat -> Bool) : Bool :=
  (List.range n).any hit

theorem anyUpTo_iff {n : Nat} {hit : Nat -> Bool} :
    anyUpTo n hit = true <-> exists k, k < n ∧ hit k = true := by
  simp [anyUpTo]

theorem anyUpTo_eq_false {n : Nat} {hit : Nat -> Bool} :
    anyUpTo n hit = false <-> forall k, k < n -> hit k = false := by
  simp [anyUpTo]

/--
The accumulator chain over the first candidates: a candidate whose select line is
low contributes the neutral value.
-/
def gather (op : alpha -> alpha -> alpha) (zero : alpha) (hit : Nat -> Bool)
    (value : Nat -> alpha) : Nat -> alpha
  | 0 => zero
  | k + 1 => op (gather op zero hit value k) (if hit k then value k else zero)

section

variable {op : alpha -> alpha -> alpha} {zero : alpha} {hit : Nat -> Bool}
  {value : Nat -> alpha}

theorem gather_of_none [Std.LawfulIdentity op zero] {n : Nat}
    (hnone : forall k, k < n -> hit k = false) :
    gather op zero hit value n = zero := by
  induction n with
  | zero => rfl
  | succ n ih =>
      have hrest := ih (fun k hk => hnone k (Nat.lt_succ_of_lt hk))
      unfold gather
      rw [hrest, hnone n (Nat.lt_succ_self n), if_neg Bool.false_ne_true]
      exact Std.LawfulLeftIdentity.left_id zero

theorem gather_of_unique [Std.LawfulIdentity op zero] {n k : Nat} (hk : k < n)
    (hhit : hit k = true) (honly : forall j, j < n -> hit j = true -> j = k) :
    gather op zero hit value n = value k := by
  induction n with
  | zero => exact absurd hk (Nat.not_lt_zero k)
  | succ n ih =>
      unfold gather
      rcases Nat.lt_succ_iff_lt_or_eq.mp hk with hlt | heq
      · have hrest := ih hlt (fun j hj => honly j (Nat.lt_succ_of_lt hj))
        have hlast : hit n ≠ true := by
          intro hn
          exact absurd (honly n (Nat.lt_succ_self n) hn) (Nat.ne_of_gt hlt)
        rw [hrest, if_neg hlast]
        exact Std.LawfulRightIdentity.right_id (value k)
      · subst heq
        have hrest : gather op zero hit value k = zero := by
          apply gather_of_none
          intro j hj
          cases hjhit : hit j with
          | false => rfl
          | true => exact absurd (honly j (Nat.lt_succ_of_lt hj) hjhit) (Nat.ne_of_lt hj)
        rw [hrest, if_pos hhit]
        exact Std.LawfulLeftIdentity.left_id (value k)

/--
Several raised select lines do no harm if they all select the same value.
-/
theorem gather_of_same [Std.LawfulIdentity op zero] [Std.IdempotentOp op] {n k : Nat}
    {x : alpha} (hk : k < n) (hhit : hit k = true)
    (hsame : forall j, j < n -> hit j = true -> value j = x) :
    gather op zero hit value n = x := by
  have hprefix : forall m, m <= n ->
      gather op zero hit value m = x ∨
        gather op zero hit value m = zero ∧ forall j, j < m -> hit j = false := by
    intro m
    induction m with
    | zero =>
        intro _
        exact Or.inr ⟨rfl, fun j hj => absurd hj (Nat.not_lt_zero j)⟩
    | succ m ih =>
        intro hm
        have hlt : m < n := hm
        unfold gather
        cases hhit : hit m with
        | true =>
            left
            rw [if_pos rfl, hsame m hlt hhit]
            rcases ih (Nat.le_of_lt hlt) with hx | ⟨hzero, _⟩
            · rw [hx]
              exact Std.IdempotentOp.idempotent x
            · rw [hzero]
              exact Std.LawfulLeftIdentity.left_id x
        | false =>
            rw [if_neg Bool.false_ne_true]
            rcases ih (Nat.le_of_lt hlt) with hx | ⟨hzero, hnone⟩
            · left
              rw [hx]
              exact Std.LawfulRightIdentity.right_id x
            · right
              rw [hzero]
              refine ⟨Std.LawfulRightIdentity.right_id zero, ?_⟩
              intro j hj
              rcases Nat.lt_succ_iff_lt_or_eq.mp hj with hj | rfl
              · exact hnone j hj
              · exact hhit
  rcases hprefix n (Nat.le_refl n) with hx | ⟨_, hnone⟩
  · exact hx
  · rw [hnone k hk] at hhit
    cases hhit

/--
A property of the neutral value that the gate keeps holds of the whole chain as
soon as every candidate has it.
-/
theorem gather_induct {p : alpha -> Prop} (hzero : p zero)
    (hop : forall x y, p x -> p y -> p (op x y)) {n : Nat}
    (hvalue : forall k, k < n -> p (value k)) :
    p (gather op zero hit value n) := by
  induction n with
  | zero => exact hzero
  | succ n ih =>
      unfold gather
      apply hop
      · exact ih (fun k hk => hvalue k (Nat.lt_succ_of_lt hk))
      · cases hit n with
        | false => exact hzero
        | true => exact hvalue n (Nat.lt_succ_self n)

end

/-!
# The gates in use
-/

def orNat : (Nat -> Bool) -> (Nat -> Nat) -> Nat -> Nat := gather (· ||| ·) 0

def orBits {w : Nat} : (Nat -> Bool) -> (Nat -> BitVec w) -> Nat -> BitVec w :=
  gather (· ||| ·) 0

instance lawfulIdentity_orNat : Std.LawfulIdentity (fun x y : Nat => x ||| y) 0 where
  left_id := Nat.zero_or
  right_id := Nat.or_zero

instance lawfulIdentity_orBits {w : Nat} :
    Std.LawfulIdentity (fun x y : BitVec w => x ||| y) 0 where
  left_id _ := BitVec.zero_or
  right_id _ := BitVec.or_zero

instance idempotentOp_orBits {w : Nat} : Std.IdempotentOp (fun x y : BitVec w => x ||| y) where
  idempotent _ := BitVec.or_self

theorem orBits_of_same {w : Nat} {hit : Nat -> Bool} {value : Nat -> BitVec w} {n k : Nat}
    {x : BitVec w} (hk : k < n) (hhit : hit k = true)
    (hsame : forall j, j < n -> hit j = true -> value j = x) :
    orBits hit value n = x :=
  gather_of_same hk hhit hsame

theorem orNat_of_unique {hit : Nat -> Bool} {value : Nat -> Nat} {n k : Nat} (hk : k < n)
    (hhit : hit k = true) (honly : forall j, j < n -> hit j = true -> j = k) :
    orNat hit value n = value k :=
  gather_of_unique hk hhit honly

theorem orBits_of_unique {w : Nat} {hit : Nat -> Bool} {value : Nat -> BitVec w}
    {n k : Nat} (hk : k < n) (hhit : hit k = true)
    (honly : forall j, j < n -> hit j = true -> j = k) :
    orBits hit value n = value k :=
  gather_of_unique hk hhit honly

theorem orNat_lt_two_pow {hit : Nat -> Bool} {value : Nat -> Nat} {n bits : Nat}
    (hvalue : forall k, k < n -> value k < 2 ^ bits) :
    orNat hit value n < 2 ^ bits :=
  gather_induct (p := fun x => x < 2 ^ bits) (Nat.two_pow_pos bits)
    (fun _ _ => Nat.or_lt_two_pow) hvalue

end Lib
end RvCores
