import RvCores.Lib.Run
import Mathlib.Algebra.BigOperators.Group.Finset.Piecewise

/-!
# What a run costs

Every cycle of a clocked system is given a cost, which may depend on the state before
the clock edge and on the inputs of the cycle.  A potential on the states turns a bound
on one cycle into a bound on the cost of a whole run.
-/

namespace RvCores
namespace Lib

variable {state input : Type} {step : state -> input -> state}

def totalCost (step : state -> input -> state) (cost : state -> input -> Nat) :
    state -> List input -> Nat
  | _, [] => 0
  | s, i :: is => cost s i + totalCost step cost (step s i) is

@[simp] theorem totalCost_nil (cost : state -> input -> Nat) (s : state) :
    totalCost step cost s [] = 0 := rfl

theorem totalCost_cons (cost : state -> input -> Nat) (s : state) (i : input)
    (is : List input) :
    totalCost step cost s (i :: is) = cost s i + totalCost step cost (step s i) is := rfl

theorem totalCost_add (cost cost' : state -> input -> Nat) (s : state)
    (is : List input) :
    totalCost step (fun s i => cost s i + cost' s i) s is =
      totalCost step cost s is + totalCost step cost' s is := by
  induction is generalizing s with
  | nil => rfl
  | cons i is ih =>
      rw [totalCost_cons, totalCost_cons, totalCost_cons, ih]
      exact Nat.add_add_add_comm _ _ _ _

theorem totalCost_mul (k : Nat) (cost : state -> input -> Nat) (s : state)
    (is : List input) :
    totalCost step (fun s i => k * cost s i) s is = k * totalCost step cost s is := by
  induction is generalizing s with
  | nil => rfl
  | cons i is ih => rw [totalCost_cons, totalCost_cons, ih, Nat.mul_add]

theorem totalCost_sum (keys : Finset Nat) (cost : Nat -> state -> input -> Nat)
    (s : state) (is : List input) :
    totalCost step (fun s i => keys.sum fun k => cost k s i) s is =
      keys.sum fun k => totalCost step (cost k) s is := by
  induction is generalizing s with
  | nil => exact Finset.sum_const_zero.symm
  | cons i is ih =>
      rw [totalCost_cons, ih, ← Finset.sum_add_distrib]
      rfl

/-!
# The potential rule

The invariant holds in the states that the run goes through.
-/

section Potential

variable {Inv : state -> Prop} {cost gain : state -> input -> Nat} {s : state}

theorem totalCost_add_potential_le (potential : state -> Nat)
    (hkept : forall s i, Inv s -> Inv (step s i))
    (hpays : forall s i, Inv s ->
      cost s i + potential (step s i) <= potential s + gain s i)
    (hinit : Inv s) (is : List input) :
    totalCost step cost s is + potential (run step s is) <=
      potential s + totalCost step gain s is := by
  induction is generalizing s with
  | nil => exact Nat.le_of_eq (Nat.zero_add _)
  | cons i is ih =>
      have hfirst : cost s i + potential (step s i) <= potential s + gain s i :=
        hpays s i hinit
      have hrest := ih (hkept s i hinit)
      rw [totalCost_cons, totalCost_cons]
      change _ + potential (run step (step s i) is) <= _
      omega

theorem totalCost_le_of_potential (potential : state -> Nat)
    (hpays : forall s i, cost s i + potential (step s i) <= potential s + gain s i)
    (s : state) (is : List input) :
    totalCost step cost s is <= potential s + totalCost step gain s is :=
  Nat.le_of_add_right_le
    (@totalCost_add_potential_le _ _ _ (fun _ => True) _ _ _ potential
      (fun _ _ _ => trivial) (fun s i _ => hpays s i) trivial is)

theorem totalCost_congr_of_inv (hkept : forall s i, Inv s -> Inv (step s i))
    (hsame : forall s i, Inv s -> cost s i = gain s i) (hinit : Inv s)
    (is : List input) :
    totalCost step cost s is = totalCost step gain s is := by
  induction is generalizing s with
  | nil => rfl
  | cons i is ih =>
      rw [totalCost_cons, totalCost_cons, hsame s i hinit, ih (hkept s i hinit)]

theorem totalCost_congr (hsame : forall s i, cost s i = gain s i) (s : state)
    (is : List input) :
    totalCost step cost s is = totalCost step gain s is :=
  @totalCost_congr_of_inv _ _ _ (fun _ => True) _ _ _ (fun _ _ _ => trivial)
    (fun s i _ => hsame s i) trivial is

end Potential

/-!
# Costs charged to keys

Every cycle is charged to one of finitely many keys.
-/

def chargedTo (key : state -> input -> Nat) (cost : state -> input -> Nat) (k : Nat)
    (s : state) (i : input) : Nat :=
  if key s i = k then cost s i else 0

theorem sum_chargedTo {n : Nat} {key cost : state -> input -> Nat} {s : state}
    {i : input} (hlt : key s i < n) :
    ((Finset.range n).sum fun k => chargedTo key cost k s i) = cost s i := by
  unfold chargedTo
  rw [Finset.sum_ite_eq, if_pos (Finset.mem_range.mpr hlt)]

theorem totalCost_eq_sum_chargedTo {Inv : state -> Prop} {n : Nat}
    {key cost : state -> input -> Nat} {s : state}
    (hkept : forall s i, Inv s -> Inv (step s i))
    (hlt : forall s i, Inv s -> key s i < n) (hinit : Inv s) (is : List input) :
    totalCost step cost s is =
      (Finset.range n).sum fun k => totalCost step (chargedTo key cost k) s is := by
  rw [← totalCost_sum]
  exact totalCost_congr_of_inv hkept (fun s i hs => (sum_chargedTo (hlt s i hs)).symm)
    hinit is

end Lib
end RvCores
