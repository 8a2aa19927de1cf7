import Mathlib.Order.Basic
import Mathlib.Tactic.Common

/-!
# Loops

A while loop that may test its condition a given number of times.  A loop whose variant
goes down ends, in a state that satisfies its invariant and not its condition, whatever
more it is given.
-/

namespace RvCores
namespace Lib

variable {state : Type}

def whileFuel (cond : state -> Bool) (body : state -> state) : Nat -> state -> Option state
  | 0, _ => none
  | fuel + 1, s => if cond s then whileFuel cond body fuel (body s) else some s

section

variable {cond : state -> Bool} {body : state -> state} {s t : state} {fuel : Nat}

theorem whileFuel_of_false (h : cond s = false) (hfuel : 0 < fuel) :
    whileFuel cond body fuel s = some s := by
  cases fuel with
  | zero => exact absurd hfuel (Nat.lt_irrefl 0)
  | succ fuel => simp [whileFuel, h]

/--
A loop that has ended is not changed by more.
-/
theorem whileFuel_more {n m : Nat} (h : whileFuel cond body n s = some t) (hle : n <= m) :
    whileFuel cond body m s = some t := by
  induction n generalizing s m with
  | zero => cases h
  | succ n ih =>
      cases m with
      | zero => omega
      | succ m =>
          unfold whileFuel at h ⊢
          cases hcond : cond s with
          | false => simpa [hcond] using h
          | true =>
              rw [hcond, if_pos rfl] at h
              rw [if_pos rfl]
              exact ih h (by omega)

theorem whileFuel_total (inv : state -> Prop) (variant : state -> Nat) (hinv : inv s)
    (hstep : forall u, inv u -> cond u = true -> inv (body u) ∧ variant (body u) < variant u)
    (hfuel : variant s < fuel) :
    exists t, whileFuel cond body fuel s = some t ∧ inv t ∧ cond t = false := by
  induction fuel generalizing s with
  | zero => exact absurd hfuel (Nat.not_lt_zero _)
  | succ fuel ih =>
      cases hcond : cond s with
      | false => exact ⟨s, by simp [whileFuel, hcond], hinv, hcond⟩
      | true =>
          obtain ⟨hinv', hless⟩ := hstep s hinv hcond
          obtain ⟨t, hrun, ht⟩ := ih hinv' (by omega)
          exact ⟨t, by simpa [whileFuel, hcond] using hrun, ht⟩

end

end Lib
end RvCores
