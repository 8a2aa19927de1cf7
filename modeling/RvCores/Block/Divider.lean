import Mathlib.Data.BitVec

/-!
# Iterative divider

A restoring divider that produces one quotient bit per cycle.  Division by zero
and signed overflow are answered in the cycle after the start.
-/

namespace RvCores
namespace Block

variable {w : Nat}

structure Divider (w : Nat) where
  busy : Bool
  done : Bool
  quotient : BitVec w
  remainder : BitVec w
  r : BitVec w
  q : BitVec w
  d : BitVec w
  count : Nat
  negQuotient : Bool
  negRemainder : Bool

structure DividerIn (w : Nat) where
  start : Bool
  isSigned : Bool
  dividend : BitVec w
  divisor : BitVec w

namespace Divider

def absIf (isSigned : Bool) (x : BitVec w) : BitVec w :=
  if isSigned && x.msb then -x else x

def reset (div : Divider w) : Divider w :=
  { div with busy := false, done := false, quotient := 0, remainder := 0 }

def accepts (div : Divider w) (i : DividerIn w) : Bool :=
  i.start && !div.busy && !div.done

def signedOverflow (i : DividerIn w) : Bool :=
  i.isSigned && decide (i.dividend = BitVec.intMin w) &&
    decide (i.divisor = BitVec.allOnes w)

def begin (div : Divider w) (i : DividerIn w) : Divider w :=
  if i.divisor = 0 then
    { div with quotient := BitVec.allOnes w, remainder := i.dividend, done := true }
  else if signedOverflow i then
    { div with quotient := i.dividend, remainder := 0, done := true }
  else
    { div with
      done := false
      r := 0
      q := absIf i.isSigned i.dividend
      d := absIf i.isSigned i.divisor
      negQuotient := i.isSigned && (i.dividend.msb ^^ i.divisor.msb)
      negRemainder := i.isSigned && i.dividend.msb
      count := 0
      busy := true }

def shiftIn (x : BitVec w) (bit : Bool) : BitVec w :=
  (x <<< 1) ||| BitVec.ofNat w bit.toNat

def iterate (div : Divider w) : Divider w :=
  let rShifted := shiftIn div.r div.q.msb
  let fits := div.d.ule rShifted
  let newR := if fits then rShifted - div.d else rShifted
  let newQ := shiftIn div.q fits
  let last := decide (div.count = w - 1)
  { div with
    r := newR
    q := newQ
    busy := if last then false else div.busy
    done := last
    quotient := if last then if div.negQuotient then -newQ else newQ else div.quotient
    remainder :=
      if last then if div.negRemainder then -newR else newR else div.remainder
    count := div.count + 1 }

def step (div : Divider w) (i : DividerIn w) : Divider w :=
  if div.accepts i then div.begin i
  else if div.busy then div.iterate
  else { div with done := false }

/-!
# Occupancy

The unit is occupied from the cycle after a start to the cycle of the done pulse.
-/

def active (div : Divider w) : Bool := div.busy || div.done

def Exclusive (div : Divider w) : Prop := ¬ (div.busy = true ∧ div.done = true)

theorem step_active (div : Divider w) (i : DividerIn w) :
    (div.step i).active = (div.accepts i || div.busy) := by
  cases haccepts : div.accepts i with
  | true =>
      simp only [step, haccepts, if_true, begin]
      split
      · simp [active]
      · split <;> simp [active]
  | false =>
      cases hbusy : div.busy with
      | true =>
          simp only [step, haccepts, hbusy, Bool.false_eq_true, if_false, if_true]
          by_cases hlast : div.count = w - 1 <;> simp [active, iterate, hlast, hbusy]
      | false => simp [step, haccepts, hbusy, active]

theorem step_exclusive (div : Divider w) (i : DividerIn w) :
    (div.step i).Exclusive := by
  cases haccepts : div.accepts i with
  | true =>
      have hbusy : div.busy = false := by
        simp only [accepts, Bool.and_eq_true, Bool.not_eq_true'] at haccepts
        exact haccepts.left.right
      simp only [step, haccepts, if_true, begin]
      split
      · simp [Exclusive, hbusy]
      · split <;> simp [Exclusive, hbusy]
  | false =>
      cases hbusy : div.busy with
      | true =>
          simp only [step, haccepts, hbusy, Bool.false_eq_true, if_false, if_true]
          by_cases hlast : div.count = w - 1 <;> simp [Exclusive, iterate, hlast]
      | false => simp [step, haccepts, hbusy, Exclusive]

end Divider
end Block
end RvCores
