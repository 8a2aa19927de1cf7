import RvCores.Block.Float
import RvCores.Lib.Loop
import Mathlib.Algebra.Order.Field.Rat
import Mathlib.Data.Nat.Size

/-!
# Floats in the reference simulator

The simulator computes with exact fractions and rounds once.  Exponents are searched by
loops, which here may test their condition a given number of times; the square root
asserts that its scaled operand is an integer.
-/

namespace RvCores
namespace Sim

open Block

inductive Stop where
  | outOfFuel
  | assertion
deriving DecidableEq, Repr

inductive RemainderClass where
  | exact
  | below
  | tie
  | above
deriving DecidableEq, Repr

def fNx : BitVec 5 := 0b00001
def fUf : BitVec 5 := 0b00010
def fOf : BitVec 5 := 0b00100

/-!
# Decoding
-/

structure Decoded where
  sign : Bool
  isZero : Bool
  isInf : Bool
  isNan : Bool
  isSnan : Bool
  magnitude : Option Rat

def f32Decode (bits : F32) : Decoded :=
  let sign := bits.getLsbD 31
  let exp := (bits >>> 23) &&& 0xFF
  let mant := bits &&& 0x7FFFFF
  if exp = 0xFF then
    if mant = 0 then
      { sign := sign, isZero := false, isInf := true, isNan := false, isSnan := false
        magnitude := none }
    else
      { sign := sign, isZero := false, isInf := false, isNan := true
        isSnan := !mant.getLsbD 22, magnitude := none }
  else if exp = 0 then
    { sign := sign, isZero := true, isInf := false, isNan := false, isSnan := false
      magnitude := some 0 }
  else
    { sign := sign, isZero := false, isInf := false, isNan := false, isSnan := false
      magnitude :=
        some (((1#32 <<< 23 ||| mant).toNat : Rat) / 2 ^ 23 * 2 ^ ((exp.toNat : Int) - 127)) }

def f32PackZero (sign : Bool) : F32 := BitVec.ofNat 32 sign.toNat <<< 31

/-!
# Rounding and packing
-/

def f32RoundUpDecision (cls : RemainderClass) (sigFloor : Int) (sign : Bool) (rm : BitVec 3) :
    Bool × Bool :=
  if cls = .exact then (false, false)
  else if rm = rmRtz then (false, true)
  else if rm = rmRdn then (sign, true)
  else if rm = rmRup then (!sign, true)
  else if rm = rmRmm then (decide (cls ≠ .below), true)
  else if cls = .above then (true, true)
  else if cls = .below then (false, true)
  else (decide (sigFloor % 2 = 1), true)

def f32PackRounded (sign : Bool) (e sigFloor : Int) (cls : RemainderClass) (rm : BitVec 3) :
    F32 × BitVec 5 :=
  let decision := f32RoundUpDecision cls sigFloor sign rm
  let carry := decision.1 && decide (sigFloor + 1 = 2 ^ 24)
  let sig :=
    if decision.1 then if carry then (sigFloor + 1) / 2 else sigFloor + 1 else sigFloor
  let e := if carry then e + 1 else e
  if e > 127 then
    if rm = rmRtz ∨ (rm = rmRdn ∧ sign = false) ∨ (rm = rmRup ∧ sign = true) then
      (BitVec.ofNat 32 sign.toNat <<< 31 ||| 0xFE#32 <<< 23 ||| 0x7FFFFF, fOf ||| fNx)
    else (BitVec.ofNat 32 sign.toNat <<< 31 ||| 0xFF#32 <<< 23, fOf ||| fNx)
  else if e < -126 then (f32PackZero sign, fUf ||| fNx)
  else
    (BitVec.ofNat 32 sign.toNat <<< 31 ||| BitVec.ofInt 32 (e + 127) <<< 23 |||
        (BitVec.ofInt 32 sig &&& 0x7FFFFF),
      if decision.2 then fNx else 0)

/-!
# Normalising
-/

/--
A loop of the simulator.
-/
def loop {state : Type} (fuel : Nat) (cond : state -> Bool) (body : state -> state) (s : state) :
    Except Stop state :=
  match Lib.whileFuel cond body fuel s with
  | some t => .ok t
  | none => .error .outOfFuel

def bitLength (n : Int) : Int := (Nat.size n.natAbs : Int)

def f32Classify (remainder : Rat) : RemainderClass :=
  if remainder = 0 then .exact
  else if remainder < 1 / 2 then .below
  else if remainder > 1 / 2 then .above
  else .tie

def f32NormalizeFraction (fuel : Nat) (magnitude : Rat) :
    Except Stop (Int × Int × RemainderClass) := do
  let e <- loop fuel (fun e : Int => decide (magnitude >= 2 ^ (e + 1))) (fun e => e + 1)
    (bitLength magnitude.num - bitLength magnitude.den - 1)
  let e <- loop fuel (fun e : Int => decide (magnitude < 2 ^ e)) (fun e => e - 1) e
  let sigExact := magnitude * 2 ^ (23 - e)
  let sigFloor := sigExact.num / sigExact.den
  return (e, sigFloor, f32Classify (sigExact - sigFloor))

def f32SqrtNormalize (fuel : Nat) (magnitude : Rat) :
    Except Stop (Int × Int × RemainderClass) := do
  let e <- loop fuel (fun e : Int => decide (magnitude >= 2 ^ (2 * (e + 1)))) (fun e => e + 1)
    ((bitLength magnitude.num - bitLength magnitude.den) / 2 - 1)
  let e <- loop fuel (fun e : Int => decide (magnitude < 2 ^ (2 * e))) (fun e => e - 1) e
  let scaled := magnitude * 2 ^ (2 * (23 - e))
  if scaled.den = 1 then
    let n := scaled.num
    let sigFloor : Int := Nat.sqrt n.toNat
    let midSq := (2 * sigFloor + 1) ^ 2
    let fourN := 4 * n
    let cls :=
      if sigFloor * sigFloor = n then .exact
      else if fourN < midSq then .below
      else if fourN > midSq then .above
      else .tie
    return (e, sigFloor, cls)
  else throw .assertion

def f32RoundFromFraction (fuel : Nat) (sign : Bool) (magnitude : Rat) (rm : BitVec 3) :
    Except Stop (F32 × BitVec 5) := do
  let (e, sigFloor, cls) <- f32NormalizeFraction fuel magnitude
  return f32PackRounded sign e sigFloor cls rm

def f32RoundFromSqrt (fuel : Nat) (sign : Bool) (magnitude : Rat) (rm : BitVec 3) :
    Except Stop (F32 × BitVec 5) := do
  let (e, sigFloor, cls) <- f32SqrtNormalize fuel magnitude
  return f32PackRounded sign e sigFloor cls rm

end Sim
end RvCores
