import Mathlib.Data.BitVec

/-!
# Single-precision arithmetic

The combinational unit and the two iterative units work on 32-bit operands.
Operands with a zero exponent field count as signed zeros, and a result whose
exponent falls below the normal range is flushed to a signed zero.  Exponents
are kept unbiased; the ten-bit registers of the source never overflow.
-/

namespace RvCores
namespace Block

abbrev F32 := BitVec 32

structure FpFlags where
  nv : Bool := false
  dz : Bool := false
  of : Bool := false
  uf : Bool := false
  nx : Bool := false
deriving DecidableEq, Repr

structure FpOut where
  result : F32
  flags : FpFlags := {}

def rmRne : BitVec 3 := 0b000
def rmRtz : BitVec 3 := 0b001
def rmRdn : BitVec 3 := 0b010
def rmRup : BitVec 3 := 0b011
def rmRmm : BitVec 3 := 0b100
def rmDyn : BitVec 3 := 0b111

def funct5Fadd : BitVec 5 := 0b00000
def funct5Fsub : BitVec 5 := 0b00001
def funct5Fmul : BitVec 5 := 0b00010
def funct5Fdiv : BitVec 5 := 0b00011
def funct5Fsqrt : BitVec 5 := 0b01011
def funct5Fsgnj : BitVec 5 := 0b00100
def funct5Fminmax : BitVec 5 := 0b00101
def funct5FcvtSW : BitVec 5 := 0b11010
def funct5FmvWX : BitVec 5 := 0b11110

namespace F32

def sign (x : F32) : Bool := x.getLsbD 31
def exp (x : F32) : BitVec 8 := x.extractLsb 30 23
def frac (x : F32) : BitVec 23 := x.extractLsb 22 0
def expUnbiased (x : F32) : Int := (F32.exp x).toNat - 127
def mant (x : F32) : BitVec 24 := 1#1 ++ F32.frac x

def isNan (x : F32) : Bool := decide (F32.exp x = 0xFF) && decide (F32.frac x ≠ 0)
def isSnan (x : F32) : Bool := isNan x && !x.getLsbD 22
def isInf (x : F32) : Bool := decide (F32.exp x = 0xFF) && decide (F32.frac x = 0)
def isZeroArith (x : F32) : Bool := decide (F32.exp x = 0)

def canonicalNan : F32 := 0x7FC00000

def build (sign : Bool) (exp : BitVec 8) (frac : BitVec 23) : F32 :=
  (BitVec.ofBool sign ++ exp ++ frac)

def zero (sign : Bool) : F32 := build sign 0 0
def inf (sign : Bool) : F32 := build sign 0xFF 0

end F32

open F32

/-!
# Rounding
-/

structure Packed where
  of : Bool
  uf : Bool
  nx : Bool
  result : F32

def Packed.out (p : Packed) : FpOut :=
  { result := p.result, flags := { of := p.of, uf := p.uf, nx := p.nx } }

def roundUp (rm : BitVec 3) (sign guard roundBit sticky lsb : Bool) : Bool :=
  if rm = rmRtz then false
  else if rm = rmRdn then sign && (guard || roundBit || sticky)
  else if rm = rmRup then !sign && (guard || roundBit || sticky)
  else if rm = rmRmm then guard
  else guard && (roundBit || sticky || lsb)

def overflowsToMax (rm : BitVec 3) (sign : Bool) : Bool :=
  decide (rm = rmRtz) || (decide (rm = rmRdn) && !sign) || (decide (rm = rmRup) && sign)

def roundAndPack (sign : Bool) (expUnbiased : Int) (sig : BitVec 25)
    (guard roundBit sticky : Bool) (rm : BitVec 3) : Packed :=
  let wide := sig.getLsbD 24
  let st := if wide then sticky || roundBit else sticky
  let r := if wide then guard else roundBit
  let g := if wide then sig.getLsbD 0 else guard
  let s := if wide then sig >>> 1 else sig
  let e := if wide then expUnbiased + 1 else expUnbiased
  let up := roundUp rm sign g r st (s.getLsbD 0)
  let nx := g || r || st
  let s1 := if up then s + 1 else s
  let carry := up && s1.getLsbD 24
  let s2 := if carry then s1 >>> 1 else s1
  let e2 := if carry then e + 1 else e
  if e2 > 127 then
    { of := true
      uf := false
      nx := true
      result :=
        if overflowsToMax rm sign then build sign 0xFE 0x7FFFFF else F32.inf sign }
  else if e2 < -126 ∨ s2.setWidth 24 = 0 then
    { of := false
      uf := decide (e2 < -126) && decide (s2.setWidth 24 ≠ 0)
      nx := nx
      result := F32.zero sign }
  else
    { of := false
      uf := false
      nx := nx
      result := build sign (BitVec.ofInt 8 (e2 + 127)) (s2.setWidth 23) }

def shiftRightSticky (sig : BitVec 27) (amt : Int) : BitVec 27 :=
  if amt <= 0 then sig
  else if amt >= 27 then BitVec.ofNat 27 (decide (sig ≠ 0)).toNat
  else
    let sticky := (List.range amt.toNat).any sig.getLsbD
    (sig >>> amt.toNat) ||| BitVec.ofNat 27 sticky.toNat

/--
Left-normalise until the given bit is set, at most `fuel` times.
-/
def normalize {n : Nat} (top : Nat) : Nat -> BitVec n -> BitVec n × Nat
  | 0, x => (x, 0)
  | fuel + 1, x =>
      if x.getLsbD top then (x, 0)
      else
        let rest := normalize top fuel (x <<< 1)
        (rest.1, rest.2 + 1)

/-!
# Combinational operations
-/

def nanFlags (a b : F32) : FpFlags := { nv := isSnan a || isSnan b }

def addGeneral (a b : F32) (signB : Bool) (rm : BitVec 3) : FpOut :=
  let ea := expUnbiased a
  let eb := expUnbiased b
  let swap :=
    if ea = eb then decide (mant b > mant a) else decide (eb > ea)
  let bigAl : BitVec 27 := (if swap then mant b else mant a) ++ 0#3
  let smallMant : BitVec 27 := (if swap then mant a else mant b) ++ 0#3
  let expDiff := if swap then eb - ea else ea - eb
  let smallAl := shiftRightSticky smallMant expDiff
  let resultExp := if swap then eb else ea
  let resultSign := if swap then signB else a.sign
  let sum : BitVec 28 :=
    if a.sign = signB then bigAl.setWidth 28 + smallAl.setWidth 28
    else bigAl.setWidth 28 - smallAl.setWidth 28
  if sum = 0 then { result := F32.zero (decide (rm = rmRdn)) }
  else
    let renorm := !sum.getLsbD 27 && !sum.getLsbD 26
    let shifted := if renorm then normalize 26 27 sum else (sum, 0)
    (roundAndPack resultSign (resultExp - shifted.2) (shifted.1.extractLsb 27 3)
      (shifted.1.getLsbD 2) (shifted.1.getLsbD 1) (shifted.1.getLsbD 0) rm).out

def addSub (a b : F32) (isSub : Bool) (rm : BitVec 3) : FpOut :=
  let signB := b.sign ^^ isSub
  if isNan a || isNan b then { result := canonicalNan, flags := nanFlags a b }
  else if isInf a && isInf b && (a.sign ^^ signB) then
    { result := canonicalNan, flags := { nv := true } }
  else if isInf a then { result := F32.inf a.sign }
  else if isInf b then { result := F32.inf signB }
  else if isZeroArith a && isZeroArith b then
    if a.sign = signB then { result := F32.zero a.sign }
    else { result := F32.zero (decide (rm = rmRdn)) }
  else if isZeroArith a then { result := build signB (F32.exp b) (frac b) }
  else if isZeroArith b then { result := a }
  else addGeneral a b signB rm

def mulGeneral (a b : F32) (rm : BitVec 3) : FpOut :=
  let product : BitVec 48 := (mant a).setWidth 48 * (mant b).setWidth 48
  let sign := a.sign ^^ b.sign
  let e := expUnbiased a + expUnbiased b
  if product.getLsbD 47 then
    (roundAndPack sign (e + 1) (0#1 ++ (product.extractLsb 47 24 : BitVec 24))
      (product.getLsbD 23) (product.getLsbD 22)
      (decide ((product.extractLsb 21 0 : BitVec 22) ≠ 0)) rm).out
  else
    (roundAndPack sign e (0#1 ++ (product.extractLsb 46 23 : BitVec 24))
      (product.getLsbD 22) (product.getLsbD 21)
      (decide ((product.extractLsb 20 0 : BitVec 21) ≠ 0)) rm).out

def mul (a b : F32) (rm : BitVec 3) : FpOut :=
  let sign := a.sign ^^ b.sign
  if isNan a || isNan b then { result := canonicalNan, flags := nanFlags a b }
  else if (isInf a && isZeroArith b) || (isZeroArith a && isInf b) then
    { result := canonicalNan, flags := { nv := true } }
  else if isInf a || isInf b then { result := F32.inf sign }
  else if isZeroArith a || isZeroArith b then { result := F32.zero sign }
  else mulGeneral a b rm

def sgnj (a b : F32) (funct3 : BitVec 3) : FpOut :=
  let sign :=
    if funct3 = 0b000 then b.sign
    else if funct3 = 0b001 then !b.sign
    else if funct3 = 0b010 then a.sign ^^ b.sign
    else a.sign
  { result := build sign (F32.exp a) (frac a) }

def magLt (a b : F32) : Bool := decide (a.setWidth 31 < b.setWidth 31)

def minmax (a b : F32) (funct3 : BitVec 3) : FpOut :=
  if isNan a && isNan b then { result := canonicalNan, flags := nanFlags a b }
  else if isNan a then { result := b, flags := { nv := isSnan a } }
  else if isNan b then { result := a, flags := { nv := isSnan b } }
  else
    let aLtB :=
      if isZeroArith a && isZeroArith b then
        (isZeroArith a && a.sign) && !(isZeroArith b && b.sign)
      else if a.sign ^^ b.sign then a.sign
      else if a.sign then magLt b a
      else magLt a b
    if funct3 = 0b000 then { result := if aLtB then a else b }
    else { result := if aLtB then b else a }

def cmp (a b : F32) (funct3 : BitVec 3) : FpOut :=
  if isNan a || isNan b then
    { result := 0
      flags :=
        if funct3 = 0b010 then nanFlags a b else { nv := isNan a || isNan b } }
  else
    let bothZero := isZeroArith a && isZeroArith b
    let eq := if bothZero then true else decide (a = b)
    let lt :=
      if bothZero then false
      else if a.sign ^^ b.sign then a.sign
      else if a.sign then magLt b a
      else magLt a b
    let bit :=
      if funct3 = 0b010 then eq
      else if funct3 = 0b001 then lt
      else if funct3 = 0b000 then lt || eq
      else false
    { result := BitVec.ofNat 32 bit.toNat }

def fclass (a : F32) : FpOut :=
  let subnormalOrZero := decide (F32.exp a = 0)
  let special := decide (F32.exp a = 0xFF)
  let fracZero := decide (frac a = 0)
  let position :=
    if special && fracZero && a.sign then 0
    else if !subnormalOrZero && !special && a.sign then 1
    else if subnormalOrZero && !fracZero && a.sign then 2
    else if subnormalOrZero && fracZero && a.sign then 3
    else if subnormalOrZero && fracZero && !a.sign then 4
    else if subnormalOrZero && !fracZero && !a.sign then 5
    else if !subnormalOrZero && !special && !a.sign then 6
    else if special && fracZero && !a.sign then 7
    else if special && !fracZero && !a.getLsbD 22 then 8
    else 9
  { result := 1#32 <<< position }

def cvtSaturated (sign unsigned : Bool) : F32 :=
  if unsigned then if sign then 0x00000000 else 0xFFFFFFFF
  else if sign then 0x80000000 else 0x7FFFFFFF

def cvtToInt (a : F32) (rs2Sel : BitVec 5) (rm : BitVec 3) : FpOut :=
  let unsigned := decide (rs2Sel = 0b00001)
  let e := expUnbiased a
  if isNan a then
    { result := if unsigned then 0xFFFFFFFF else 0x7FFFFFFF, flags := { nv := true } }
  else if isZeroArith a then { result := 0 }
  else if isInf a || decide (e > 31) then
    { result := cvtSaturated a.sign unsigned, flags := { nv := true } }
  else
    let shifted := shiftRightSticky (mant a ++ 0#3) (23 - e)
    let exact := decide (e >= 23)
    let truncated : BitVec 64 :=
      if exact then (mant a).setWidth 64 <<< (e - 23).toNat
      else (shifted.extractLsb 26 3).setWidth 64
    let guard := !exact && shifted.getLsbD 2
    let roundBit := !exact && shifted.getLsbD 1
    let sticky := !exact && shifted.getLsbD 0
    let up := roundUp rm a.sign guard roundBit sticky (truncated.getLsbD 0)
    let magnitude := if up then truncated + 1 else truncated
    let outOfRange :=
      if unsigned then
        (a.sign && decide (magnitude ≠ 0)) || decide (magnitude > 0xFFFFFFFF)
      else
        (!a.sign && decide (magnitude > 0x7FFFFFFF)) ||
          (a.sign && decide (magnitude > 0x80000000))
    if outOfRange then
      { result := cvtSaturated a.sign unsigned, flags := { nv := true } }
    else
      { result := if a.sign then -(magnitude.setWidth 32) else magnitude.setWidth 32
        flags := { nx := guard || roundBit || sticky } }

def cvtFromInt (a : BitVec 32) (rs2Sel : BitVec 5) (rm : BitVec 3) : FpOut :=
  if a = 0 then { result := 0 }
  else
    let unsigned := decide (rs2Sel = 0b00001)
    let sign := !unsigned && a.getLsbD 31
    let magnitude := if sign then -a else a
    let norm := normalize 31 31 magnitude
    (roundAndPack sign (31 - norm.2) (0#1 ++ (norm.1.extractLsb 31 8 : BitVec 24))
      (norm.1.getLsbD 7) (norm.1.getLsbD 6)
      (decide ((norm.1.extractLsb 5 0 : BitVec 6) ≠ 0)) rm).out

def falu (funct5 : BitVec 5) (funct3 : BitVec 3) (rs2Sel : BitVec 5) (a b : F32) :
    FpOut :=
  if funct5 = funct5Fadd then addSub a b false funct3
  else if funct5 = funct5Fsub then addSub a b true funct3
  else if funct5 = funct5Fmul then mul a b funct3
  else if funct5 = funct5Fsgnj then sgnj a b funct3
  else if funct5 = funct5Fminmax then minmax a b funct3
  else if funct5 = 0b10100 then cmp a b funct3
  else if funct5 = 0b11000 then cvtToInt a rs2Sel funct3
  else if funct5 = funct5FcvtSW then cvtFromInt a rs2Sel funct3
  else if funct5 = 0b11100 then
    if funct3 = 0b001 then fclass a else { result := a }
  else if funct5 = funct5FmvWX then { result := a }
  else { result := 0 }

/-!
# Iterative division
-/

structure FDivider where
  busy : Bool
  done : Bool
  result : F32
  flags : FpFlags
  r : BitVec 25
  q : BitVec 51
  d : BitVec 24
  count : Nat
  resultSign : Bool
  expA : Int
  expB : Int

structure FDividerIn where
  start : Bool
  rm : BitVec 3
  a : F32
  b : F32

namespace FDivider

def reset (div : FDivider) : FDivider :=
  { div with busy := false, done := false, result := 0, flags := {} }

def special? (a b : F32) : Option FpOut :=
  let sign := a.sign ^^ b.sign
  if isNan a || isNan b then
    some { result := canonicalNan, flags := nanFlags a b }
  else if isInf a && isInf b then
    some { result := canonicalNan, flags := { nv := true } }
  else if isZeroArith a && isZeroArith b then
    some { result := canonicalNan, flags := { nv := true } }
  else if isInf a then some { result := F32.inf sign }
  else if isInf b then some { result := F32.zero sign }
  else if isZeroArith b then some { result := F32.inf sign, flags := { dz := true } }
  else if isZeroArith a then some { result := F32.zero sign }
  else none

def begin (div : FDivider) (i : FDividerIn) : FDivider :=
  match special? i.a i.b with
  | some out => { div with done := true, result := out.result, flags := out.flags }
  | none =>
      { div with
        done := false
        flags := {}
        resultSign := i.a.sign ^^ i.b.sign
        expA := expUnbiased i.a
        expB := expUnbiased i.b
        r := 0
        q := mant i.a ++ 0#27
        d := mant i.b
        count := 0
        busy := true }

def packQuotient (div : FDivider) (newQ : BitVec 51) (newR : BitVec 25)
    (rm : BitVec 3) : Packed :=
  let inexact := decide (newR ≠ 0)
  if newQ.getLsbD 27 then
    roundAndPack div.resultSign (div.expA - div.expB)
      (0#1 ++ (newQ.extractLsb 27 4 : BitVec 24)) (newQ.getLsbD 3) (newQ.getLsbD 2)
      (newQ.getLsbD 1 || newQ.getLsbD 0 || inexact) rm
  else
    roundAndPack div.resultSign (div.expA - div.expB - 1)
      (0#1 ++ (newQ.extractLsb 26 3 : BitVec 24)) (newQ.getLsbD 2) (newQ.getLsbD 1)
      (newQ.getLsbD 0 || inexact) rm

/--
The rounding mode is the one on the port in the last iteration.
-/
def iterate (div : FDivider) (rm : BitVec 3) : FDivider :=
  let rShifted : BitVec 25 := (div.r <<< 1) ||| BitVec.ofNat 25 (div.q.getLsbD 50).toNat
  let fits := decide (div.d.setWidth 25 <= rShifted)
  let newR := if fits then rShifted - div.d.setWidth 25 else rShifted
  let newQ := (div.q <<< 1) ||| BitVec.ofNat 51 fits.toNat
  let last := decide (div.count = 50)
  let packed := div.packQuotient newQ newR rm
  { div with
    r := newR
    q := newQ
    busy := if last then false else div.busy
    done := last
    result := if last then packed.result else div.result
    flags :=
      if last then
        { div.flags with nv := false, of := packed.of, uf := packed.uf, nx := packed.nx }
      else div.flags
    count := div.count + 1 }

def step (div : FDivider) (i : FDividerIn) : FDivider :=
  if i.start && !div.busy && !div.done then div.begin i
  else if div.busy then div.iterate i.rm
  else { div with done := false }

def active (div : FDivider) : Bool := div.busy || div.done

def Exclusive (div : FDivider) : Prop := ¬ (div.busy = true ∧ div.done = true)

def accepts (div : FDivider) (i : FDividerIn) : Bool := i.start && !div.busy && !div.done

theorem step_active (div : FDivider) (i : FDividerIn) :
    (div.step i).active = (div.accepts i || div.busy) := by
  cases haccepts : div.accepts i with
  | true =>
      have hstart : (i.start && !div.busy && !div.done) = true := haccepts
      simp only [step, hstart, if_true, begin]
      split <;> simp [active]
  | false =>
      have hstart : (i.start && !div.busy && !div.done) = false := haccepts
      cases hbusy : div.busy with
      | true =>
          simp only [step, hbusy, Bool.not_true, Bool.and_false, Bool.false_and,
            Bool.false_eq_true, if_false, if_true]
          by_cases hlast : div.count = 50 <;> simp [active, iterate, hlast, hbusy]
      | false =>
          simp only [hbusy, Bool.not_false, Bool.and_true] at hstart
          simp [step, hstart, hbusy, active]

theorem step_exclusive (div : FDivider) (i : FDividerIn) :
    (div.step i).Exclusive := by
  cases haccepts : div.accepts i with
  | true =>
      have hstart : (i.start && !div.busy && !div.done) = true := haccepts
      have hbusy : div.busy = false := by
        simp only [Bool.and_eq_true, Bool.not_eq_true'] at hstart
        exact hstart.left.right
      simp only [step, hstart, if_true, begin]
      split <;> simp [Exclusive, hbusy]
  | false =>
      have hstart : (i.start && !div.busy && !div.done) = false := haccepts
      cases hbusy : div.busy with
      | true =>
          simp only [step, hbusy, Bool.not_true, Bool.and_false, Bool.false_and,
            Bool.false_eq_true, if_false, if_true]
          by_cases hlast : div.count = 50 <;> simp [Exclusive, iterate, hlast]
      | false =>
          simp only [hbusy, Bool.not_false, Bool.and_true] at hstart
          simp [step, hstart, hbusy, Exclusive]

end FDivider

/-!
# Iterative square root
-/

structure FSqrt where
  busy : Bool
  done : Bool
  result : F32
  flags : FpFlags
  rad : BitVec 52
  r : BitVec 28
  qRoot : BitVec 26
  count : Nat
  resultExp : Int

structure FSqrtIn where
  start : Bool
  rm : BitVec 3
  a : F32

namespace FSqrt

def reset (sqrt : FSqrt) : FSqrt :=
  { sqrt with busy := false, done := false, result := 0, flags := {} }

def special? (a : F32) : Option FpOut :=
  if isNan a then some { result := canonicalNan, flags := { nv := isSnan a } }
  else if isZeroArith a then some { result := a }
  else if a.sign then some { result := canonicalNan, flags := { nv := true } }
  else if isInf a then some { result := a }
  else none

def begin (sqrt : FSqrt) (i : FSqrtIn) : FSqrt :=
  match special? i.a with
  | some out => { sqrt with done := true, result := out.result, flags := out.flags }
  | none =>
      let e := expUnbiased i.a
      let even := decide (e.tmod 2 = 0)
      { sqrt with
        done := false
        flags := {}
        rad := if even then 0#1 ++ mant i.a ++ 0#27 else mant i.a ++ 0#28
        resultExp := if even then e.tdiv 2 else (e - 1).tdiv 2
        r := 0
        qRoot := 0
        count := 0
        busy := true }

def iterate (sqrt : FSqrt) (rm : BitVec 3) : FSqrt :=
  let rShifted : BitVec 28 :=
    (sqrt.r.extractLsb 25 0 : BitVec 26) ++ (sqrt.rad.extractLsb 51 50 : BitVec 2)
  let trial : BitVec 28 := sqrt.qRoot ++ 0b01#2
  let fits := decide (trial <= rShifted)
  let newR := if fits then rShifted - trial else rShifted
  let newQ := (sqrt.qRoot <<< 1) ||| BitVec.ofNat 26 fits.toNat
  let last := decide (sqrt.count = 25)
  let packed :=
    roundAndPack false sqrt.resultExp (0#1 ++ (newQ.extractLsb 25 2 : BitVec 24))
      (newQ.getLsbD 1) (newQ.getLsbD 0) (decide (newR ≠ 0)) rm
  { sqrt with
    r := newR
    qRoot := newQ
    rad := sqrt.rad <<< 2
    busy := if last then false else sqrt.busy
    done := last
    result := if last then packed.result else sqrt.result
    flags :=
      if last then { sqrt.flags with of := packed.of, uf := packed.uf, nx := packed.nx }
      else sqrt.flags
    count := sqrt.count + 1 }

def step (sqrt : FSqrt) (i : FSqrtIn) : FSqrt :=
  if i.start && !sqrt.busy && !sqrt.done then sqrt.begin i
  else if sqrt.busy then sqrt.iterate i.rm
  else { sqrt with done := false }

def active (sqrt : FSqrt) : Bool := sqrt.busy || sqrt.done

def Exclusive (sqrt : FSqrt) : Prop := ¬ (sqrt.busy = true ∧ sqrt.done = true)

def accepts (sqrt : FSqrt) (i : FSqrtIn) : Bool := i.start && !sqrt.busy && !sqrt.done

theorem step_active (sqrt : FSqrt) (i : FSqrtIn) :
    (sqrt.step i).active = (sqrt.accepts i || sqrt.busy) := by
  cases haccepts : sqrt.accepts i with
  | true =>
      have hstart : (i.start && !sqrt.busy && !sqrt.done) = true := haccepts
      simp only [step, hstart, if_true, begin]
      split <;> simp [active]
  | false =>
      have hstart : (i.start && !sqrt.busy && !sqrt.done) = false := haccepts
      cases hbusy : sqrt.busy with
      | true =>
          simp only [step, hbusy, Bool.not_true, Bool.and_false, Bool.false_and,
            Bool.false_eq_true, if_false, if_true]
          by_cases hlast : sqrt.count = 25 <;> simp [active, iterate, hlast, hbusy]
      | false =>
          simp only [hbusy, Bool.not_false, Bool.and_true] at hstart
          simp [step, hstart, hbusy, active]

theorem step_exclusive (sqrt : FSqrt) (i : FSqrtIn) :
    (sqrt.step i).Exclusive := by
  cases haccepts : sqrt.accepts i with
  | true =>
      have hstart : (i.start && !sqrt.busy && !sqrt.done) = true := haccepts
      have hbusy : sqrt.busy = false := by
        simp only [Bool.and_eq_true, Bool.not_eq_true'] at hstart
        exact hstart.left.right
      simp only [step, hstart, if_true, begin]
      split <;> simp [Exclusive, hbusy]
  | false =>
      have hstart : (i.start && !sqrt.busy && !sqrt.done) = false := haccepts
      cases hbusy : sqrt.busy with
      | true =>
          simp only [step, hbusy, Bool.not_true, Bool.and_false, Bool.false_and,
            Bool.false_eq_true, if_false, if_true]
          by_cases hlast : sqrt.count = 25 <;> simp [Exclusive, iterate, hlast]
      | false =>
          simp only [hbusy, Bool.not_false, Bool.and_true] at hstart
          simp [step, hstart, hbusy, Exclusive]

end FSqrt
end Block
end RvCores
