import RvCores.Cache.LineArray

/-!
# The prefetch predictor

It looks at the line addresses of misses and predicts the next one: the following
line, or the last one advanced by a stride that has repeated.
-/

namespace RvCores
namespace Cache

variable {w : Nat}

inductive PrefetchMode where
  | off
  | nextLine
  | stride
  | stream
deriving DecidableEq, Repr

def streamConfirmRun : BitVec 8 := 2

structure Prefetcher (w : Nat) where
  haveLastR : Bool
  lastAddrR : BitVec w
  haveStrideR : Bool
  lastStrideR : BitVec w
  strideConfirmedR : Bool
  runCountR : BitVec 8

namespace Prefetcher

variable (lineBytes : Nat) (mode : PrefetchMode) (p : Prefetcher w)

def reset : Prefetcher w :=
  { haveLastR := false, lastAddrR := 0, haveStrideR := false, lastStrideR := 0
    strideConfirmedR := false, runCountR := 0 }

def observedStride (updateAddr : BitVec w) : BitVec w := updateAddr - p.lastAddrR

def confirms (updateAddr : BitVec w) : Bool :=
  p.haveStrideR && p.observedStride updateAddr == p.lastStrideR &&
    p.observedStride updateAddr != 0

def step (updateValid : Bool) (updateAddr : BitVec w) : Prefetcher w :=
  if updateValid then
    let advanced :=
      if p.haveLastR then
        { p with
          strideConfirmedR := p.confirms updateAddr
          runCountR := if p.confirms updateAddr then p.runCountR + 1 else 0
          lastStrideR := p.observedStride updateAddr
          haveStrideR := true }
      else p
    { advanced with lastAddrR := updateAddr, haveLastR := true }
  else p

def pfValid : Bool :=
  match mode with
  | .off => false
  | .nextLine => p.haveLastR
  | .stride => p.strideConfirmedR
  | .stream => decide (streamConfirmRun <= p.runCountR)

def pfAddr : BitVec w :=
  match mode with
  | .nextLine => p.lastAddrR + BitVec.ofNat w lineBytes
  | _ => p.lastAddrR + p.lastStrideR

end Prefetcher
end Cache
end RvCores
