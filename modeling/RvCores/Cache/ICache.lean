import RvCores.Block.RamPort
import RvCores.Cache.Prefetcher
import RvCores.Cache.VictimCache

/-!
# The instruction cache

A set-associative cache that is only read.  The lookup is combinational and looks
at the address of the fetch in every cycle.  A miss, or a prediction of the
prefetcher while fetch hits, starts a fill, which reads the line word by word and
makes it valid with its last word.  The words come from a private instruction memory
or over a port from the second-level cache.
-/

namespace RvCores
namespace Cache

open Isa Lib Block

/--
The tag of the victim buffer is the line address; with a single set the source cuts
its top bits off.
-/
structure ICacheConfig (w : Nat) extends Geometry where
  victimEntries : Nat
  memLatency : Nat
  l2Enable : Bool
  prefetchMode : PrefetchMode
  imem : InstructionMemory
  fits : setBits + wordBits + 2 < w
  several : setBits = 0 -> victimEntries = 0

structure ICacheIn (w : Nat) where
  readAddr : BitVec w
  probeReq : Bool := false
  probeAddr : BitVec w := 0
  mAck : Bool := false
  mDataI : Word := 0
deriving DecidableEq

inductive ICacheState where
  | idle
  | fill
deriving DecidableEq, Repr

/--
The dirty bits of the line array and of the victim buffer are unused.
-/
structure ICache (w : Nat) where
  array : LineArray
  vc : VictimCache
  prefetcher : Prefetcher w
  fillLatency : MemoryLatencyModel
  state : ICacheState
  fillBaseR : BitVec w
  fillSetR : Nat
  fillTagR : Nat
  fillWayR : Nat
  fillWordR : Nat
  busyR : Bool
  doneR : Bool

namespace ICache

variable {w : Nat} (cfg : ICacheConfig w) (c : ICache w) (i : ICacheIn w)

/-!
# Lookup
-/

def addr : Nat := i.readAddr.toNat

def lineBaseOf (a : Nat) : BitVec w := BitVec.ofNat w (cfg.lineBase (cfg.lineAddr a))

def hitMain : Bool := c.array.hitMain cfg.toGeometry (addr i)

def hitLineIdx : Nat := c.array.hitLineIdx cfg.toGeometry (addr i)

def vcLookupHit : Bool :=
  cfg.victimEntries != 0 && c.vc.lookupHit cfg.victimEntries (cfg.lineAddr (addr i))

def vcLookupData (word : Nat) : Word :=
  c.vc.lookupData cfg.victimEntries (cfg.lineAddr (addr i)) word

def hit : Bool := c.hitMain cfg i || c.vcLookupHit cfg i

def inst : Word :=
  if c.hitMain cfg i then c.array.hitData cfg.toGeometry (addr i)
  else c.vcLookupData cfg i (cfg.wordOff (addr i))

def setIdx : Nat := cfg.toGeometry.setIdx (addr i)

def victimTargetWay : Nat := c.array.victimTargetWay cfg.toGeometry (setIdx cfg i)

def victimLine : Nat := c.array.victimLine cfg.toGeometry (addr i)

/-!
# The victim buffer
-/

def vcDoSwap : Bool := c.state == .idle && !c.hitMain cfg i && c.vcLookupHit cfg i

def vcDoInsert : Bool :=
  c.state == .idle && !c.hitMain cfg i && !c.vcLookupHit cfg i &&
    c.array.valid (c.victimLine cfg i)

def outgoingLine : OutgoingLine :=
  { tag := c.array.lineAddr cfg.toGeometry (c.victimLine cfg i)
    dirty := false
    data := fun word => c.array.data (c.victimLine cfg i, word) }

def nextVc : VictimCache :=
  if cfg.victimEntries = 0 then c.vc
  else c.vc.step cfg.victimEntries (cfg.lineAddr (addr i)) (c.vcDoSwap cfg i)
    (c.vcDoInsert cfg i) (c.outgoingLine cfg i)

/-!
# Prefetching
-/

def genuineMiss : Bool := c.state == .idle && !c.hitMain cfg i && !c.vcLookupHit cfg i

def nextPrefetcher : Prefetcher w :=
  c.prefetcher.step (c.genuineMiss cfg i) (lineBaseOf cfg (addr i))

def pfAddr : BitVec w := c.prefetcher.pfAddr cfg.lineBytes cfg.prefetchMode

def pfFound : Bool := c.array.hitMain cfg.toGeometry (c.pfAddr cfg).toNat

def prefetchFire : Bool :=
  cfg.prefetchMode != .off && cfg.l2Enable && c.prefetcher.pfValid cfg.prefetchMode &&
    !c.pfFound cfg &&
    decide ((c.pfAddr cfg).toNat <= cfg.imem.sizeBytes - cfg.lineBytes)

/-!
# The words of a fill
-/

def imemAddr : BitVec w := c.fillBaseR + BitVec.ofNat w (4 * c.fillWordR)

def latencyStart : Bool := c.state == .fill && !c.fillLatency.busyR

def fillwordReady : Bool :=
  if cfg.l2Enable then i.mAck
  else if cfg.memLatency = 0 then true
  else c.fillLatency.done cfg.memLatency c.latencyStart

def imemData : Word := if cfg.l2Enable then i.mDataI else cfg.imem.inst c.imemAddr

def mCyc : Bool := cfg.l2Enable && c.state == .fill
def mAddr : BitVec w := if cfg.l2Enable then c.imemAddr else 0

def fillLine : Nat := cfg.lineIdx c.fillSetR c.fillWayR

def fills : Bool := c.state == .fill && c.fillwordReady cfg i

def completes : Bool := c.fills cfg i && c.fillWordR == cfg.lineWords - 1

/-!
# The line array

An inclusion probe takes a line away in any state.  Two touches of one set in one
cycle both start from the old ages, and the one of the fill overrides the other.
-/

def probedValid : Nat -> Bool :=
  if i.probeReq && c.array.hitMain cfg.toGeometry i.probeAddr.toNat then
    setAt c.array.valid (c.array.hitLineIdx cfg.toGeometry i.probeAddr.toNat) false
  else c.array.valid

def fetchedAge : Nat × Nat -> Nat :=
  if cfg.policy = .lru then
    if c.hitMain cfg i then
      c.array.lruTouch cfg.toGeometry (setIdx cfg i) (cfg.wayOf (c.hitLineIdx cfg i))
    else if c.vcLookupHit cfg i then
      c.array.lruTouch cfg.toGeometry (setIdx cfg i) (c.victimTargetWay cfg i)
    else c.array.age
  else c.array.age

def filledAge : Nat × Nat -> Nat :=
  if cfg.policy = .lru then
    fun k =>
      if k.1 = c.fillSetR ∧ k.2 < cfg.ways ∧
          (k.2 = c.fillWayR ∨ c.array.age k < c.array.age (c.fillSetR, c.fillWayR)) then
        c.array.lruTouch cfg.toGeometry c.fillSetR c.fillWayR k
      else c.fetchedAge cfg i k
  else c.fetchedAge cfg i

/--
A hit in the victim buffer moves the line into the victim way.
-/
def promoted (arr : LineArray) : LineArray :=
  { arr with
    data := fun k =>
      if k.1 = c.victimLine cfg i ∧ k.2 < cfg.lineWords then c.vcLookupData cfg i k.2
      else arr.data k
    tag := setAt arr.tag (c.victimLine cfg i) (cfg.toGeometry.tag (addr i))
    valid := setAt arr.valid (c.victimLine cfg i) true
    victim :=
      setAt arr.victim (setIdx cfg i)
        (LineArray.nextVictim cfg.toGeometry (c.victimTargetWay cfg i)) }

def written (arr : LineArray) : LineArray :=
  { arr with data := setAt arr.data (c.fillLine cfg, c.fillWordR) (c.imemData cfg i) }

def committed (arr : LineArray) : LineArray :=
  { arr with
    tag := setAt arr.tag (c.fillLine cfg) c.fillTagR
    valid := setAt arr.valid (c.fillLine cfg) true
    victim :=
      setAt arr.victim c.fillSetR (LineArray.nextVictim cfg.toGeometry c.fillWayR)
    age := c.filledAge cfg i }

def nextArray : LineArray :=
  let arr := { c.array with valid := c.probedValid cfg i, age := c.fetchedAge cfg i }
  if c.vcDoSwap cfg i then c.promoted cfg i arr
  else if c.completes cfg i then c.committed cfg i (c.written cfg i arr)
  else if c.fills cfg i then c.written cfg i arr
  else arr

/-!
# The clock edge
-/

/--
The registers that a fill of one line starts from.
-/
def startFill (next : ICache w) (base : BitVec w) (set tag way : Nat) : ICache w :=
  { next with
    state := .fill, fillBaseR := base, fillSetR := set, fillTagR := tag, fillWayR := way
    fillWordR := 0, busyR := true }

def step : ICache w :=
  let next : ICache w :=
    { c with
      array := c.nextArray cfg i
      vc := c.nextVc cfg i
      prefetcher := c.nextPrefetcher cfg i
      fillLatency := c.fillLatency.step cfg.memLatency c.latencyStart
      doneR := c.vcDoSwap cfg i || c.completes cfg i }
  match c.state with
  | .idle =>
      if c.genuineMiss cfg i then
        startFill next (lineBaseOf cfg (addr i)) (setIdx cfg i) (cfg.toGeometry.tag (addr i))
          (c.victimTargetWay cfg i)
      else if c.hitMain cfg i && c.prefetchFire cfg then
        startFill next (c.pfAddr cfg) (cfg.toGeometry.setIdx (c.pfAddr cfg).toNat)
          (cfg.toGeometry.tag (c.pfAddr cfg).toNat)
          (c.array.victimTargetWay cfg.toGeometry
            (cfg.toGeometry.setIdx (c.pfAddr cfg).toNat))
      else next
  | .fill =>
      if c.completes cfg i then { next with state := .idle, busyR := false }
      else if c.fills cfg i then { next with fillWordR := c.fillWordR + 1 }
      else next

/--
The cache after reset.  Tags and words keep what they held.
-/
structure IsReset : Prop where
  state : c.state = .idle
  array : c.array.IsReset cfg.toGeometry
  vc : c.vc.IsReset
  prefetcher : c.prefetcher = .reset
  busyR : c.busyR = false
  doneR : c.doneR = false
  fillLatency : c.fillLatency = .reset

end ICache
end Cache
end RvCores
