import RvCores.Block.Memory

/-!
# The port of the data memory

The memory sits behind a bus adapter that acknowledges a write at once and a read
in the cycle its word comes out.  With a latency configured, a second layer holds
the acknowledge back for as many cycles and keeps the word meanwhile.  Both layers
tell a new request from a repeated one by its address and direction.
-/

namespace RvCores
namespace Block

variable {w : Nat}

/-!
# The bus

The lines of one cycle.  Without a strobe the other lines carry no request.
-/

structure BusCycle (w : Nat) where
  stb : Bool
  we : Bool
  addr : BitVec w
  dataO : BitVec w
  funct3 : BitVec 3
  cti : BitVec 3
deriving DecidableEq

def ctiClassic : BitVec 3 := 0b000
def ctiIncrBurst : BitVec 3 := 0b010
def ctiEndOfBurst : BitVec 3 := 0b111

namespace BusCycle

def memWrite (b : BusCycle w) : Bool := b.stb && b.we
def memRead (b : BusCycle w) : Bool := b.stb && !b.we

def memRequest (b : BusCycle w) : MemRequest w :=
  { memWrite := b.memWrite
    memRead := b.memRead
    address := b.addr
    writeData := b.dataO
    funct3 := b.funct3 }

end BusCycle

/--
A request is remembered by its address and direction.
-/
structure Tracked (w : Nat) where
  active : Bool
  addr : BitVec w
  we : Bool
deriving DecidableEq

namespace Tracked

def isNewRequest (t : Tracked w) (b : BusCycle w) : Bool :=
  b.stb && (!t.active || b.addr != t.addr || b.we != t.we)

def latch (b : BusCycle w) : Tracked w := { active := true, addr := b.addr, we := b.we }

def clear (t : Tracked w) : Tracked w := { t with active := false }

end Tracked

/-!
# The bus adapter
-/

structure RamAdapter (w : Nat) where
  ram : DataMemory w
  req : Tracked w
  memReadPendingR : Bool

namespace RamAdapter

def reset (size : Nat) (a : RamAdapter w) : RamAdapter w :=
  { ram := a.ram.reset size, req := a.req.clear, memReadPendingR := false }

def step (size : Nat) (a : RamAdapter w) (b : BusCycle w) : RamAdapter w :=
  { ram := a.ram.step size b.memRequest
    req :=
      if a.req.isNewRequest b then .latch b
      else if a.memReadPendingR then a.req.clear
      else a.req
    memReadPendingR := if a.req.isNewRequest b then b.memRead else false }

def ack (a : RamAdapter w) (b : BusCycle w) : Bool := b.memWrite || a.memReadPendingR

def dataI (a : RamAdapter w) : BitVec w := a.ram.readData

end RamAdapter

/-!
# The delay line

A start is ignored while a wait is running.  Without latency the line is a wire.
-/

structure MemoryLatencyModel where
  countR : Nat
  busyR : Bool
  doneR : Bool
deriving DecidableEq

namespace MemoryLatencyModel

def reset : MemoryLatencyModel := { countR := 0, busyR := false, doneR := false }

def step (latency : Nat) (l : MemoryLatencyModel) (start : Bool) : MemoryLatencyModel :=
  if latency = 0 then l
  else if start && !l.busyR then { countR := latency - 1, busyR := true, doneR := false }
  else if l.busyR then
    if l.countR = 0 then { l with busyR := false, doneR := true }
    else { l with countR := l.countR - 1, doneR := false }
  else { l with doneR := false }

def done (latency : Nat) (l : MemoryLatencyModel) (start : Bool) : Bool :=
  if latency = 0 then start else l.doneR

end MemoryLatencyModel

/-!
# The latency layer
-/

/--
The layer is only there with a positive latency; the one of a burst's later beats
may be zero.
-/
structure LatencyConfig where
  memLatencyD : Nat
  memLatencyDBurst : Nat
  positive : 0 < memLatencyD

structure DelayedRam (w : Nat) where
  adapter : RamAdapter w
  req : Tracked w
  burstInProgressR : Bool
  classic : MemoryLatencyModel
  burst : MemoryLatencyModel
  capturedThisReqR : Bool
  capturedDataR : BitVec w

namespace DelayedRam

variable (cfg : LatencyConfig)

def reset (size : Nat) (d : DelayedRam w) : DelayedRam w :=
  { adapter := d.adapter.reset size
    req := d.req.clear
    burstInProgressR := false
    classic := .reset
    burst := .reset
    capturedThisReqR := false
    capturedDataR := d.capturedDataR }

def isNewRequest (d : DelayedRam w) (b : BusCycle w) : Bool := d.req.isNewRequest b

def startClassic (d : DelayedRam w) (b : BusCycle w) : Bool :=
  d.isNewRequest b && !d.burstInProgressR

def startBurst (d : DelayedRam w) (b : BusCycle w) : Bool :=
  d.isNewRequest b && d.burstInProgressR

def delayDone (d : DelayedRam w) (b : BusCycle w) : Bool :=
  d.classic.done cfg.memLatencyD (d.startClassic b) ||
    d.burst.done cfg.memLatencyDBurst (d.startBurst b)

def captures (d : DelayedRam w) (b : BusCycle w) : Bool :=
  !d.isNewRequest b && d.adapter.ack b && !d.capturedThisReqR

def step (size : Nat) (d : DelayedRam w) (b : BusCycle w) : DelayedRam w :=
  { adapter := d.adapter.step size b
    req :=
      if d.isNewRequest b then .latch b
      else if d.delayDone cfg b then d.req.clear
      else d.req
    burstInProgressR :=
      if d.isNewRequest b then b.cti == ctiIncrBurst else d.burstInProgressR
    classic := d.classic.step cfg.memLatencyD (d.startClassic b)
    burst := d.burst.step cfg.memLatencyDBurst (d.startBurst b)
    capturedThisReqR :=
      if d.isNewRequest b then false else d.captures b || d.capturedThisReqR
    capturedDataR := if d.captures b then d.adapter.dataI else d.capturedDataR }

end DelayedRam

/-!
# Either port
-/

/--
What a master on the bus sees of the memory.
-/
structure RamPort (w : Nat) where
  State : Type
  step : State -> BusCycle w -> State
  ack : State -> BusCycle w -> Bool
  dataI : State -> BitVec w
  bytes : State -> Bytes

namespace RamPort

def direct (w size : Nat) : RamPort w where
  State := RamAdapter w
  step := RamAdapter.step size
  ack := RamAdapter.ack
  dataI := RamAdapter.dataI
  bytes := fun a => a.ram.bytes

def delayed (w size : Nat) (cfg : LatencyConfig) : RamPort w where
  State := DelayedRam w
  step := DelayedRam.step cfg size
  ack := DelayedRam.delayDone cfg
  dataI := DelayedRam.capturedDataR
  bytes := fun d => d.adapter.ram.bytes

end RamPort
end Block
end RvCores
