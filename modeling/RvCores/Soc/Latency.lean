import RvCores.Soc.Session

/-!
# The latency of the data memory cannot be seen

Behind the latency layer as in front of it, the reads of a session return what
memory holds at their own address, and each request is acknowledged by the wait
that it started itself.  This needs a port that has nothing left to do when a
request arrives.  The cycle for which the load unit holds a read over counts as a
new request to both layers, and what it starts is still running when the load has
long left.
-/

namespace RvCores
namespace Block

variable {w size : Nat}

/-!
# The bus adapter
-/

namespace RamAdapter

variable {a : RamAdapter w} {b : BusCycle w}

/--
The adapter is waiting for a word exactly while it tracks a read.
-/
def Tracks (a : RamAdapter w) : Prop :=
  a.memReadPendingR = (a.req.active && !a.req.we)

theorem tracks_reset : (a.reset size).Tracks := by
  simp [Tracks, reset, Tracked.clear]

theorem tracks_step (h : a.Tracks) : (a.step size b).Tracks := by
  unfold Tracks at h ⊢
  simp only [step]
  cases hnew : a.req.isNewRequest b with
  | true =>
      have hstb : b.stb = true := by
        simp only [Tracked.isNewRequest, Bool.and_eq_true] at hnew
        exact hnew.left
      simp [Tracked.latch, BusCycle.memRead, hstb]
  | false =>
      cases hpending : a.memReadPendingR with
      | true => simp [Tracked.clear]
      | false =>
          rw [hpending] at h
          simpa using h

/--
A read that arrives while no other is pending is a new request.
-/
theorem isNewRequest_read (h : a.Tracks) (hread : b.memRead = true)
    (hpending : a.memReadPendingR = false) : a.req.isNewRequest b = true := by
  simp only [BusCycle.memRead, Bool.and_eq_true, Bool.not_eq_true'] at hread
  rw [Tracks, hpending] at h
  simp only [Tracked.isNewRequest, hread.left, hread.right, Bool.true_and]
  cases hactive : a.req.active with
  | false => simp
  | true =>
      cases hwe : a.req.we with
      | true => simp
      | false => simp [hactive, hwe] at h

theorem pending_step (h : a.Tracks) (hread : b.memRead = true)
    (hpending : a.memReadPendingR = false) :
    (a.step size b).memReadPendingR = true := by
  simp [step, isNewRequest_read h hread hpending, hread]

/--
A read that the adapter takes for a repeated one has the address of the pending one.
-/
theorem repeated_read (h : a.Tracks) (hread : b.memRead = true)
    (hnew : (a.step size b).memReadPendingR = false) :
    a.memReadPendingR = true ∧ a.req.addr = b.addr := by
  cases hpending : a.memReadPendingR with
  | false =>
      rw [pending_step h hread hpending] at hnew
      exact Bool.noConfusion hnew
  | true =>
      refine ⟨rfl, ?_⟩
      rw [Tracks, hpending] at h
      have hactive : a.req.active = true := by
        simpa using (Bool.and_eq_true_iff.mp h.symm).left
      have hrepeat : a.req.isNewRequest b = false := by
        cases hr : a.req.isNewRequest b with
        | false => rfl
        | true => simp [step, hr, hread] at hnew
      simp only [BusCycle.memRead, Bool.and_eq_true, Bool.not_eq_true'] at hread
      simp only [Tracked.isNewRequest, hread.left, hactive, Bool.true_and,
        Bool.not_true, Bool.false_or, Bool.or_eq_false_iff, bne_eq_false_iff_eq] at hrepeat
      exact hrepeat.left.symm

/--
What is pending after a cycle is the read of that cycle.
-/
theorem pending_latched (hpending : (a.step size b).memReadPendingR = true) :
    (a.step size b).req.addr = b.addr ∧ b.memRead = true := by
  cases hnew : a.req.isNewRequest b with
  | true =>
      simp only [step, hnew, if_true] at hpending ⊢
      exact ⟨rfl, hpending⟩
  | false => simp [step, hnew] at hpending

theorem step_bytes : (a.step size b).ram.bytes =
    if b.memWrite then DataMemory.storeBytes size a.ram.bytes b.memRequest
    else a.ram.bytes := rfl

theorem bytes_read (hread : b.memRead = true) :
    (a.step size b).ram.bytes = a.ram.bytes := by
  simp only [BusCycle.memRead, Bool.and_eq_true, Bool.not_eq_true'] at hread
  simp [step_bytes, BusCycle.memWrite, hread.right]

theorem dataI_step (hread : b.memRead = true) :
    (a.step size b).dataI = Soc.loadValue size (a.step size b).ram.bytes b.addr b.funct3 := by
  rw [bytes_read hread]
  simp [dataI, step, DataMemory.step, DataMemory.readData, Soc.loadValue,
    BusCycle.memRequest, hread]

end RamAdapter

/-!
# The delay line
-/

namespace MemoryLatencyModel

variable {latency age : Nat} {l : MemoryLatencyModel}

def Quiet (l : MemoryLatencyModel) : Prop := l.busyR = false ∧ l.doneR = false

/--
The line in the given cycle after its start.
-/
structure Running (latency age : Nat) (l : MemoryLatencyModel) : Prop where
  busy : l.busyR = decide (age <= latency)
  done : l.doneR = decide (age = latency + 1)
  count : age <= latency -> l.countR = latency - age

theorem quiet_step (h : l.Quiet) : (l.step latency false).Quiet := by
  obtain ⟨hbusy, hdone⟩ := h
  by_cases hzero : latency = 0
  · simp [step, hzero, Quiet, hbusy, hdone]
  · simp [step, hzero, Quiet, hbusy]

theorem running_start (hpos : 0 < latency) (h : l.Quiet) :
    Running latency 1 (l.step latency true) := by
  have hzero : latency ≠ 0 := Nat.ne_of_gt hpos
  have hform : l.step latency true =
      { countR := latency - 1, busyR := true, doneR := false } := by
    simp [step, hzero, h.left]
  rw [hform]
  refine ⟨?_, ?_, fun _ => rfl⟩
  · simp only [true_eq_decide_iff]
    exact hpos
  · simp only [false_eq_decide_iff]
    omega

theorem running_step (hage : age <= latency) (hpos : 0 < age) (h : Running latency age l) :
    Running latency (age + 1) (l.step latency false) := by
  have hzero : latency ≠ 0 := by omega
  have hbusy : l.busyR = true := by simpa [hage] using h.busy
  have hcount := h.count hage
  by_cases hlast : age = latency
  · have hform : l.step latency false = { l with busyR := false, doneR := true } := by
      have hnil : l.countR = 0 := by omega
      simp [step, hzero, hbusy, hnil]
    rw [hform]
    refine ⟨?_, ?_, ?_⟩
    · simp [hlast]
    · simp [hlast]
    · intro hle
      omega
  · have hform : l.step latency false =
        { l with countR := l.countR - 1, doneR := false } := by
      have hmore : l.countR ≠ 0 := by omega
      simp [step, hzero, hbusy, hmore]
    rw [hform]
    refine ⟨?_, ?_, ?_⟩
    · have hle : age + 1 <= latency := by omega
      simp [hbusy, hle]
    · have hne : ¬ age + 1 = latency + 1 := by omega
      exact (decide_eq_false hne).symm
    · intro _
      show l.countR - 1 = latency - (age + 1)
      omega

end MemoryLatencyModel

/-!
# The latency layer
-/

namespace DelayedRam

open Soc MemoryLatencyModel

variable {cfg : LatencyConfig} {d : DelayedRam w} {b : BusCycle w} {a : Access w}
  {age : Nat} {cont : Bool}

def latency (cfg : LatencyConfig) (cont : Bool) : Nat :=
  if cont then cfg.memLatencyDBurst else cfg.memLatencyD

/--
A request is acknowledged in the cycle it arrives or behind the wait it starts.
-/
def ownAge (cfg : LatencyConfig) (cont : Bool) : Nat :=
  if latency cfg cont = 0 then 0 else latency cfg cont + 1

/--
What the port needs of the cycle in which a request arrives.  No wait is running or
ending, and the request differs from the one still tracked.  A read may not be a
beat of a burst without latency, and with a latency of one it may not directly
follow a read of the same address and another width.
-/
structure Ready (cfg : LatencyConfig) (d : DelayedRam w) (a : Access w) : Prop where
  classicQuiet : d.classic.Quiet
  burstQuiet : d.burst.Quiet
  isNew : d.isNewRequest a.bus = true
  notInstant : a.bus.we = false -> 0 < latency cfg d.burstInProgressR
  notRepeated : a.bus.we = false -> latency cfg d.burstInProgressR = 1 ->
    d.adapter.memReadPendingR = true -> d.adapter.req.addr = a.bus.addr ->
      d.adapter.ram.funct3R = a.bus.funct3

/--
A read that was just given up is still the one whose word is kept.
-/
structure Idle (size : Nat) (d : DelayedRam w) (burst : Bool) : Prop where
  tracks : d.adapter.Tracks
  burst : d.burstInProgressR = burst
  kept : d.adapter.memReadPendingR = true ->
    d.capturedDataR = loadValue size d.adapter.ram.bytes d.adapter.req.addr
      d.adapter.ram.funct3R

def value (size : Nat) (d : DelayedRam w) (a : Access w) : BitVec w :=
  loadValue size d.adapter.ram.bytes a.bus.addr a.bus.funct3

structure Fetching (cfg : LatencyConfig) (size : Nat) (d : DelayedRam w) (a : Access w)
    (age : Nat) (cont : Bool) : Prop where
  fetched : d.adapter.dataI = d.value size a
  captured : d.capturedThisReqR = true -> d.capturedDataR = d.value size a
  first : age = 1 -> d.adapter.memReadPendingR = true ∨
    (latency cfg cont = 1 -> d.capturedDataR = d.value size a)
  second : age = 2 -> d.capturedThisReqR = true ∨
    d.adapter.memReadPendingR = true ∧
      (latency cfg cont = 1 -> d.capturedDataR = d.value size a)
  later : 3 <= age -> d.capturedThisReqR = true

structure Serving (cfg : LatencyConfig) (size : Nat) (d : DelayedRam w) (a : Access w)
    (age : Nat) (cont : Bool) : Prop where
  tracks : d.adapter.Tracks
  burst : d.burstInProgressR = (a.bus.cti == ctiIncrBurst)
  req : d.req = .latch a.bus
  positive : 0 < age
  bound : age <= latency cfg cont + 1
  delayed : 0 < latency cfg cont
  classic : if cont then d.classic.Quiet else Running cfg.memLatencyD age d.classic
  burstLine : if cont then Running cfg.memLatencyDBurst age d.burst else d.burst.Quiet
  word : a.bus.we = false -> Fetching cfg size d a age cont

inductive Attending (cfg : LatencyConfig) (size : Nat) (d : DelayedRam w) (a : Access w)
    (age : Nat) (cont : Bool) : Prop where
  | arrives (hage : age = 0) (hstb : a.bus.stb = true) (hidle : d.Idle size cont)
      (hready : d.Ready cfg a)
  | waits (hstb : a.bus.stb = true) (hserving : d.Serving cfg size a age cont)

structure Held (size : Nat) (d : DelayedRam w) (a : Access w) : Prop where
  tracks : d.adapter.Tracks
  burst : d.burstInProgressR = (a.bus.cti == ctiIncrBurst)
  read : a.bus.memRead = true
  fetched : d.adapter.dataI = d.value size a
  kept : d.capturedDataR = d.value size a

/-!
One cycle on the bus.
-/

theorem memRead_of (hstb : a.bus.stb = true) (hwe : a.bus.we = false) :
    a.bus.memRead = true := by
  simp [BusCycle.memRead, hstb, hwe]

theorem value_step (cfg : LatencyConfig) (hread : a.bus.memRead = true) :
    (d.step cfg size a.bus).value size a = d.value size a := by
  show loadValue size (d.adapter.step size a.bus).ram.bytes _ _ = _
  rw [RamAdapter.bytes_read hread]
  rfl

theorem fetched_step (hread : a.bus.memRead = true) :
    (d.step cfg size a.bus).adapter.dataI = (d.step cfg size a.bus).value size a :=
  RamAdapter.dataI_step hread

theorem isNewRequest_latch (hreq : d.req = .latch a.bus) :
    d.isNewRequest a.bus = false := by
  simp [isNewRequest, Tracked.isNewRequest, hreq, Tracked.latch]

theorem burst_step (h : d.isNewRequest a.bus = true ∨
      d.burstInProgressR = (a.bus.cti == ctiIncrBurst)) :
    (d.step cfg size a.bus).burstInProgressR = (a.bus.cti == ctiIncrBurst) := by
  rcases h with hnew | hsame
  · simp [step, hnew]
  · simp [step, hsame]

/--
After a cycle in which the word of the request is kept, the port is as between
requests.
-/
theorem idle_step_of_kept (htracks : d.adapter.Tracks)
    (hburst : d.isNewRequest a.bus = true ∨
      d.burstInProgressR = (a.bus.cti == ctiIncrBurst))
    (hkept : a.bus.memRead = true ->
      (d.step cfg size a.bus).capturedDataR = d.value size a) :
    (d.step cfg size a.bus).Idle size (a.bus.cti == ctiIncrBurst) where
  tracks := RamAdapter.tracks_step htracks
  burst := burst_step hburst
  kept := by
    intro hpending
    obtain ⟨haddr, hread⟩ := RamAdapter.pending_latched hpending
    rw [hkept hread, ← value_step cfg hread]
    show loadValue size _ a.bus.addr a.bus.funct3 = loadValue size _ _ a.bus.funct3
    rw [show (d.step cfg size a.bus).adapter.req.addr = a.bus.addr from haddr]

theorem idle_step (h : d.Idle size cont) (hstb : b.stb = false) :
    (d.step cfg size b).Idle size cont where
  tracks := RamAdapter.tracks_step h.tracks
  burst := by
    have hnew : d.isNewRequest b = false := by
      simp [isNewRequest, Tracked.isNewRequest, hstb]
    simpa [step, hnew] using h.burst
  kept := by
    intro hpending
    have hread := (RamAdapter.pending_latched hpending).right
    simp [BusCycle.memRead, hstb] at hread

/-!
When the acknowledge comes.
-/

theorem done_quiet {latency : Nat} {l : MemoryLatencyModel} (h : l.Quiet) :
    l.done latency false = false := by
  simp [done, h.right]

theorem done_start {latency : Nat} {l : MemoryLatencyModel} (h : l.Quiet) :
    l.done latency true = decide (latency = 0) := by
  by_cases hzero : latency = 0
  · simp [done, hzero]
  · simp [done, hzero, h.right]

theorem done_running (latency : Nat) {l : MemoryLatencyModel} (hpos : 0 < latency)
    (h : Running latency age l) :
    l.done latency false = decide (age = latency + 1) := by
  have hzero : latency ≠ 0 := Nat.ne_of_gt hpos
  simp [done, hzero, h.done]

theorem delayDone_arrives (hidle : d.Idle size cont) (hready : d.Ready cfg a) :
    d.delayDone cfg a.bus = decide (latency cfg cont = 0) := by
  have hburst := hidle.burst
  cases cont with
  | false =>
      have hpos : cfg.memLatencyD ≠ 0 := Nat.ne_of_gt cfg.positive
      simp [delayDone, startClassic, startBurst, hready.isNew, hburst, latency,
        done_start hready.classicQuiet, done_quiet hready.burstQuiet]
  | true =>
      simp [delayDone, startClassic, startBurst, hready.isNew, hburst, latency,
        done_start hready.burstQuiet, done_quiet hready.classicQuiet]

theorem delayDone_waits (h : d.Serving cfg size a age cont) :
    d.delayDone cfg a.bus = decide (age = latency cfg cont + 1) := by
  have hnew := isNewRequest_latch h.req
  have hform : d.delayDone cfg a.bus =
      (d.classic.done cfg.memLatencyD false || d.burst.done cfg.memLatencyDBurst false) := by
    simp [delayDone, startClassic, startBurst, hnew]
  rw [hform]
  cases cont with
  | false =>
      have hline := done_running cfg.memLatencyD h.delayed h.classic
      rw [hline, done_quiet h.burstLine, Bool.or_false]
      rfl
  | true =>
      have hline := done_running cfg.memLatencyDBurst h.delayed h.burstLine
      rw [hline, done_quiet h.classic, Bool.false_or]
      rfl

theorem ack_iff (h : d.Attending cfg size a age cont) :
    d.delayDone cfg a.bus = true ↔ age = ownAge cfg cont := by
  cases h with
  | arrives hage hstb hidle hready =>
      rw [delayDone_arrives hidle hready, hage]
      by_cases hzero : latency cfg cont = 0
      · simp [ownAge, hzero]
      · simp [ownAge, hzero]
  | waits hstb hserving =>
      have hzero : latency cfg cont ≠ 0 := Nat.ne_of_gt hserving.delayed
      rw [delayDone_waits hserving]
      simp [ownAge, hzero]

/-!
While a request waits.
-/

theorem captures_waits (h : d.Serving cfg size a age cont) (hwe : a.bus.we = false) :
    d.captures a.bus = (d.adapter.memReadPendingR && !d.capturedThisReqR) := by
  simp [captures, isNewRequest_latch h.req, RamAdapter.ack, BusCycle.memWrite, hwe]

theorem capturedThisReqR_waits (h : d.Serving cfg size a age cont)
    (hwe : a.bus.we = false) :
    (d.step cfg size a.bus).capturedThisReqR =
      (d.adapter.memReadPendingR || d.capturedThisReqR) := by
  have hnew := isNewRequest_latch h.req
  have hform : (d.step cfg size a.bus).capturedThisReqR =
      (d.captures a.bus || d.capturedThisReqR) := by simp [step, hnew]
  rw [hform, captures_waits h hwe]
  cases d.adapter.memReadPendingR <;> cases d.capturedThisReqR <;> rfl

/--
Once its word is there, a read keeps it.
-/
theorem capturedDataR_waits (h : d.Serving cfg size a age cont) (hwe : a.bus.we = false)
    (hthere : d.capturedThisReqR = true ∨ d.adapter.memReadPendingR = true) :
    (d.step cfg size a.bus).capturedDataR = d.value size a := by
  have hform : (d.step cfg size a.bus).capturedDataR =
      if d.captures a.bus then d.adapter.dataI else d.capturedDataR := rfl
  have hword := h.word hwe
  rw [hform, captures_waits h hwe]
  cases hcaptured : d.capturedThisReqR with
  | true => simpa using hword.captured hcaptured
  | false =>
      have hpending : d.adapter.memReadPendingR = true := by simpa [hcaptured] using hthere
      simpa [hpending] using hword.fetched

theorem fetching_wait (hstb : a.bus.stb = true) (hwe : a.bus.we = false)
    (h : d.Serving cfg size a age cont) :
    Fetching cfg size (d.step cfg size a.bus) a (age + 1) cont := by
  have hread := memRead_of hstb hwe
  have hword := h.word hwe
  have hpos := h.positive
  have hcaptured := capturedThisReqR_waits h hwe
  have hvalue : (d.step cfg size a.bus).value size a = d.value size a :=
    value_step cfg hread
  refine ⟨fetched_step hread, ?_, ?_, ?_, ?_⟩
  · intro hnow
    rw [hcaptured, Bool.or_eq_true] at hnow
    rw [hvalue]
    exact capturedDataR_waits h hwe hnow.symm
  · intro hage
    omega
  · intro hage
    rcases hword.first (by omega) with hpending | hlag
    · left
      simp [hcaptured, hpending]
    · cases hpending : d.adapter.memReadPendingR with
      | true =>
          left
          simp [hcaptured, hpending]
      | false =>
          right
          refine ⟨RamAdapter.pending_step h.tracks hread hpending, ?_⟩
          intro hone
          have hsame : (d.step cfg size a.bus).capturedDataR = d.capturedDataR := by
            have hform : (d.step cfg size a.bus).capturedDataR =
                if d.captures a.bus then d.adapter.dataI else d.capturedDataR := rfl
            rw [hform, captures_waits h hwe, hpending]
            rfl
          rw [hsame, hvalue]
          exact hlag hone
  · intro hage
    by_cases htwo : age = 2
    · rcases hword.second htwo with hc | ⟨hpending, _⟩
      · simp [hcaptured, hc]
      · simp [hcaptured, hpending]
    · have hc := hword.later (by omega)
      simp [hcaptured, hc]

theorem serving_wait (hstb : a.bus.stb = true) (h : d.Serving cfg size a age cont)
    (hack : d.delayDone cfg a.bus = false) :
    (d.step cfg size a.bus).Serving cfg size a (age + 1) cont := by
  have hnew := isNewRequest_latch h.req
  have hpos := h.positive
  have hlate : ¬ age = latency cfg cont + 1 := by
    rw [delayDone_waits h] at hack
    simpa using hack
  have hbound : age <= latency cfg cont := by
    have hle := h.bound
    omega
  have hclassic : (d.step cfg size a.bus).classic =
      d.classic.step cfg.memLatencyD false := by simp [step, startClassic, hnew]
  have hburst : (d.step cfg size a.bus).burst =
      d.burst.step cfg.memLatencyDBurst false := by simp [step, startBurst, hnew]
  refine ⟨RamAdapter.tracks_step h.tracks, burst_step (Or.inr h.burst), ?_, by omega,
    by omega, h.delayed, ?_, ?_, fun hwe => fetching_wait hstb hwe h⟩
  · simp [step, hnew, hack, h.req]
  · rw [hclassic]
    cases cont with
    | false => exact running_step hbound hpos h.classic
    | true => exact quiet_step h.classic
  · rw [hburst]
    cases cont with
    | false => exact quiet_step h.burstLine
    | true => exact running_step hbound hpos h.burstLine

/-!
The cycle in which a request arrives.
-/

theorem capturedDataR_arrives (hnew : d.isNewRequest b = true) :
    (d.step cfg size b).capturedDataR = d.capturedDataR := by
  simp [step, captures, hnew]

theorem fetching_arrives (hstb : a.bus.stb = true) (hwe : a.bus.we = false)
    (hidle : d.Idle size cont) (hready : d.Ready cfg a) :
    Fetching cfg size (d.step cfg size a.bus) a 1 cont := by
  have hread := memRead_of hstb hwe
  have hvalue : (d.step cfg size a.bus).value size a = d.value size a :=
    value_step cfg hread
  refine ⟨fetched_step hread, ?_, ?_, ?_, ?_⟩
  · intro hcaptured
    simp [step, hready.isNew] at hcaptured
  · intro _
    cases hpending : (d.step cfg size a.bus).adapter.memReadPendingR with
    | true => exact Or.inl rfl
    | false =>
        right
        intro hone
        obtain ⟨hbefore, haddr⟩ := RamAdapter.repeated_read hidle.tracks hread hpending
        have hfunct3 : d.adapter.ram.funct3R = a.bus.funct3 := by
          refine hready.notRepeated hwe ?_ hbefore haddr
          rw [hidle.burst]
          exact hone
        rw [capturedDataR_arrives hready.isNew, hvalue, hidle.kept hbefore, haddr, hfunct3]
        rfl
  · intro htwo
    omega
  · intro hthree
    omega

theorem serving_arrives (hstb : a.bus.stb = true) (hidle : d.Idle size cont)
    (hready : d.Ready cfg a) (hack : d.delayDone cfg a.bus = false) :
    (d.step cfg size a.bus).Serving cfg size a 1 cont := by
  have hnew := hready.isNew
  have hpos : 0 < latency cfg cont := by
    rw [delayDone_arrives hidle hready] at hack
    have hne : latency cfg cont ≠ 0 := by simpa using hack
    exact Nat.pos_of_ne_zero hne
  have hburst := hidle.burst
  refine ⟨RamAdapter.tracks_step hidle.tracks, burst_step (Or.inl hnew), ?_, by omega,
    by omega, hpos, ?_, ?_, fun hwe => fetching_arrives hstb hwe hidle hready⟩
  · simp [step, hnew]
  · cases cont with
    | false =>
        have hline : (d.step cfg size a.bus).classic =
            d.classic.step cfg.memLatencyD true := by simp [step, startClassic, hnew, hburst]
        rw [hline]
        exact running_start hpos hready.classicQuiet
    | true =>
        have hline : (d.step cfg size a.bus).classic =
            d.classic.step cfg.memLatencyD false := by simp [step, startClassic, hburst]
        rw [hline]
        exact quiet_step hready.classicQuiet
  · cases cont with
    | false =>
        have hline : (d.step cfg size a.bus).burst =
            d.burst.step cfg.memLatencyDBurst false := by simp [step, startBurst, hburst]
        rw [hline]
        exact quiet_step hready.burstQuiet
    | true =>
        have hline : (d.step cfg size a.bus).burst =
            d.burst.step cfg.memLatencyDBurst true := by
          simp [step, startBurst, hnew, hburst]
        rw [hline]
        exact running_start hpos hready.burstQuiet

/-!
The cycle of the acknowledge.
-/

theorem word_there (h : d.Serving cfg size a age cont) (hwe : a.bus.we = false)
    (hack : d.delayDone cfg a.bus = true) :
    d.capturedDataR = d.value size a ∧
      (d.capturedThisReqR = true ∨ d.adapter.memReadPendingR = true) := by
  have hage : age = latency cfg cont + 1 := by
    rw [delayDone_waits h] at hack
    simpa using hack
  have hpos := h.delayed
  have hword := h.word hwe
  by_cases hone : latency cfg cont = 1
  · rcases hword.second (by omega) with hcaptured | ⟨hpending, hlag⟩
    · exact ⟨hword.captured hcaptured, Or.inl hcaptured⟩
    · exact ⟨hlag hone, Or.inr hpending⟩
  · have hcaptured := hword.later (by omega)
    exact ⟨hword.captured hcaptured, Or.inl hcaptured⟩

/--
A read is never acknowledged in the cycle in which it arrives.
-/
theorem serving_of_ack (h : d.Attending cfg size a age cont) (hwe : a.bus.we = false)
    (hack : d.delayDone cfg a.bus = true) : d.Serving cfg size a age cont := by
  cases h with
  | arrives hage hstb hidle hready =>
      have hpos := hready.notInstant hwe
      rw [hidle.burst] at hpos
      rw [delayDone_arrives hidle hready] at hack
      exact absurd (of_decide_eq_true hack) (Nat.ne_of_gt hpos)
  | waits hstb hserving => exact hserving

theorem stb_of_attending (h : d.Attending cfg size a age cont) : a.bus.stb = true := by
  cases h with
  | arrives hage hstb hidle hready => exact hstb
  | waits hstb hserving => exact hstb

theorem idle_of_ack (h : d.Attending cfg size a age cont)
    (hack : d.delayDone cfg a.bus = true) :
    (d.step cfg size a.bus).Idle size (a.bus.cti == ctiIncrBurst) := by
  have hkept : a.bus.memRead = true ->
      (d.step cfg size a.bus).capturedDataR = d.value size a := by
    intro hread
    simp only [BusCycle.memRead, Bool.and_eq_true, Bool.not_eq_true'] at hread
    have hserving := serving_of_ack h hread.right hack
    exact capturedDataR_waits hserving hread.right (word_there hserving hread.right hack).right
  cases h with
  | arrives hage hstb hidle hready =>
      exact idle_step_of_kept hidle.tracks (Or.inl hready.isNew) hkept
  | waits hstb hserving =>
      exact idle_step_of_kept hserving.tracks (Or.inr hserving.burst) hkept

theorem held_of_ack (h : d.Attending cfg size a age cont)
    (hack : d.delayDone cfg a.bus = true) (hheld : a.heldOver = true) :
    (d.step cfg size a.bus).Held size a := by
  have hwe : a.bus.we = false := by
    simp only [Access.heldOver, Bool.and_eq_true, Bool.not_eq_true'] at hheld
    exact hheld.right
  have hserving := serving_of_ack h hwe hack
  have hread := memRead_of (stb_of_attending h) hwe
  refine ⟨RamAdapter.tracks_step hserving.tracks, burst_step (Or.inr hserving.burst), hread,
    fetched_step hread, ?_⟩
  rw [value_step cfg hread]
  exact capturedDataR_waits hserving hwe (word_there hserving hwe hack).right

theorem idle_of_held (h : d.Held size a) :
    (d.step cfg size a.bus).Idle size (a.bus.cti == ctiIncrBurst) := by
  refine idle_step_of_kept h.tracks (Or.inr h.burst) ?_
  intro _
  have hform : (d.step cfg size a.bus).capturedDataR =
      if d.captures a.bus then d.adapter.dataI else d.capturedDataR := rfl
  rw [hform, h.fetched, h.kept, ite_self]

def discipline (w size : Nat) (cfg : LatencyConfig) :
    Session.Discipline (RamPort.delayed w size cfg) size where
  Ready := Ready cfg
  Idle := Idle size
  Attending := Attending cfg size
  Held := Held size
  bytes_step := fun _ _ => rfl
  idle_step := idle_step
  present := fun hidle hstb hready => .arrives rfl hstb hidle hready
  wait := by
    intro d a age cont h hack
    cases h with
    | arrives hage hstb hidle hready =>
        rw [hage]
        exact .waits hstb (serving_arrives hstb hidle hready hack)
    | waits hstb hserving => exact .waits hstb (serving_wait hstb hserving hack)
  answer := fun h hack hwe _ => (word_there (serving_of_ack h hwe hack) hwe hack).left
  finish := fun h hack _ => idle_of_ack h hack
  hold := held_of_ack
  held_answer := Held.kept
  held_finish := idle_of_held

theorem idle_reset (d : DelayedRam w) : (d.reset size).Idle size false where
  tracks := RamAdapter.tracks_reset
  burst := rfl
  kept := by
    intro hpending
    exact Bool.noConfusion hpending

end DelayedRam

/-!
# Without latency

The adapter alone acknowledges the read it has pending.  One that the load unit left
behind answers whatever read comes next; a late access does not mind, because it
takes its word a cycle later.
-/

namespace RamAdapter

open Soc

variable {p : RamAdapter w} {a : Access w} {age : Nat} {cont : Bool}

structure Ready (p : RamAdapter w) (a : Access w) : Prop where
  notLeftOver : p.memReadPendingR = true -> a.bus.we = false -> a.late = false ->
    p.req.addr = a.bus.addr ∧ p.ram.funct3R = a.bus.funct3

structure Idle (size : Nat) (p : RamAdapter w) : Prop where
  pending : p.memReadPendingR = true ->
    p.dataI = loadValue size p.ram.bytes p.req.addr p.ram.funct3R

structure Attending (size : Nat) (p : RamAdapter w) (a : Access w) : Prop where
  stb : a.bus.stb = true
  fetched : p.memReadPendingR = true -> a.bus.we = false -> a.late = false ->
    p.dataI = loadValue size p.ram.bytes a.bus.addr a.bus.funct3

structure Held (size : Nat) (p : RamAdapter w) (a : Access w) : Prop where
  fetched : p.dataI = loadValue size p.ram.bytes a.bus.addr a.bus.funct3

theorem idle_step (p : RamAdapter w) (b : BusCycle w) : (p.step size b).Idle size where
  pending := by
    intro hpending
    obtain ⟨haddr, hread⟩ := pending_latched hpending
    rw [dataI_step hread, haddr]
    rfl

def discipline (w size : Nat) : Session.Discipline (RamPort.direct w size) size where
  Ready := Ready
  Idle := fun p _ => p.Idle size
  Attending := fun p a _ _ => p.Attending size a
  Held := Held size
  bytes_step := fun _ _ => rfl
  idle_step := fun _ _ => idle_step _ _
  present := by
    intro p burst a hidle hstb hready
    refine ⟨hstb, ?_⟩
    intro hpending hwe hlate
    obtain ⟨haddr, hfunct3⟩ := hready.notLeftOver hpending hwe hlate
    rw [hidle.pending hpending, haddr, hfunct3]
  wait := by
    intro p a age cont h _
    refine ⟨h.stb, ?_⟩
    intro _ hwe _
    exact dataI_step (DelayedRam.memRead_of h.stb hwe)
  answer := by
    intro p a age cont h hack hwe hlate
    have hpending : p.memReadPendingR = true := by
      simpa [RamPort.direct, ack, BusCycle.memWrite, hwe] using hack
    exact h.fetched hpending hwe hlate
  finish := fun _ _ _ => idle_step _ _
  hold := by
    intro p a age cont h _ hheld
    have hwe : a.bus.we = false := by
      simp only [Access.heldOver, Bool.and_eq_true, Bool.not_eq_true'] at hheld
      exact hheld.right
    exact ⟨dataI_step (DelayedRam.memRead_of h.stb hwe)⟩
  held_answer := Held.fetched
  held_finish := fun _ => idle_step _ _

theorem idle_reset (p : RamAdapter w) : (p.reset size).Idle size where
  pending := by
    intro hpending
    exact Bool.noConfusion hpending

end RamAdapter
end Block

namespace Soc

open Block

variable {w size : Nat} {cfg : LatencyConfig}

/-!
# The latency layer refines the memory
-/

def delayedStart (size : Nat) (cfg : LatencyConfig) (d : DelayedRam w) :
    Session (RamPort.delayed w size cfg) :=
  Session.start (d.reset size)

def directStart (size : Nat) (p : RamAdapter w) : Session (RamPort.direct w size) :=
  Session.start (p.reset size)

def DelayedRun (size : Nat) (cfg : LatencyConfig) (d : DelayedRam w) :
    Session (RamPort.delayed w size cfg) -> Prop :=
  Lib.ReachableWhen Session.step (DelayedRam.discipline w size cfg).Permits
    (delayedStart size cfg d)

def DirectRun (size : Nat) (p : RamAdapter w) : Session (RamPort.direct w size) -> Prop :=
  Lib.ReachableWhen Session.step (RamAdapter.discipline w size).Permits (directStart size p)

/--
The request on the bus in this cycle has not been answered yet.
-/
def Session.Awaits {P : RamPort w} (s : Session P) (offer : Access w) : Prop :=
  s.Presents offer ∨ exists a, s.phase = .waiting a

theorem ack_own {d : DelayedRam w} {s : Session (RamPort.delayed w size cfg)}
    (hrun : DelayedRun size cfg d s) {offer : Access w}
    (hpermits : (DelayedRam.discipline w size cfg).Permits s offer)
    (hawaits : s.Awaits offer) :
    DelayedRam.delayDone cfg s.port (s.current offer).bus = true ↔
      s.currentAge = DelayedRam.ownAge cfg s.currentContinues := by
  obtain ⟨_, hphase⟩ := Session.Discipline.run_inOrder (DelayedRam.idle_reset d) hrun
  rcases hawaits with hpresents | ⟨a, hwaiting⟩
  · have hready := hpermits hpresents
    obtain ⟨hidle, hstb⟩ := hpresents
    rw [hidle] at hphase
    have hattending : DelayedRam.Attending cfg size s.port offer 0 s.burst :=
      .arrives rfl hstb hphase.right hready
    simpa [Session.current, Session.currentAge, Session.currentContinues, hidle] using
      DelayedRam.ack_iff hattending
  · rw [hwaiting] at hphase
    simpa [Session.current, Session.currentAge, Session.currentContinues, hwaiting] using
      DelayedRam.ack_iff hphase.right.right

structure Transparent (size : Nat) (cfg : LatencyConfig) (mem : Bytes)
    (s : Session (RamPort.delayed w size cfg)) : Prop where
  answers : s.answers = (replay size mem s.requests).answers
  memory : s.phase = .idle ->
    s.port.adapter.ram.bytes = (replay size mem s.requests).mem
  ownAck : forall offer, (DelayedRam.discipline w size cfg).Permits s offer ->
    s.Awaits offer ->
      (DelayedRam.delayDone cfg s.port (s.current offer).bus = true ↔
        s.currentAge = DelayedRam.ownAge cfg s.currentContinues)
  sameAsDirect : forall (p : RamAdapter w) (t : Session (RamPort.direct w size)),
    (p.reset size).ram.bytes = mem -> DirectRun size p t -> t.requests = s.requests ->
      t.answers = s.answers ∧
        (s.phase = .idle -> t.phase = .idle -> t.port.ram.bytes = s.port.adapter.ram.bytes)

/--
In every run in which a request finds the port ready, the latency layer answers as
memory does and as the port without latency does.
-/
theorem latency_transparent (w size : Nat) (cfg : LatencyConfig) (d : DelayedRam w)
    (s : Session (RamPort.delayed w size cfg)) (hrun : DelayedRun size cfg d s) :
    Transparent size cfg (d.reset size).adapter.ram.bytes s := by
  have hinOrder := Session.Discipline.run_inOrder (DelayedRam.idle_reset d) hrun
  have hmemory : s.phase = .idle -> s.port.adapter.ram.bytes =
      (replay size (d.reset size).adapter.ram.bytes s.requests).mem := by
    intro hidle
    have hphase := hinOrder.right
    rw [hidle] at hphase
    exact hphase.left
  refine ⟨hinOrder.left, hmemory, fun _ => ack_own hrun, ?_⟩
  intro p t hmem htrun hrequests
  have hdirect := Session.Discipline.run_inOrder (RamAdapter.idle_reset p) htrun
  have hbytes : (RamPort.direct w size).bytes (p.reset size) =
      (RamPort.delayed w size cfg).bytes (d.reset size) := hmem
  rw [hbytes] at hdirect
  refine ⟨?_, ?_⟩
  · rw [hdirect.left, hrequests]
    exact hinOrder.left.symm
  · intro hidle htidle
    have hphase := hdirect.right
    rw [htidle] at hphase
    rw [hmemory hidle, ← hrequests]
    exact hphase.left

/-!
A store and a load of the load unit, then three reads of the walker or the cache with no
cycle between them, the last two of them a burst.
-/

instance decidableQuiet (l : MemoryLatencyModel) : Decidable l.Quiet :=
  inferInstanceAs (Decidable (_ ∧ _))

instance decidableReady (d : DelayedRam w) (a : Access w) :
    Decidable (d.Ready cfg a) :=
  decidable_of_iff
    (d.classic.Quiet ∧ d.burst.Quiet ∧ d.isNewRequest a.bus = true ∧
      (a.bus.we = false -> 0 < DelayedRam.latency cfg d.burstInProgressR) ∧
      (a.bus.we = false -> DelayedRam.latency cfg d.burstInProgressR = 1 ->
        d.adapter.memReadPendingR = true -> d.adapter.req.addr = a.bus.addr ->
          d.adapter.ram.funct3R = a.bus.funct3))
    ⟨fun ⟨h1, h2, h3, h4, h5⟩ => ⟨h1, h2, h3, h4, h5⟩,
      fun ⟨h1, h2, h3, h4, h5⟩ => ⟨h1, h2, h3, h4, h5⟩⟩

instance decidablePermits (s : Session (RamPort.delayed w size cfg)) (offer : Access w) :
    Decidable ((DelayedRam.discipline w size cfg).Permits s offer) :=
  have : Decidable (s.Presents offer) := inferInstanceAs (Decidable (_ ∧ _))
  have : Decidable (DelayedRam.Ready cfg s.port offer) := decidableReady s.port offer
  inferInstanceAs (Decidable (s.Presents offer -> DelayedRam.Ready cfg s.port offer))

def oneCycle : LatencyConfig :=
  { memLatencyD := 1, memLatencyDBurst := 1, positive := Nat.one_pos }

def emptyPort : DelayedRam 32 :=
  { adapter :=
      { ram := { bytes := fun _ => 0, rawWord := 0, funct3R := 0, memReadR := false }
        req := { active := false, addr := 0, we := false }
        memReadPendingR := false }
    req := { active := false, addr := 0, we := false }
    burstInProgressR := false
    classic := .reset
    burst := .reset
    capturedThisReqR := false
    capturedDataR := 0 }

def idleBus : Access 32 :=
  { bus := { stb := false, we := false, addr := 0, dataO := 0, funct3 := 0, cti := 0 }
    late := true }

def storeWord (addr data : BitVec 32) : Access 32 :=
  { bus := { stb := true, we := true, addr := addr, dataO := data, funct3 := 2, cti := 0 }
    late := true }

def loadWord (addr : BitVec 32) : Access 32 :=
  { bus := { stb := true, we := false, addr := addr, dataO := 0, funct3 := 2, cti := 0 }
    late := true }

def walkerRead (addr : BitVec 32) (cti : BitVec 3) : Access 32 :=
  { bus := { stb := true, we := false, addr := addr, dataO := 0, funct3 := 2, cti := cti }
    late := false }

def session (offers : List (Access 32)) : Session (RamPort.delayed 32 128 oneCycle) :=
  Lib.run Session.step (delayedStart 128 oneCycle emptyPort) offers

def mixedMasters : List (Access 32) :=
  [storeWord 4 7, idleBus, idleBus, loadWord 0, idleBus, idleBus, idleBus, idleBus,
    idleBus, idleBus] ++ List.replicate 3 (walkerRead 4 0) ++
      List.replicate 3 (walkerRead 8 ctiIncrBurst) ++ List.replicate 3 (walkerRead 4 ctiEndOfBurst)

theorem latency_transparent_mixedMasters :
    Transparent 128 oneCycle (emptyPort.reset 128).adapter.ram.bytes (session mixedMasters) ∧
      (session mixedMasters).answers = [none, some 0, some 7, some 0, some 7] := by
  refine ⟨latency_transparent 32 128 oneCycle emptyPort _ ?_, by decide +kernel⟩
  exact Lib.reachableWhen_run (by decide +kernel)

/-!
With one instruction between two loads, the second is acknowledged by the wait that
the first one left, and returns the word of the first.
-/

def closeLoads : List (Access 32) :=
  [storeWord 4 7, idleBus, idleBus, loadWord 0, idleBus, idleBus, idleBus, idleBus,
    loadWord 4, idleBus]

theorem close_loads_stale :
    Lib.Reachable Session.step (delayedStart 128 oneCycle emptyPort) (session closeLoads) ∧
      (session closeLoads).requests = [storeWord 4 7, loadWord 0, loadWord 4].map Access.bus ∧
      (session closeLoads).answers = [none, some 0, some 0] ∧
      (replay 128 (emptyPort.reset 128).adapter.ram.bytes
        (session closeLoads).requests).answers = [none, some 0, some 7] := by
  refine ⟨Lib.reachable_run _ _, ?_, ?_, ?_⟩ <;> decide +kernel

end Soc
end RvCores
