import RvCores.Cache.Inclusion
import RvCores.Cache.System

/-!
# Two levels of cache

The blocking data cache is put over the second-level cache, and that over a memory of
bytes.  The two share the length of a line; sets, ways and replacement policies are
their own.  A line that the second level gives up is probed out of the first.
-/

namespace RvCores
namespace Cache

open Isa Block Lib

structure TwoLevelConfig where
  wordBits : Nat
  l1WayBits : Nat
  l1SetBits : Nat
  l1Policy : Policy
  l2WayBits : Nat
  l2SetBits : Nat
  l2Policy : Policy
  wordBits_pos : 1 <= wordBits := by first | exact Nat.one_pos | decide
  l1WayBits_pos : 1 <= l1WayBits := by first | exact Nat.one_pos | decide
  l2WayBits_pos : 1 <= l2WayBits := by first | exact Nat.one_pos | decide

namespace TwoLevelConfig

variable (cfg : TwoLevelConfig)

def l1 : DCacheConfig :=
  { wayBits := cfg.l1WayBits
    setBits := cfg.l1SetBits
    wordBits := cfg.wordBits
    policy := cfg.l1Policy
    wayBits_pos := cfg.l1WayBits_pos
    wordBits_pos := cfg.wordBits_pos
    victimEntries := 0
    mshrEntries := 1 }

def l2 : Geometry :=
  { wayBits := cfg.l2WayBits
    setBits := cfg.l2SetBits
    wordBits := cfg.wordBits
    policy := cfg.l2Policy
    wayBits_pos := cfg.l2WayBits_pos
    wordBits_pos := cfg.wordBits_pos }

end TwoLevelConfig

structure TwoLevelIn where
  cpu : CpuPort
  flushAll : Bool
  l2FlushAll : Bool
  ack : Bool
deriving DecidableEq, Repr

/--
`flat` is changed by the answered stores alone.  `drained` says that the data cache has
finished a flush and no store was answered since.
-/
structure TwoLevel where
  dcache : DCache
  l2 : L2Cache
  mem : Bytes
  flat : Bytes
  pend : Option CpuPort
  drained : Bool

namespace TwoLevel

variable (cfg : TwoLevelConfig) (s : TwoLevel) (i : TwoLevelIn)

/-!
# Wiring
-/

/--
The inputs of the data cache that registers drive, with no answer from below yet.
-/
def probe : DCacheIn :=
  { cpu := i.cpu
    flushAll := i.flushAll
    mAck := false
    mDataI := 0
    probeReq := s.l2.probeReq
    probeAddr := s.l2.probeAddr }

def toL2 : L2In :=
  { uCyc := s.dcache.mCyc
    uWe := s.dcache.mWe
    uAddr := s.dcache.mAddr
    uDataO := s.dcache.mDataO
    uFunct3 := 0b010
    mDataI := Flat.word s.mem s.l2.mAddr
    mAck := i.ack
    probeAck := s.l2.probeReq
    probeDirty := s.dcache.probeDirty cfg.l1 (s.probe i)
    probeData := s.dcache.probeData cfg.l1 (s.probe i)
    flushAll := i.l2FlushAll }

def toDCache : DCacheIn :=
  { s.probe i with
    mAck := s.l2.uAck cfg.l2 (s.toL2 cfg i)
    mDataI := s.l2.uDataI cfg.l2 (s.toL2 cfg i) }

def respReady : Bool := s.dcache.respReady cfg.l1 (s.toDCache cfg i)

def respRdata : Word := s.dcache.respRdata cfg.l1 (s.toDCache cfg i)

def storeAnswered : Bool := i.cpu.write && s.respReady cfg i

def step : TwoLevel :=
  { dcache := s.dcache.step cfg.l1 (s.toDCache cfg i)
    l2 := s.l2.step cfg.l2 (s.toL2 cfg i)
    mem :=
      if i.ack && s.l2.mWe then Flat.store s.mem s.l2.mAddr 0b010 s.l2.mDataO else s.mem
    flat :=
      if s.storeAnswered cfg i then Flat.store s.flat i.cpu.addr i.cpu.funct3 i.cpu.wdata
      else s.flat
    pend := s.dcache.pendNext cfg.l1 (s.toDCache cfg i)
    drained := !s.storeAnswered cfg i && (s.drained || s.dcache.flushDone) }

structure IsReset : Prop where
  dcache : s.dcache.IsReset cfg.l1
  l2 : s.l2.IsReset cfg.l2
  flat : s.flat = s.mem
  pend : s.pend = none
  drained : s.drained = false

/--
What every caller promises: a request is held until it is answered, and the levels
flush one after the other.
-/
structure Promised (s : TwoLevel) (i : TwoLevelIn) : Prop where
  held : forall p, s.pend = some p -> i.cpu = p
  request : i.cpu.active = true -> i.cpu.Request
  ordered : i.l2FlushAll = true ∨ s.l2.flushActive = true ->
    i.flushAll = false ∧ s.dcache.flushActive = false

/--
In addition no request is presented while a level flushes.
-/
structure Legal (s : TwoLevel) (i : TwoLevelIn) : Prop extends Promised s i where
  noFlush : i.cpu.active = true -> i.flushAll = false ∧ s.dcache.flushActive = false ∧
    i.l2FlushAll = false ∧ s.l2.flushActive = false

/-!
# The invariant
-/

/--
The second level is in the read state or in a miss only for the word that the first
level waits for, and a miss can only be of the first word of a line.
-/
structure Waits (s : TwoLevel) : Prop where
  busy : s.l2.Busy -> s.dcache.state = .fill ∧ s.dcache.mAddr = s.l2.miss.origAddr ∧
    s.dcache.fillWord = 0
  reading : s.l2.state = .hitRd -> s.dcache.state = .fill ∧ s.dcache.mAddr = s.l2.servedAddr

/--
How the state of one level goes with the state of the other.
-/
structure Linked (cfg : TwoLevelConfig) (s : TwoLevel) : Prop extends Waits s where
  later : s.dcache.state = .fill -> 0 < s.dcache.fillWord ->
    s.l2.Keeps cfg.l2 (s.dcache.head.line cfg.l1)
  included : forall line, s.dcache.array.valid line = true ->
    s.l2.Keeps cfg.l2 (s.dcache.array.lineAddr cfg.l1.toGeometry line)
  clean : s.drained = true -> forall line, s.dcache.array.valid line = true ->
    s.dcache.array.dirty line = false

/--
The memory between the levels is what the second level presents to the first.
-/
def Inv (cfg : TwoLevelConfig) (s : TwoLevel) : Prop :=
  exists upper : LineMem cfg.l2,
    s.dcache.Inv cfg.l1 upper (lines cfg.l1.toGeometry s.flat) s.pend [] ∧
      s.l2.Inv cfg.l2 (lines cfg.l2 s.mem) upper ∧ s.Linked cfg

variable {cfg s i}

theorem IsReset.inv (h : s.IsReset cfg) (hl1 : 1 <= cfg.l1SetBits) (hl2 : 1 <= cfg.l2SetBits) :
    s.Inv cfg := by
  refine ⟨lines cfg.l2 s.mem, ?_, h.l2.inv hl2 _, ?_⟩
  · rw [h.flat, h.pend]
    exact h.dcache.inv hl1 Nat.one_pos _
  · exact
      { busy := by
          intro hbusy
          exact absurd hbusy (L2Cache.unread_idle h.l2.state).left
        reading := by
          intro hrd
          exact absurd hrd (L2Cache.unread_idle h.l2.state).right
        later := by
          intro hfill
          exact absurd (h.dcache.state.symm.trans hfill) CacheState.noConfusion
        included := by
          intro line hvalid
          rw [h.dcache.array.valid] at hvalid
          cases hvalid
        clean := by
          intro hdrained
          rw [h.drained] at hdrained
          cases hdrained }

/-!
# What each level sees of the other
-/

theorem Legal.toDCache (h : s.Legal i) : s.dcache.Legal s.pend (s.toDCache cfg i) where
  held := h.held
  request := h.request
  noFlush hactive := ⟨(h.noFlush hactive).left, (h.noFlush hactive).right.left⟩

section

variable {upper : LineMem cfg.l2}
  (hd : s.dcache.Inv cfg.l1 upper (lines cfg.l1.toGeometry s.flat) s.pend [])
  (hl : s.l2.Inv cfg.l2 (lines cfg.l2 s.mem) upper) (hlinked : s.Linked cfg)
  (hlegal : s.Legal i)

include hd hlegal in
/--
The first level is idle while the second is asked to flush or flushes.
-/
theorem idle_of_flush (hflush : i.l2FlushAll = true ∨ s.l2.flushActive = true) :
    s.dcache.state = .idle ∧ i.cpu.active = false ∧ i.flushAll = false := by
  have hactive : i.cpu.active = false := by
    cases hactive : i.cpu.active with
    | false => rfl
    | true =>
        have hno := (hlegal.noFlush hactive).right.right
        rcases hflush with h | h
        · rw [hno.left] at h
          cases h
        · rw [hno.right] at h
          cases h
  have hpend : s.pend = none := by
    cases hpend : s.pend with
    | none => rfl
    | some p =>
        have hrequest := hd.ported.request p hpend
        rw [← hlegal.held p hpend] at hrequest
        rw [hrequest.active] at hactive
        cases hactive
  have hordered := hlegal.ordered hflush
  exact ⟨DCache.idle_of_unasked hd rfl hpend hordered.right, hactive, hordered.left⟩

include hd hl hlinked hlegal in
theorem served : s.l2.Served cfg.l2 (lines cfg.l2 s.mem) (s.toL2 cfg i) where
  words := rfl
  writes := by
    intro _ hwe
    have hstate : s.dcache.state = .wb := beq_iff_eq.mp hwe
    obtain ⟨line, hvalid, haddr⟩ := DCache.wb_line hd rfl hstate
    have hkeeps := hlinked.included line hvalid
    rw [haddr] at hkeeps
    exact L2Cache.hit_of_keeps hl.wellFormed hkeeps
  quiet := by
    intro hflush
    have hidle := (idle_of_flush hd hlegal hflush).left
    show s.dcache.mCyc = false
    unfold DCache.mCyc
    rw [hidle]
    rfl
  delivered hrd := (hlinked.reading hrd).right
  held := by
    intro hbusy
    obtain ⟨hstate, haddr, _⟩ := hlinked.busy hbusy
    exact ⟨DCache.mCyc_fill hstate, DCache.mWe_fill hstate, haddr⟩
  reads := by
    intro hstate _
    have hcyc : s.l2.mCyc = true := by
      unfold L2Cache.mCyc
      rw [hstate]
      rfl
    obtain ⟨a, w, haddr, _⟩ := L2Cache.bus_addr hl hcyc
    show Flat.word s.mem s.l2.mAddr = _
    rw [haddr, LineMem.read_base _ _ w.isLt]
    rfl
  probed := rfl

include hd hl hlinked hlegal in
theorem backed (hprobe : s.l2.state ≠ .probeWait) :
    s.dcache.Backed cfg.l1 upper (s.toDCache cfg i) where
  reads := by
    intro hstate hack
    have hwe : s.dcache.mWe = false := DCache.mWe_fill hstate
    exact L2Cache.read_value hl (served hd hl hlinked hlegal) hwe hack
  noProbe := beq_eq_false_iff_ne.mpr hprobe

/-!
# The memory between the levels
-/

include hlinked in
theorem unread_of_not_fill (hstate : s.dcache.state ≠ .fill) : s.l2.Unread :=
  ⟨fun hbusy => hstate (hlinked.busy hbusy).left, fun hrd => hstate (hlinked.reading hrd).left⟩

include hd hl hlinked hlegal in
/--
A word that the first level writes is taken at once.
-/
theorem write_taken (hstate : s.dcache.state = .wb) :
    s.l2.state = .idle ∧ s.l2.uAck cfg.l2 (s.toL2 cfg i) = true := by
  have hcyc : s.dcache.mCyc = true := DCache.mCyc_wb hstate
  have hwe : s.dcache.mWe = true := by
    unfold DCache.mWe
    rw [hstate]
    rfl
  have hserved := served hd hl hlinked hlegal
  have hhit := hserved.writes hcyc hwe
  have hunread : s.l2.Unread := unread_of_not_fill hlinked (by simp [hstate])
  have hflush : s.l2.flushActive = false := by
    cases hflush : s.l2.flushActive with
    | false => rfl
    | true =>
        have hquiet := hserved.quiet (Or.inr hflush)
        rw [show (s.toL2 cfg i).uCyc = true from hcyc] at hquiet
        cases hquiet
  have hidle : s.l2.state = .idle := by
    cases hl.phase with
    | idle hidle _ => exact hidle
    | hitRd hrd => exact absurd hrd.state hunread.right
    | probe hother _ _ => exact absurd (Or.inl hother) hunread.left
    | evict hevict =>
        exact absurd (Or.inr (Or.inl ⟨hevict.state, hevict.noFlush⟩)) hunread.left
    | fill hfill => exact absurd (Or.inr (Or.inr hfill.state)) hunread.left
    | scan _ hactive _ _ =>
        rw [hflush] at hactive
        cases hactive
    | flushWb hwb =>
        rw [hwb.flush] at hflush
        cases hflush
  refine ⟨hidle, ?_⟩
  unfold L2Cache.uAck
  rw [hidle, hhit, show (s.toL2 cfg i).uCyc = true from hcyc,
    show (s.toL2 cfg i).uWe = true from hwe]
  rfl

include hd hl hlinked hlegal in
theorem upper_agrees (hprobe : s.l2.state ≠ .probeWait) :
    s.dcache.memNext cfg.l1 upper (s.toDCache cfg i)
      = s.l2.upperNext cfg.l2 upper (s.toL2 cfg i) := by
  by_cases hstate : s.dcache.state = .wb
  · obtain ⟨hidle, hack⟩ := write_taken hd hl hlinked hlegal hstate
    have hwe : s.dcache.mWe = true := by
      unfold DCache.mWe
      rw [hstate]
      rfl
    have hwritten : s.l2.upperNext cfg.l2 upper (s.toL2 cfg i)
        = upper.write s.dcache.mAddr s.dcache.mDataO := by
      unfold L2Cache.upperNext
      rw [if_pos ⟨hidle, DCache.mCyc_wb hstate, hwe⟩]
      rfl
    rw [hwritten]
    exact DCache.memNext_ack (i := s.toDCache cfg i) hstate hack
  · have hwe : s.dcache.mWe = false := beq_eq_false_iff_ne.mpr hstate
    rw [L2Cache.upperNext_no_write hprobe (fun _ => hwe)]
    exact DCache.memNext_of_not_wb hstate

theorem no_ack_of_probe (hprobe : s.l2.state = .probeWait) :
    (s.toDCache cfg i).mAck = false := by
  show s.l2.uAck cfg.l2 (s.toL2 cfg i) = false
  unfold L2Cache.uAck L2Cache.hitAnswers L2Cache.fillAnswers
  rw [hprobe]
  rfl

include hl in
/--
The address of a probe is that of the line given up.
-/
theorem probe_addr (hprobe : s.l2.state = .probeWait) :
    cfg.l1.lineAddr (s.toDCache cfg i).probeAddr = s.l2.array.lineAddr cfg.l2 s.l2.wbLine := by
  have hbase := (L2Cache.Replaced.of_state hl hprobe).base'
  have hline := cfg.l2.lineAddr_base (s.l2.array.lineAddr cfg.l2 s.l2.wbLine)
    cfg.l2.lineWords_pos
  show cfg.l2.lineAddr s.l2.wbBase = _
  rw [hbase]
  exact hline

include hl in
theorem upper_probed (hprobe : s.l2.state = .probeWait) :
    s.dcache.memProbed cfg.l1 upper (s.toDCache cfg i)
      = s.l2.upperNext cfg.l2 upper (s.toL2 cfg i) := by
  have haddr := probe_addr hl hprobe (i := i)
  unfold L2Cache.upperNext DCache.memProbed
  rw [if_neg (by simp [hprobe]), haddr]
  by_cases hdirty : s.dcache.probeDirty cfg.l1 (s.toDCache cfg i) = true
  · exact (if_pos hdirty).trans (if_pos ⟨hprobe, hdirty⟩).symm
  · exact (if_neg hdirty).trans (if_neg (fun h => hdirty h.right)).symm

/-!
# One cycle
-/

include hd hl hlinked hlegal in
/--
A cycle without a probe, on the side of the data cache.
-/
theorem dcache_step (hprobe : s.l2.state ≠ .probeWait) :
    (s.step cfg i).dcache.Inv cfg.l1 (s.l2.upperNext cfg.l2 upper (s.toL2 cfg i))
      (s.dcache.flatNext cfg.l1 (lines cfg.l1.toGeometry s.flat) (s.toDCache cfg i))
      (s.step cfg i).pend [] := by
  have hlegal' : s.dcache.Legal s.pend (s.toDCache cfg i) := hlegal.toDCache
  have hsound := DCache.sound_of_single hd hlegal' rfl (fun hne => absurd rfl hne)
  have hnext := DCache.Inv.step hd hlegal' hsound (backed hd hl hlinked hlegal hprobe)
  unfold DCache.InvNext at hnext
  rw [← upper_agrees hd hl hlinked hlegal hprobe]
  rw [DCache.waitingNext_of_single rfl] at hnext
  exact hnext

include hd hl hlinked hlegal in
/--
A cycle with a probe, on the side of the data cache.
-/
theorem dcache_probed (hprobe : s.l2.state = .probeWait) :
    (s.step cfg i).dcache.Inv cfg.l1 (s.l2.upperNext cfg.l2 upper (s.toL2 cfg i))
      (s.dcache.flatNext cfg.l1 (lines cfg.l1.toGeometry s.flat) (s.toDCache cfg i))
      (s.step cfg i).pend [] := by
  have hlegal' : s.dcache.Legal s.pend (s.toDCache cfg i) := hlegal.toDCache
  have hsound := DCache.sound_of_single hd hlegal' rfl (fun hne => absurd rfl hne)
  obtain ⟨hstate, _, hword⟩ := hlinked.busy (Or.inl hprobe)
  have hack : (s.toDCache cfg i).mAck = false := no_ack_of_probe hprobe
  have hnow := @DCache.completeNow_of_no_ack cfg.l1 s.dcache _ hack
  have hreq : (s.toDCache cfg i).probeReq = true := beq_iff_eq.mpr hprobe
  have hkept := DCache.inv_probe hd rfl rfl hstate hword hreq
  have hflat := DCache.flatNext_fill_hold hd hlegal' hsound hstate hnow
  have hpend : (s.step cfg i).pend = s.pend := by
    have hfill := hd.fill_of_state hstate
    have hblocking := DCache.blocking_of_single hd rfl hfill.busy
    obtain ⟨_, hnoHu, p, hp, _⟩ := hd.queued.blocking _ (DCache.head_mem hfill.busy) hblocking
    have hrequest := hd.ported.request p hp
    have hcpu := hlegal.held p hp
    show s.dcache.pendNext cfg.l1 (s.toDCache cfg i) = s.pend
    unfold DCache.pendNext
    rw [if_pos, hp]
    · exact congrArg some hcpu
    · refine ⟨?_, ?_, DCache.mshrAccept_of_single rfl⟩
      · rw [← hcpu] at hrequest
        exact hrequest.active
      · rw [DCache.respReady_fill_hold hstate hnow]
        exact hnoHu
  rw [hflat, hpend, ← upper_probed hl hprobe]
  have hstep : (s.step cfg i).dcache = s.dcache.forgets cfg.l1 (s.toDCache cfg i) :=
    DCache.step_probe hd rfl rfl hlegal' hstate hack
  rw [hstep]
  exact hkept

include hl in
theorem lines_mem_step :
    lines cfg.l2 (s.step cfg i).mem
      = s.l2.memNext cfg.l2 (lines cfg.l2 s.mem) (s.toL2 cfg i) := by
  unfold L2Cache.memNext
  show lines cfg.l2 (if i.ack && s.l2.mWe then _ else _) = _
  cases hwe : s.l2.mWe with
  | false =>
      rw [Bool.and_false, if_neg Bool.false_ne_true, if_neg]
      rintro ⟨_, hstate⟩
      unfold L2Cache.mWe at hwe
      rw [hstate] at hwe
      cases hwe
  | true =>
      have hstate : s.l2.state = .wb := beq_iff_eq.mp hwe
      have hcyc : s.l2.mCyc = true := by
        unfold L2Cache.mCyc
        rw [hstate]
        rfl
      obtain ⟨a, w, haddr, _⟩ := L2Cache.bus_addr hl hcyc
      rw [Bool.and_true, haddr]
      by_cases hack : i.ack = true
      · rw [if_pos hack, if_pos ⟨hack, hstate⟩]
        exact lines_write_word a w _
      · rw [if_neg hack, if_neg (fun h => hack h.left)]

include hlegal in
theorem lines_flat_step :
    lines cfg.l1.toGeometry (s.step cfg i).flat
      = s.dcache.flatNext cfg.l1 (lines cfg.l1.toGeometry s.flat) (s.toDCache cfg i) := by
  unfold DCache.flatNext
  show lines cfg.l1.toGeometry (if s.storeAnswered cfg i then _ else _) = _
  by_cases hstore : i.cpu.write = true ∧ s.respReady cfg i = true
  · have hrequest := hlegal.request (DCache.active_of_write hstore.left)
    have hanswered : s.storeAnswered cfg i = true := Bool.and_eq_true_iff.mpr hstore
    rw [if_pos hanswered]
    refine Eq.trans ?_ (if_pos hstore).symm
    exact lines_store i.cpu hrequest.aligned
  · have hunanswered : ¬ s.storeAnswered cfg i = true :=
      fun h => hstore (Bool.and_eq_true_iff.mp h)
    rw [if_neg hunanswered]
    exact (if_neg hstore).symm

/-!
# The link
-/

include hd hl hlinked hlegal in
/--
No line of the first level is left behind.
-/
theorem included_step {line : Nat} (hvalid : (s.step cfg i).dcache.array.valid line = true) :
    (s.step cfg i).l2.Keeps cfg.l2
      ((s.step cfg i).dcache.array.lineAddr cfg.l1.toGeometry line) := by
  have hlegal' : s.dcache.Legal s.pend (s.toDCache cfg i) := hlegal.toDCache
  by_cases hprobe : s.l2.state = .probeWait
  · obtain ⟨hstate, _, _⟩ := hlinked.busy (Or.inl hprobe)
    have hack : (s.toDCache cfg i).mAck = false := no_ack_of_probe hprobe
    have hreq : (s.toDCache cfg i).probeReq = true := beq_iff_eq.mpr hprobe
    have hstep : (s.step cfg i).dcache = s.dcache.forgets cfg.l1 (s.toDCache cfg i) :=
      DCache.step_probe hd rfl rfl hlegal' hstate hack
    rw [hstep] at hvalid ⊢
    have hne := DCache.probedValid_ne hd.wellFormed hreq hvalid
    have hold := DCache.probedValid_of_valid hvalid
    apply (hlinked.included line hold).step hl
    intro _
    rw [← probe_addr hl hprobe (i := i)]
    exact hne
  · have hnoProbe : (s.toDCache cfg i).probeReq = false := beq_eq_false_iff_ne.mpr hprobe
    have hvalid' := DCache.step_valid hd rfl hnoProbe hvalid
    rcases hvalid' with ⟨hold, haddr⟩ | ⟨hnow, haddr⟩
    · have hkept := (hlinked.included line hold).step (i := s.toL2 cfg i) hl
        (fun h => absurd h hprobe)
      rw [← haddr] at hkept
      exact hkept
    · obtain ⟨hstate, hack, _⟩ := DCache.completeNow_state hnow
      have hwe : s.dcache.mWe = false := DCache.mWe_fill hstate
      have hkept := (L2Cache.answered_keeps hl hwe hack).right.right
      have hline : cfg.l2.lineAddr (s.toL2 cfg i).uAddr = s.dcache.head.line cfg.l1 :=
        DCache.fill_line hd hstate
      rw [hline, ← haddr] at hkept
      exact hkept

include hd hl hlinked hlegal in
theorem later_step (hfill : (s.step cfg i).dcache.state = .fill)
    (hword : 0 < (s.step cfg i).dcache.fillWord) :
    (s.step cfg i).l2.Keeps cfg.l2 ((s.step cfg i).dcache.head.line cfg.l1) := by
  have hlegal' : s.dcache.Legal s.pend (s.toDCache cfg i) := hlegal.toDCache
  have hstate : s.dcache.state = .fill := by
    by_cases hstate : s.dcache.state = .fill
    · exact hstate
    · have hzero := DCache.fill_begins (i := s.toDCache cfg i) rfl hstate hfill
      have hpos : 0 < (s.dcache.step cfg.l1 (s.toDCache cfg i)).fillWord := hword
      omega
  cases hack : s.l2.uAck cfg.l2 (s.toL2 cfg i) with
  | true =>
      have hwe : s.dcache.mWe = false := DCache.mWe_fill hstate
      have hhead : (s.step cfg i).dcache.head = s.dcache.head :=
        DCache.fill_more hd rfl hstate hack hfill
      have hline : cfg.l2.lineAddr (s.toL2 cfg i).uAddr = s.dcache.head.line cfg.l1 :=
        DCache.fill_line hd hstate
      rw [hhead, ← hline]
      exact (L2Cache.answered_keeps hl hwe hack).right.right
  | false =>
      obtain ⟨_, hsame, hhead, _⟩ := DCache.fill_hold hd rfl rfl hlegal' hstate hack
      have hpos : 0 < s.dcache.fillWord := by
        rw [← hsame]
        exact hword
      have hhead' : (s.step cfg i).dcache.head = s.dcache.head := hhead
      rw [hhead']
      apply (hlinked.later hstate hpos).step hl
      intro hprobe
      have hzero := (hlinked.busy (Or.inl hprobe)).right.right
      omega

include hd hl hlinked hlegal in
theorem waits_step : (s.step cfg i).Waits := by
  have hlegal' : s.dcache.Legal s.pend (s.toDCache cfg i) := hlegal.toDCache
  have hserved := served hd hl hlinked hlegal
  have hgone : (s.step cfg i).l2.Unread -> (s.step cfg i).Waits := fun hunread =>
    ⟨fun hbusy => absurd hbusy hunread.left, fun hrd => absurd hrd hunread.right⟩
  by_cases hstate : s.dcache.state = .fill
  · have hwe : s.dcache.mWe = false := DCache.mWe_fill hstate
    cases hack : s.l2.uAck cfg.l2 (s.toL2 cfg i) with
    | true => exact hgone (L2Cache.unread_idle (L2Cache.answered_keeps hl hwe hack).left)
    | false =>
        obtain ⟨hfill, hsame, _, haddr⟩ := DCache.fill_hold hd rfl rfl hlegal' hstate hack
        have hcyc : s.dcache.mCyc = true := DCache.mCyc_fill hstate
        rcases L2Cache.waiting_read hl hserved hcyc hwe hack with
          ⟨hrd, hread, _⟩ | ⟨hbusy, horig, _, hbefore⟩
        · constructor
          · intro hbusy
            exact absurd hrd hbusy.not_hitRd
          · intro _
            exact ⟨hfill, haddr.trans hread.symm⟩
        · constructor
          · intro _
            refine ⟨hfill, haddr.trans horig.symm, hsame.trans ?_⟩
            rcases hbefore with hbusy | hmiss
            · exact (hlinked.busy hbusy).right.right
            · -- a later word would have been found
              apply Nat.eq_zero_of_not_pos
              intro hpos
              have hkeeps := hlinked.later hstate hpos
              have hline : cfg.l2.lineAddr (s.toL2 cfg i).uAddr = s.dcache.head.line cfg.l1 :=
                DCache.fill_line hd hstate
              rw [← hline] at hkeeps
              rw [L2Cache.hit_of_keeps hl.wellFormed hkeeps] at hmiss
              cases hmiss
          · intro hrd
            exact absurd hrd hbusy.not_hitRd
  · apply hgone
    have hunread := unread_of_not_fill hlinked hstate
    apply hunread.step hl hserved
    intro hcyc
    have hmaster : s.dcache.mCyc = true := hcyc
    unfold DCache.mCyc at hmaster
    rw [beq_eq_false_iff_ne.mpr hstate, Bool.or_false] at hmaster
    exact hmaster

include hd hlinked hlegal in
theorem clean_step (hdrained : (s.step cfg i).drained = true) {line : Nat}
    (hvalid : (s.step cfg i).dcache.array.valid line = true) :
    (s.step cfg i).dcache.array.dirty line = false := by
  have hlegal' : s.dcache.Legal s.pend (s.toDCache cfg i) := hlegal.toDCache
  have hfacts : (!s.storeAnswered cfg i && (s.drained || s.dcache.flushDone)) = true := hdrained
  obtain ⟨hno, hbefore⟩ := Bool.and_eq_true_iff.mp hfacts
  have hclean : forall k, s.dcache.array.valid k = true -> s.dcache.array.dirty k = false := by
    rcases Bool.or_eq_true_iff.mp hbefore with h | h
    · exact hlinked.clean h
    · exact (hd.flushed h).right
  cases hdirty : (s.step cfg i).dcache.array.dirty line with
  | false => rfl
  | true =>
      by_cases hprobe : s.l2.state = .probeWait
      · obtain ⟨hstate, _, _⟩ := hlinked.busy (Or.inl hprobe)
        have hstep : (s.step cfg i).dcache = s.dcache.forgets cfg.l1 (s.toDCache cfg i) :=
          DCache.step_probe hd rfl rfl hlegal' hstate (no_ack_of_probe hprobe)
        rw [hstep] at hvalid hdirty
        rw [← hclean line (DCache.probedValid_of_valid hvalid)]
        exact hdirty.symm
      · have hnoProbe : (s.toDCache cfg i).probeReq = false := beq_eq_false_iff_ne.mpr hprobe
        rcases DCache.step_dirty hd hlegal' rfl rfl hnoProbe hvalid hdirty with hold | hstore
        · rw [hclean line hold.left] at hold
          cases hold.right
        · have hanswered : s.storeAnswered cfg i = true := Bool.and_eq_true_iff.mpr hstore
          rw [hanswered] at hno
          cases hno

end

/--
One cycle of the two levels keeps the invariant.
-/
theorem Inv.step (h : s.Inv cfg) (hlegal : s.Legal i) : (s.step cfg i).Inv cfg := by
  obtain ⟨upper, hd, hl, hlinked⟩ := h
  refine ⟨s.l2.upperNext cfg.l2 upper (s.toL2 cfg i), ?_, ?_, ?_⟩
  · rw [lines_flat_step hlegal]
    by_cases hprobe : s.l2.state = .probeWait
    · exact dcache_probed hd hl hlinked hlegal hprobe
    · exact dcache_step hd hl hlinked hlegal hprobe
  · rw [lines_mem_step hl]
    exact hl.step (served hd hl hlinked hlegal)
  · exact
      { toWaits := waits_step hd hl hlinked hlegal
        later := later_step hd hl hlinked hlegal
        included := fun _ hvalid => included_step hd hl hlinked hlegal hvalid
        clean := fun hdrained _ hvalid => clean_step hd hlinked hlegal hdrained hvalid }

end TwoLevel
end Cache
end RvCores
