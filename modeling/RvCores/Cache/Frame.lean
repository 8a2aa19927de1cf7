import RvCores.Cache.Invariant

/-!
# What a cycle leaves alone

Outside writeback and fill the miss registers do not move, and outside the idle
state the victim buffer does not either.
-/

namespace RvCores
namespace Cache

open Isa Lib

namespace DCache

variable {cfg : DCacheConfig} {c c' : DCache} {i : DCacheIn}
  {mem flat : LineMem cfg.toGeometry} {pend : Option CpuPort}
  {waiting : List (Nat × Word)}

theorem step_idle (h : c.state = .idle) :
    c.step cfg i = c.idleStep cfg i (c.common cfg i) := by
  unfold step
  rw [h]

theorem step_hitRd (h : c.state = .hitRd) :
    c.step cfg i = { c.common cfg i with state := .idle } := by
  unfold step
  rw [h]

theorem step_wb (h : c.state = .wb) :
    c.step cfg i = c.wbStep cfg i (c.common cfg i) := by
  unfold step
  rw [h]

theorem step_fill (h : c.state = .fill) :
    c.step cfg i = c.fillStep cfg i (c.common cfg i) := by
  unfold step
  rw [h]

theorem step_scan (h : c.state = .flushScan) :
    c.step cfg i = c.flushScanStep cfg (c.common cfg i) := by
  unfold step
  rw [h]

/-!
# Line addresses

With several sets the set wire has exactly the bits of the set, so that a tag with
the set below it is a line address.
-/

theorem vcLookupTag_eq (hsets : 1 <= cfg.setBits) :
    vcLookupTag cfg i = cfg.lineAddr i.cpu.addr := by
  unfold vcLookupTag
  rw [cfg.concatTag_eq hsets, cfg.joinTag_tag_setIdx]

/--
The line that leaves the main array, under its line address.
-/
def leavingLine (cfg : DCacheConfig) (c : DCache) (i : DCacheIn) : OutgoingLine :=
  { tag := c.array.lineAddr cfg.toGeometry (c.victimLine cfg i)
    dirty := c.array.dirty (c.victimLine cfg i)
    data := fun w => c.array.data (c.victimLine cfg i, w) }

theorem outgoingLine_eq (h : c.Inv cfg mem flat pend waiting) :
    c.outgoingLine cfg i = c.leavingLine cfg i := by
  unfold outgoingLine leavingLine victimLine
  rw [LineArray.concatTag_victimLine h.wellFormed h.severalSets]

theorem victimBase_eq (h : c.Inv cfg mem flat pend waiting) :
    c.victimBase cfg i
      = cfg.lineBase (c.array.lineAddr cfg.toGeometry (c.victimLine cfg i)) := by
  unfold victimBase victimLine
  rw [LineArray.concatTag_victimLine h.wellFormed h.severalSets]

/-!
# The phase of a state
-/

theorem Inv.fill_of_state (h : c.Inv cfg mem flat pend waiting) (hstate : c.state = .fill) :
    c.Fill cfg flat := by
  cases h.phase with
  | fill hfill => exact hfill
  | idle hother _ => exact absurd (hstate.symm.trans hother) CacheState.noConfusion
  | hitRd hrd => exact absurd (hstate.symm.trans hrd.state) CacheState.noConfusion
  | evict hevict => exact absurd (hstate.symm.trans hevict.state) CacheState.noConfusion
  | drain hdrain => exact absurd (hstate.symm.trans hdrain.state) CacheState.noConfusion
  | scan hscan => exact absurd (hstate.symm.trans hscan.state) CacheState.noConfusion
  | flushWb hwb => exact absurd (hstate.symm.trans hwb.state) CacheState.noConfusion

theorem Inv.quiet_of_idle (h : c.Inv cfg mem flat pend waiting) (hstate : c.state = .idle) :
    c.Quiet := by
  cases h.phase with
  | idle _ hquiet => exact hquiet
  | hitRd hrd => exact absurd (hstate.symm.trans hrd.state) CacheState.noConfusion
  | evict hevict => exact absurd (hstate.symm.trans hevict.state) CacheState.noConfusion
  | drain hdrain => exact absurd (hstate.symm.trans hdrain.state) CacheState.noConfusion
  | fill hfill => exact absurd (hstate.symm.trans hfill.state) CacheState.noConfusion
  | scan hscan => exact absurd (hstate.symm.trans hscan.state) CacheState.noConfusion
  | flushWb hwb => exact absurd (hstate.symm.trans hwb.state) CacheState.noConfusion

/-!
# The common part
-/

theorem vcNext_eq (hswap : c.vcDoSwap cfg i = false) (hinsert : c.vcDoInsert cfg i = false) :
    c.vcNext cfg i = c.vc := by
  unfold vcNext VictimCache.step
  rw [hswap, hinsert]
  split <;> rfl

theorem vcNext_of_not_idle (hstate : c.state ≠ .idle) : c.vcNext cfg i = c.vc := by
  have hidle : (c.state == CacheState.idle) = false := beq_eq_false_iff_ne.mpr hstate
  apply vcNext_eq
  · unfold vcDoSwap
    rw [hidle]
    rfl
  · unfold vcDoInsert
    rw [hidle]
    rfl

theorem probedValid_eq (hprobe : i.probeReq = false) :
    c.probedValid cfg i = c.array.valid := by
  unfold probedValid
  rw [hprobe]
  rfl

theorem mshrBusy_of_wb (hstate : c.state = .wb) : c.mshrBusy = true := by
  unfold mshrBusy
  rw [hstate]
  rfl

theorem not_busy (hwb : c.state ≠ .wb) (hfill : c.state ≠ .fill) : c.mshrBusy = false := by
  unfold mshrBusy
  rw [beq_eq_false_iff_ne.mpr hwb, beq_eq_false_iff_ne.mpr hfill]
  rfl

section

variable (hbusy : c.mshrBusy = false)

include hbusy

theorem dispatchHit_of_not_busy : c.mshrBusyDispatchHit cfg i = false := by
  unfold mshrBusyDispatchHit
  rw [hbusy]
  rfl

theorem dispatchMiss_of_not_busy : c.mshrBusyDispatchMiss cfg i = false := by
  unfold mshrBusyDispatchMiss
  rw [hbusy]
  rfl

theorem completeNow_of_not_busy : c.mshrCompleteNow cfg i = false := by
  have hfill : (c.state == CacheState.fill) = false := by
    unfold mshrBusy at hbusy
    exact (Bool.or_eq_false_iff.mp hbusy).right
  unfold mshrCompleteNow
  rw [hfill]
  rfl

end

/--
When no miss starts or ends the common part moves nothing but ages and the victim
buffer.
-/
theorem common_of_no_dispatch (hhit : c.mshrBusyDispatchHit cfg i = false)
    (hmiss : c.mshrBusyDispatchMiss cfg i = false)
    (hcomplete : c.mshrCompleteNow cfg i = false) (hprobe : i.probeReq = false) :
    c.common cfg i =
      { c with
        array := { c.array with age := c.touchedAge cfg i }
        vc := c.vcNext cfg i
        flushDone := false
        huPending := false } := by
  unfold common mshrNext mshrCountAfterComplete
  rw [probedValid_eq hprobe, hhit, hmiss, hcomplete]
  rfl

theorem common_of_not_busy (hbusy : c.mshrBusy = false) (hprobe : i.probeReq = false) :
    c.common cfg i =
      { c with
        array := { c.array with age := c.touchedAge cfg i }
        vc := c.vcNext cfg i
        flushDone := false
        huPending := false } :=
  common_of_no_dispatch (dispatchHit_of_not_busy hbusy) (dispatchMiss_of_not_busy hbusy)
    (completeNow_of_not_busy hbusy) hprobe

theorem completeNow_of_wb (hstate : c.state = .wb) : c.mshrCompleteNow cfg i = false := by
  unfold mshrCompleteNow
  rw [hstate]
  rfl

/-!
# Copies
-/

theorem copies_congr
    (harray : forall line, c'.array.copyAt cfg.toGeometry (c'.dead cfg) line
      = c.array.copyAt cfg.toGeometry (c.dead cfg) line)
    (hvc : c'.vc = c.vc) (hout : c'.leavingCopy cfg = c.leavingCopy cfg) :
    c'.copies cfg = c.copies cfg := by
  funext s
  cases s with
  | way line => exact harray line
  | victim e =>
      unfold copies slotCopies
      rw [hvc]
  | leaving => exact hout

/--
Only one way of the main array changed.
-/
theorem copies_update_way {line : Nat}
    (harray : forall k, k ≠ line -> c'.array.copyAt cfg.toGeometry (c'.dead cfg) k
      = c.array.copyAt cfg.toGeometry (c.dead cfg) k)
    (hvc : c'.vc = c.vc) (hout : c'.leavingCopy cfg = c.leavingCopy cfg) :
    c'.copies cfg
      = setAt (c.copies cfg) (.way line)
          (c'.array.copyAt cfg.toGeometry (c'.dead cfg) line) := by
  funext s
  rw [setAt_apply]
  by_cases hs : s = .way line
  · rw [if_pos hs, hs]
    rfl
  · rw [if_neg hs]
    cases s with
    | way k =>
        apply harray
        intro hk
        exact hs (congrArg Slot.way hk)
    | victim e =>
        unfold copies slotCopies
        rw [hvc]
    | leaving => exact hout

theorem entries_of_moved (h : c.moved cfg = true) : cfg.victimEntries ≠ 0 := by
  intro hzero
  unfold moved VictimCache.lookupHit at h
  rw [hzero] at h
  cases h

theorem moved_of_no_entries (h : cfg.victimEntries = 0) : c.moved cfg = false := by
  cases hmoved : c.moved cfg with
  | false => rfl
  | true => exact absurd h (entries_of_moved hmoved)

theorem dead_eq_none (hfill : c.state ≠ .fill)
    (hwb : c.state = .wb -> c.flushActive = true ∨ c.moved cfg = false) :
    c.dead cfg = none := by
  unfold dead
  rw [if_neg]
  rintro (h | ⟨hstate, hflush, hmoved⟩)
  · exact hfill h
  · rcases hwb hstate with h | h
    · rw [h] at hflush
      cases hflush
    · rw [h] at hmoved
      cases hmoved

theorem dead_moved (hstate : c.state = .wb) (hflush : c.flushActive = false)
    (hmoved : c.moved cfg = true) :
    c.dead cfg = some (c.fillLine cfg) := by
  unfold dead
  rw [if_pos (Or.inr ⟨hstate, hflush, hmoved⟩)]

theorem dead_idle (hstate : c.state = .idle) : c.dead cfg = none :=
  dead_eq_none (by rw [hstate]; exact CacheState.noConfusion)
    (fun h => absurd (hstate.symm.trans h) CacheState.noConfusion)

theorem dead_hitRd (hstate : c.state = .hitRd) : c.dead cfg = none :=
  dead_eq_none (by rw [hstate]; exact CacheState.noConfusion)
    (fun h => absurd (hstate.symm.trans h) CacheState.noConfusion)

theorem dead_scan (hstate : c.state = .flushScan) : c.dead cfg = none :=
  dead_eq_none (by rw [hstate]; exact CacheState.noConfusion)
    (fun h => absurd (hstate.symm.trans h) CacheState.noConfusion)

theorem dead_fill (hstate : c.state = .fill) : c.dead cfg = some (c.fillLine cfg) := by
  unfold dead
  rw [if_pos (Or.inl hstate)]

theorem leavingCopy_none (h : c.vwbPending = false) : c.leavingCopy cfg = none := by
  unfold leavingCopy
  rw [h, if_neg Bool.false_ne_true]

/--
A way that is valid and not being replaced is a copy.
-/
theorem copies_way {line : Nat} (hvalid : c.array.valid line = true)
    (hlive : c.dead cfg ≠ some line) :
    c.copies cfg (.way line) = some
      { addr := c.array.lineAddr cfg.toGeometry line
        dirty := c.array.dirty line
        data := c.array.lineData cfg.toGeometry line } :=
  LineArray.copyAt_live hvalid hlive

theorem VictimCache.copyAt_valid {g : Geometry} {n e : Nat} {vc : VictimCache} (he : e < n)
    (hvalid : (vc.entry e).valid = true) :
    vc.copyAt g n e = some
      { addr := (vc.entry e).tag
        dirty := (vc.entry e).dirty
        data := fun w => (vc.entry e).data w } := by
  unfold VictimCache.copyAt
  rw [if_pos ⟨he, hvalid⟩]

/--
A line that a way still holds is not in the victim buffer.
-/
theorem not_moved (h : Coherent (c.copies cfg) mem flat)
    (hvalid : c.array.valid (c.fillLine cfg) = true)
    (hlive : c.dead cfg ≠ some (c.fillLine cfg)) :
    c.moved cfg = false := by
  cases hmoved : c.moved cfg with
  | false => rfl
  | true =>
      unfold moved VictimCache.lookupHit at hmoved
      obtain ⟨e, he, hhit⟩ := anyUpTo_iff.mp hmoved
      obtain ⟨hentry, htag⟩ := VictimCache.vcHit_iff.mp hhit
      have hcopy : c.copies cfg (.victim e) = _ := VictimCache.copyAt_valid he hentry
      have hslots := h.unique hcopy (copies_way hvalid hlive) htag
      cases hslots

theorem way_current (h : Coherent (c.copies cfg) mem flat) {line : Nat}
    (hvalid : c.array.valid line = true) (hlive : c.dead cfg ≠ some line) :
    c.array.lineData cfg.toGeometry line = flat (c.array.lineAddr cfg.toGeometry line) :=
  h.current (copies_way hvalid hlive)

/-!
# The port
-/

theorem pendNext_eq_some {p : CpuPort} (h : c.pendNext cfg i = some p) :
    i.cpu = p ∧ i.cpu.active = true ∧ c.respReady cfg i = false ∧
      c.mshrAccept cfg i = false := by
  unfold pendNext at h
  split at h
  · next hcond => exact ⟨Option.some.inj h, hcond⟩
  · cases h

theorem pendNext_idle_port (h : i.cpu.active = false) : c.pendNext cfg i = none := by
  unfold pendNext
  rw [h, if_neg]
  intro hcond
  cases hcond.left

theorem active_split {p : CpuPort} (h : p.active = false) :
    p.read = false ∧ p.write = false := by
  unfold CpuPort.active at h
  exact Bool.or_eq_false_iff.mp h

theorem active_of_write {p : CpuPort} (h : p.write = true) : p.active = true := by
  unfold CpuPort.active
  rw [h, Bool.or_true]

theorem active_of_read {p : CpuPort} (h : p.read = true) : p.active = true := by
  unfold CpuPort.active
  rw [h, Bool.true_or]

theorem Legal.read_or_write (h : c.Legal pend i) (hactive : i.cpu.active = true) :
    (i.cpu.read = true ∧ i.cpu.write = false) ∨
      (i.cpu.read = false ∧ i.cpu.write = true) := by
  have hrequest := h.request hactive
  unfold CpuPort.active at hactive
  cases hread : i.cpu.read with
  | true => exact Or.inl ⟨rfl, hrequest.exclusive hread⟩
  | false =>
      rw [hread, Bool.false_or] at hactive
      exact Or.inr ⟨rfl, hactive⟩

/--
An answer that hit-under-miss has ready is for the load that waits on the port.
-/
theorem hu_answers (hported : c.Ported cfg flat pend) (hlegal : c.Legal pend i)
    (hsound : c.Sound cfg pend i) (hhu : c.huPending = true)
    (hactive : i.cpu.active = true) :
    i.cpu.read = true ∧ i.cpu.write = false ∧
      c.huData = flat.load i.cpu.addr i.cpu.funct3 ∧ c.hitMain cfg i = true := by
  cases hpend : pend with
  | none =>
      have hquiet := hsound.stale hhu hpend
      rw [hactive] at hquiet
      cases hquiet
  | some p =>
      have hp := hported.hu hhu p hpend
      have hcpu := hlegal.held p hpend
      subst hcpu
      exact ⟨hp.left, (hported.request _ hpend).exclusive hp.left, hp.right⟩

/--
The port after a cycle, apart from the answer of hit-under-miss.
-/
theorem ported_next (hlegal : c.Legal pend i)
    (hflush : i.flushAll = false -> c'.flushActive = true -> c.flushActive = true)
    (hhu : c'.huPending = true -> forall p, c.pendNext cfg i = some p ->
      p.read = true ∧ c'.huData = (c.flatNext cfg flat i).load p.addr p.funct3 ∧
        c'.array.hitMain cfg.toGeometry p.addr = true)
    (hsingle : cfg.mshrEntries = 1 ->
      c'.huPending = false ∧ (c'.state = .hitRd -> c.pendNext cfg i ≠ none)) :
    c'.Ported cfg (c.flatNext cfg flat i) (c.pendNext cfg i) where
  request p hp := by
    rcases pendNext_eq_some hp with ⟨rfl, hactive, _⟩
    exact hlegal.request hactive
  noFlush hsome := by
    rcases Option.ne_none_iff_exists'.mp hsome with ⟨p, hp⟩
    rcases pendNext_eq_some hp with ⟨rfl, hactive, _⟩
    have hno := hlegal.noFlush hactive
    cases hnext : c'.flushActive with
    | false => rfl
    | true =>
        have hprev := hflush hno.left hnext
        rw [hno.right] at hprev
        cases hprev
  hu := hhu
  single := hsingle

/-!
# Quiet queues
-/

theorem queue_empty (h : c.mshrCount = 0) : c.queue cfg = [] := by
  unfold queue
  rw [h]
  rfl

theorem inTurn_empty (h : c.mshrCount = 0) :
    c.array.InTurn cfg.toGeometry ((c.queue cfg).map (fun m => (m.set, m.way))) := by
  rw [queue_empty h]
  exact LineArray.InTurn.nil

/--
An empty queue has nothing to keep.
-/
theorem queued_empty (hhead : c.mshrHead < cfg.mshrEntries) (hcount : c.mshrCount = 0)
    (htail : c.mshrTail = c.mshrHead) :
    c.Queued cfg flat pend [] where
  headLt := hhead
  countLe := by omega
  tail := by rw [htail, hcount, wrapAdd_zero hhead]
  ok m hm := by
    rw [queue_empty hcount] at hm
    cases hm
  unheld m hm := by
    rw [queue_empty hcount] at hm
    cases hm
  lines := by
    rw [queue_empty hcount]
    exact List.Pairwise.nil
  reserved := by
    rw [queue_empty hcount]
    exact List.Pairwise.nil
  behind m hm := by
    rw [queue_empty hcount] at hm
    cases hm
  blocking m hm := by
    rw [queue_empty hcount] at hm
    cases hm
  awaited := by
    rw [queue_empty hcount]
    rfl

theorem Queued.waiting_nil (h : c.Queued cfg flat pend waiting) (hcount : c.mshrCount = 0) :
    waiting = [] := by
  have hawaited := h.awaited
  rw [queue_empty hcount] at hawaited
  exact hawaited

theorem Queued.tail_eq_head (h : c.Queued cfg flat pend waiting) (hcount : c.mshrCount = 0) :
    c.mshrTail = c.mshrHead := by
  rw [h.tail, hcount, wrapAdd_zero h.headLt]

/--
A cycle that neither starts nor ends a miss keeps an empty queue.
-/
theorem queued_still (h : c.Queued cfg flat pend waiting) (hcount : c.mshrCount = 0)
    (hcomplete : c.mshrComplete cfg i = false) (haccept : c.mshrAccept cfg i = false)
    (hhead : c'.mshrHead = c.mshrHead) (htail : c'.mshrTail = c.mshrTail)
    (hcount' : c'.mshrCount = c.mshrCount) {flat' : LineMem cfg.toGeometry}
    {pend' : Option CpuPort} :
    c'.Queued cfg flat' pend' (c.waitingNext cfg flat waiting i) := by
  have hwaiting : c.waitingNext cfg flat waiting i = [] := by
    unfold waitingNext
    rw [hcomplete, haccept, h.waiting_nil hcount]
    rfl
  rw [hwaiting]
  apply queued_empty
  · rw [hhead]
    exact h.headLt
  · rw [hcount', hcount]
  · rw [htail, hhead, h.tail_eq_head hcount]

end DCache
end Cache
end RvCores
