import RvCores.Cache.Writeback

/-!
# The queue of misses

While a line is written back or filled, one entry may leave the queue at its head
and one may join it at its tail.
-/

namespace RvCores
namespace Cache

open Isa Lib

namespace DCache

variable {cfg : DCacheConfig} {c c' : DCache} {i : DCacheIn}
  {mem flat : LineMem cfg.toGeometry} {pend : Option CpuPort}
  {waiting : List (Nat × Word)}

/-!
# The list behind the registers
-/

theorem nextSlot_eq {slot : Nat} (hslot : slot < cfg.mshrEntries) :
    nextSlot cfg slot = wrapAdd cfg.mshrEntries slot 1 := by
  unfold nextSlot wrapAdd
  split <;> split <;> omega

theorem queue_cons (hbusy : 0 < c.mshrCount) :
    c.queue cfg = c.head :: (c.queue cfg).tail := by
  unfold queue
  rw [window_drop_one hbusy]
  rfl

theorem head_mem (hbusy : 0 < c.mshrCount) : c.head ∈ c.queue cfg := by
  rw [queue_cons hbusy]
  exact List.mem_cons_self

/--
The registers after the head has been released.
-/
theorem window_released (h : c.Queued cfg flat pend waiting) (hbusy : 0 < c.mshrCount)
    (f : Mshr -> Mshr) :
    window cfg.mshrEntries (modifyAt c.mshr c.mshrHead f) (nextSlot cfg c.mshrHead)
      (c.mshrCount - 1) = (c.queue cfg).tail := by
  have hhead := h.headLt
  have hle := h.countLe
  have hnext : nextSlot cfg c.mshrHead < cfg.mshrEntries := by
    rw [nextSlot_eq hhead]
    exact wrapAdd_lt hhead (by omega)
  have hcongr : window cfg.mshrEntries (modifyAt c.mshr c.mshrHead f)
      (nextSlot cfg c.mshrHead) (c.mshrCount - 1)
        = window cfg.mshrEntries c.mshr (nextSlot cfg c.mshrHead) (c.mshrCount - 1) := by
    apply window_congr hnext (by omega)
    intro idx hidx
    apply modifyAt_of_ne
    intro heq
    rw [heq, nextSlot_eq hhead] at hidx
    exact not_inWindow_head_of_advance hhead (by omega) hidx
  rw [hcongr, nextSlot_eq hhead]
  unfold queue
  rw [@window_drop_one _ cfg.mshrEntries c.mshr c.mshrHead c.mshrCount hbusy]
  rfl

/--
What the miss registers hold after a cycle of writeback or fill.
-/
def queueNext (cfg : DCacheConfig) (c : DCache) (i : DCacheIn) : List Mshr :=
  (if c.mshrCompleteNow cfg i then (c.queue cfg).tail else c.queue cfg) ++
    (if c.mshrBusyDispatchMiss cfg i then [c.missEntry cfg i false 0 true] else [])

structure MovesQueue (cfg : DCacheConfig) (c : DCache) (i : DCacheIn) (c' : DCache) : Prop where
  mshr : c'.mshr = c.mshrNext cfg i
  head : c'.mshrHead = if c.mshrCompleteNow cfg i then nextSlot cfg c.mshrHead else c.mshrHead
  tail : c'.mshrTail =
    if c.mshrBusyDispatchMiss cfg i then nextSlot cfg c.mshrTail else c.mshrTail
  count : c'.mshrCount = c.mshrCountAfterComplete cfg i

theorem dispatchMiss_room (h : c.mshrBusyDispatchMiss cfg i = true) :
    1 < cfg.mshrEntries ∧ c.mshrCount < cfg.mshrEntries ∧
      c.mshrAddrLineConflict cfg i = false := by
  unfold mshrBusyDispatchMiss mshrRoom at h
  simp only [Bool.and_eq_true, decide_eq_true_eq, Bool.not_eq_true'] at h
  exact ⟨h.right.left.left, h.right.left.right, h.right.right⟩

theorem dispatchMiss_request (h : c.mshrBusyDispatchMiss cfg i = true) :
    i.cpu.read = true ∧ i.cpu.write = false ∧ c.hit cfg i = false := by
  unfold mshrBusyDispatchMiss at h
  simp only [Bool.and_eq_true, Bool.not_eq_true'] at h
  exact ⟨h.left.left.left.left.right, h.left.left.left.right, h.left.left.right⟩

/--
The ring after one release and one allocation.
-/
theorem MovesQueue.ring (hmoves : MovesQueue cfg c i c')
    (h : c.Queued cfg flat pend waiting) (hbusy : 0 < c.mshrCount) :
    c'.mshrHead < cfg.mshrEntries ∧ c'.mshrCount <= cfg.mshrEntries ∧
      c'.mshrTail = wrapAdd cfg.mshrEntries c'.mshrHead c'.mshrCount ∧
      c'.queue cfg = queueNext cfg c i := by
  have hhead := h.headLt
  have hle := h.countLe
  have htail := h.tail
  have hnextHead := @nextSlot_eq cfg _ hhead
  have hnextLt : nextSlot cfg c.mshrHead < cfg.mshrEntries := by
    rw [hnextHead]
    exact wrapAdd_lt hhead (by omega)
  unfold queue queueNext
  rw [hmoves.mshr, hmoves.head, hmoves.tail, hmoves.count]
  unfold mshrNext mshrCountAfterComplete
  cases hcomplete : c.mshrCompleteNow cfg i with
  | false =>
      cases hmiss : c.mshrBusyDispatchMiss cfg i with
      | false =>
          simp only [Bool.false_eq_true, if_false, Nat.add_zero, List.append_nil]
          exact ⟨hhead, hle, htail, rfl⟩
      | true =>
          have hroom := dispatchMiss_room hmiss
          have htailLt : c.mshrTail < cfg.mshrEntries := by
            rw [htail]
            exact wrapAdd_lt hhead hle
          simp only [Bool.false_eq_true, if_false, if_true]
          refine ⟨hhead, hroom.right.left, ?_, ?_⟩
          · rw [nextSlot_eq htailLt, htail, wrapAdd_wrapAdd hhead (by omega)]
          · rw [htail]
            exact window_push hhead hroom.right.left
  | true =>
      cases hmiss : c.mshrBusyDispatchMiss cfg i with
      | false =>
          simp only [Bool.false_eq_true, if_false, if_true, Nat.add_zero, List.append_nil]
          refine ⟨hnextLt, by omega, ?_, window_released h hbusy _⟩
          rw [htail, hnextHead, wrapAdd_wrapAdd hhead (by omega)]
          congr 1
          omega
      | true =>
          have hroom := dispatchMiss_room hmiss
          have htailLt : c.mshrTail < cfg.mshrEntries := by
            rw [htail]
            exact wrapAdd_lt hhead hle
          have htailNext : c.mshrTail
              = wrapAdd cfg.mshrEntries (nextSlot cfg c.mshrHead) (c.mshrCount - 1) := by
            rw [htail, hnextHead, wrapAdd_wrapAdd hhead (by omega)]
            congr 1
            omega
          simp only [if_true]
          refine ⟨hnextLt, by omega, ?_, ?_⟩
          · rw [nextSlot_eq htailLt, htailNext, wrapAdd_wrapAdd hnextLt (by omega)]
          · rw [htailNext, window_push hnextLt (by omega), window_released h hbusy]

/-!
# Joining the queue
-/

theorem Queued.mem_slot (h : c.Queued cfg flat pend waiting) {m : Mshr}
    (hm : m ∈ c.queue cfg) :
    exists idx, idx < cfg.mshrEntries ∧ m = c.mshr idx := by
  rcases (mem_window h.headLt h.countLe).mp hm with ⟨idx, hidx, heq⟩
  exact ⟨idx, inWindow_lt h.headLt h.countLe hidx, heq⟩

/--
A load joins the queue only if no entry has its line.
-/
theorem dispatchMiss_line (h : c.Queued cfg flat pend waiting)
    (hmiss : c.mshrBusyDispatchMiss cfg i = true) {m : Mshr} (hm : m ∈ c.queue cfg) :
    m.line cfg ≠ cfg.lineAddr i.cpu.addr := by
  intro hline
  have hok := h.ok m hm
  rcases h.mem_slot hm with ⟨idx, hidx, heq⟩
  have hnone := anyUpTo_eq_false.mp (dispatchMiss_room hmiss).right.right idx hidx
  have htag : m.tag = cfg.tag i.cpu.addr := by
    rw [hok.tag]
    unfold Geometry.tag
    rw [← hline]
    rfl
  have hset : m.set = cfg.setIdx i.cpu.addr := by
    rw [hok.set]
    unfold Geometry.setIdx
    rw [← hline]
    rfl
  rw [← heq, hok.valid, htag, hset] at hnone
  simp at hnone

/--
While a blocking miss is served its issuer is on the port, and neither joins the
queue nor hits.
-/
theorem blocking_holds (h : c.Inv cfg mem flat pend waiting) (hlegal : c.Legal pend i)
    {m : Mshr} (hm : m ∈ c.queue cfg) (hblocking : m.earlyRetired = false) :
    m.Serves i.cpu ∧ i.cpu.active = true ∧ c.mshrBusyDispatchMiss cfg i = false ∧
      c.mshrBusyDispatchHit cfg i = false := by
  rcases h.queued.blocking m hm hblocking with ⟨_, _, p, hp, hserves⟩
  have hcpu := hlegal.held p hp
  subst hcpu
  have hline : m.line cfg = cfg.lineAddr i.cpu.addr := by
    unfold Mshr.line
    rw [hserves.left]
  refine ⟨hserves, (h.ported.request _ hp).active, ?_, ?_⟩
  · cases hmiss : c.mshrBusyDispatchMiss cfg i with
    | false => rfl
    | true => exact absurd hline (dispatchMiss_line h.queued hmiss hm)
  · cases hhit : c.hitMain cfg i with
    | false =>
        unfold mshrBusyDispatchHit
        rw [hhit, Bool.and_false]
    | true =>
        have hselects := LineArray.hit_selects h.wellFormed hhit
        exact absurd (hselects.right.left.trans hline.symm)
          ((h.queued.unheld m hm).left _ hselects.left)

theorem missEntry_ok (h : c.array.WellFormed cfg.toGeometry) (isWrite : Bool) (wdata : Word)
    (early : Bool) (hearly : early = true -> isWrite = false ∧ 1 < cfg.mshrEntries) :
    (c.missEntry cfg i isWrite wdata early).Ok cfg where
  valid := rfl
  set := rfl
  tag := rfl
  base := rfl
  wordOff := rfl
  byteOff := rfl
  way := LineArray.victimTargetWay_lt h _
  wbLine := rfl
  early := hearly

theorem mem_queueNext {m : Mshr} (hm : m ∈ queueNext cfg c i) :
    m ∈ c.queue cfg ∨
      (c.mshrBusyDispatchMiss cfg i = true ∧ m = c.missEntry cfg i false 0 true) := by
  unfold queueNext at hm
  rcases List.mem_append.mp hm with hold | hnew
  · split at hold
    · exact Or.inl (List.mem_of_mem_tail hold)
    · exact Or.inl hold
  · split at hnew
    · next hmiss => exact Or.inr ⟨hmiss, List.mem_singleton.mp hnew⟩
    · cases hnew

theorem queueNext_pairwise {r : Mshr -> Mshr -> Prop} (h : (c.queue cfg).Pairwise r)
    (hnew : c.mshrBusyDispatchMiss cfg i = true ->
      forall m, m ∈ c.queue cfg -> r m (c.missEntry cfg i false 0 true)) :
    (queueNext cfg c i).Pairwise r := by
  unfold queueNext
  apply List.pairwise_append.mpr
  refine ⟨?_, ?_, ?_⟩
  · split
    · exact h.tail
    · exact h
  · split
    · exact List.pairwise_singleton _ _
    · exact List.Pairwise.nil
  · intro m hm m' hm'
    split at hm'
    · next hmiss =>
        rw [List.mem_singleton.mp hm']
        apply hnew hmiss
        split at hm
        · exact List.mem_of_mem_tail hm
        · exact hm
    · cases hm'

/-!
# Lines that are to be fetched
-/

theorem entry_ne_request (h : c.Inv cfg mem flat pend waiting)
    (hvc : c.vcLookupHit cfg i = false) {e : Nat} (he : e < cfg.victimEntries)
    (hvalid : (c.vc.entry e).valid = true) :
    (c.vc.entry e).tag ≠ cfg.lineAddr i.cpu.addr := by
  rw [← vcLookupTag_eq h.severalSets]
  exact VictimCache.not_held_of_miss hvc he hvalid

theorem copyAt_ne_request (h : c.Inv cfg mem flat pend waiting)
    (hvc : c.vcLookupHit cfg i = false) {e : Nat} {d : LineCopy cfg.toGeometry}
    (he : c.vc.copyAt cfg.toGeometry cfg.victimEntries e = some d) :
    d.addr ≠ cfg.lineAddr i.cpu.addr := by
  unfold VictimCache.copyAt at he
  split at he
  · next hcond =>
      cases he
      exact entry_ne_request h hvc hcond.left hcond.right
  · cases he

/--
The line of an entry is neither in the main array nor in the victim buffer, also when
the entry joins.
-/
theorem unheld_of_queue (h : c.Inv cfg mem flat pend waiting) {m : Mshr}
    (hm : m ∈ queueNext cfg c i) :
    (forall line, c.array.valid line = true ->
      c.array.lineAddr cfg.toGeometry line ≠ m.line cfg) ∧
    (forall e d, c.vc.copyAt cfg.toGeometry cfg.victimEntries e = some d ->
      d.addr ≠ m.line cfg) := by
  rcases mem_queueNext hm with hold | ⟨hmiss, rfl⟩
  · exact h.queued.unheld m hold
  · have hhit := (dispatchMiss_request hmiss).right.right
    unfold hit at hhit
    obtain ⟨hmain, hvc⟩ := Bool.or_eq_false_iff.mp hhit
    constructor
    · intro line hline
      exact LineArray.not_held_of_miss h.wellFormed hmain hline
    · intro e d he
      exact copyAt_ne_request h hvc he

/--
When no line is on its way out of the buffer, no copy of the line is left.
-/
theorem unheld_copies (h : c.Inv cfg mem flat pend waiting) (hout : c.vwbPending = false)
    {m : Mshr} (hm : m ∈ c.queue cfg) {s : Slot} {d : LineCopy cfg.toGeometry}
    (hs : c.copies cfg s = some d) :
    d.addr ≠ m.line cfg := by
  have hunheld := h.queued.unheld m hm
  cases s with
  | way line =>
      obtain ⟨hvalid, _, rfl⟩ := LineArray.copyAt_eq_some.mp hs
      exact hunheld.left line hvalid
  | victim e => exact hunheld.right e d hs
  | leaving =>
      have hnone : c.leavingCopy cfg = some d := hs
      rw [leavingCopy_none hout] at hnone
      cases hnone

theorem mshrAccept_busy (hidle : c.state ≠ .idle) :
    c.mshrAccept cfg i = c.mshrBusyDispatchMiss cfg i := by
  unfold mshrAccept mshrFreshLoadMiss freshDispatchOk
  rw [beq_eq_false_iff_ne.mpr hidle]
  simp

/--
A blocking miss that is not completed stays alone in the queue, with its issuer on
the port.
-/
theorem blocking_stays (h : c.Inv cfg mem flat pend waiting) (hlegal : c.Legal pend i)
    (hidle : c.state ≠ .idle) (hbusy : 0 < c.mshrCount)
    (hhu : c'.huPending = c.mshrBusyDispatchHit cfg i)
    (hready : c.mshrCompleteNow cfg i = false -> c.head.earlyRetired = false ->
      c.respReady cfg i = false)
    {m : Mshr} (hm : m ∈ queueNext cfg c i) (hblocking : m.earlyRetired = false) :
    queueNext cfg c i = [m] ∧ c'.huPending = false ∧
      exists p, c.pendNext cfg i = some p ∧ m.Serves p := by
  rcases mem_queueNext hm with hold | ⟨_, rfl⟩
  · have halone := (h.queued.blocking m hold hblocking).left
    obtain ⟨hserves, hactive, hmiss, hhit⟩ := blocking_holds h hlegal hold hblocking
    have hhead : c.head = m := by
      have hcons := @queue_cons cfg c hbusy
      rw [halone] at hcons
      exact (List.cons.inj hcons).left.symm
    unfold queueNext at hm ⊢
    rw [halone, hmiss] at hm ⊢
    cases hcomplete : c.mshrCompleteNow cfg i with
    | true =>
        rw [hcomplete] at hm
        cases hm
    | false =>
        refine ⟨rfl, hhu.trans hhit, i.cpu, ?_, hserves⟩
        unfold pendNext
        rw [if_pos]
        refine ⟨hactive, hready hcomplete (by rw [hhead]; exact hblocking), ?_⟩
        rw [mshrAccept_busy hidle]
        exact hmiss
  · cases hblocking

/--
The values that are awaited move with the queue.
-/
theorem awaited_next (h : c.Inv cfg mem flat pend waiting) (hidle : c.state ≠ .idle)
    (hbusy : 0 < c.mshrCount)
    (hflat : queueNext cfg c i ≠ [] -> c.flatNext cfg flat i = flat) :
    c.waitingNext cfg flat waiting i
      = ((queueNext cfg c i).filter (fun m => m.earlyRetired)).map
          (fun m => (m.destReg, (c.flatNext cfg flat i).load m.origAddr m.funct3)) := by
  have hvalues : ((queueNext cfg c i).filter (fun m => m.earlyRetired)).map
      (fun m => (m.destReg, (c.flatNext cfg flat i).load m.origAddr m.funct3))
        = ((queueNext cfg c i).filter (fun m => m.earlyRetired)).map
            (fun m => (m.destReg, flat.load m.origAddr m.funct3)) := by
    by_cases hempty : queueNext cfg c i = []
    · rw [hempty]
      rfl
    · rw [hflat hempty]
  rw [hvalues]
  -- the entry that joins is the load that is accepted
  have hjoin : (if c.mshrAccept cfg i then
        [(i.cpu.destReg, flat.load i.cpu.addr i.cpu.funct3)] else [])
      = ((if c.mshrBusyDispatchMiss cfg i then [c.missEntry cfg i false 0 true] else []).filter
          (fun m => m.earlyRetired)).map
            (fun m => (m.destReg, flat.load m.origAddr m.funct3)) := by
    rw [mshrAccept_busy hidle]
    cases c.mshrBusyDispatchMiss cfg i <;> rfl
  unfold waitingNext queueNext
  rw [hjoin, List.filter_append, List.map_append]
  congr 1
  have hawaited := h.queued.awaited
  unfold mshrComplete
  cases hcomplete : c.mshrCompleteNow cfg i with
  | false => exact hawaited
  | true =>
      rw [Bool.true_and, if_pos rfl]
      have hcons := @queue_cons cfg c hbusy
      cases hearly : c.head.earlyRetired with
      | true =>
          rw [hcons, List.filter_cons_of_pos hearly] at hawaited
          rw [if_pos rfl, hawaited]
          rfl
      | false =>
          have halone := (h.queued.blocking c.head (head_mem hbusy) hearly).left
          rw [if_neg Bool.false_ne_true, hawaited, halone]
          simp [hearly]

/--
The queue after a cycle of writeback or fill.  What remains to be said is where
the lines of its entries are.
-/
theorem queued_busy (h : c.Inv cfg mem flat pend waiting) (hlegal : c.Legal pend i)
    (hsound : c.Sound cfg pend i) (hidle : c.state ≠ .idle) (hbusy : 0 < c.mshrCount)
    (hmoves : MovesQueue cfg c i c') (hhu : c'.huPending = c.mshrBusyDispatchHit cfg i)
    (hready : c.mshrCompleteNow cfg i = false -> c.head.earlyRetired = false ->
      c.respReady cfg i = false)
    (hflat : queueNext cfg c i ≠ [] -> c.flatNext cfg flat i = flat)
    (hvc : c'.vc = c.vc)
    (hunheld : forall m, m ∈ queueNext cfg c i -> forall line, c'.array.valid line = true ->
      c'.array.lineAddr cfg.toGeometry line ≠ m.line cfg)
    (hbehind : forall m, m ∈ (queueNext cfg c i).tail ->
      m.needWb = (c'.array.valid m.wbLine && c'.array.dirty m.wbLine) ∧
      (m.needWb = true ->
        m.wbBase = cfg.lineBase (c'.array.lineAddr cfg.toGeometry m.wbLine))) :
    c'.Queued cfg (c.flatNext cfg flat i) (c.pendNext cfg i)
      (c.waitingNext cfg flat waiting i) := by
  obtain ⟨hhead, hcount, htail, hqueue⟩ := hmoves.ring h.queued hbusy
  exact
    { headLt := hhead
      countLe := hcount
      tail := htail
      ok := by
        intro m hm
        rw [hqueue] at hm
        rcases mem_queueNext hm with hold | ⟨hmiss, rfl⟩
        · exact h.queued.ok m hold
        · exact missEntry_ok h.wellFormed _ _ _
            (fun _ => ⟨rfl, (dispatchMiss_room hmiss).left⟩)
      unheld := by
        rw [hqueue, hvc]
        intro m hm
        exact ⟨hunheld m hm, (unheld_of_queue h hm).right⟩
      lines := by
        rw [hqueue]
        apply queueNext_pairwise h.queued.lines
        intro hmiss m hm
        exact dispatchMiss_line h.queued hmiss hm
      reserved := by
        rw [hqueue]
        apply queueNext_pairwise h.queued.reserved
        intro hmiss m hm hneed heq
        exact hsound.reserve hmiss hneed m hm heq.symm
      behind := by
        rw [hqueue]
        exact hbehind
      blocking := by
        rw [hqueue]
        intro m hm hblocking
        exact blocking_stays h hlegal hidle hbusy hhu hready hm hblocking
      awaited := by
        rw [hqueue]
        exact awaited_next h hidle hbusy hflat }

/-!
# The port while a miss is served
-/

theorem MovesQueue.head_eq (hmoves : MovesQueue cfg c i c')
    (h : c.Queued cfg flat pend waiting) (hbusy : 0 < c.mshrCount)
    (hcomplete : c.mshrCompleteNow cfg i = false) :
    0 < c'.mshrCount ∧ c'.head = c.head := by
  have hqueue := (hmoves.ring h hbusy).right.right.right
  have hpos : 0 < c'.mshrCount := by
    rw [hmoves.count]
    unfold mshrCountAfterComplete
    rw [hcomplete, if_neg Bool.false_ne_true]
    omega
  refine ⟨hpos, ?_⟩
  unfold queueNext at hqueue
  rw [hcomplete, if_neg Bool.false_ne_true, queue_cons hpos, queue_cons hbusy,
    List.cons_append] at hqueue
  exact (List.cons.inj hqueue).left

theorem blocking_of_single (h : c.Inv cfg mem flat pend waiting)
    (hone : cfg.mshrEntries = 1) (hbusy : 0 < c.mshrCount) :
    c.head.earlyRetired = false := by
  cases hearly : c.head.earlyRetired with
  | false => rfl
  | true =>
      have hmore := ((h.queued.ok _ (head_mem hbusy)).early hearly).right
      omega

theorem dispatchHit_of_single (h : c.Inv cfg mem flat pend waiting)
    (hlegal : c.Legal pend i) (hone : cfg.mshrEntries = 1) (hbusy : 0 < c.mshrCount) :
    c.mshrBusyDispatchHit cfg i = false :=
  (blocking_holds h hlegal (head_mem hbusy) (blocking_of_single h hone hbusy)).right.right.right

theorem dispatchMiss_of_single (hone : cfg.mshrEntries = 1) :
    c.mshrBusyDispatchMiss cfg i = false := by
  cases hmiss : c.mshrBusyDispatchMiss cfg i with
  | false => rfl
  | true =>
      have hmore := (dispatchMiss_room hmiss).left
      omega

/--
A single miss register never accepts a load early.
-/
theorem mshrAccept_of_single (hone : cfg.mshrEntries = 1) : c.mshrAccept cfg i = false := by
  unfold mshrAccept mshrFreshLoadMiss
  rw [dispatchMiss_of_single hone, hone]
  simp

theorem waitingNext_of_single (hone : cfg.mshrEntries = 1) :
    c.waitingNext cfg flat [] i = [] := by
  unfold waitingNext
  rw [mshrAccept_of_single hone]
  simp

/--
Hit-under-miss reads the flat memory's word, unless the line is being overwritten
there.
-/
theorem hitData_current (h : c.Inv cfg mem flat pend waiting) (hhit : c.hitMain cfg i = true)
    (hdead : c.dead cfg = some (c.hitLineIdx cfg i) ->
      c.array.data (c.hitLineIdx cfg i, cfg.wordOff i.cpu.addr)
        = flat (c.array.lineAddr cfg.toGeometry (c.hitLineIdx cfg i))
            (LineMem.offset _ i.cpu.addr)) :
    c.hitData cfg i = flat.read i.cpu.addr := by
  have hselects := LineArray.hit_selects h.wellFormed hhit
  unfold LineMem.read
  rw [← hselects.right.left]
  by_cases hline : c.dead cfg = some (c.hitLineIdx cfg i)
  · exact hselects.right.right.trans (hdead hline)
  · have hcurrent := way_current h.coherent hselects.left hline
    rw [← hcurrent]
    exact hselects.right.right

theorem dispatchHit_request (h : c.mshrBusyDispatchHit cfg i = true) :
    i.cpu.read = true ∧ i.cpu.write = false ∧ c.hitMain cfg i = true := by
  unfold mshrBusyDispatchHit at h
  simp only [Bool.and_eq_true, Bool.not_eq_true'] at h
  exact ⟨h.left.left.right, h.left.right, h.right⟩

theorem ported_busy (h : c.Inv cfg mem flat pend waiting) (hlegal : c.Legal pend i)
    (hbusy : 0 < c.mshrCount) (hflush : c'.flushActive = c.flushActive)
    (hhu : c'.huPending = c.mshrBusyDispatchHit cfg i)
    (hdata : c'.huData =
      if c.mshrBusyDispatchHit cfg i then
        extendRead (c.hitData cfg i) i.cpu.funct3 (byteOff i.cpu.addr)
      else c.huData)
    (hstate : c'.state ≠ .hitRd)
    (hcurrent : c.mshrBusyDispatchHit cfg i = true ->
      c.hitData cfg i = flat.read i.cpu.addr ∧
        c'.array.hitMain cfg.toGeometry i.cpu.addr = true) :
    c'.Ported cfg (c.flatNext cfg flat i) (c.pendNext cfg i) := by
  apply ported_next hlegal
  · intro _ hnext
    rw [← hflush]
    exact hnext
  · intro htrue p hp
    rw [hhu] at htrue
    have hrequest := dispatchHit_request htrue
    rcases pendNext_eq_some hp with ⟨rfl, _⟩
    refine ⟨hrequest.left, ?_, (hcurrent htrue).right⟩
    rw [hdata, if_pos htrue, flatNext_of_not_write hrequest.right.left, (hcurrent htrue).left]
    rfl
  · intro hone
    refine ⟨hhu.trans (dispatchHit_of_single h hlegal hone hbusy), ?_⟩
    intro hrd
    exact absurd hrd hstate

/-!
# The invariant while a miss is served
-/

theorem invNext_busy (h : c.Inv cfg mem flat pend waiting) (hlegal : c.Legal pend i)
    (hsound : c.Sound cfg pend i) (hidle : c.state ≠ .idle) (hbusy : 0 < c.mshrCount)
    (hmoves : MovesQueue cfg c i c') (hhu : c'.huPending = c.mshrBusyDispatchHit cfg i)
    (hdata : c'.huData =
      if c.mshrBusyDispatchHit cfg i then
        extendRead (c.hitData cfg i) i.cpu.funct3 (byteOff i.cpu.addr)
      else c.huData)
    (hflush : c'.flushActive = c.flushActive) (hdone : c'.flushDone = false)
    (hstate : c'.state ≠ .hitRd)
    (hready : c.mshrCompleteNow cfg i = false -> c.head.earlyRetired = false ->
      c.respReady cfg i = false)
    (hcurrent : c.mshrBusyDispatchHit cfg i = true ->
      c.hitData cfg i = flat.read i.cpu.addr ∧
        c'.array.hitMain cfg.toGeometry i.cpu.addr = true)
    (hflat : queueNext cfg c i ≠ [] -> c.flatNext cfg flat i = flat)
    (hwf : c'.array.WellFormed cfg.toGeometry)
    (hbuffered : cfg.victimEntries ≠ 0 -> c'.Buffered cfg)
    (hcoherent : Coherent (c'.copies cfg) (c.memNext cfg mem i) (c.flatNext cfg flat i))
    (hvc : c'.vc = c.vc)
    (hunheld : forall m, m ∈ queueNext cfg c i -> forall line, c'.array.valid line = true ->
      c'.array.lineAddr cfg.toGeometry line ≠ m.line cfg)
    (hbehind : forall m, m ∈ (queueNext cfg c i).tail ->
      m.needWb = (c'.array.valid m.wbLine && c'.array.dirty m.wbLine) ∧
      (m.needWb = true ->
        m.wbBase = cfg.lineBase (c'.array.lineAddr cfg.toGeometry m.wbLine)))
    (hphase : c'.Phase cfg (c.memNext cfg mem i) (c.flatNext cfg flat i) (c.pendNext cfg i)) :
    InvNext cfg c mem flat waiting i c' where
  severalSets := h.severalSets
  wellFormed := hwf
  buffered := hbuffered
  coherent := hcoherent
  queued := queued_busy h hlegal hsound hidle hbusy hmoves hhu hready hflat hvc hunheld hbehind
  ported := ported_busy h hlegal hbusy hflush hhu hdata hstate hcurrent
  phase := hphase
  flushed := by
    intro htrue
    rw [hdone] at htrue
    cases htrue

/--
A miss that joins takes the victim way of its set, which is due after those of the
others.
-/
theorem inTurn_joined (h : c.Inv cfg mem flat pend waiting) (hentries : cfg.victimEntries ≠ 0)
    (hpolicy : cfg.policy ≠ .lru) :
    c.array.InTurn cfg.toGeometry
      ((c.queue cfg ++ if c.mshrBusyDispatchMiss cfg i then [c.missEntry cfg i false 0 true]
        else []).map (fun m => (m.set, m.way))) := by
  have hturn := (h.buffered hentries).inTurn hpolicy
  rw [List.map_append]
  split
  · have hway : c.victimTargetWay cfg i = c.array.victim (cfg.setIdx i.cpu.addr) :=
      LineArray.victimTargetWay_of_pointer hpolicy _
    have hjoined := hturn.join (cfg.setIdx i.cpu.addr)
    rw [← hway] at hjoined
    exact hjoined
  · rw [List.map_nil, List.append_nil]
    exact hturn

/--
A victim buffer while a miss is served.
-/
theorem buffered_busy (h : c.Inv cfg mem flat pend waiting) (hbusy : 0 < c.mshrCount)
    (hentries : cfg.victimEntries ≠ 0) (hmoves : MovesQueue cfg c i c') (hvc : c'.vc = c.vc)
    (hcomplete : c.mshrCompleteNow cfg i = false)
    (hvalid : c'.array.valid = c.array.valid) (hvictim : c'.array.victim = c.array.victim)
    (hage : c'.array.age = c.array.age) :
    c'.Buffered cfg := by
  have hbuffered := h.buffered hentries
  apply buffered_congr hbuffered hvc
  · apply hbuffered.packed.congr
    · intro k
      rw [hage]
    · intro set
      exact Or.inr (by rw [hvictim])
    · intro line
      rw [hvalid]
  · intro line hline
    rw [hvalid]
    exact hline
  · intro hpolicy
    rw [(hmoves.ring h.queued hbusy).right.right.right]
    unfold queueNext
    rw [hcomplete, if_neg Bool.false_ne_true]
    exact (inTurn_joined h hentries hpolicy).congr hvalid hvictim

end DCache
end Cache
end RvCores
