import RvCores.Cache.Fill

/-!
# Misses and promotions

A request that hits nowhere allocates a miss register and gives up a way.  With a
victim buffer the line in that way moves to the buffer; a request that hits in the
buffer exchanges the two lines instead.
-/

namespace RvCores
namespace Cache

open Isa Lib

namespace DCache

variable {cfg : DCacheConfig} {c c' : DCache} {i : DCacheIn}
  {mem flat : LineMem cfg.toGeometry} {pend : Option CpuPort}
  {waiting : List (Nat × Word)}

/-!
# The cycle of a miss
-/

/--
The entry allocated for a request that misses in the idle state.
-/
def freshEntry (cfg : DCacheConfig) (c : DCache) (i : DCacheIn) : Mshr :=
  c.missEntry cfg i i.cpu.write i.cpu.wdata (c.mshrFreshLoadMiss cfg i)

/--
What a miss does: the bus goes to the dirty line of the way, else to the dirty line
that leaves the victim buffer, else to the missing line.
-/
structure StartsMiss (cfg : DCacheConfig) (c : DCache) (i : DCacheIn) (c' : DCache) : Prop where
  array : c'.array = c.array
  vc : c'.vc = c.vcNext cfg i
  mshr : c'.mshr = setAt c.mshr c.mshrTail (freshEntry cfg c i)
  head : c'.mshrHead = c.mshrHead
  tail : c'.mshrTail = nextSlot cfg c.mshrTail
  count : c'.mshrCount = c.mshrCount + 1
  hu : c'.huPending = false
  flush : c'.flushActive = c.flushActive
  done : c'.flushDone = false
  pending : c'.vwbPending = c.evictOutDirty cfg i
  vwbTag : c'.vwbTag = c.vc.evictOut.tag
  vwbData : c'.vwbData = c.vc.evictOut.data
  word : c'.fillWord = 0
  branch :
    (c.victimNeedsWb cfg i = true ∧ c'.state = .wb ∧ c'.vwbActive = false ∧
      c'.wbLine = c.victimLine cfg i ∧ c'.wbBase = c.victimBase cfg i ∧
      c'.wbReturnToFlush = false) ∨
    (c.victimNeedsWb cfg i = false ∧ c.evictOutDirty cfg i = true ∧ c'.state = .wb ∧
      c'.vwbActive = true ∧ c'.wbBase = cfg.lineBase c.vc.evictOut.tag) ∨
    (c.victimNeedsWb cfg i = false ∧ c.evictOutDirty cfg i = false ∧ c'.state = .fill ∧
      c'.vwbActive = false)

theorem step_startsMiss (hlegal : c.Legal pend i) (hbacked : c.Backed cfg mem i)
    (hstate : c.state = .idle) (hactive : i.cpu.active = true)
    (hmain : c.hitMain cfg i = false) (hvc : c.vcLookupHit cfg i = false) :
    StartsMiss cfg c i (c.step cfg i) := by
  have hbusy := not_busy_idle hstate
  have haccess : c.accessHit cfg i = false := by
    unfold accessHit hit
    rw [hitAnswers_of_not_hitRd (by simp [hstate]), hmain, hvc]
    simp
  have hcommon := @common_of_not_busy cfg c i hbusy hbacked.noProbe
  have hstep : c.step cfg i = c.miss cfg i (c.common cfg i) := by
    rw [step_idle hstate]
    unfold idleStep
    rw [hactive, hmain, hvc, (hlegal.noFlush hactive).left]
    rfl
  have harray : (c.common cfg i).array = c.array := by
    rw [hcommon, touchedAge_of_no_hit haccess]
  have hmshr : (c.common cfg i).mshr = c.mshr := by rw [hcommon]
  have hhead : (c.common cfg i).mshrHead = c.mshrHead := by rw [hcommon]
  have hhu : (c.common cfg i).huPending = false := by rw [hcommon]
  rw [hstep]
  unfold miss
  split
  · next hneed =>
      exact
        { array := harray, vc := rfl, mshr := by rw [hmshr]; rfl, head := hhead, tail := rfl
          count := rfl, hu := hhu, flush := rfl, done := rfl, pending := rfl, vwbTag := rfl
          vwbData := rfl, word := rfl
          branch := Or.inl ⟨hneed, rfl, rfl, rfl, rfl, rfl⟩ }
  · next hneed =>
      have hclean := Bool.eq_false_iff.mpr hneed
      split
      · next hdirty =>
          exact
            { array := harray, vc := rfl, mshr := by rw [hmshr]; rfl, head := hhead
              tail := rfl, count := rfl, hu := hhu, flush := rfl, done := rfl, pending := rfl
              vwbTag := rfl, vwbData := rfl, word := rfl
              branch := Or.inr (Or.inl ⟨hclean, hdirty, rfl, rfl, rfl⟩) }
      · next hdirty =>
          exact
            { array := harray, vc := rfl, mshr := by rw [hmshr]; rfl, head := hhead
              tail := rfl, count := rfl, hu := hhu, flush := rfl, done := rfl, pending := rfl
              vwbTag := rfl, vwbData := rfl, word := rfl
              branch := Or.inr (Or.inr ⟨hclean, Bool.eq_false_iff.mpr hdirty, rfl, rfl⟩) }

theorem StartsMiss.queue (hmiss : StartsMiss cfg c i c') (h : c.Queued cfg flat pend waiting)
    (hempty : c.mshrCount = 0) :
    c'.queue cfg = [freshEntry cfg c i] ∧ c'.head = freshEntry cfg c i ∧
      0 < c'.mshrCount ∧ c'.fillLine cfg = c.victimLine cfg i := by
  have htail := h.tail_eq_head hempty
  have hhead : c'.head = freshEntry cfg c i := by
    unfold DCache.head
    rw [hmiss.mshr, hmiss.head, htail, setAt_self]
  have hpos : 0 < c'.mshrCount := by
    rw [hmiss.count]
    omega
  refine ⟨?_, hhead, hpos, ?_⟩
  · have hcons := @queue_cons cfg c' hpos
    have hlen : (c'.queue cfg).length = c'.mshrCount := window_length _ _ _ _
    rw [hmiss.count, hempty] at hlen
    rw [hcons, hhead]
    congr 1
    apply List.eq_nil_of_length_eq_zero
    rw [List.length_tail, hlen]
  · unfold fillLine
    rw [hhead]
    rfl

theorem mshrAccept_idle (hstate : c.state = .idle) :
    c.mshrAccept cfg i = c.mshrFreshLoadMiss cfg i := by
  unfold mshrAccept
  rw [dispatchMiss_of_not_busy (not_busy_idle hstate), Bool.or_false]

theorem freshLoadMiss_request (h : c.mshrFreshLoadMiss cfg i = true) :
    i.cpu.write = false ∧ 1 < cfg.mshrEntries := by
  unfold mshrFreshLoadMiss at h
  simp only [Bool.and_eq_true, Bool.not_eq_true', decide_eq_true_eq] at h
  exact ⟨h.left.left.left.right, h.right⟩

/--
A request that misses is not answered in its first cycle.
-/
theorem respReady_miss (h : c.Inv cfg mem flat pend waiting) (hlegal : c.Legal pend i)
    (hsound : c.Sound cfg pend i) (hstate : c.state = .idle) (hactive : i.cpu.active = true)
    (hmain : c.hitMain cfg i = false) (hvc : c.vcLookupHit cfg i = false) :
    c.respReady cfg i = false := by
  rw [respReady_idle hstate]
  unfold hit
  rw [hmain, hvc]
  cases hhu : c.huPending with
  | false => rfl
  | true =>
      have hanswer := hu_answers h.ported hlegal hsound hhu hactive
      rw [hmain] at hanswer
      cases hanswer.right.right.right

theorem queued_miss (h : c.Inv cfg mem flat pend waiting) (hmiss : StartsMiss cfg c i c')
    (hstate : c.state = .idle) (hempty : c.mshrCount = 0) (hactive : i.cpu.active = true)
    (hready : c.respReady cfg i = false)
    (hunheld : (forall line, c'.array.valid line = true ->
        c'.array.lineAddr cfg.toGeometry line ≠ cfg.lineAddr i.cpu.addr) ∧
      (forall e d, c'.vc.copyAt cfg.toGeometry cfg.victimEntries e = some d ->
        d.addr ≠ cfg.lineAddr i.cpu.addr)) :
    c'.Queued cfg flat (c.pendNext cfg i) (c.waitingNext cfg flat waiting i) := by
  have hqueue := (hmiss.queue h.queued hempty).left
  have hhead := h.queued.headLt
  have htail := h.queued.tail_eq_head hempty
  exact
    { headLt := by
        rw [hmiss.head]
        exact hhead
      countLe := by
        rw [hmiss.count, hempty]
        omega
      tail := by
        rw [hmiss.tail, hmiss.head, hmiss.count, hempty, htail, nextSlot_eq hhead]
      ok := by
        intro m hm
        rw [hqueue] at hm
        rw [List.mem_singleton.mp hm]
        exact missEntry_ok h.wellFormed _ _ _ freshLoadMiss_request
      unheld := by
        intro m hm
        rw [hqueue] at hm
        rw [List.mem_singleton.mp hm]
        exact hunheld
      lines := by
        rw [hqueue]
        exact List.pairwise_singleton _ _
      reserved := by
        rw [hqueue]
        exact List.pairwise_singleton _ _
      behind := by
        intro m hm
        rw [hqueue] at hm
        cases hm
      blocking := by
        intro m hm hblocking
        rw [hqueue] at hm
        have heq := List.mem_singleton.mp hm
        rw [heq] at hblocking ⊢
        refine ⟨hqueue, hmiss.hu, i.cpu, ?_, rfl, rfl, rfl, rfl⟩
        unfold pendNext
        rw [if_pos]
        refine ⟨hactive, hready, ?_⟩
        rw [mshrAccept_idle hstate]
        exact hblocking
      awaited := by
        rw [hqueue]
        unfold waitingNext
        rw [mshrComplete_of_not_busy (not_busy_idle hstate), h.queued.waiting_nil hempty,
          mshrAccept_idle hstate]
        cases hearly : c.mshrFreshLoadMiss cfg i with
        | false =>
            have hentry : (freshEntry cfg c i).earlyRetired = false := hearly
            simp [hentry]
        | true =>
            have hentry : (freshEntry cfg c i).earlyRetired = true := hearly
            simp only [Bool.false_eq_true, if_false, if_true, List.nil_append,
              List.filter_cons, hentry, List.filter_nil, List.map_cons, List.map_nil]
            rfl }

/-!
# Moving a line to the victim buffer
-/

theorem vcNext_insert (h : c.Inv cfg mem flat pend waiting) (hentries : cfg.victimEntries ≠ 0)
    (hswap : c.vcDoSwap cfg i = false) (hinsert : c.vcDoInsert cfg i = true) :
    c.vcNext cfg i =
      { entry := modifyAt c.vc.entry c.vc.fifoNext
          (VictimCache.insertIn (c.leavingLine cfg i))
        fifoNext := c.vc.nextFifo cfg.victimEntries } := by
  unfold vcNext VictimCache.step
  rw [if_neg hentries, hswap, hinsert, outgoingLine_eq h]
  rfl

theorem vcCopy_of_ne {vc vc' : VictimCache} {n f e : Nat} {g : Geometry}
    (hentry : e ≠ f -> vc'.entry e = vc.entry e) (hne : e ≠ f) :
    vc'.copyAt g n e = vc.copyAt g n e := by
  unfold VictimCache.copyAt
  rw [hentry hne]

theorem StartsMiss.dead (hmiss : StartsMiss cfg c i c') (h : c.Queued cfg flat pend waiting)
    (hquiet : c.Quiet) (hdead : c'.state = .fill ∨ c'.moved cfg = true) :
    c'.dead cfg = some (c.victimLine cfg i) := by
  have hline := (hmiss.queue h hquiet.empty).right.right.right
  unfold DCache.dead
  rw [if_pos, hline]
  rcases hdead with hfill | hmoved
  · exact Or.inl hfill
  · rcases hmiss.branch with ⟨_, hwb, _⟩ | ⟨_, _, hwb, _⟩ | ⟨_, _, hfill, _⟩
    · exact Or.inr ⟨hwb, hmiss.flush.trans hquiet.noFlush, hmoved⟩
    · exact Or.inr ⟨hwb, hmiss.flush.trans hquiet.noFlush, hmoved⟩
    · exact Or.inl hfill

/--
The line of the victim way is in the buffer once it was inserted there.
-/
theorem StartsMiss.moved (hmiss : StartsMiss cfg c i c') (h : c.Inv cfg mem flat pend waiting)
    (hquiet : c.Quiet) (hentries : cfg.victimEntries ≠ 0)
    (hswap : c.vcDoSwap cfg i = false) (hinsert : c.vcDoInsert cfg i = true) :
    c'.moved cfg = true := by
  have hline := (hmiss.queue h.queued hquiet.empty).right.right.right
  have hvc : c'.vc = _ := hmiss.vc.trans (vcNext_insert h hentries hswap hinsert)
  unfold DCache.moved VictimCache.lookupHit
  rw [hline, hmiss.array]
  apply anyUpTo_iff.mpr
  refine ⟨c.vc.fifoNext, (h.buffered hentries).fifo, VictimCache.vcHit_iff.mpr ?_⟩
  have hentry : c'.vc.entry c.vc.fifoNext
      = VictimCache.insertIn (c.leavingLine cfg i) (c.vc.entry c.vc.fifoNext) := by
    rw [hvc]
    exact modifyAt_self _ _ _
  rw [hentry]
  exact ⟨rfl, rfl⟩

/--
A line is pushed out of the buffer only by the line of the victim way.
-/
theorem StartsMiss.moved_of_dirty (hmiss : StartsMiss cfg c i c')
    (h : c.Inv cfg mem flat pend waiting) (hquiet : c.Quiet)
    (hvc : c.vcLookupHit cfg i = false) (hdirty : c.evictOutDirty cfg i = true) :
    c'.moved cfg = true := by
  have hswap : c.vcDoSwap cfg i = false := by
    unfold vcDoSwap
    rw [hvc, Bool.and_false]
  unfold evictOutDirty at hdirty
  simp only [Bool.and_eq_true, bne_iff_ne] at hdirty
  exact hmiss.moved h hquiet hdirty.left.left.left hswap hdirty.left.left.right

/--
The line at the end of the buffer either is latched for its writeback or needs none.
-/
theorem coherent_pushOut (h : c.Inv cfg mem flat pend waiting) (hquiet : c.Quiet)
    (hentries : cfg.victimEntries ≠ 0) (hinsert : c.vcDoInsert cfg i = true) :
    Coherent
      (setAt (setAt (c.copies cfg) (.victim c.vc.fifoNext) none) .leaving
        (if c.evictOutDirty cfg i = true then
          some
            { addr := c.vc.evictOut.tag
              dirty := true
              data := fun w => c.vc.evictOut.data w }
        else none)) mem flat := by
  have hfifo := (h.buffered hentries).fifo
  have hout : c.copies cfg .leaving = none := leavingCopy_none hquiet.noPending
  have hcopy : c.copies cfg (.victim c.vc.fifoNext)
      = c.vc.copyAt cfg.toGeometry cfg.victimEntries c.vc.fifoNext := rfl
  cases hdirty : c.evictOutDirty cfg i with
  | true =>
      unfold evictOutDirty at hdirty
      simp only [Bool.and_eq_true] at hdirty
      rw [if_pos rfl]
      apply h.coherent.move _ hout
      rw [hcopy]
      unfold VictimCache.copyAt
      rw [if_pos ⟨hfifo, hdirty.left.right⟩]
      congr 2
      exact hdirty.right
  | false =>
      have hclean : forall d, c.copies cfg (.victim c.vc.fifoNext) = some d ->
          d.dirty = false := by
        intro d hd
        rw [hcopy] at hd
        unfold VictimCache.copyAt at hd
        split at hd
        · next hcond =>
            cases hd
            unfold evictOutDirty VictimCache.evictOut at hdirty
            rw [hinsert, hcond.right] at hdirty
            simpa [hentries] using hdirty
        · cases hd
      rw [if_neg Bool.false_ne_true]
      have hdrop : Coherent (setAt (c.copies cfg) (.victim c.vc.fifoNext) none) mem flat := by
        apply h.coherent.drop
        intro d hd
        exact h.coherent.mem_of_clean hd (hclean d hd)
      apply hdrop.drop
      intro d hd
      rw [setAt_of_ne (by simp), hout] at hd
      cases hd

/--
The copies once the line of the victim way is in the buffer.
-/
theorem copies_insert (h : c.Inv cfg mem flat pend waiting) (hmiss : StartsMiss cfg c i c')
    (hstate : c.state = .idle) (hquiet : c.Quiet) (hentries : cfg.victimEntries ≠ 0)
    (hswap : c.vcDoSwap cfg i = false) (hinsert : c.vcDoInsert cfg i = true) :
    c'.copies cfg =
      setAt
        (setAt
          (setAt (setAt (c.copies cfg) (.victim c.vc.fifoNext) none) .leaving
            (if c.evictOutDirty cfg i = true then
              some
                { addr := c.vc.evictOut.tag
                  dirty := true
                  data := fun w => c.vc.evictOut.data w }
            else none))
          (.way (c.victimLine cfg i)) none)
        (.victim c.vc.fifoNext)
        (some
          { addr := c.array.lineAddr cfg.toGeometry (c.victimLine cfg i)
            dirty := c.array.dirty (c.victimLine cfg i)
            data := c.array.lineData cfg.toGeometry (c.victimLine cfg i) }) := by
  have hfifo := (h.buffered hentries).fifo
  have hdead := @dead_idle cfg c hstate
  have hdead' := hmiss.dead h.queued hquiet
    (Or.inr (hmiss.moved h hquiet hentries hswap hinsert))
  have hvc : c'.vc = _ := hmiss.vc.trans (vcNext_insert h hentries hswap hinsert)
  funext s
  cases s with
  | way k =>
      rw [setAt_of_ne (by simp), setAt_apply]
      by_cases hk : k = c.victimLine cfg i
      · rw [if_pos (by rw [hk]), hk]
        unfold copies slotCopies
        rw [hdead']
        exact LineArray.copyAt_dead _
      · rw [if_neg (by simp [hk]), setAt_of_ne (by simp), setAt_of_ne (by simp)]
        unfold copies slotCopies
        rw [hdead', hdead, hmiss.array]
        apply LineArray.copyAt_congr rfl rfl rfl (fun _ _ => rfl)
        constructor
        · intro heq
          exact absurd (Option.some.inj heq).symm hk
        · intro heq
          cases heq
  | victim e =>
      rw [setAt_apply]
      by_cases he : e = c.vc.fifoNext
      · rw [if_pos (by rw [he]), he]
        have hentry : c'.vc.entry c.vc.fifoNext
            = VictimCache.insertIn (c.leavingLine cfg i) (c.vc.entry c.vc.fifoNext) := by
          rw [hvc]
          exact modifyAt_self _ _ _
        show c'.vc.copyAt cfg.toGeometry cfg.victimEntries c.vc.fifoNext = _
        unfold VictimCache.copyAt
        rw [hentry, if_pos ⟨hfifo, rfl⟩]
        rfl
      · rw [if_neg (by simp [he]), setAt_of_ne (by simp), setAt_of_ne (by simp),
          setAt_of_ne (by simp [he])]
        unfold copies slotCopies
        rw [hvc]
        exact vcCopy_of_ne (fun hne => modifyAt_of_ne hne) he
  | leaving =>
      rw [setAt_of_ne (by simp), setAt_of_ne (by simp), setAt_self]
      unfold copies slotCopies leavingCopy
      rw [hmiss.pending, hmiss.vwbTag, hmiss.vwbData]

theorem coherent_insert (h : c.Inv cfg mem flat pend waiting) (hmiss : StartsMiss cfg c i c')
    (hstate : c.state = .idle) (hquiet : c.Quiet) (hentries : cfg.victimEntries ≠ 0)
    (hswap : c.vcDoSwap cfg i = false) (hinsert : c.vcDoInsert cfg i = true)
    (hvalid : c.array.valid (c.victimLine cfg i) = true) :
    Coherent (c'.copies cfg) mem flat := by
  rw [copies_insert h hmiss hstate hquiet hentries hswap hinsert]
  apply (coherent_pushOut h hquiet hentries hinsert).move
  · rw [setAt_of_ne (by simp), setAt_of_ne (by simp)]
    exact copies_way hvalid (by simp [dead_idle hstate])
  · rw [setAt_of_ne (by simp), setAt_self]

/-!
# The invariant after a miss
-/

/--
Without a line to move, the copies are those of before without the way that is
given up.
-/
theorem coherent_giveUp (h : c.Inv cfg mem flat pend waiting) (hmiss : StartsMiss cfg c i c')
    (hstate : c.state = .idle) (hquiet : c.Quiet) (hvc : c'.vc = c.vc)
    (hpending : c'.vwbPending = false)
    (hdead : c'.dead cfg = none ∨
      (c'.dead cfg = some (c.victimLine cfg i) ∧ c.victimNeedsWb cfg i = false)) :
    Coherent (c'.copies cfg) mem flat ∧
      forall s d, c'.copies cfg s = some d -> c.copies cfg s = some d := by
  have hprev := @dead_idle cfg c hstate
  have hout : c'.leavingCopy cfg = c.leavingCopy cfg := by
    rw [leavingCopy_none hpending, leavingCopy_none hquiet.noPending]
  rcases hdead with hnone | ⟨hsome, hclean⟩
  · have hcopies : c'.copies cfg = c.copies cfg := by
      apply copies_congr _ hvc hout
      intro line
      rw [hnone, hprev, hmiss.array]
    rw [hcopies]
    exact ⟨h.coherent, fun _ _ hs => hs⟩
  · have hcopies : c'.copies cfg
        = setAt (c.copies cfg) (.way (c.victimLine cfg i)) none := by
      apply copies_replace (Or.inl hprev) hsome _ hvc hout
      intro k _
      rw [hmiss.array]
      exact ⟨rfl, rfl, rfl, fun _ _ => rfl⟩
    rw [hcopies]
    constructor
    · apply h.coherent.drop
      intro d hd
      apply h.coherent.mem_of_clean hd
      obtain ⟨hvalid, _, rfl⟩ := LineArray.copyAt_eq_some.mp hd
      unfold victimNeedsWb at hclean
      rw [hvalid, Bool.true_and] at hclean
      exact hclean
    · intro s d hs
      rcases Coherent.setAt_eq_some hs with ⟨_, hfalse⟩ | ⟨_, hcopy⟩
      · cases hfalse
      · exact hcopy

theorem copies_ne_request (h : c.Inv cfg mem flat pend waiting) (hquiet : c.Quiet)
    (hmain : c.hitMain cfg i = false) (hvc : c.vcLookupHit cfg i = false) {s : Slot}
    {d : LineCopy cfg.toGeometry} (hs : c.copies cfg s = some d) :
    d.addr ≠ cfg.lineAddr i.cpu.addr := by
  cases s with
  | way line =>
      obtain ⟨hvalid, _, rfl⟩ := LineArray.copyAt_eq_some.mp hs
      exact LineArray.not_held_of_miss h.wellFormed hmain hvalid
  | victim e => exact copyAt_ne_request h hvc hs
  | leaving =>
      have hnone : c.leavingCopy cfg = some d := hs
      rw [leavingCopy_none hquiet.noPending] at hnone
      cases hnone

/--
The copies after a miss: coherent, none of the missing line, and the dirty line of
the way still somewhere.
-/
theorem coherent_miss (h : c.Inv cfg mem flat pend waiting) (hmiss : StartsMiss cfg c i c')
    (hstate : c.state = .idle) (hquiet : c.Quiet) (hmain : c.hitMain cfg i = false)
    (hvc : c.vcLookupHit cfg i = false) :
    Coherent (c'.copies cfg) mem flat ∧
      (forall s d, c'.copies cfg s = some d -> d.addr ≠ cfg.lineAddr i.cpu.addr) ∧
      (c.victimNeedsWb cfg i = true -> exists s d, c'.copies cfg s = some d ∧
        d.addr = c.array.lineAddr cfg.toGeometry (c.victimLine cfg i) ∧ d.dirty = true) := by
  have hmove : forall s d, c.copies cfg s = some d -> d.addr ≠ cfg.lineAddr i.cpu.addr :=
    fun s d hs => copies_ne_request h hquiet hmain hvc hs
  have hswap : c.vcDoSwap cfg i = false := by
    unfold vcDoSwap
    rw [hvc, Bool.and_false]
  by_cases hbuffer : cfg.victimEntries ≠ 0 ∧ c.array.valid (c.victimLine cfg i) = true
  · obtain ⟨hentries, hvalid⟩ := hbuffer
    have hinsert : c.vcDoInsert cfg i = true := by
      unfold vcDoInsert
      rw [hstate, hmain, hvc, hvalid]
      rfl
    have hcopies := copies_insert h hmiss hstate hquiet hentries hswap hinsert
    have hline : c.copies cfg (.way (c.victimLine cfg i)) = _ :=
      copies_way hvalid (by simp [dead_idle hstate])
    refine ⟨coherent_insert h hmiss hstate hquiet hentries hswap hinsert hvalid, ?_, ?_⟩
    · intro s d hs
      rw [hcopies] at hs
      rcases Coherent.setAt_eq_some hs with ⟨_, hd⟩ | ⟨_, hs⟩
      · cases hd
        exact hmove _ _ hline
      · rcases Coherent.setAt_eq_some hs with ⟨_, hd⟩ | ⟨_, hs⟩
        · cases hd
        · rcases Coherent.setAt_eq_some hs with ⟨_, hd⟩ | ⟨_, hs⟩
          · split at hd
            · next hdirty =>
                unfold evictOutDirty at hdirty
                simp only [Bool.and_eq_true] at hdirty
                cases hd
                exact entry_ne_request h hvc (h.buffered hentries).fifo
                  hdirty.left.right
            · cases hd
          · rcases Coherent.setAt_eq_some hs with ⟨_, hd⟩ | ⟨_, hs⟩
            · cases hd
            · exact hmove _ _ hs
    · intro hneed
      refine ⟨.victim c.vc.fifoNext, _, by rw [hcopies, setAt_self], rfl, ?_⟩
      unfold victimNeedsWb at hneed
      exact (Bool.and_eq_true_iff.mp hneed).right
  · have hinsert : cfg.victimEntries = 0 ∨ c.vcDoInsert cfg i = false := by
      by_cases hentries : cfg.victimEntries = 0
      · exact Or.inl hentries
      · apply Or.inr
        have hinvalid : c.array.valid (c.victimLine cfg i) = false :=
          Bool.eq_false_iff.mpr (fun hvalid => hbuffer ⟨hentries, hvalid⟩)
        unfold vcDoInsert
        rw [hinvalid, Bool.and_false]
    have hvcNext : c'.vc = c.vc := by
      rw [hmiss.vc]
      rcases hinsert with hentries | hinsert
      · exact vcNext_of_no_entries hentries
      · exact vcNext_eq hswap hinsert
    have hpending : c'.vwbPending = false := by
      rw [hmiss.pending]
      unfold evictOutDirty
      rcases hinsert with hentries | hinsert
      · rw [hentries]
        rfl
      · rw [hinsert]
        simp
    have hdead : c'.dead cfg = none ∨
        (c'.dead cfg = some (c.victimLine cfg i) ∧ c.victimNeedsWb cfg i = false) := by
      rcases hmiss.branch with ⟨hneed, hwb, _⟩ | ⟨_, hdirty, _⟩ | ⟨hclean, _, hfill, _⟩
      · have hentries : cfg.victimEntries = 0 := by
          by_cases hentries : cfg.victimEntries = 0
          · exact hentries
          · exact absurd ⟨hentries, (Bool.and_eq_true_iff.mp hneed).left⟩ hbuffer
        exact Or.inl (dead_eq_none (by simp [hwb])
          (fun _ => Or.inr (moved_of_no_entries hentries)))
      · rw [← hmiss.pending, hpending] at hdirty
        cases hdirty
      · exact Or.inr ⟨hmiss.dead h.queued hquiet (Or.inl hfill), hclean⟩
    obtain ⟨hcoherent, hsub⟩ := coherent_giveUp h hmiss hstate hquiet hvcNext hpending hdead
    refine ⟨hcoherent, fun s d hs => hmove s d (hsub s d hs), ?_⟩
    intro hneed
    have hsplit := Bool.and_eq_true_iff.mp hneed
    rcases hdead with hnone | ⟨_, hclean⟩
    · have hlive := @copies_way cfg c' (c.victimLine cfg i)
        (by rw [hmiss.array]; exact hsplit.left) (by simp [hnone])
      rw [hmiss.array] at hlive
      exact ⟨_, _, hlive, rfl, hsplit.right⟩
    · rw [hclean] at hneed
      cases hneed

theorem victimLine_addr_mod (h : c.array.WellFormed cfg.toGeometry) :
    c.array.lineAddr cfg.toGeometry (c.victimLine cfg i) % cfg.sets = cfg.setIdx i.cpu.addr := by
  have hset : cfg.setOf (c.victimLine cfg i) = cfg.setIdx i.cpu.addr :=
    LineArray.setOf_victimLine h i.cpu.addr
  unfold LineArray.lineAddr Geometry.joinTag
  rw [hset, Nat.mul_add_mod_self_right, Nat.mod_eq_of_lt (cfg.setIdx_lt _)]

theorem buffered_miss (h : c.Inv cfg mem flat pend waiting) (hmiss : StartsMiss cfg c i c')
    (hquiet : c.Quiet) (hvc : c.vcLookupHit cfg i = false)
    (hentries : cfg.victimEntries ≠ 0) :
    c'.Buffered cfg := by
  have hbuffered := h.buffered hentries
  have hswap : c.vcDoSwap cfg i = false := by
    unfold vcDoSwap
    rw [hvc, Bool.and_false]
  have hqueue := (hmiss.queue h.queued hquiet.empty).left
  have hturn : cfg.policy ≠ .lru ->
      c'.array.InTurn cfg.toGeometry ((c'.queue cfg).map (fun m => (m.set, m.way))) := by
    intro hpolicy
    have hway : c.victimTargetWay cfg i = c.array.victim (cfg.setIdx i.cpu.addr) :=
      LineArray.victimTargetWay_of_pointer hpolicy _
    have hfirst := (@LineArray.InTurn.nil cfg.toGeometry c.array).join (cfg.setIdx i.cpu.addr)
    rw [← hway] at hfirst
    rw [hqueue, hmiss.array]
    exact hfirst
  have hpacked : c'.array.Packed cfg.toGeometry := by
    rw [hmiss.array]
    exact hbuffered.packed
  cases hinsert : c.vcDoInsert cfg i with
  | false =>
      refine buffered_congr hbuffered ?_ hpacked ?_ hturn
      · rw [hmiss.vc]
        exact vcNext_eq hswap hinsert
      · intro line hline
        rw [hmiss.array]
        exact hline
  | true =>
      have hnext : c'.vc = _ := hmiss.vc.trans (vcNext_insert h hentries hswap hinsert)
      have hvalid : c.array.valid (c.victimLine cfg i) = true := by
        unfold vcDoInsert at hinsert
        exact (Bool.and_eq_true_iff.mp hinsert).right
      have hfull : c.array.SetFull cfg.toGeometry (cfg.setIdx i.cpu.addr) :=
        hbuffered.packed.setFull h.wellFormed hvalid
      exact
        { fifo := by
            rw [hnext]
            exact VictimCache.nextFifo_lt hbuffered.fifo
          packed := hpacked
          full := by
            intro e d he
            rw [hmiss.array]
            by_cases hnew : e = c.vc.fifoNext
            · have hentry : c'.vc.entry e
                  = VictimCache.insertIn (c.leavingLine cfg i) (c.vc.entry e) := by
                rw [hnext, hnew]
                exact modifyAt_self _ _ _
              unfold VictimCache.copyAt at he
              rw [hentry] at he
              split at he
              · cases he
                show c.array.SetFull cfg.toGeometry
                  (c.array.lineAddr cfg.toGeometry (c.victimLine cfg i) % cfg.sets)
                rw [victimLine_addr_mod h.wellFormed]
                exact hfull
              · cases he
            · have hold : c'.vc.copyAt cfg.toGeometry cfg.victimEntries e
                  = c.vc.copyAt cfg.toGeometry cfg.victimEntries e := by
                rw [hnext]
                exact vcCopy_of_ne (fun hne => modifyAt_of_ne hne) hnew
              rw [hold] at he
              exact hbuffered.full e d he
          inTurn := hturn }

theorem invNext_miss (h : c.Inv cfg mem flat pend waiting) (hlegal : c.Legal pend i)
    (hsound : c.Sound cfg pend i) (hbacked : c.Backed cfg mem i) (hstate : c.state = .idle)
    (hquiet : c.Quiet) (hactive : i.cpu.active = true) (hmain : c.hitMain cfg i = false)
    (hvc : c.vcLookupHit cfg i = false) :
    InvNext cfg c mem flat waiting i (c.step cfg i) := by
  have hmiss := step_startsMiss hlegal hbacked hstate hactive hmain hvc
  have hready := respReady_miss h hlegal hsound hstate hactive hmain hvc
  obtain ⟨hcoherent, hunheld, hheld⟩ := coherent_miss h hmiss hstate hquiet hmain hvc
  generalize c.step cfg i = c' at hmiss hcoherent hunheld hheld ⊢
  have hqueue := hmiss.queue h.queued hquiet.empty
  have hline := hqueue.right.right.right
  have hmem : c.memNext cfg mem i = mem := memNext_of_not_wb (by simp [hstate])
  have hflat : c.flatNext cfg flat i = flat := by
    unfold flatNext
    rw [if_neg]
    intro hcond
    rw [hready] at hcond
    cases hcond.right
  -- the line in the way that is given up, while it is valid
  have hcurrent : c.array.valid (c.victimLine cfg i) = true ->
      c.array.lineData cfg.toGeometry (c.victimLine cfg i)
        = flat (c.array.lineAddr cfg.toGeometry (c.victimLine cfg i)) := by
    intro hvalid
    exact way_current h.coherent hvalid (by simp [dead_idle hstate])
  have hzero : forall w : Fin cfg.lineWords, ¬ (w : Nat) < c'.fillWord := by
    intro w
    rw [hmiss.word]
    exact Nat.not_lt_zero w
  have hnotRd : c'.state ≠ .hitRd := by
    rcases hmiss.branch with ⟨_, hwb, _⟩ | ⟨_, _, hwb, _⟩ | ⟨_, _, hfill, _⟩
    · simp [hwb]
    · simp [hwb]
    · simp [hfill]
  have hported := @ported_next cfg c c' i flat pend hlegal
    (fun _ hnext => hmiss.flush ▸ hnext)
    (fun htrue => absurd (hmiss.hu.symm.trans htrue) Bool.false_ne_true)
    (fun _ => ⟨hmiss.hu, fun hrd => absurd hrd hnotRd⟩)
  have hword : c'.fillWord < cfg.lineWords := by
    rw [hmiss.word]
    exact cfg.lineWords_pos
  unfold InvNext
  rw [hmem]
  rw [hflat] at hported ⊢
  exact
    { severalSets := h.severalSets
      wellFormed := by
        rw [hmiss.array]
        exact h.wellFormed
      buffered := buffered_miss h hmiss hquiet hvc
      coherent := hcoherent
      queued := by
        apply queued_miss h hmiss hstate hquiet.empty hactive hready
        refine ⟨?_, fun e d he => hunheld (.victim e) d he⟩
        rw [hmiss.array]
        intro line hvalid
        exact LineArray.not_held_of_miss h.wellFormed hmain hvalid
      ported := hported
      phase := by
        rcases hmiss.branch with ⟨hneed, hwb, hnoActive, hwbLine, hwbBase, hnoReturn⟩ |
          ⟨hclean, hdirty, hwb, hvwbActive, hwbBase⟩ | ⟨hclean, hdirty, hfill, hnoActive⟩
        · have hsplit := Bool.and_eq_true_iff.mp hneed
          apply Phase.evict
          exact
            { state := hwb
              noFlush := hmiss.flush.trans hquiet.noFlush
              noReturn := hnoReturn
              busy := hqueue.right.right.left
              moved := by
                intro hpending
                exact hmiss.moved_of_dirty h hquiet hvc (hmiss.pending.symm.trans hpending)
              noActive := hnoActive
              line := by rw [hwbLine, hline]
              valid := by
                rw [hmiss.array, hwbLine]
                exact hsplit.left
              dirty := by
                rw [hmiss.array, hwbLine]
                exact hsplit.right
              base := by
                rw [hmiss.array, hwbLine, ← victimBase_eq h]
                exact hwbBase
              word := hword
              current := by
                rw [hmiss.array, hwbLine]
                exact hcurrent hsplit.left
              written := fun w hw => absurd hw (hzero w)
              held := by
                rw [hmiss.array, hwbLine]
                exact hheld hneed }
        · apply Phase.drain
          exact
            { state := hwb
              noFlush := hmiss.flush.trans hquiet.noFlush
              busy := hqueue.right.right.left
              moved := hmiss.moved_of_dirty h hquiet hvc hdirty
              pending := hmiss.pending.trans hdirty
              active := hvwbActive
              base := by
                rw [hmiss.vwbTag]
                exact hwbBase
              word := hword
              written := fun w hw => absurd hw (hzero w)
              current := by
                rw [hmiss.array, hline]
                exact hcurrent }
        · apply Phase.fill
          exact
            { state := hfill
              noFlush := hmiss.flush.trans hquiet.noFlush
              busy := hqueue.right.right.left
              noPending := hmiss.pending.trans hdirty
              noActive := hnoActive
              word := hword
              filled := fun w hw => absurd hw (hzero w)
              remaining := by
                rw [hmiss.array, hline]
                intro hvalid w _
                exact congrFun (hcurrent hvalid) w }
      flushed := by
        intro htrue
        rw [hmiss.done] at htrue
        cases htrue }

end DCache
end Cache
end RvCores
