import RvCores.Cache.Misses

/-!
# Evictions

Before a line is filled, the dirty line in its way and then the line that left the
victim buffer are written back.
-/

namespace RvCores
namespace Cache

open Isa Lib

namespace DCache

variable {cfg : DCacheConfig} {c c' : DCache} {i : DCacheIn}
  {mem flat : LineMem cfg.toGeometry} {pend : Option CpuPort}
  {waiting : List (Nat × Word)}

/-!
# The common part while a miss is served
-/

theorem common_array (hidle : c.state ≠ .idle) (hrd : c.state ≠ .hitRd)
    (hprobe : i.probeReq = false) :
    (c.common cfg i).array = c.array := by
  have haccess : c.accessHit cfg i = false := by
    unfold accessHit
    rw [hitAnswers_of_not_hitRd hrd, beq_eq_false_iff_ne.mpr hidle]
    rfl
  unfold common
  rw [probedValid_eq hprobe, touchedAge_of_no_hit haccess]

theorem common_vc (hidle : c.state ≠ .idle) : (c.common cfg i).vc = c.vc :=
  vcNext_of_not_idle hidle

theorem common_moves : MovesQueue cfg c i (c.common cfg i) where
  mshr := rfl
  head := rfl
  tail := rfl
  count := rfl

theorem MovesQueue.of_eq (h : MovesQueue cfg c i c') {d : DCache} (hmshr : d.mshr = c'.mshr)
    (hhead : d.mshrHead = c'.mshrHead) (htail : d.mshrTail = c'.mshrTail)
    (hcount : d.mshrCount = c'.mshrCount) :
    MovesQueue cfg c i d where
  mshr := hmshr.trans h.mshr
  head := hhead.trans h.head
  tail := htail.trans h.tail
  count := hcount.trans h.count

theorem respReady_wb (hstate : c.state = .wb) : c.respReady cfg i = c.huPending := by
  unfold respReady fillAnswers
  rw [hitAnswers_of_not_hitRd (by simp [hstate]), completeNow_of_wb hstate, hstate]
  rfl

/--
Nothing is stored while a line is written back.
-/
theorem flatNext_wb (h : c.Inv cfg mem flat pend waiting) (hlegal : c.Legal pend i)
    (hsound : c.Sound cfg pend i) (hstate : c.state = .wb) :
    c.flatNext cfg flat i = flat := by
  unfold flatNext
  rw [if_neg]
  rintro ⟨hwrite, hready⟩
  rw [respReady_wb hstate] at hready
  have hanswer := hu_answers h.ported hlegal hsound hready (active_of_write hwrite)
  rw [hwrite] at hanswer
  cases hanswer.right.left

/-!
# Lines reserved by waiting misses
-/

theorem head_wbLine (h : c.Queued cfg flat pend waiting) (hbusy : 0 < c.mshrCount) :
    c.head.wbLine = c.fillLine cfg := by
  rw [(h.ok _ (head_mem hbusy)).wbLine]
  rfl

/--
No entry behind the head is to replace a dirty line that the head still has to
write back.
-/
theorem behind_ne_evicted (h : c.Inv cfg mem flat pend waiting) (hsound : c.Sound cfg pend i)
    (hbusy : 0 < c.mshrCount) (hcomplete : c.mshrCompleteNow cfg i = false)
    (hvalid : c.array.valid (c.fillLine cfg) = true)
    (hdirty : c.array.dirty (c.fillLine cfg) = true) {m : Mshr}
    (hm : m ∈ (queueNext cfg c i).tail) :
    m.wbLine ≠ c.fillLine cfg ∧
      (m ∈ (c.queue cfg).tail ∨
        (c.mshrBusyDispatchMiss cfg i = true ∧ m = c.missEntry cfg i false 0 true)) := by
  have hcons := @queue_cons cfg c hbusy
  have hhead := head_wbLine h.queued hbusy
  unfold queueNext at hm
  rw [hcomplete, if_neg Bool.false_ne_true, hcons, List.cons_append, List.tail_cons] at hm
  rcases List.mem_append.mp hm with hold | hnew
  · refine ⟨?_, Or.inl hold⟩
    intro heq
    have hneed := (h.queued.behind m hold).left
    rw [heq, hvalid, hdirty] at hneed
    have hreserved := h.queued.reserved
    rw [hcons] at hreserved
    exact (List.rel_of_pairwise_cons hreserved hold) hneed (heq.trans hhead.symm)
  · split at hnew
    · next hmiss =>
        rw [List.mem_singleton.mp hnew]
        refine ⟨?_, Or.inr ⟨hmiss, rfl⟩⟩
        intro heq
        have hline : c.victimLine cfg i = c.fillLine cfg := heq
        apply hsound.reserve hmiss _ _ (head_mem hbusy) (hhead.trans hline.symm)
        unfold victimNeedsWb
        rw [hline, hvalid, hdirty]
        rfl
    · cases hnew

/--
What an entry knows about its victim way when it joins.
-/
theorem missEntry_behind (h : c.Inv cfg mem flat pend waiting)
    (hvalid : c'.array.valid (c.victimLine cfg i)
      = c.array.valid (c.victimLine cfg i))
    (hdirty : c'.array.dirty (c.victimLine cfg i) = c.array.dirty (c.victimLine cfg i))
    (haddr : c'.array.lineAddr cfg.toGeometry (c.victimLine cfg i)
      = c.array.lineAddr cfg.toGeometry (c.victimLine cfg i))
    (isWrite : Bool) (wdata : Word) (early : Bool) :
    (c.missEntry cfg i isWrite wdata early).needWb
        = (c'.array.valid (c.missEntry cfg i isWrite wdata early).wbLine &&
            c'.array.dirty (c.missEntry cfg i isWrite wdata early).wbLine) ∧
      ((c.missEntry cfg i isWrite wdata early).needWb = true ->
        (c.missEntry cfg i isWrite wdata early).wbBase
          = cfg.lineBase (c'.array.lineAddr cfg.toGeometry
              (c.missEntry cfg i isWrite wdata early).wbLine)) := by
  constructor
  · show c.victimNeedsWb cfg i = (c'.array.valid (c.victimLine cfg i) &&
      c'.array.dirty (c.victimLine cfg i))
    rw [hvalid, hdirty]
    rfl
  · intro _
    show c.victimBase cfg i = cfg.lineBase
      (c'.array.lineAddr cfg.toGeometry (c.victimLine cfg i))
    rw [haddr, victimBase_eq h]

/--
As long as the lines stay, the entries behind the head keep what they know.
-/
theorem behind_still (h : c.Inv cfg mem flat pend waiting)
    (hcomplete : c.mshrCompleteNow cfg i = false) (hbusy : 0 < c.mshrCount)
    (hvalid : c'.array.valid = c.array.valid) (htag : c'.array.tag = c.array.tag)
    (hdirty : c'.array.dirty = c.array.dirty) {m : Mshr}
    (hm : m ∈ (queueNext cfg c i).tail) :
    m.needWb = (c'.array.valid m.wbLine && c'.array.dirty m.wbLine) ∧
      (m.needWb = true ->
        m.wbBase = cfg.lineBase (c'.array.lineAddr cfg.toGeometry m.wbLine)) := by
  have haddr : forall line, c'.array.lineAddr cfg.toGeometry line
      = c.array.lineAddr cfg.toGeometry line := by
    intro line
    unfold LineArray.lineAddr
    rw [htag]
  unfold queueNext at hm
  rw [hcomplete, if_neg Bool.false_ne_true, queue_cons hbusy, List.cons_append,
    List.tail_cons] at hm
  rcases List.mem_append.mp hm with hold | hnew
  · rw [hvalid, hdirty, haddr]
    exact h.queued.behind m hold
  · split at hnew
    · rw [List.mem_singleton.mp hnew]
      apply missEntry_behind h
      · rw [hvalid]
      · rw [hdirty]
      · exact haddr _
    · cases hnew

/-!
# A writeback cycle that keeps the lines
-/

theorem fillLine_eq (hhead : c'.head = c.head) : c'.fillLine cfg = c.fillLine cfg := by
  unfold fillLine
  rw [hhead]

theorem moved_congr (hhead : c'.head = c.head) (hvc : c'.vc = c.vc)
    (htag : c'.array.tag = c.array.tag) :
    c'.moved cfg = c.moved cfg := by
  unfold moved LineArray.lineAddr
  rw [hvc, htag, fillLine_eq hhead]

theorem dead_congr (hstate : c'.state = c.state) (hflush : c'.flushActive = c.flushActive)
    (hhead : c'.head = c.head) (hvc : c'.vc = c.vc) (htag : c'.array.tag = c.array.tag) :
    c'.dead cfg = c.dead cfg := by
  unfold dead
  rw [hstate, hflush, moved_congr hhead hvc htag, fillLine_eq hhead]

theorem dead_cases : c.dead cfg = none ∨ c.dead cfg = some (c.fillLine cfg) := by
  unfold dead
  split
  · exact Or.inr rfl
  · exact Or.inl rfl

theorem leavingCopy_congr (hpending : c'.vwbPending = c.vwbPending)
    (htag : c'.vwbTag = c.vwbTag) (hdata : c'.vwbData = c.vwbData) :
    c'.leavingCopy cfg = c.leavingCopy cfg := by
  unfold leavingCopy
  rw [hpending, htag, hdata]

/--
A hit reads the current word, also in the line that is written back or whose
writeback is over.
-/
theorem hit_of_current (h : c.Inv cfg mem flat pend waiting)
    (hcurrent : c.array.valid (c.fillLine cfg) = true ->
      c.array.lineData cfg.toGeometry (c.fillLine cfg)
        = flat (c.array.lineAddr cfg.toGeometry (c.fillLine cfg)))
    (hvalid : c'.array.valid = c.array.valid) (htag : c'.array.tag = c.array.tag)
    (hhit : c.mshrBusyDispatchHit cfg i = true) :
    c.hitData cfg i = flat.read i.cpu.addr ∧
      c'.array.hitMain cfg.toGeometry i.cpu.addr = true := by
  have hmain := (dispatchHit_request hhit).right.right
  refine ⟨?_, (LineArray.hitMain_congr hvalid htag _).trans hmain⟩
  apply hitData_current h hmain
  intro hdead
  have hline : c.hitLineIdx cfg i = c.fillLine cfg := by
    rcases dead_cases with hnone | hsome
    · rw [hnone] at hdead
      cases hdead
    · rw [hsome] at hdead
      exact (Option.some.inj hdead).symm
  have hselects := LineArray.hit_selects h.wellFormed hmain
  rw [hline]
  exact congrFun (hcurrent (hline ▸ hselects.left)) (LineMem.offset _ i.cpu.addr)

theorem Evict.hit_current (h : c.Inv cfg mem flat pend waiting) (hevict : c.Evict cfg mem flat)
    (hvalid : c'.array.valid = c.array.valid) (htag : c'.array.tag = c.array.tag)
    (hhit : c.mshrBusyDispatchHit cfg i = true) :
    c.hitData cfg i = flat.read i.cpu.addr ∧
      c'.array.hitMain cfg.toGeometry i.cpu.addr = true := by
  apply hit_of_current h _ hvalid htag hhit
  intro _
  rw [← hevict.line]
  exact hevict.current

theorem wb_ready (h : c.Inv cfg mem flat pend waiting) (hstate : c.state = .wb)
    (hbusy : 0 < c.mshrCount) (hblocking : c.head.earlyRetired = false) :
    c.respReady cfg i = false := by
  rw [respReady_wb hstate]
  exact (h.queued.blocking _ (head_mem hbusy) hblocking).right.left

theorem Evict.addr (h : c.Evict cfg mem flat) :
    c.mAddr = cfg.lineBase (c.array.lineAddr cfg.toGeometry c.wbLine) + 4 * c.fillWord := by
  rw [mAddr_of_wb h.state, h.base]

theorem Evict.data (h : c.Evict cfg mem flat) :
    c.mDataO = flat (c.array.lineAddr cfg.toGeometry c.wbLine) ⟨c.fillWord, h.word⟩ := by
  rw [mDataO_of_way h.state h.noActive, ← h.current]
  rfl

/--
The entries behind an eviction keep what they know, whatever happens to the line
that is evicted.
-/
theorem Evict.behind (h : c.Inv cfg mem flat pend waiting) (hsound : c.Sound cfg pend i)
    (hevict : c.Evict cfg mem flat) (hvalid : c'.array.valid = c.array.valid)
    (htag : c'.array.tag = c.array.tag)
    (hdirty : forall line, line ≠ c.fillLine cfg ->
      c'.array.dirty line = c.array.dirty line) {m : Mshr}
    (hm : m ∈ (queueNext cfg c i).tail) :
    m.needWb = (c'.array.valid m.wbLine && c'.array.dirty m.wbLine) ∧
      (m.needWb = true ->
        m.wbBase = cfg.lineBase (c'.array.lineAddr cfg.toGeometry m.wbLine)) := by
  have hfacts := behind_ne_evicted h hsound hevict.busy (completeNow_of_wb hevict.state)
    (hevict.line ▸ hevict.valid) (hevict.line ▸ hevict.dirty) hm
  have haddr : forall line, c'.array.lineAddr cfg.toGeometry line
      = c.array.lineAddr cfg.toGeometry line := by
    intro line
    unfold LineArray.lineAddr
    rw [htag]
  rcases hfacts.right with hold | ⟨_, rfl⟩
  · rw [hvalid, hdirty _ hfacts.left, haddr]
    exact h.queued.behind m hold
  · apply missEntry_behind h
    · rw [hvalid]
    · exact hdirty _ hfacts.left
    · exact haddr _

/--
The fields that a writeback cycle takes over from the common part.
-/
structure Carries (cfg : DCacheConfig) (c : DCache) (i : DCacheIn) (c' : DCache) : Prop where
  moves : MovesQueue cfg c i c'
  hu : c'.huPending = c.mshrBusyDispatchHit cfg i
  huData : c'.huData =
    if c.mshrBusyDispatchHit cfg i then
      extendRead (c.hitData cfg i) i.cpu.funct3 (byteOff i.cpu.addr)
    else c.huData
  vc : c'.vc = c.vc
  flush : c'.flushActive = c.flushActive
  done : c'.flushDone = false

theorem common_carries (hidle : c.state ≠ .idle) : Carries cfg c i (c.common cfg i) where
  moves := common_moves
  hu := rfl
  huData := rfl
  vc := common_vc hidle
  flush := rfl
  done := rfl

theorem Carries.of_eq {d : DCache} (h : Carries cfg c i c') (hmshr : d.mshr = c'.mshr)
    (hhead : d.mshrHead = c'.mshrHead) (htail : d.mshrTail = c'.mshrTail)
    (hcount : d.mshrCount = c'.mshrCount) (hhu : d.huPending = c'.huPending)
    (hhuData : d.huData = c'.huData) (hvc : d.vc = c'.vc)
    (hflush : d.flushActive = c'.flushActive) (hdone : d.flushDone = c'.flushDone) :
    Carries cfg c i d where
  moves := h.moves.of_eq hmshr hhead htail hcount
  hu := hhu.trans h.hu
  huData := hhuData.trans h.huData
  vc := hvc.trans h.vc
  flush := hflush.trans h.flush
  done := hdone.trans h.done

/--
A cycle of a writeback writes no more than dirty bits.
-/
theorem invNext_wb {dirty : Nat -> Bool} (h : c.Inv cfg mem flat pend waiting)
    (hlegal : c.Legal pend i) (hsound : c.Sound cfg pend i) (hstate : c.state = .wb)
    (hbusy : 0 < c.mshrCount) (hcarries : Carries cfg c i c') (hmoves : c'.state ≠ .hitRd)
    (harray : c'.array = { c.array with dirty := dirty })
    (hhit : c.mshrBusyDispatchHit cfg i = true ->
      c.hitData cfg i = flat.read i.cpu.addr ∧
        c'.array.hitMain cfg.toGeometry i.cpu.addr = true)
    (hcoherent : Coherent (c'.copies cfg) (c.memNext cfg mem i) flat)
    (hbehind : forall m, m ∈ (queueNext cfg c i).tail ->
      m.needWb = (c'.array.valid m.wbLine && c'.array.dirty m.wbLine) ∧
        (m.needWb = true ->
          m.wbBase = cfg.lineBase (c'.array.lineAddr cfg.toGeometry m.wbLine)))
    (hphase : c'.Phase cfg (c.memNext cfg mem i) flat (c.pendNext cfg i)) :
    InvNext cfg c mem flat waiting i c' := by
  have hidle : c.state ≠ .idle := by simp [hstate]
  have hflat := flatNext_wb h hlegal hsound hstate
  apply invNext_busy h hlegal hsound hidle hbusy hcarries.moves hcarries.hu
    hcarries.huData hcarries.flush hcarries.done hmoves
  · intro _ hblocking
    exact wb_ready h hstate hbusy hblocking
  · exact hhit
  · intro _
    exact hflat
  · rw [harray]
    exact h.wellFormed.of_eq rfl rfl rfl
  · intro hentries
    apply buffered_busy h hbusy hentries hcarries.moves hcarries.vc
      (completeNow_of_wb hstate) <;> rw [harray]
  · rw [hflat]
    exact hcoherent
  · exact hcarries.vc
  · intro m hm
    rw [harray]
    exact (unheld_of_queue h hm).left
  · exact hbehind
  · rw [hflat]
    exact hphase

theorem invNext_evict_same (h : c.Inv cfg mem flat pend waiting) (hlegal : c.Legal pend i)
    (hsound : c.Sound cfg pend i) (hevict : c.Evict cfg mem flat)
    (hcoherent : Coherent (c.copies cfg) (c.memNext cfg mem i) flat)
    (hcarries : Carries cfg c i c') (hstate : c'.state = .wb)
    (harray : c'.array = c.array)
    (hbus : c'.wbReturnToFlush = c.wbReturnToFlush ∧ c'.wbLine = c.wbLine ∧
      c'.wbBase = c.wbBase)
    (hvwb : c'.vwbPending = c.vwbPending ∧ c'.vwbActive = c.vwbActive ∧
      c'.vwbTag = c.vwbTag ∧ c'.vwbData = c.vwbData)
    (hword : c'.fillWord < cfg.lineWords)
    (hwritten : forall k : Fin cfg.lineWords, (k : Nat) < c'.fillWord ->
      c.memNext cfg mem i (c.array.lineAddr cfg.toGeometry c.wbLine) k
        = flat (c.array.lineAddr cfg.toGeometry c.wbLine) k) :
    InvNext cfg c mem flat waiting i c' := by
  have hhead := hcarries.moves.head_eq h.queued hevict.busy (completeNow_of_wb hevict.state)
  have hcopies : c'.copies cfg = c.copies cfg := by
    apply copies_congr
    · intro line
      rw [dead_congr (hstate.trans hevict.state.symm) hcarries.flush hhead.right hcarries.vc
        (by rw [harray]), harray]
    · exact hcarries.vc
    · exact leavingCopy_congr hvwb.left hvwb.right.right.left hvwb.right.right.right
  apply invNext_wb h hlegal hsound hevict.state hevict.busy hcarries (by simp [hstate]) harray
  · apply hevict.hit_current h <;> rw [harray]
  · rw [hcopies]
    exact hcoherent
  · intro m hm
    apply hevict.behind h hsound _ _ _ hm <;> rw [harray]
    intro line _
    rfl
  · apply Phase.evict
    exact
      { state := hstate
        noFlush := hcarries.flush.trans hevict.noFlush
        noReturn := hbus.left.trans hevict.noReturn
        busy := hhead.left
        moved := by
          rw [hvwb.left, moved_congr hhead.right hcarries.vc (by rw [harray])]
          exact hevict.moved
        noActive := hvwb.right.left.trans hevict.noActive
        line := by
          rw [hbus.right.left, fillLine_eq hhead.right]
          exact hevict.line
        valid := by
          rw [harray, hbus.right.left]
          exact hevict.valid
        dirty := by
          rw [harray, hbus.right.left]
          exact hevict.dirty
        base := by
          rw [harray, hbus.right.left, hbus.right.right]
          exact hevict.base
        word := hword
        current := by
          rw [harray, hbus.right.left]
          exact hevict.current
        written := by
          rw [harray, hbus.right.left]
          exact hwritten
        held := by
          rw [hcopies, harray, hbus.right.left]
          exact hevict.held }

/-!
# The end of an eviction
-/

/--
The lines of the main array that survive the replacement of one line.
-/
theorem copies_replace {line : Nat} (hdead : c.dead cfg = none ∨ c.dead cfg = some line)
    (hdead' : c'.dead cfg = some line)
    (hother : forall k, k ≠ line -> c'.array.valid k = c.array.valid k ∧
      c'.array.tag k = c.array.tag k ∧ c'.array.dirty k = c.array.dirty k ∧
      forall w, w < cfg.lineWords -> c'.array.data (k, w) = c.array.data (k, w))
    (hvc : c'.vc = c.vc) (hout : c'.leavingCopy cfg = c.leavingCopy cfg) :
    c'.copies cfg = setAt (c.copies cfg) (.way line) none := by
  rw [@copies_update_way cfg c c' line]
  · rw [hdead', LineArray.copyAt_dead]
  · intro k hk
    obtain ⟨hvalid, htag, hdirty, hdata⟩ := hother k hk
    apply LineArray.copyAt_congr hvalid htag hdirty hdata
    rw [hdead']
    rcases hdead with hnone | hsome
    · rw [hnone]
      simp [hk.symm]
    · rw [hsome]
  · exact hvc
  · exact hout

theorem setAt_none_of_none {s : Slot} (h : c.copies cfg s = none) :
    setAt (c.copies cfg) s none = c.copies cfg := by
  funext t
  rw [setAt_apply]
  split
  · next heq => rw [heq, h]
  · rfl

/--
With a victim buffer the line is already there, and the line pushed out of the
buffer is written back next.
-/
theorem invNext_evict_chain (h : c.Inv cfg mem flat pend waiting) (hlegal : c.Legal pend i)
    (hsound : c.Sound cfg pend i) (hevict : c.Evict cfg mem flat)
    (hcoherent : Coherent (c.copies cfg) (c.memNext cfg mem i) flat)
    (hpending : c.vwbPending = true)
    (hcarries : Carries cfg c i c') (hstate : c'.state = .wb)
    (harray : c'.array = { c.array with dirty := setAt c.array.dirty c.wbLine false })
    (hvwb : c'.vwbPending = c.vwbPending ∧ c'.vwbActive = true ∧
      c'.vwbTag = c.vwbTag ∧ c'.vwbData = c.vwbData)
    (hbase : c'.wbBase = cfg.lineBase c.vwbTag) (hword : c'.fillWord = 0) :
    InvNext cfg c mem flat waiting i c' := by
  have hmoved := hevict.moved hpending
  have hhead := hcarries.moves.head_eq h.queued hevict.busy (completeNow_of_wb hevict.state)
  have hdead : c.dead cfg = some (c.fillLine cfg) :=
    dead_moved hevict.state hevict.noFlush hmoved
  have hdead' : c'.dead cfg = some (c.fillLine cfg) := by
    rw [← hdead]
    exact dead_congr (hstate.trans hevict.state.symm) hcarries.flush hhead.right hcarries.vc
      (by rw [harray])
  have hcopies : c'.copies cfg = c.copies cfg := by
    have hnone : c.copies cfg (.way (c.fillLine cfg)) = none := by
      unfold copies slotCopies
      rw [hdead]
      exact LineArray.copyAt_dead _
    rw [← setAt_none_of_none hnone]
    apply copies_replace (Or.inr hdead) hdead' _ hcarries.vc
      (leavingCopy_congr hvwb.left hvwb.right.right.left hvwb.right.right.right)
    intro k hk
    rw [harray]
    exact ⟨rfl, rfl, setAt_of_ne (hevict.line ▸ hk), fun _ _ => rfl⟩
  apply invNext_wb h hlegal hsound hevict.state hevict.busy hcarries (by simp [hstate]) harray
  · apply hevict.hit_current h <;> rw [harray]
  · rw [hcopies]
    exact hcoherent
  · intro m hm
    apply hevict.behind h hsound _ _ _ hm <;> rw [harray]
    intro line hline
    exact setAt_of_ne (hevict.line ▸ hline)
  · apply Phase.drain
    exact
      { state := hstate
        noFlush := hcarries.flush.trans hevict.noFlush
        busy := hhead.left
        moved := by
          rw [moved_congr hhead.right hcarries.vc (by rw [harray])]
          exact hmoved
        pending := hvwb.left.trans hpending
        active := hvwb.right.left
        base := by
          rw [hvwb.right.right.left]
          exact hbase
        word := by
          rw [hword]
          exact cfg.lineWords_pos
        written := by
          intro w hw
          rw [hword] at hw
          exact absurd hw (Nat.not_lt_zero w)
        current := by
          intro _
          rw [fillLine_eq hhead.right, harray, ← hevict.line]
          exact hevict.current }

/--
The way is free and the fill begins.
-/
theorem invNext_evict_fill (h : c.Inv cfg mem flat pend waiting) (hlegal : c.Legal pend i)
    (hsound : c.Sound cfg pend i) (hevict : c.Evict cfg mem flat)
    (hcoherent : Coherent (c.copies cfg) (c.memNext cfg mem i) flat)
    (hwritten : forall w : Fin cfg.lineWords,
      c.memNext cfg mem i (c.array.lineAddr cfg.toGeometry c.wbLine) w
        = flat (c.array.lineAddr cfg.toGeometry c.wbLine) w)
    (hpending : c.vwbPending = false)
    (hcarries : Carries cfg c i c') (hstate : c'.state = .fill)
    (harray : c'.array = { c.array with dirty := setAt c.array.dirty c.wbLine false })
    (hvwb : c'.vwbPending = c.vwbPending ∧ c'.vwbActive = c.vwbActive)
    (hword : c'.fillWord = 0) :
    InvNext cfg c mem flat waiting i c' := by
  have hhead := hcarries.moves.head_eq h.queued hevict.busy (completeNow_of_wb hevict.state)
  have hline : c'.fillLine cfg = c.fillLine cfg := fillLine_eq hhead.right
  have hdead' : c'.dead cfg = some (c.fillLine cfg) := by rw [dead_fill hstate, hline]
  have hcopies : c'.copies cfg = setAt (c.copies cfg) (.way (c.fillLine cfg)) none := by
    apply copies_replace dead_cases hdead' _ hcarries.vc
    · rw [leavingCopy_none hpending, leavingCopy_none (hvwb.left.trans hpending)]
    · intro k hk
      rw [harray]
      exact ⟨rfl, rfl, setAt_of_ne (hevict.line ▸ hk), fun _ _ => rfl⟩
  apply invNext_wb h hlegal hsound hevict.state hevict.busy hcarries (by simp [hstate]) harray
  · apply hevict.hit_current h <;> rw [harray]
  · rw [hcopies]
    apply hcoherent.drop
    intro d hd
    obtain ⟨_, _, rfl⟩ := LineArray.copyAt_eq_some.mp hd
    rw [← hevict.line]
    funext w
    exact hwritten w
  · intro m hm
    apply hevict.behind h hsound _ _ _ hm <;> rw [harray]
    intro line hne
    exact setAt_of_ne (hevict.line ▸ hne)
  · apply Phase.fill
    exact
      { state := hstate
        noFlush := hcarries.flush.trans hevict.noFlush
        busy := hhead.left
        noPending := hvwb.left.trans hpending
        noActive := hvwb.right.trans hevict.noActive
        word := by
          rw [hword]
          exact cfg.lineWords_pos
        filled := by
          intro w hw
          rw [hword] at hw
          exact absurd hw (Nat.not_lt_zero w)
        remaining := by
          intro _ w _
          rw [hline, harray, ← hevict.line]
          exact congrFun hevict.current w }

theorem invNext_evict (h : c.Inv cfg mem flat pend waiting) (hlegal : c.Legal pend i)
    (hsound : c.Sound cfg pend i) (hbacked : c.Backed cfg mem i)
    (hevict : c.Evict cfg mem flat) :
    InvNext cfg c mem flat waiting i (c.step cfg i) := by
  have hidle : c.state ≠ .idle := by simp [hevict.state]
  have hrd : c.state ≠ .hitRd := by simp [hevict.state]
  have harray := @common_array cfg c i hidle hrd hbacked.noProbe
  have hcarries := @common_carries cfg c i hidle
  have hstate : (c.common cfg i).state = .wb := hevict.state
  rw [step_wb hevict.state]
  cases hack : i.mAck with
  | false =>
      have hmem := @memNext_no_ack cfg c i mem hack
      rw [wbStep_hold hack]
      apply invNext_evict_same h hlegal hsound hevict _ hcarries hstate harray
        ⟨rfl, rfl, rfl⟩ ⟨rfl, rfl, rfl, rfl⟩ hevict.word
      · rw [hmem]
        exact hevict.written
      · rw [hmem]
        exact h.coherent
  | true =>
      have hmem := @memNext_ack cfg c i mem hevict.state hack
      have hcoherent : Coherent (c.copies cfg) (c.memNext cfg mem i) flat := by
        rw [hmem]
        exact LineMem.coherent_write _ h.coherent hevict.word hevict.addr hevict.held
      have hwritten := LineMem.written_succ mem hevict.word hevict.written hevict.addr hevict.data
      rw [← hmem] at hwritten
      cases hlast : c.fillIsLastWord cfg with
      | false =>
          rw [wbStep_word hack hlast]
          refine invNext_evict_same h hlegal hsound hevict hcoherent ?_ ?_ ?_ ?_ ?_ ?_ ?_
          · exact hcarries.of_eq rfl rfl rfl rfl rfl rfl rfl rfl rfl
          · exact hstate
          · exact harray
          · exact ⟨rfl, rfl, rfl⟩
          · exact ⟨rfl, rfl, rfl, rfl⟩
          · exact next_word hevict.word hlast
          · exact hwritten
      | true =>
          have hcleaned : { (c.common cfg i).array with
                dirty := setAt (c.common cfg i).array.dirty c.wbLine false }
              = { c.array with dirty := setAt c.array.dirty c.wbLine false } := by
            rw [harray]
          cases hpending : c.vwbPending with
          | true =>
              rw [wbStep_chain hack hlast hevict.noActive hevict.noReturn hpending]
              refine invNext_evict_chain h hlegal hsound hevict hcoherent hpending
                ?_ ?_ ?_ ?_ ?_ ?_
              · exact hcarries.of_eq rfl rfl rfl rfl rfl rfl rfl rfl rfl
              · exact hstate
              · exact hcleaned
              · exact ⟨rfl, rfl, rfl, rfl⟩
              · rfl
              · rfl
          | false =>
              rw [wbStep_evicted hack hlast hevict.noActive hevict.noReturn hpending]
              refine invNext_evict_fill h hlegal hsound hevict hcoherent ?_ hpending
                ?_ ?_ ?_ ?_ ?_
              · intro w
                exact hwritten w (last_word hevict.word hlast w)
              · exact hcarries.of_eq rfl rfl rfl rfl rfl rfl rfl rfl rfl
              · rfl
              · exact hcleaned
              · exact ⟨rfl, rfl⟩
              · rfl

/-!
# Draining the victim buffer
-/

theorem Drain.leaving (h : c.Drain cfg mem flat) :
    c.copies cfg .leaving
      = some { addr := c.vwbTag, dirty := true, data := fun w => c.vwbData w } := by
  show c.leavingCopy cfg = _
  unfold leavingCopy
  rw [if_pos h.pending]

theorem Drain.addr (h : c.Drain cfg mem flat) :
    c.mAddr = cfg.lineBase c.vwbTag + 4 * c.fillWord := by
  rw [mAddr_of_wb h.state, h.base]

theorem Drain.data (h : c.Drain cfg mem flat) (hcoherent : Coherent (c.copies cfg) mem flat) :
    c.mDataO = flat c.vwbTag ⟨c.fillWord, h.word⟩ := by
  have hcurrent := hcoherent.current h.leaving
  rw [← hcurrent]
  unfold mDataO
  rw [if_pos h.state, if_pos h.active]

theorem invNext_drain_same (h : c.Inv cfg mem flat pend waiting) (hlegal : c.Legal pend i)
    (hsound : c.Sound cfg pend i) (hdrain : c.Drain cfg mem flat)
    (hcoherent : Coherent (c.copies cfg) (c.memNext cfg mem i) flat)
    (hcarries : Carries cfg c i c') (hstate : c'.state = .wb)
    (harray : c'.array = c.array) (hbase : c'.wbBase = c.wbBase)
    (hvwb : c'.vwbPending = c.vwbPending ∧ c'.vwbActive = c.vwbActive ∧
      c'.vwbTag = c.vwbTag ∧ c'.vwbData = c.vwbData)
    (hword : c'.fillWord < cfg.lineWords)
    (hwritten : forall k : Fin cfg.lineWords, (k : Nat) < c'.fillWord ->
      c.memNext cfg mem i c.vwbTag k = flat c.vwbTag k) :
    InvNext cfg c mem flat waiting i c' := by
  have hhead := hcarries.moves.head_eq h.queued hdrain.busy (completeNow_of_wb hdrain.state)
  have hcopies : c'.copies cfg = c.copies cfg := by
    apply copies_congr
    · intro line
      rw [dead_congr (hstate.trans hdrain.state.symm) hcarries.flush hhead.right hcarries.vc
        (by rw [harray]), harray]
    · exact hcarries.vc
    · exact leavingCopy_congr hvwb.left hvwb.right.right.left hvwb.right.right.right
  apply invNext_wb h hlegal hsound hdrain.state hdrain.busy hcarries (by simp [hstate]) harray
  · apply hit_of_current h hdrain.current <;> rw [harray]
  · rw [hcopies]
    exact hcoherent
  · intro m hm
    apply behind_still h (completeNow_of_wb hdrain.state) hdrain.busy _ _ _ hm <;> rw [harray]
  · apply Phase.drain
    exact
      { state := hstate
        noFlush := hcarries.flush.trans hdrain.noFlush
        busy := hhead.left
        moved := by
          rw [moved_congr hhead.right hcarries.vc (by rw [harray])]
          exact hdrain.moved
        pending := hvwb.left.trans hdrain.pending
        active := hvwb.right.left.trans hdrain.active
        base := by
          rw [hbase, hvwb.right.right.left]
          exact hdrain.base
        word := hword
        written := by
          rw [hvwb.right.right.left]
          exact hwritten
        current := by
          rw [harray, fillLine_eq hhead.right]
          exact hdrain.current }

theorem invNext_drain_fill (h : c.Inv cfg mem flat pend waiting) (hlegal : c.Legal pend i)
    (hsound : c.Sound cfg pend i) (hdrain : c.Drain cfg mem flat)
    (hcoherent : Coherent (c.copies cfg) (c.memNext cfg mem i) flat)
    (hwritten : forall w : Fin cfg.lineWords,
      c.memNext cfg mem i c.vwbTag w = flat c.vwbTag w)
    (hcarries : Carries cfg c i c') (hstate : c'.state = .fill)
    (harray : c'.array = c.array) (hvwb : c'.vwbPending = false ∧ c'.vwbActive = false)
    (hword : c'.fillWord = 0) :
    InvNext cfg c mem flat waiting i c' := by
  have hhead := hcarries.moves.head_eq h.queued hdrain.busy (completeNow_of_wb hdrain.state)
  have hline : c'.fillLine cfg = c.fillLine cfg := fillLine_eq hhead.right
  have hdead : c.dead cfg = some (c.fillLine cfg) :=
    dead_moved hdrain.state hdrain.noFlush hdrain.moved
  have hcopies : c'.copies cfg = setAt (c.copies cfg) .leaving none := by
    funext s
    rw [setAt_apply]
    cases s with
    | way line =>
        rw [if_neg (by simp)]
        unfold copies slotCopies
        rw [harray, hdead, dead_fill hstate, hline]
    | victim e =>
        rw [if_neg (by simp)]
        unfold copies slotCopies
        rw [hcarries.vc]
    | leaving =>
        rw [if_pos rfl]
        exact leavingCopy_none hvwb.left
  apply invNext_wb h hlegal hsound hdrain.state hdrain.busy hcarries (by simp [hstate]) harray
  · apply hit_of_current h hdrain.current <;> rw [harray]
  · rw [hcopies]
    apply hcoherent.drop
    intro d hd
    rw [hdrain.leaving] at hd
    cases hd
    funext w
    exact hwritten w
  · intro m hm
    apply behind_still h (completeNow_of_wb hdrain.state) hdrain.busy _ _ _ hm <;> rw [harray]
  · apply Phase.fill
    exact
      { state := hstate
        noFlush := hcarries.flush.trans hdrain.noFlush
        busy := hhead.left
        noPending := hvwb.left
        noActive := hvwb.right
        word := by
          rw [hword]
          exact cfg.lineWords_pos
        filled := by
          intro w hw
          rw [hword] at hw
          exact absurd hw (Nat.not_lt_zero w)
        remaining := by
          intro hvalid w _
          rw [hline, harray] at hvalid ⊢
          exact congrFun (hdrain.current hvalid) w }

theorem invNext_drain (h : c.Inv cfg mem flat pend waiting) (hlegal : c.Legal pend i)
    (hsound : c.Sound cfg pend i) (hbacked : c.Backed cfg mem i)
    (hdrain : c.Drain cfg mem flat) :
    InvNext cfg c mem flat waiting i (c.step cfg i) := by
  have hidle : c.state ≠ .idle := by simp [hdrain.state]
  have hrd : c.state ≠ .hitRd := by simp [hdrain.state]
  have harray := @common_array cfg c i hidle hrd hbacked.noProbe
  have hcarries := @common_carries cfg c i hidle
  have hstate : (c.common cfg i).state = .wb := hdrain.state
  rw [step_wb hdrain.state]
  cases hack : i.mAck with
  | false =>
      have hmem := @memNext_no_ack cfg c i mem hack
      rw [wbStep_hold hack]
      apply invNext_drain_same h hlegal hsound hdrain _ hcarries hstate harray rfl
        ⟨rfl, rfl, rfl, rfl⟩ hdrain.word
      · rw [hmem]
        exact hdrain.written
      · rw [hmem]
        exact h.coherent
  | true =>
      have hmem := @memNext_ack cfg c i mem hdrain.state hack
      have hcoherent : Coherent (c.copies cfg) (c.memNext cfg mem i) flat := by
        rw [hmem]
        exact LineMem.coherent_write _ h.coherent hdrain.word hdrain.addr
          ⟨_, _, hdrain.leaving, rfl, rfl⟩
      have hwritten :=
        LineMem.written_succ mem hdrain.word hdrain.written hdrain.addr (hdrain.data h.coherent)
      rw [← hmem] at hwritten
      cases hlast : c.fillIsLastWord cfg with
      | false =>
          rw [wbStep_word hack hlast]
          refine invNext_drain_same h hlegal hsound hdrain hcoherent ?_ ?_ ?_ ?_ ?_ ?_ ?_
          · exact hcarries.of_eq rfl rfl rfl rfl rfl rfl rfl rfl rfl
          · exact hstate
          · exact harray
          · rfl
          · exact ⟨rfl, rfl, rfl, rfl⟩
          · exact next_word hdrain.word hlast
          · exact hwritten
      | true =>
          rw [wbStep_drained hack hlast hdrain.active]
          refine invNext_drain_fill h hlegal hsound hdrain hcoherent ?_ ?_ ?_ ?_ ?_ ?_
          · intro w
            exact hwritten w (last_word hdrain.word hlast w)
          · exact hcarries.of_eq rfl rfl rfl rfl rfl rfl rfl rfl rfl
          · rfl
          · exact harray
          · exact ⟨rfl, rfl⟩
          · rfl

end DCache
end Cache
end RvCores
