import RvCores.Cache.Evict

/-!
# Fills

The missing line is read word by word into the way that was freed, with the store
of a write miss merged on the way.  The last word makes the line valid and hands
over to the next miss in the queue.
-/

namespace RvCores
namespace Cache

open Isa Lib

namespace DCache

variable {cfg : DCacheConfig} {c c' : DCache} {i : DCacheIn}
  {mem flat : LineMem cfg.toGeometry} {pend : Option CpuPort}
  {waiting : List (Nat × Word)}

/-!
# One word
-/

section

variable {next : DCache}

theorem fillStep_hold (hack : i.mAck = false) : c.fillStep cfg i next = next := by
  unfold fillStep
  rw [hack, if_neg Bool.false_ne_true]

theorem fillStep_word (hack : i.mAck = true) (hlast : c.fillIsLastWord cfg = false) :
    c.fillStep cfg i next =
      { next with
        array :=
          { next.array with
            data := setAt next.array.data (c.fillLine cfg, c.fillWord) (c.fillValue i) }
        fillWord := c.fillWord + 1 } := by
  unfold fillStep
  rw [hack, hlast, if_pos rfl, if_neg Bool.false_ne_true]

end

theorem Fill.hit_current (h : c.Inv cfg mem flat pend waiting) (hsound : c.Sound cfg pend i)
    (hfill : c.Fill cfg flat) (hhit : c.mshrBusyDispatchHit cfg i = true) :
    c.hitData cfg i = flat.read i.cpu.addr := by
  have hmain := (dispatchHit_request hhit).right.right
  apply hitData_current h hmain
  intro hdead
  have hline : c.hitLineIdx cfg i = c.fillLine cfg := by
    rw [dead_fill hfill.state] at hdead
    exact (Option.some.inj hdead).symm
  have hvalid := (LineArray.hit_selects h.wellFormed hmain).left
  have hword := (hsound.underFill hhit hfill.state hline).left
  have hremaining := hfill.remaining (hline ▸ hvalid) (LineMem.offset _ i.cpu.addr) hword
  rw [hline]
  exact hremaining

theorem respReady_fill_hold (hstate : c.state = .fill)
    (hcomplete : c.mshrCompleteNow cfg i = false) :
    c.respReady cfg i = c.huPending := by
  unfold respReady fillAnswers
  rw [hitAnswers_of_not_hitRd (by simp [hstate]), hcomplete, hstate]
  rfl

theorem flatNext_fill_hold (h : c.Inv cfg mem flat pend waiting) (hlegal : c.Legal pend i)
    (hsound : c.Sound cfg pend i) (hstate : c.state = .fill)
    (hcomplete : c.mshrCompleteNow cfg i = false) :
    c.flatNext cfg flat i = flat := by
  unfold flatNext
  rw [if_neg]
  rintro ⟨hwrite, hready⟩
  rw [respReady_fill_hold hstate hcomplete] at hready
  have hanswer := hu_answers h.ported hlegal hsound hready (active_of_write hwrite)
  rw [hwrite] at hanswer
  cases hanswer.right.left

/--
The line of the head is nowhere in the cache, so memory has the flat memory's
words.
-/
theorem head_mem_eq (h : c.Inv cfg mem flat pend waiting) (hfill : c.Fill cfg flat) :
    mem (c.head.line cfg) = flat (c.head.line cfg) := by
  apply h.coherent.mem_of_unheld
  intro s d hs
  exact unheld_copies h hfill.noPending (head_mem hfill.busy) hs

theorem Fill.value (h : c.Inv cfg mem flat pend waiting) (hbacked : c.Backed cfg mem i)
    (hfill : c.Fill cfg flat) (hack : i.mAck = true) :
    c.fillValue i
      = c.head.filled c.fillWord (flat (c.head.line cfg) ⟨c.fillWord, hfill.word⟩) := by
  have hok := h.queued.ok _ (head_mem hfill.busy)
  have haddr : c.mAddr = cfg.lineBase (c.head.line cfg) + 4 * c.fillWord := by
    unfold mAddr
    rw [hfill.state, if_neg CacheState.noConfusion, hok.base]
    rfl
  have hdata : i.mDataI = flat (c.head.line cfg) ⟨c.fillWord, hfill.word⟩ := by
    rw [hbacked.reads hfill.state hack, haddr, mem.read_base _ hfill.word,
      head_mem_eq h hfill]
  unfold fillValue fillDoMerge Mshr.filled
  rw [hdata]
  simp only [Bool.and_eq_true, beq_iff_eq]

/--
A cycle of the fill in which the line does not become valid.
-/
theorem invNext_fill_same (h : c.Inv cfg mem flat pend waiting) (hlegal : c.Legal pend i)
    (hsound : c.Sound cfg pend i) (hfill : c.Fill cfg flat)
    (hcomplete : c.mshrCompleteNow cfg i = false)
    (hcarries : Carries cfg c i c') (hstate : c'.state = .fill)
    (harray : exists data, c'.array = { c.array with data := data } ∧
      forall k, k.1 ≠ c.fillLine cfg -> data k = c.array.data k)
    (hvwb : c'.vwbPending = c.vwbPending ∧ c'.vwbActive = c.vwbActive)
    (hword : c'.fillWord < cfg.lineWords)
    (hfilled : forall w : Fin cfg.lineWords, (w : Nat) < c'.fillWord ->
      c'.array.data (c.fillLine cfg, w) = c.head.filled w (flat (c.head.line cfg) w))
    (hremaining : forall w : Fin cfg.lineWords, c'.fillWord <= w ->
      c.fillWord <= w ∧ c'.array.data (c.fillLine cfg, w) = c.array.data (c.fillLine cfg, w)) :
    InvNext cfg c mem flat waiting i c' := by
  obtain ⟨data, harray, hdata⟩ := harray
  have hidle : c.state ≠ .idle := by simp [hfill.state]
  have hwb : c.state ≠ .wb := by simp [hfill.state]
  have hflat := flatNext_fill_hold h hlegal hsound hfill.state hcomplete
  have hmem := @memNext_of_not_wb cfg c i mem hwb
  have hhead := hcarries.moves.head_eq h.queued hfill.busy hcomplete
  have hline : c'.fillLine cfg = c.fillLine cfg := fillLine_eq hhead.right
  have hdead := @dead_fill cfg c hfill.state
  have hdead' : c'.dead cfg = some (c.fillLine cfg) := by rw [dead_fill hstate, hline]
  have hcopies : c'.copies cfg = c.copies cfg := by
    have hnone : c.copies cfg (.way (c.fillLine cfg)) = none := by
      unfold copies slotCopies
      rw [hdead]
      exact LineArray.copyAt_dead _
    rw [← setAt_none_of_none hnone]
    apply copies_replace (Or.inr hdead) hdead' _ hcarries.vc
    · rw [leavingCopy_none hfill.noPending, leavingCopy_none (hvwb.left.trans hfill.noPending)]
    · intro k hk
      rw [harray]
      exact ⟨rfl, rfl, rfl, fun w _ => hdata (k, w) hk⟩
  apply invNext_busy h hlegal hsound hidle hfill.busy hcarries.moves hcarries.hu
    hcarries.huData hcarries.flush hcarries.done (by simp [hstate])
  · intro _ hblocking
    rw [respReady_fill_hold hfill.state hcomplete]
    exact (h.queued.blocking _ (head_mem hfill.busy) hblocking).right.left
  · intro hhit
    refine ⟨hfill.hit_current h hsound hhit, ?_⟩
    rw [harray]
    exact (dispatchHit_request hhit).right.right
  · intro _
    exact hflat
  · rw [harray]
    exact h.wellFormed.of_eq rfl rfl rfl
  · intro hentries
    apply buffered_busy h hfill.busy hentries hcarries.moves hcarries.vc hcomplete <;>
      rw [harray]
  · rw [hcopies, hflat, hmem]
    exact h.coherent
  · exact hcarries.vc
  · intro m hm
    rw [harray]
    exact (unheld_of_queue h hm).left
  · intro m hm
    apply behind_still h hcomplete hfill.busy _ _ _ hm <;> rw [harray]
  · rw [hflat]
    apply Phase.fill
    exact
      { state := hstate
        noFlush := hcarries.flush.trans hfill.noFlush
        busy := hhead.left
        noPending := hvwb.left.trans hfill.noPending
        noActive := hvwb.right.trans hfill.noActive
        word := hword
        filled := by
          rw [hline, hhead.right]
          exact hfilled
        remaining := by
          intro hvalid w hw
          rw [hline] at hvalid ⊢
          have hold := hremaining w hw
          rw [hold.right]
          rw [harray] at hvalid ⊢
          exact hfill.remaining hvalid w hold.left }

/-!
# The last word
-/

/--
The main array once the line is complete.
-/
def filledArray (cfg : DCacheConfig) (c : DCache) (i : DCacheIn) : LineArray :=
  { valid := setAt c.array.valid (c.fillLine cfg) true
    dirty := setAt c.array.dirty (c.fillLine cfg) c.head.isWrite
    tag := setAt c.array.tag (c.fillLine cfg) c.head.tag
    data := setAt c.array.data (c.fillLine cfg, c.fillWord) (c.fillValue i)
    victim :=
      setAt c.array.victim c.head.set (LineArray.nextVictim cfg.toGeometry c.head.way)
    age :=
      if cfg.policy = .lru then c.array.lruTouch cfg.toGeometry c.head.set c.head.way
      else c.array.age }

section

variable {next : DCache} (hack : i.mAck = true) (hlast : c.fillIsLastWord cfg = true)
  (harray : next.array = c.array)

include hack hlast harray

theorem fillStep_idle (hempty : c.mshrCountAfterComplete cfg i = 0) :
    c.fillStep cfg i next = { next with array := filledArray cfg c i, state := .idle } := by
  unfold fillStep filledArray
  rw [hack, hlast, hempty, if_pos rfl, if_pos rfl, if_pos rfl, harray]

theorem fillStep_evict (hmore : c.mshrCountAfterComplete cfg i ≠ 0)
    (hneed : c.newHeadNeedWb cfg i = true) :
    c.fillStep cfg i next =
      { next with
        array := filledArray cfg c i
        fillWord := 0
        wbLine := c.newHeadWbLine cfg i
        wbBase := c.newHeadWbBase cfg i
        wbReturnToFlush := false
        vwbActive := false
        state := .wb } := by
  unfold fillStep filledArray
  rw [hack, hlast, hneed, if_pos rfl, if_pos rfl, if_neg hmore, if_pos rfl, harray]

theorem fillStep_fill (hmore : c.mshrCountAfterComplete cfg i ≠ 0)
    (hneed : c.newHeadNeedWb cfg i = false) :
    c.fillStep cfg i next =
      { next with array := filledArray cfg c i, fillWord := 0, state := .fill } := by
  unfold fillStep filledArray
  rw [hack, hlast, hneed, if_pos rfl, if_pos rfl, if_neg hmore,
    if_neg Bool.false_ne_true, harray]

end

theorem Queued.fillLine_lt (h : c.Queued cfg flat pend waiting) (hbusy : 0 < c.mshrCount) :
    c.head.set < cfg.sets ∧ c.head.way < cfg.ways ∧ c.fillLine cfg < cfg.numLines ∧
      cfg.setOf (c.fillLine cfg) = c.head.set := by
  have hok := h.ok _ (head_mem hbusy)
  have hset : c.head.set < cfg.sets := by
    rw [hok.set]
    exact cfg.setIdx_lt _
  exact ⟨hset, hok.way, cfg.lineIdx_lt hset hok.way, cfg.setOf_lineIdx hok.way⟩

theorem filledArray_addr (h : c.Queued cfg flat pend waiting) (hbusy : 0 < c.mshrCount) :
    (filledArray cfg c i).lineAddr cfg.toGeometry (c.fillLine cfg) = c.head.line cfg := by
  have hok := h.ok _ (head_mem hbusy)
  unfold LineArray.lineAddr
  rw [(h.fillLine_lt hbusy).right.right.right]
  show cfg.joinTag (setAt c.array.tag (c.fillLine cfg) c.head.tag (c.fillLine cfg)) _ = _
  rw [setAt_self, hok.tag, hok.set]
  exact cfg.joinTag_tag_setIdx _

theorem filledArray_addr_of_ne {line : Nat} (hne : line ≠ c.fillLine cfg) :
    (filledArray cfg c i).lineAddr cfg.toGeometry line
      = c.array.lineAddr cfg.toGeometry line := by
  unfold LineArray.lineAddr
  show cfg.joinTag (setAt c.array.tag (c.fillLine cfg) c.head.tag line) _ = _
  rw [setAt_of_ne hne]

theorem filledArray_valid {line : Nat} (h : (filledArray cfg c i).valid line = true) :
    line = c.fillLine cfg ∨ (line ≠ c.fillLine cfg ∧ c.array.valid line = true) := by
  by_cases heq : line = c.fillLine cfg
  · exact Or.inl heq
  · refine Or.inr ⟨heq, ?_⟩
    rw [← h]
    exact (setAt_of_ne heq).symm

theorem filledArray_wellFormed (h : c.Inv cfg mem flat pend waiting)
    (hbusy : 0 < c.mshrCount) :
    (filledArray cfg c i).WellFormed cfg.toGeometry := by
  have hline := h.queued.fillLine_lt hbusy
  apply h.wellFormed.install hline.right.right.left
  · intro k hne
    exact ⟨setAt_of_ne hne, filledArray_addr_of_ne hne⟩
  · intro k _ hvalid
    rw [filledArray_addr h.queued hbusy]
    exact (h.queued.unheld _ (head_mem hbusy)).left k hvalid
  · intro set
    show setAt c.array.victim c.head.set _ set < _
    rw [setAt_apply]
    split
    · exact LineArray.nextVictim_lt hline.right.left
    · exact h.wellFormed.pointer set

/--
The line as it is filled.
-/
def filledLine (cfg : DCacheConfig) (c : DCache) (flat : LineMem cfg.toGeometry) :
    Fin cfg.lineWords -> Word :=
  fun w => c.head.filled w (flat (c.head.line cfg) w)

theorem filledArray_data (h : c.Inv cfg mem flat pend waiting)
    (hbacked : c.Backed cfg mem i) (hfill : c.Fill cfg flat) (hack : i.mAck = true)
    (hlast : c.fillIsLastWord cfg = true) :
    (filledArray cfg c i).lineData cfg.toGeometry (c.fillLine cfg)
      = filledLine cfg c flat := by
  have hwrite := @LineArray.lineData_write cfg.toGeometry c.array (c.fillLine cfg) c.fillWord
    (c.fillValue i) hfill.word
  funext w
  have hword := congrFun hwrite w
  rw [setAt_apply] at hword
  show setAt c.array.data (c.fillLine cfg, c.fillWord) (c.fillValue i) (c.fillLine cfg, w) = _
  refine hword.trans ?_
  unfold filledLine
  split
  · next heq => rw [hfill.value h hbacked hack, heq]
  · next hne =>
      have hlt := last_word hfill.word hlast w
      have hne' : (w : Nat) ≠ c.fillWord := fun heq => hne (Fin.ext heq)
      exact hfill.filled w (by omega)

theorem completeNow_last (hstate : c.state = .fill) (hack : i.mAck = true)
    (hlast : c.fillIsLastWord cfg = true) :
    c.mshrCompleteNow cfg i = true := by
  unfold mshrCompleteNow
  rw [hstate, hack, hlast]
  rfl

/--
A fill that completes writes the store of its miss, and nothing else, into the flat
memory.
-/
theorem flatNext_complete (h : c.Inv cfg mem flat pend waiting) (hlegal : c.Legal pend i)
    (hsound : c.Sound cfg pend i) (hfill : c.Fill cfg flat)
    (hcomplete : c.mshrCompleteNow cfg i = true) :
    c.flatNext cfg flat i
      = setAt flat (c.head.line cfg) (filledLine cfg c flat) := by
  have hok := h.queued.ok _ (head_mem hfill.busy)
  -- without a store the line is filled as it is
  have hload : c.head.isWrite = false ->
      setAt flat (c.head.line cfg) (filledLine cfg c flat) = flat := by
    intro hwrite
    have hsame : filledLine cfg c flat = flat (c.head.line cfg) := by
      funext w
      unfold filledLine Mshr.filled
      rw [hwrite, if_neg]
      intro hcond
      cases hcond.left
    rw [hsame]
    funext a
    rw [setAt_apply]
    split
    · next heq => rw [heq]
    · rfl
  cases hearly : c.head.earlyRetired with
  | true =>
      rw [hload (hok.early hearly).left]
      unfold flatNext
      rw [if_neg]
      rintro ⟨hwrite, hready⟩
      unfold respReady fillAnswers at hready
      rw [hitAnswers_of_not_hitRd (by simp [hfill.state]), hearly, hfill.state] at hready
      have hhu : c.huPending = true := by simpa using hready
      have hanswer := hu_answers h.ported hlegal hsound hhu (active_of_write hwrite)
      rw [hwrite] at hanswer
      cases hanswer.right.left
  | false =>
      obtain ⟨hserves, hactive, _⟩ :=
        blocking_holds h hlegal (head_mem hfill.busy) hearly
      obtain ⟨haddr, hwrite, hwdata, hfunct3⟩ := hserves
      cases hisWrite : c.head.isWrite with
      | false =>
          rw [hload hisWrite, flatNext_of_not_write (by rw [← hwrite, hisWrite])]
      | true =>
          have hready : c.respReady cfg i = true := by
            unfold respReady fillAnswers
            rw [hcomplete, hearly, hactive, haddr]
            simp
          unfold flatNext LineMem.store LineMem.write
          rw [if_pos ⟨by rw [← hwrite, hisWrite], hready⟩]
          have hline : cfg.lineAddr i.cpu.addr = c.head.line cfg := by
            unfold Mshr.line
            rw [haddr]
          rw [hline]
          congr 1
          funext w
          unfold filledLine Mshr.filled
          rw [setAt_apply, hisWrite, hok.wordOff, hok.byteOff, haddr, hwdata, hfunct3]
          have hoff : w = LineMem.offset cfg.toGeometry i.cpu.addr
              <-> (true = true ∧ (w : Nat) = cfg.wordOff i.cpu.addr) := by
            constructor
            · intro heq
              exact ⟨rfl, congrArg Fin.val heq⟩
            · intro heq
              exact Fin.ext heq.right
          by_cases heq : w = LineMem.offset cfg.toGeometry i.cpu.addr
          · rw [if_pos heq, if_pos (hoff.mp heq), heq]
            unfold LineMem.read
            rw [hline]
          · rw [if_neg heq, if_neg (fun hcond => heq (hoff.mpr hcond))]

/-!
# Handing over to the next miss
-/

/--
If anybody waits behind the head, the head is a load.
-/
theorem head_is_load (h : c.Inv cfg mem flat pend waiting) (hlegal : c.Legal pend i)
    (hbusy : 0 < c.mshrCount) (hcomplete : c.mshrCompleteNow cfg i = true)
    (hmore : queueNext cfg c i ≠ []) :
    c.head.isWrite = false := by
  have hok := h.queued.ok _ (head_mem hbusy)
  cases hearly : c.head.earlyRetired with
  | true => exact (hok.early hearly).left
  | false =>
      have halone := (h.queued.blocking _ (head_mem hbusy) hearly).left
      have hmiss := (blocking_holds h hlegal (head_mem hbusy) hearly).right.right.left
      apply absurd _ hmore
      unfold queueNext
      rw [hcomplete, hmiss, if_pos rfl, halone]
      rfl

/--
What the remaining entries know about their victim ways is true of the array with
the new line in it.
-/
theorem filledArray_behind (h : c.Inv cfg mem flat pend waiting) (hlegal : c.Legal pend i)
    (hsound : c.Sound cfg pend i) (hbusy : 0 < c.mshrCount)
    (hcomplete : c.mshrCompleteNow cfg i = true) {m : Mshr} (hm : m ∈ queueNext cfg c i) :
    m.needWb = ((filledArray cfg c i).valid m.wbLine && (filledArray cfg c i).dirty m.wbLine) ∧
      (m.needWb = true ->
        m.wbBase = cfg.lineBase ((filledArray cfg c i).lineAddr cfg.toGeometry m.wbLine)) := by
  have hhead := head_wbLine h.queued hbusy
  have hload := head_is_load h hlegal hbusy hcomplete (List.ne_nil_of_mem hm)
  have hcons := @queue_cons cfg c hbusy
  -- an entry that shares the way of the head has nothing to write back
  have hsame : m.needWb = false -> m.wbLine = c.fillLine cfg ->
      m.needWb = ((filledArray cfg c i).valid m.wbLine &&
          (filledArray cfg c i).dirty m.wbLine) ∧
        (m.needWb = true ->
          m.wbBase = cfg.lineBase ((filledArray cfg c i).lineAddr cfg.toGeometry m.wbLine)) := by
    intro hneed hline
    have hclean : (filledArray cfg c i).dirty (c.fillLine cfg) = false := by
      show setAt c.array.dirty (c.fillLine cfg) c.head.isWrite (c.fillLine cfg) = false
      rw [setAt_self, hload]
    rw [hneed, hline, hclean, Bool.and_false]
    exact ⟨rfl, fun hfalse => absurd hfalse Bool.false_ne_true⟩
  have hother : m.wbLine ≠ c.fillLine cfg ->
      (filledArray cfg c i).valid m.wbLine = c.array.valid m.wbLine ∧
        (filledArray cfg c i).dirty m.wbLine = c.array.dirty m.wbLine :=
    fun hne => ⟨setAt_of_ne hne, setAt_of_ne hne⟩
  unfold queueNext at hm
  rw [hcomplete, if_pos rfl] at hm
  rcases List.mem_append.mp hm with hold | hnew
  · by_cases hline : m.wbLine = c.fillLine cfg
    · apply hsame _ hline
      cases hneed : m.needWb with
      | false => rfl
      | true =>
          have hreserved := h.queued.reserved
          rw [hcons] at hreserved
          exact absurd (hline.trans hhead.symm)
            (List.rel_of_pairwise_cons hreserved hold hneed)
    · rw [(hother hline).left, (hother hline).right, filledArray_addr_of_ne hline]
      exact h.queued.behind m hold
  · split at hnew
    · next hmiss =>
        have hm' := List.mem_singleton.mp hnew
        by_cases hline : m.wbLine = c.fillLine cfg
        · apply hsame _ hline
          cases hneed : m.needWb with
          | false => rfl
          | true =>
              rw [hm'] at hneed hline
              exact absurd (hhead.trans hline.symm)
                (hsound.reserve hmiss hneed _ (head_mem hbusy))
        · rw [(hother hline).left, (hother hline).right, filledArray_addr_of_ne hline, hm']
          exact missEntry_behind h rfl rfl rfl false 0 true
    · cases hnew

/--
The forwarded fields are those of the entry that becomes the head.
-/
theorem newHead_eq (h : c.Queued cfg flat pend waiting) (hbusy : 0 < c.mshrCount)
    (hmoves : MovesQueue cfg c i c') (hcomplete : c.mshrCompleteNow cfg i = true)
    (hmore : c.mshrCountAfterComplete cfg i ≠ 0) :
    c.newHeadNeedWb cfg i = c'.head.needWb ∧ c.newHeadWbLine cfg i = c'.head.wbLine ∧
      c.newHeadWbBase cfg i = c'.head.wbBase := by
  have hhead := h.headLt
  have hle := h.countLe
  have hmany : 1 < cfg.mshrEntries := by
    cases hmiss : c.mshrBusyDispatchMiss cfg i with
    | true => exact (dispatchMiss_room hmiss).left
    | false =>
        unfold mshrCountAfterComplete at hmore
        rw [hcomplete, hmiss, if_pos rfl, if_neg Bool.false_ne_true] at hmore
        omega
  have hne : nextSlot cfg c.mshrHead ≠ c.mshrHead := by
    unfold nextSlot
    split <;> omega
  have hnewHead : c'.head =
      if c.newHeadIsFreshAlloc cfg i then c.missEntry cfg i false 0 true
      else c.mshr (nextSlot cfg c.mshrHead) := by
    unfold DCache.head newHeadIsFreshAlloc
    rw [hmoves.mshr, hmoves.head, hcomplete, if_pos rfl]
    unfold mshrNext
    rw [hcomplete, if_pos rfl]
    cases hmiss : c.mshrBusyDispatchMiss cfg i with
    | false =>
        rw [if_neg Bool.false_ne_true, Bool.false_and, if_neg Bool.false_ne_true]
        exact modifyAt_of_ne hne
    | true =>
        rw [if_pos rfl, setAt_apply, Bool.true_and]
        simp only [beq_iff_eq]
        split
        · rfl
        · exact modifyAt_of_ne hne
  rw [hnewHead]
  unfold newHeadNeedWb newHeadWbLine newHeadWbBase
  split
  · exact ⟨rfl, rfl, rfl⟩
  · exact ⟨rfl, rfl, rfl⟩

/--
The copies with the new line among them, before the next line is given up.
-/
theorem filled_coherent (h : c.Inv cfg mem flat pend waiting) (hlegal : c.Legal pend i)
    (hsound : c.Sound cfg pend i) (hbacked : c.Backed cfg mem i) (hfill : c.Fill cfg flat)
    (hack : i.mAck = true) (hlast : c.fillIsLastWord cfg = true)
    (harray : c'.array = filledArray cfg c i) (hdead : c'.dead cfg = none)
    (hvc : c'.vc = c.vc) (hpending : c'.vwbPending = false) :
    Coherent (c'.copies cfg) mem (c.flatNext cfg flat i) := by
  have hcopies : c'.copies cfg = setAt (c.copies cfg) (.way (c.fillLine cfg))
      (some
        { addr := c.head.line cfg
          dirty := c.head.isWrite
          data := filledLine cfg c flat }) := by
    rw [@copies_update_way cfg c c' (c.fillLine cfg)]
    · congr 1
      rw [hdead, harray]
      refine LineArray.copyAt_eq_some.mpr ⟨setAt_self _ _ _, by simp, ?_⟩
      ext1
      · exact (filledArray_addr h.queued hfill.busy).symm
      · exact (setAt_self _ _ _).symm
      · exact (filledArray_data h hbacked hfill hack hlast).symm
    · intro k hk
      rw [hdead, harray]
      apply LineArray.copyAt_congr
      · exact setAt_of_ne hk
      · exact setAt_of_ne hk
      · exact setAt_of_ne hk
      · intro w _
        apply setAt_of_ne
        intro heq
        exact hk (congrArg Prod.fst heq)
      · rw [dead_fill hfill.state]
        simp [hk.symm]
    · exact hvc
    · rw [leavingCopy_none hpending, leavingCopy_none hfill.noPending]
  rw [hcopies, flatNext_complete h hlegal hsound hfill (completeNow_last hfill.state hack hlast)]
  apply h.coherent.install
  · unfold copies slotCopies
    rw [dead_fill hfill.state]
    exact LineArray.copyAt_dead _
  · intro s d hs
    exact unheld_copies h hfill.noPending (head_mem hfill.busy) hs
  · intro hload
    rw [head_mem_eq h hfill]
    funext w
    unfold filledLine Mshr.filled
    rw [hload, if_neg]
    intro hcond
    cases hcond.left

theorem queueNext_line (h : c.Inv cfg mem flat pend waiting) (hbusy : 0 < c.mshrCount)
    (hcomplete : c.mshrCompleteNow cfg i = true) {m : Mshr} (hm : m ∈ queueNext cfg c i) :
    c.head.line cfg ≠ m.line cfg := by
  unfold queueNext at hm
  rw [hcomplete, if_pos rfl] at hm
  rcases List.mem_append.mp hm with hold | hnew
  · have hlines := h.queued.lines
    rw [queue_cons hbusy] at hlines
    exact List.rel_of_pairwise_cons hlines hold
  · split at hnew
    · next hmiss =>
        rw [List.mem_singleton.mp hnew]
        exact dispatchMiss_line h.queued hmiss (head_mem hbusy)
    · cases hnew

theorem filled_unheld (h : c.Inv cfg mem flat pend waiting) (hbusy : 0 < c.mshrCount)
    (hcomplete : c.mshrCompleteNow cfg i = true) {m : Mshr} (hm : m ∈ queueNext cfg c i)
    {line : Nat} (hvalid : (filledArray cfg c i).valid line = true) :
    (filledArray cfg c i).lineAddr cfg.toGeometry line ≠ m.line cfg := by
  rcases filledArray_valid hvalid with rfl | ⟨hne, hold⟩
  · rw [filledArray_addr h.queued hbusy]
    exact queueNext_line h hbusy hcomplete hm
  · rw [filledArray_addr_of_ne hne]
    exact (unheld_of_queue h hm).left line hold

theorem filled_buffered (h : c.Inv cfg mem flat pend waiting) (hfill : c.Fill cfg flat)
    (hcomplete : c.mshrCompleteNow cfg i = true) (hcarries : Carries cfg c i c')
    (harray : c'.array = filledArray cfg c i) (hentries : cfg.victimEntries ≠ 0) :
    c'.Buffered cfg := by
  have hbuffered := h.buffered hentries
  have hok := h.queued.ok _ (head_mem hfill.busy)
  have hcons := @queue_cons cfg c hfill.busy
  have hturn : cfg.policy ≠ .lru -> c.array.InTurn cfg.toGeometry
      ((c.head.set, c.head.way) :: (queueNext cfg c i).map (fun m => (m.set, m.way))) := by
    intro hpolicy
    have hjoined := @inTurn_joined cfg c i _ _ _ _ h hentries hpolicy
    rw [hcons, List.cons_append, List.map_cons] at hjoined
    unfold queueNext
    rw [hcomplete, if_pos rfl]
    exact hjoined
  apply buffered_congr hbuffered hcarries.vc
  · apply hbuffered.packed.fill hok.way
    · intro hpolicy
      exact (hturn hpolicy).due _ List.mem_cons_self
    · intro hpolicy
      rw [harray]
      exact if_pos hpolicy
    · rw [harray]
      rfl
    · rw [harray]
      rfl
  · intro line hline
    rw [harray]
    show setAt c.array.valid (c.fillLine cfg) true line = true
    rw [setAt_apply, hline]
    split <;> rfl
  · intro hpolicy
    rw [(hcarries.moves.ring h.queued hfill.busy).right.right.right, harray]
    exact (hturn hpolicy).fill rfl rfl

/--
The last word of a fill, given what becomes of the copies.
-/
theorem invNext_fill_last (h : c.Inv cfg mem flat pend waiting) (hlegal : c.Legal pend i)
    (hsound : c.Sound cfg pend i) (hfill : c.Fill cfg flat)
    (hcomplete : c.mshrCompleteNow cfg i = true)
    (hcarries : Carries cfg c i c') (hstate : c'.state ≠ .hitRd)
    (harray : c'.array = filledArray cfg c i)
    (hcoherent : Coherent (c'.copies cfg) mem (c.flatNext cfg flat i))
    (hphase : c'.Phase cfg mem (c.flatNext cfg flat i) (c.pendNext cfg i)) :
    InvNext cfg c mem flat waiting i c' := by
  have hidle : c.state ≠ .idle := by simp [hfill.state]
  have hwb : c.state ≠ .wb := by simp [hfill.state]
  have hmem := @memNext_of_not_wb cfg c i mem hwb
  apply invNext_busy h hlegal hsound hidle hfill.busy hcarries.moves hcarries.hu
    hcarries.huData hcarries.flush hcarries.done hstate
  · intro hfalse
    rw [hcomplete] at hfalse
    cases hfalse
  · intro hhit
    refine ⟨hfill.hit_current h hsound hhit, ?_⟩
    have hselects := LineArray.hit_selects h.wellFormed (dispatchHit_request hhit).right.right
    have hne : c.hitLineIdx cfg i ≠ c.fillLine cfg := by
      intro heq
      have hnot := (hsound.underFill hhit hfill.state heq).right
      rw [hcomplete] at hnot
      cases hnot
    rw [harray]
    apply LineArray.hitMain_of_valid (filledArray_wellFormed h hfill.busy)
    · exact (setAt_of_ne hne).trans hselects.left
    · exact (filledArray_addr_of_ne hne).trans hselects.right.left
  · intro hmore
    have hload := head_is_load h hlegal hfill.busy hcomplete hmore
    rw [flatNext_complete h hlegal hsound hfill hcomplete]
    funext a
    rw [setAt_apply]
    split
    · next heq =>
        rw [heq]
        funext w
        unfold filledLine Mshr.filled
        rw [hload, if_neg]
        intro hcond
        cases hcond.left
    · rfl
  · rw [harray]
    exact filledArray_wellFormed h hfill.busy
  · exact filled_buffered h hfill hcomplete hcarries harray
  · rw [hmem]
    exact hcoherent
  · exact hcarries.vc
  · intro m hm line hvalid
    rw [harray] at hvalid ⊢
    exact filled_unheld h hfill.busy hcomplete hm hvalid
  · intro m hm
    rw [harray]
    exact filledArray_behind h hlegal hsound hfill.busy hcomplete (List.mem_of_mem_tail hm)
  · rw [hmem]
    exact hphase

/-!
# What follows a fill
-/

section

variable (h : c.Inv cfg mem flat pend waiting) (hlegal : c.Legal pend i)
  (hsound : c.Sound cfg pend i) (hbacked : c.Backed cfg mem i) (hfill : c.Fill cfg flat)
  (hack : i.mAck = true) (hlast : c.fillIsLastWord cfg = true)
  (hcarries : Carries cfg c i c') (harray : c'.array = filledArray cfg c i)
  (hvwb : c'.vwbPending = false ∧ c'.vwbActive = false)

include h hlegal hsound hbacked hfill hack hlast hcarries harray hvwb

theorem invNext_fill_idle (hempty : c.mshrCountAfterComplete cfg i = 0)
    (hstate : c'.state = .idle) :
    InvNext cfg c mem flat waiting i c' := by
  have hcomplete := completeNow_last hfill.state hack hlast
  have hfilled := filled_coherent h hlegal hsound hbacked hfill hack hlast harray
    (dead_idle hstate) hcarries.vc hvwb.left
  apply invNext_fill_last h hlegal hsound hfill hcomplete hcarries (by simp [hstate]) harray
  · exact hfilled
  · refine Phase.idle hstate ?_
    exact
      { empty := hcarries.moves.count.trans hempty
        noFlush := hcarries.flush.trans hfill.noFlush
        noPending := hvwb.left
        noActive := hvwb.right }

omit hlegal hsound hbacked hack hlast harray hvwb in
theorem nextHead_mem (hmore : c.mshrCountAfterComplete cfg i ≠ 0) :
    0 < c'.mshrCount ∧ c'.head ∈ queueNext cfg c i ∧ c'.head.Ok cfg ∧
      c'.head.wbLine = c'.fillLine cfg := by
  have hring := hcarries.moves.ring h.queued hfill.busy
  have hpos : 0 < c'.mshrCount := by
    rw [hcarries.moves.count]
    omega
  have hmem : c'.head ∈ queueNext cfg c i := by
    rw [← hring.right.right.right]
    exact head_mem hpos
  have hok : c'.head.Ok cfg := by
    rcases mem_queueNext hmem with hold | ⟨hmiss, heq⟩
    · exact h.queued.ok _ hold
    · rw [heq]
      exact missEntry_ok h.wellFormed _ _ _ (fun _ => ⟨rfl, (dispatchMiss_room hmiss).left⟩)
  exact ⟨hpos, hmem, hok, hok.wbLine⟩

theorem invNext_fill_evict (hmore : c.mshrCountAfterComplete cfg i ≠ 0)
    (hneed : c.newHeadNeedWb cfg i = true) (hstate : c'.state = .wb)
    (hbus : c'.wbLine = c.newHeadWbLine cfg i ∧ c'.wbBase = c.newHeadWbBase cfg i ∧
      c'.wbReturnToFlush = false ∧ c'.fillWord = 0) :
    InvNext cfg c mem flat waiting i c' := by
  have hcomplete := completeNow_last hfill.state hack hlast
  obtain ⟨hpos, hmem, hok, hwbLine⟩ := nextHead_mem h hfill hcarries hmore
  have hnew := newHead_eq h.queued hfill.busy hcarries.moves hcomplete hmore
  have hbehind := filledArray_behind h hlegal hsound hfill.busy hcomplete hmem
  rw [← hnew.left, ← hnew.right.left, ← hnew.right.right, hneed, ← hbus.left,
    ← hbus.right.left, ← harray] at hbehind
  have hvalid := (Bool.and_eq_true_iff.mp hbehind.left.symm).left
  have hdirty := (Bool.and_eq_true_iff.mp hbehind.left.symm).right
  have hline : c'.wbLine = c'.fillLine cfg := by rw [hbus.left, hnew.right.left, hwbLine]
  -- a way held the line until now, so the line is not in the buffer and stays alive
  have hmoved : c'.moved cfg = false := by
    let d : DCache := { c' with state := .idle }
    have hidle : d.dead cfg = none := dead_idle rfl
    have hcoherent := @filled_coherent cfg c d i mem flat pend waiting h hlegal hsound hbacked
      hfill hack hlast harray hidle hcarries.vc hvwb.left
    exact @not_moved cfg d mem _ hcoherent (hline ▸ hvalid) (by simp [hidle])
  have hdead : c'.dead cfg = none := dead_eq_none (by simp [hstate]) (fun _ => Or.inr hmoved)
  have hfilled := filled_coherent h hlegal hsound hbacked hfill hack hlast harray hdead
    hcarries.vc hvwb.left
  have hlive : c'.dead cfg ≠ some c'.wbLine := by simp [hdead]
  apply invNext_fill_last h hlegal hsound hfill hcomplete hcarries (by simp [hstate]) harray
  · exact hfilled
  · apply Phase.evict
    exact
      { state := hstate
        noFlush := hcarries.flush.trans hfill.noFlush
        noReturn := hbus.right.right.left
        busy := hpos
        moved := by
          intro hpending
          rw [hvwb.left] at hpending
          cases hpending
        noActive := hvwb.right
        line := hline
        valid := hvalid
        dirty := hdirty
        base := hbehind.right rfl
        word := by
          rw [hbus.right.right.right]
          exact cfg.lineWords_pos
        current := way_current hfilled hvalid hlive
        written := by
          intro w hw
          rw [hbus.right.right.right] at hw
          exact absurd hw (Nat.not_lt_zero w)
        held := ⟨_, _, copies_way hvalid hlive, rfl, hdirty⟩ }

theorem invNext_fill_fill (hmore : c.mshrCountAfterComplete cfg i ≠ 0)
    (hneed : c.newHeadNeedWb cfg i = false) (hstate : c'.state = .fill)
    (hword : c'.fillWord = 0) :
    InvNext cfg c mem flat waiting i c' := by
  have hcomplete := completeNow_last hfill.state hack hlast
  obtain ⟨hpos, hmem, hok, hwbLine⟩ := nextHead_mem h hfill hcarries hmore
  have hnew := newHead_eq h.queued hfill.busy hcarries.moves hcomplete hmore
  -- the copies before the way of the next miss is given up
  let d : DCache := { c' with state := .idle }
  have hdead : d.dead cfg = none := dead_idle rfl
  have hfilled : Coherent (d.copies cfg) mem (c.flatNext cfg flat i) :=
    filled_coherent h hlegal hsound hbacked hfill hack hlast harray hdead hcarries.vc hvwb.left
  have hcopies : c'.copies cfg = setAt (d.copies cfg) (.way (c'.fillLine cfg)) none := by
    apply copies_replace (Or.inl hdead) (dead_fill hstate) _ rfl rfl
    intro k _
    exact ⟨rfl, rfl, rfl, fun _ _ => rfl⟩
  have hbehind := (filledArray_behind h hlegal hsound hfill.busy hcomplete hmem).left
  rw [← hnew.left, hneed, hwbLine, ← harray] at hbehind
  apply invNext_fill_last h hlegal hsound hfill hcomplete hcarries (by simp [hstate]) harray
  · rw [hcopies]
    apply hfilled.drop
    intro e he
    apply hfilled.mem_of_clean he
    obtain ⟨hvalid, _, rfl⟩ := LineArray.copyAt_eq_some.mp he
    have hvalid' : c'.array.valid (c'.fillLine cfg) = true := hvalid
    rw [hvalid', Bool.true_and] at hbehind
    exact hbehind.symm
  · apply Phase.fill
    exact
      { state := hstate
        noFlush := hcarries.flush.trans hfill.noFlush
        busy := hpos
        noPending := hvwb.left
        noActive := hvwb.right
        word := by
          rw [hword]
          exact cfg.lineWords_pos
        filled := by
          intro w hw
          rw [hword] at hw
          exact absurd hw (Nat.not_lt_zero w)
        remaining := by
          intro hvalid w _
          have hcurrent := @way_current cfg d mem _ hfilled (c'.fillLine cfg) hvalid
            (by simp [hdead])
          exact congrFun hcurrent w }

end

theorem invNext_fill (h : c.Inv cfg mem flat pend waiting) (hlegal : c.Legal pend i)
    (hsound : c.Sound cfg pend i) (hbacked : c.Backed cfg mem i) (hfill : c.Fill cfg flat) :
    InvNext cfg c mem flat waiting i (c.step cfg i) := by
  have hidle : c.state ≠ .idle := by simp [hfill.state]
  have hrd : c.state ≠ .hitRd := by simp [hfill.state]
  have harray := @common_array cfg c i hidle hrd hbacked.noProbe
  have hcarries := @common_carries cfg c i hidle
  have hstate : (c.common cfg i).state = .fill := hfill.state
  rw [step_fill hfill.state]
  cases hack : i.mAck with
  | false =>
      have hcomplete : c.mshrCompleteNow cfg i = false := by
        unfold mshrCompleteNow
        rw [hack, Bool.and_false, Bool.false_and]
      rw [fillStep_hold hack]
      apply invNext_fill_same h hlegal hsound hfill hcomplete hcarries hstate
        ⟨c.array.data, harray, fun _ _ => rfl⟩ ⟨rfl, rfl⟩ hfill.word
      · intro w hw
        rw [harray]
        exact hfill.filled w hw
      · intro w hw
        rw [harray]
        exact ⟨hw, rfl⟩
  | true =>
      cases hlast : c.fillIsLastWord cfg with
      | false =>
          have hcomplete : c.mshrCompleteNow cfg i = false := by
            unfold mshrCompleteNow
            rw [hlast, Bool.and_false]
          have hvalue := hfill.value h hbacked hack
          rw [fillStep_word hack hlast, harray]
          refine invNext_fill_same h hlegal hsound hfill hcomplete ?_ ?_ ?_ ?_ ?_ ?_ ?_
          · exact hcarries.of_eq rfl rfl rfl rfl rfl rfl rfl rfl rfl
          · exact hstate
          · refine ⟨_, rfl, ?_⟩
            intro k hk
            apply setAt_of_ne
            intro heq
            exact hk (congrArg Prod.fst heq)
          · exact ⟨rfl, rfl⟩
          · exact next_word hfill.word hlast
          · intro w hw
            have hw' : (w : Nat) < c.fillWord + 1 := hw
            show setAt c.array.data (c.fillLine cfg, c.fillWord) _ (c.fillLine cfg, w) = _
            rw [setAt_apply]
            split
            · next heq =>
                have hword : w = ⟨c.fillWord, hfill.word⟩ := Fin.ext (Prod.mk.inj heq).right
                rw [hvalue, hword]
            · next hne =>
                apply hfill.filled
                have hword : (w : Nat) ≠ c.fillWord := fun heq => hne (by rw [heq])
                omega
          · intro w hw
            have hw' : c.fillWord + 1 <= w := hw
            refine ⟨by omega, ?_⟩
            apply setAt_of_ne
            intro heq
            have hword := (Prod.mk.inj heq).right
            omega
      | true =>
          by_cases hempty : c.mshrCountAfterComplete cfg i = 0
          · rw [fillStep_idle hack hlast harray hempty]
            refine invNext_fill_idle h hlegal hsound hbacked hfill hack hlast ?_ ?_ ?_ hempty ?_
            · exact hcarries.of_eq rfl rfl rfl rfl rfl rfl rfl rfl rfl
            · rfl
            · exact ⟨hfill.noPending, hfill.noActive⟩
            · rfl
          · cases hneed : c.newHeadNeedWb cfg i with
            | true =>
                rw [fillStep_evict hack hlast harray hempty hneed]
                refine invNext_fill_evict h hlegal hsound hbacked hfill hack hlast
                  ?_ ?_ ?_ hempty hneed ?_ ?_
                · exact hcarries.of_eq rfl rfl rfl rfl rfl rfl rfl rfl rfl
                · rfl
                · exact ⟨hfill.noPending, rfl⟩
                · rfl
                · exact ⟨rfl, rfl, rfl, rfl⟩
            | false =>
                rw [fillStep_fill hack hlast harray hempty hneed]
                refine invNext_fill_fill h hlegal hsound hbacked hfill hack hlast
                  ?_ ?_ ?_ hempty hneed ?_ ?_
                · exact hcarries.of_eq rfl rfl rfl rfl rfl rfl rfl rfl rfl
                · rfl
                · exact ⟨hfill.noPending, hfill.noActive⟩
                · rfl
                · rfl

end DCache
end Cache
end RvCores
