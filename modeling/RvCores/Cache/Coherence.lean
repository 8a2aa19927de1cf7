import RvCores.Cache.Promote

/-!
# Coherence of the data cache

The lemmas on the single kinds of cycle put together: one cycle keeps the invariant,
and what the cache answers in a state that satisfies it is what the flat memory says.
-/

namespace RvCores
namespace Cache

open Isa Lib

namespace DCache

variable {cfg : DCacheConfig} {c : DCache} {i : DCacheIn}
  {mem flat : LineMem cfg.toGeometry} {pend : Option CpuPort}
  {waiting : List (Nat × Word)}

/-!
# Reset and step
-/

theorem IsReset.inv (h : c.IsReset cfg) (hsets : 1 <= cfg.setBits)
    (hentries : 0 < cfg.mshrEntries) (mem : LineMem cfg.toGeometry) :
    c.Inv cfg mem mem none [] := by
  have hnone : forall s, c.copies cfg s = none := by
    intro s
    cases s with
    | way line => exact LineArray.copyAt_invalid (h.array.valid line)
    | victim e =>
        show VictimCache.copyAt _ _ _ _ = none
        unfold VictimCache.copyAt
        rw [if_neg]
        intro hcond
        rw [h.vc.valid] at hcond
        cases hcond.right
    | leaving => exact leavingCopy_none h.vwbPending
  exact
    { severalSets := hsets
      wellFormed := h.array.wellFormed
      buffered := by
        intro hvictim
        exact
          { fifo := by
              rw [h.vc.fifoNext]
              exact Nat.pos_of_ne_zero hvictim
            packed := h.array.packed
            full := by
              intro e d he
              have hempty := hnone (.victim e)
              rw [show c.copies cfg (.victim e) = some d from he] at hempty
              cases hempty
            inTurn := by
              intro _
              exact inTurn_empty h.mshrCount }
      coherent :=
        { current := by
            intro s d hs
            rw [hnone] at hs
            cases hs
          unique := by
            intro s t d e hs
            rw [hnone] at hs
            cases hs
          settled := fun _ _ => rfl }
      queued := by
        apply queued_empty _ h.mshrCount
        · rw [h.mshrTail, h.mshrHead]
        · rw [h.mshrHead]
          exact hentries
      ported :=
        { request := fun _ hp => nomatch hp
          noFlush := fun hne => absurd rfl hne
          hu := by
            intro hhu
            rw [h.huPending] at hhu
            cases hhu
          single := by
            intro _
            refine ⟨h.huPending, ?_⟩
            intro hrd
            rw [h.state] at hrd
            cases hrd }
      phase := Phase.idle h.state
        { empty := h.mshrCount
          noFlush := h.flushActive
          noPending := h.vwbPending
          noActive := h.vwbActive }
      flushed := by
        intro hdone
        rw [h.flushDone] at hdone
        cases hdone }

/--
One cycle keeps the invariant, with the memories, the port and the awaited values
moved on.
-/
theorem Inv.step (h : c.Inv cfg mem flat pend waiting) (hlegal : c.Legal pend i)
    (hsound : c.Sound cfg pend i) (hbacked : c.Backed cfg mem i) :
    InvNext cfg c mem flat waiting i (c.step cfg i) := by
  cases h.phase with
  | idle hstate hquiet =>
      cases hactive : i.cpu.active with
      | false => exact invNext_idle_quiet h hlegal hsound hbacked hstate hquiet hactive
      | true =>
          have hkind := hlegal.read_or_write hactive
          cases hmain : c.hitMain cfg i with
          | true =>
              rcases hkind with ⟨hread, _⟩ | ⟨_, hwrite⟩
              · exact invNext_readHit h hlegal hbacked hstate hquiet hread hmain
              · exact invNext_writeHit h hlegal hbacked hstate hquiet hwrite hmain
          | false =>
              cases hvc : c.vcLookupHit cfg i with
              | true =>
                  rcases hkind with ⟨hread, _⟩ | ⟨_, hwrite⟩
                  · exact invNext_promote_read h hlegal hsound hbacked hstate hquiet hread hmain hvc
                  · exact invNext_promote_write h hlegal hbacked hstate hquiet hwrite hmain hvc
              | false =>
                  exact invNext_miss h hlegal hsound hbacked hstate hquiet hactive hmain hvc
  | hitRd hrd => exact invNext_hitRd h hlegal hbacked hrd
  | evict hevict => exact invNext_evict h hlegal hsound hbacked hevict
  | drain hdrain => exact invNext_drain h hlegal hsound hbacked hdrain
  | fill hfill => exact invNext_fill h hlegal hsound hbacked hfill
  | scan hscan => exact invNext_scan h hlegal hbacked hscan
  | flushWb hwb => exact invNext_flushWb h hlegal hbacked hwb

/--
With one miss register only an idle cycle can go wrong, and only in the victim buffer.
-/
theorem sound_of_single (h : c.Inv cfg mem flat pend waiting) (hlegal : c.Legal pend i)
    (hone : cfg.mshrEntries = 1)
    (hbuffer : cfg.victimEntries ≠ 0 -> c.state = .idle -> i.cpu.active = false ->
      c.vcDoSwap cfg i = false ∧ c.vcDoInsert cfg i = false) :
    c.Sound cfg pend i where
  buffer := hbuffer
  underFill := by
    intro hhit hstate _
    rw [dispatchHit_of_single h hlegal hone (h.fill_of_state hstate).busy] at hhit
    cases hhit
  stale := by
    intro hhu
    rw [(h.ported.single hone).left] at hhu
    cases hhu
  phantom := by
    intro hrd hnone
    exact absurd hnone ((h.ported.single hone).right hrd)
  reserve := by
    intro hmiss
    rw [dispatchMiss_of_single hone] at hmiss
    cases hmiss

/-!
# Answers
-/

theorem respRdata_hu (hhit : c.hitAnswers i = false) (hfill : c.fillAnswers cfg i = false)
    (hhu : c.huPending = true) :
    c.respRdata cfg i = c.huData := by
  unfold respRdata
  rw [hhit, hfill, hhu]
  rfl

/--
The value of a fill that completes, for a load.
-/
theorem fillData_eq (h : c.Inv cfg mem flat pend waiting) (hbacked : c.Backed cfg mem i)
    (hfill : c.Fill cfg flat) (hcomplete : c.mshrCompleteNow cfg i = true)
    (hload : c.head.isWrite = false) :
    c.fillData cfg i = flat.load c.head.origAddr c.head.funct3 := by
  have hok := h.queued.ok _ (head_mem hfill.busy)
  unfold mshrCompleteNow at hcomplete
  simp only [Bool.and_eq_true] at hcomplete
  have hline := filledArray_data h hbacked hfill hcomplete.left.right hcomplete.right
  have hword : c.respFillWord cfg i
      = (filledArray cfg c i).data (c.fillLine cfg, c.head.wordOff) := by
    show _ = setAt c.array.data (c.fillLine cfg, c.fillWord) (c.fillValue i) _
    unfold respFillWord
    rw [setAt_apply]
    simp only [Prod.mk.injEq, true_and]
  have hoff := congrFun hline (LineMem.offset _ c.head.origAddr)
  unfold fillData LineMem.load LineMem.read
  rw [hword, hok.wordOff, hok.byteOff]
  congr 1
  refine Eq.trans hoff ?_
  unfold filledLine Mshr.filled
  rw [hload, if_neg (fun hcond => Bool.false_ne_true hcond.left)]
  rfl

theorem hu_value (h : c.Inv cfg mem flat pend waiting) (hlegal : c.Legal pend i)
    (hsound : c.Sound cfg pend i) (hread : i.cpu.read = true)
    (hhit : c.hitAnswers i = false) (hfill : c.fillAnswers cfg i = false)
    (hhu : c.huPending = true) :
    c.respRdata cfg i = flat.load i.cpu.addr i.cpu.funct3 := by
  have hanswer := hu_answers h.ported hlegal hsound hhu (active_of_read hread)
  rw [respRdata_hu hhit hfill hhu]
  exact hanswer.right.right.left

theorem hitRd_value (h : c.Inv cfg mem flat pend waiting) (hlegal : c.Legal pend i)
    (hsound : c.Sound cfg pend i) (hrd : c.HitRd cfg pend) (hanswer : c.hitAnswers i = true) :
    c.respRdata cfg i = flat.load i.cpu.addr i.cpu.funct3 := by
  have hfacts := hanswer
  unfold hitAnswers at hfacts
  simp only [Bool.and_eq_true, beq_iff_eq] at hfacts
  obtain ⟨⟨_, hread⟩, haddr⟩ := hfacts
  have hfunct3 : i.cpu.funct3 = c.hitFunct3 := by
    cases hpend : pend with
    | none => exact hsound.phantom hrd.state hpend hread haddr
    | some p =>
        have hp := hrd.pending p hpend
        rw [hlegal.held p hpend]
        exact hp.right.right
  have hcurrent := way_current h.coherent hrd.valid (by simp [dead_hitRd hrd.state])
  have hword := congrFun hcurrent (LineMem.offset _ c.servedAddr)
  rw [hrd.addr] at hword
  unfold respRdata LineMem.load LineMem.read
  rw [if_pos hanswer, hfunct3, haddr, hrd.byteOff, hrd.word, ← hword]
  rfl

theorem fill_value (h : c.Inv cfg mem flat pend waiting) (hlegal : c.Legal pend i)
    (hbacked : c.Backed cfg mem i) (hfill : c.Fill cfg flat) (hread : i.cpu.read = true)
    (hanswer : c.fillAnswers cfg i = true) :
    c.respRdata cfg i = flat.load i.cpu.addr i.cpu.funct3 := by
  have hfacts := hanswer
  unfold fillAnswers at hfacts
  simp only [Bool.and_eq_true, Bool.not_eq_true'] at hfacts
  obtain ⟨⟨⟨hcomplete, hblocking⟩, hactive⟩, _⟩ := hfacts
  have hserves := (blocking_holds h hlegal (head_mem hfill.busy) hblocking).left
  obtain ⟨haddr, hwrite, _, hfunct3⟩ := hserves
  have hload : c.head.isWrite = false := by
    rw [hwrite]
    exact (hlegal.request hactive).exclusive hread
  unfold respRdata
  rw [hitAnswers_of_not_hitRd (by simp [hfill.state]), if_neg Bool.false_ne_true,
    if_pos hanswer, fillData_eq h hbacked hfill hcomplete hload, haddr, hfunct3]

/--
Every load that is answered gets the value of the flat memory.
-/
theorem read_value (h : c.Inv cfg mem flat pend waiting) (hlegal : c.Legal pend i)
    (hsound : c.Sound cfg pend i) (hbacked : c.Backed cfg mem i) (hread : i.cpu.read = true)
    (hready : c.respReady cfg i = true) :
    c.respRdata cfg i = flat.load i.cpu.addr i.cpu.funct3 := by
  have hactive := active_of_read hread
  have hwrite : i.cpu.write = false := (hlegal.request hactive).exclusive hread
  -- a flush admits no request
  have hflush : c.flushActive = false := (hlegal.noFlush hactive).right
  have hwb : c.state = .wb -> c.respRdata cfg i = flat.load i.cpu.addr i.cpu.funct3 := by
    intro hstate
    rw [respReady_wb hstate] at hready
    apply hu_value h hlegal hsound hread (hitAnswers_of_not_hitRd (by simp [hstate])) _ hready
    unfold fillAnswers
    rw [completeNow_of_wb hstate]
    rfl
  cases h.phase with
  | idle hstate hquiet =>
      rw [respReady_idle hstate, hwrite, Bool.and_false, Bool.false_or] at hready
      exact hu_value h hlegal hsound hread (hitAnswers_of_not_hitRd (by simp [hstate]))
        (fillAnswers_of_not_busy (not_busy_idle hstate)) hready
  | hitRd hrd =>
      rw [respReady_hitRd hrd.state hrd.noHu] at hready
      exact hitRd_value h hlegal hsound hrd hready
  | evict hevict => exact hwb hevict.state
  | drain hdrain => exact hwb hdrain.state
  | fill hfill =>
      cases hanswer : c.fillAnswers cfg i with
      | true => exact fill_value h hlegal hbacked hfill hread hanswer
      | false =>
          unfold respReady at hready
          rw [hitAnswers_of_not_hitRd (by simp [hfill.state]), hanswer, hfill.state] at hready
          exact hu_value h hlegal hsound hread
            (hitAnswers_of_not_hitRd (by simp [hfill.state])) hanswer (by simpa using hready)
  | scan hscan =>
      rw [hscan.flush] at hflush
      cases hflush
  | flushWb hwb =>
      rw [hwb.flush] at hflush
      cases hflush

/--
A load that was accepted early gets its value with its own register, in the order
of acceptance.
-/
theorem complete_value (h : c.Inv cfg mem flat pend waiting) (hbacked : c.Backed cfg mem i)
    (hcomplete : c.mshrComplete cfg i = true) :
    waiting = (c.head.destReg, c.fillData cfg i) :: waiting.tail := by
  unfold mshrComplete at hcomplete
  obtain ⟨hnow, hearly⟩ := Bool.and_eq_true_iff.mp hcomplete
  have hstate : c.state = .fill := by
    unfold mshrCompleteNow at hnow
    simp only [Bool.and_eq_true, beq_iff_eq] at hnow
    exact hnow.left.left
  have hfill := h.fill_of_state hstate
  have hok := h.queued.ok _ (head_mem hfill.busy)
  have hawaited := h.queued.awaited
  rw [queue_cons hfill.busy, List.filter_cons, if_pos hearly, List.map_cons] at hawaited
  rw [hawaited, fillData_eq h hbacked hfill hnow (hok.early hearly).left]
  rfl

/--
Every word put on the bus is the flat memory's word of the address that goes with
it.
-/
theorem writeback_value (h : c.Inv cfg mem flat pend waiting) (hwe : c.mWe = true) :
    exists a, exists w : Fin cfg.lineWords,
      c.mAddr = cfg.lineBase a + 4 * w ∧ c.mDataO = flat a w := by
  have hstate : c.state = .wb := beq_iff_eq.mp hwe
  cases h.phase with
  | evict hevict => exact ⟨_, ⟨_, hevict.word⟩, hevict.addr, hevict.data⟩
  | drain hdrain => exact ⟨_, ⟨_, hdrain.word⟩, hdrain.addr, hdrain.data h.coherent⟩
  | flushWb hwb => exact ⟨_, ⟨_, hwb.word⟩, hwb.addr, hwb.data h.coherent⟩
  | idle hother _ => exact absurd (hstate.symm.trans hother) CacheState.noConfusion
  | hitRd hrd => exact absurd (hstate.symm.trans hrd.state) CacheState.noConfusion
  | fill hfill => exact absurd (hstate.symm.trans hfill.state) CacheState.noConfusion
  | scan hscan => exact absurd (hstate.symm.trans hscan.state) CacheState.noConfusion

/--
The bus addresses words of lines.
-/
theorem fill_addr (h : c.Inv cfg mem flat pend waiting) (hstate : c.state = .fill) :
    exists a, exists w : Fin cfg.lineWords, c.mAddr = cfg.lineBase a + 4 * w := by
  have hfill := h.fill_of_state hstate
  have hok := h.queued.ok _ (head_mem hfill.busy)
  refine ⟨cfg.lineAddr c.head.origAddr, ⟨_, hfill.word⟩, ?_⟩
  unfold mAddr
  rw [if_neg (by simp [hstate]), hok.base]

end DCache
end Cache
end RvCores
