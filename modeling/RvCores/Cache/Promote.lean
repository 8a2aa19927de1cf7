import RvCores.Cache.Allocate

/-!
# Hits in the victim buffer

A request that misses in the main array and hits in the victim buffer exchanges
the line found with the line of the victim way.  The set of a buffered line is
full, so there always is a line to give.
-/

namespace RvCores
namespace Cache

open Isa Lib

namespace DCache

variable {cfg : DCacheConfig} {c c' : DCache} {i : DCacheIn}
  {mem flat : LineMem cfg.toGeometry} {pend : Option CpuPort}
  {waiting : List (Nat × Word)}

/-!
# The exchange
-/

def promotedWord (cfg : DCacheConfig) (c : DCache) (i : DCacheIn) (w : Nat) : Word :=
  if i.cpu.write && w == cfg.wordOff i.cpu.addr then
    mergeWrite (c.vcLookupData cfg i w) (lowBits i.cpu.funct3) (byteOff i.cpu.addr)
      i.cpu.wdata
  else c.vcLookupData cfg i w

def promotedArray (cfg : DCacheConfig) (c : DCache) (i : DCacheIn) : LineArray :=
  { data := fun k =>
      if k.1 = c.victimLine cfg i ∧ k.2 < cfg.lineWords then promotedWord cfg c i k.2
      else c.array.data k
    tag := setAt c.array.tag (c.victimLine cfg i) (cfg.tag i.cpu.addr)
    valid := setAt c.array.valid (c.victimLine cfg i) true
    dirty :=
      setAt c.array.dirty (c.victimLine cfg i)
        (if i.cpu.write then true else c.vcLookupDirty cfg i)
    victim :=
      setAt c.array.victim (cfg.setIdx i.cpu.addr)
        (LineArray.nextVictim cfg.toGeometry (c.victimTargetWay cfg i))
    age := c.touchedAge cfg i }

/--
What a promotion does to the array and the buffer; the miss machinery stands still.
-/
structure Promotes (cfg : DCacheConfig) (c : DCache) (i : DCacheIn) (c' : DCache) : Prop where
  array : c'.array = promotedArray cfg c i
  vc : c'.vc = c.vcNext cfg i
  queue : c'.mshrHead = c.mshrHead ∧ c'.mshrTail = c.mshrTail ∧ c'.mshrCount = c.mshrCount
  hu : c'.huPending = false
  flush : c'.flushActive = c.flushActive
  done : c'.flushDone = false
  pending : c'.vwbPending = c.vwbPending
  active : c'.vwbActive = c.vwbActive

theorem promote_promotes (hbusy : c.mshrBusy = false) (hbacked : c.Backed cfg mem i) :
    Promotes cfg c i (c.promote cfg i (c.common cfg i)) := by
  have hcommon := @common_of_not_busy cfg c i hbusy hbacked.noProbe
  rw [hcommon]
  exact
    { array := rfl, vc := rfl, queue := ⟨rfl, rfl, rfl⟩, hu := rfl, flush := rfl, done := rfl
      pending := rfl, active := rfl }

/--
The entry that the lookup found, and the line that leaves the main array for it.
-/
structure Exchanges (cfg : DCacheConfig) (c : DCache) (i : DCacheIn) (e : Nat) : Prop where
  inRange : e < cfg.victimEntries
  valid : (c.vc.entry e).valid = true
  tag : (c.vc.entry e).tag = cfg.lineAddr i.cpu.addr
  next : c.vcNext cfg i =
    { c.vc with
      entry := modifyAt c.vc.entry e (VictimCache.swapIn (c.leavingLine cfg i)) }
  dirty : c.vcLookupDirty cfg i = (c.vc.entry e).dirty
  data : forall w, c.vcLookupData cfg i w = (c.vc.entry e).data w
  outgoing : c.array.valid (c.victimLine cfg i) = true
  full : c.array.SetFull cfg.toGeometry (cfg.setIdx i.cpu.addr)

theorem victimEntries_of_hit (hvc : c.vcLookupHit cfg i = true) : cfg.victimEntries ≠ 0 := by
  intro hzero
  unfold vcLookupHit VictimCache.lookupHit at hvc
  rw [hzero] at hvc
  cases hvc

theorem exists_exchange (h : c.Inv cfg mem flat pend waiting) (hstate : c.state = .idle)
    (hmain : c.hitMain cfg i = false) (hvc : c.vcLookupHit cfg i = true) :
    exists e, Exchanges cfg c i e := by
  have hentries := victimEntries_of_hit hvc
  have honly : forall e e', e < cfg.victimEntries -> e' < cfg.victimEntries ->
      (c.vc.entry e).valid = true -> (c.vc.entry e').valid = true ->
      (c.vc.entry e).tag = vcLookupTag cfg i ->
      (c.vc.entry e').tag = vcLookupTag cfg i -> e = e' := by
    intro e e' he he' hvalid hvalid' htag htag'
    have hcopy : c.copies cfg (.victim e) = _ := VictimCache.copyAt_valid he hvalid
    have hcopy' : c.copies cfg (.victim e') = _ := VictimCache.copyAt_valid he' hvalid'
    have hslots := h.coherent.unique hcopy hcopy' (htag.trans htag'.symm)
    exact Slot.victim.inj hslots
  rcases VictimCache.lookup_selects hvc honly with
    ⟨e, he, hvalid, htag, hway, hdirty, hdata⟩
  rw [vcLookupTag_eq h.severalSets] at htag
  have hfull := (h.buffered hentries).full e _ (VictimCache.copyAt_valid he hvalid)
  simp only [htag] at hfull
  refine ⟨e, he, hvalid, htag, ?_, hdirty, hdata, ?_, hfull⟩
  · unfold vcNext VictimCache.step vcDoSwap vcDoInsert
    rw [if_neg hentries, hway, hstate, hmain, hvc, outgoingLine_eq h]
    rfl
  · exact hfull _ (LineArray.victimTargetWay_lt h.wellFormed _)

/-!
# The lines after the exchange
-/

section

variable (h : c.Inv cfg mem flat pend waiting) (hmain : c.hitMain cfg i = false)

include h

theorem promotedArray_addr :
    (promotedArray cfg c i).lineAddr cfg.toGeometry (c.victimLine cfg i)
      = cfg.lineAddr i.cpu.addr := by
  unfold LineArray.lineAddr
  show cfg.joinTag (setAt c.array.tag _ _ _) _ = _
  rw [setAt_self]
  unfold victimLine
  rw [LineArray.setOf_victimLine h.wellFormed]
  exact cfg.joinTag_tag_setIdx i.cpu.addr

omit h in
theorem promotedArray_addr_of_ne {line : Nat} (hne : line ≠ c.victimLine cfg i) :
    (promotedArray cfg c i).lineAddr cfg.toGeometry line
      = c.array.lineAddr cfg.toGeometry line := by
  unfold LineArray.lineAddr
  show cfg.joinTag (setAt c.array.tag _ _ _) _ = _
  rw [setAt_of_ne hne]

omit h in
theorem promotedArray_valid {line : Nat} (hne : line ≠ c.victimLine cfg i) :
    (promotedArray cfg c i).valid line = c.array.valid line :=
  setAt_of_ne hne

include hmain

theorem promotedArray_wellFormed : (promotedArray cfg c i).WellFormed cfg.toGeometry := by
  apply h.wellFormed.install (LineArray.victimLine_lt h.wellFormed i.cpu.addr)
  · intro line hne
    exact ⟨promotedArray_valid hne, promotedArray_addr_of_ne hne⟩
  · intro line _ hvalid
    refine ne_of_ne_of_eq ?_ (promotedArray_addr h).symm
    exact LineArray.not_held_of_miss h.wellFormed hmain hvalid
  · intro set
    show setAt c.array.victim _ _ set < _
    rw [setAt_apply]
    split
    · exact LineArray.nextVictim_lt (LineArray.victimTargetWay_lt h.wellFormed _)
    · exact h.wellFormed.pointer set

end

theorem promotedArray_data (w : Fin cfg.lineWords) :
    (promotedArray cfg c i).lineData cfg.toGeometry (c.victimLine cfg i) w
      = promotedWord cfg c i w := by
  unfold LineArray.lineData promotedArray
  simp only [w.isLt, and_self, if_true]

theorem promotedArray_data_of_ne {line w : Nat} (hne : line ≠ c.victimLine cfg i) :
    (promotedArray cfg c i).data (line, w) = c.array.data (line, w) := by
  unfold promotedArray
  exact if_neg (fun hcond => hne hcond.left)

/--
The pointer of a full set may move and the way is touched by a store only, so the
victim order stays packed.
-/
theorem promotedArray_packed (h : c.Inv cfg mem flat pend waiting) (hstate : c.state = .idle)
    (hmain : c.hitMain cfg i = false) (hvc : c.vcLookupHit cfg i = true) {e : Nat}
    (hexchange : Exchanges cfg c i e) :
    (promotedArray cfg c i).Packed cfg.toGeometry := by
  have hpacked := (h.buffered (victimEntries_of_hit hvc)).packed
  cases hwrite : i.cpu.write with
  | true =>
      have haccess : c.accessHit cfg i = true := by
        unfold accessHit hit
        rw [hstate, hwrite, hvc, Bool.or_true]
        rfl
      apply @LineArray.Packed.fill _ _ _ hpacked (cfg.setIdx i.cpu.addr)
        (c.victimTargetWay cfg i) (LineArray.victimTargetWay_lt h.wellFormed _)
      · intro hpolicy
        exact Or.inl (LineArray.victimTargetWay_of_pointer hpolicy _)
      · intro hpolicy
        show c.touchedAge cfg i = _
        unfold touchedAge
        rw [if_pos ⟨hpolicy, haccess⟩, hstate, hmain]
        rfl
      · rfl
      · rfl
  | false =>
      have haccess : c.accessHit cfg i = false :=
        accessHit_of_not_write (by simp [hstate]) hwrite
      apply hpacked.congr
      · intro k
        show c.touchedAge cfg i k = _
        rw [touchedAge_of_no_hit haccess]
      · intro set
        by_cases hset : set = cfg.setIdx i.cpu.addr
        · rw [hset]
          exact Or.inl hexchange.full
        · exact Or.inr (setAt_of_ne hset)
      · intro line
        show setAt c.array.valid _ true line = _
        rw [setAt_apply]
        split
        · next hline => rw [hline, hexchange.outgoing]
        · rfl

theorem buffered_promote (h : c.Inv cfg mem flat pend waiting) (hstate : c.state = .idle)
    (hquiet : c.Quiet) (hmain : c.hitMain cfg i = false) (hvc : c.vcLookupHit cfg i = true)
    {e : Nat} (hexchange : Exchanges cfg c i e) (hpromotes : Promotes cfg c i c') :
    c'.Buffered cfg := by
  have hbuffered := h.buffered (victimEntries_of_hit hvc)
  have hmono : forall line, c.array.valid line = true -> c'.array.valid line = true := by
    intro line hline
    rw [hpromotes.array]
    show setAt c.array.valid _ true line = true
    rw [setAt_apply]
    split
    · rfl
    · exact hline
  exact
    { fifo := by
        rw [hpromotes.vc, hexchange.next]
        exact hbuffered.fifo
      packed := by
        rw [hpromotes.array]
        exact promotedArray_packed h hstate hmain hvc hexchange
      full := by
        intro k d hk
        by_cases hke : k = e
        · have hentry : c'.vc.entry k
              = VictimCache.swapIn (c.leavingLine cfg i) (c.vc.entry k) := by
            rw [hpromotes.vc, hexchange.next, hke]
            exact modifyAt_self _ _ _
          unfold VictimCache.copyAt at hk
          rw [hentry] at hk
          split at hk
          · cases hk
            show c'.array.SetFull cfg.toGeometry
              (c.array.lineAddr cfg.toGeometry (c.victimLine cfg i) % cfg.sets)
            rw [victimLine_addr_mod h.wellFormed]
            exact hexchange.full.mono hmono
          · cases hk
        · have hold : c'.vc.copyAt cfg.toGeometry cfg.victimEntries k
              = c.vc.copyAt cfg.toGeometry cfg.victimEntries k := by
            rw [hpromotes.vc, hexchange.next]
            exact vcCopy_of_ne (fun hne => modifyAt_of_ne hne) hke
          rw [hold] at hk
          exact (hbuffered.full k d hk).mono hmono
      inTurn := by
        intro _
        exact inTurn_empty (hpromotes.queue.right.right.trans hquiet.empty) }

/-!
# The copies after the exchange
-/

theorem copies_promote (h : c.Inv cfg mem flat pend waiting) (hstate : c.state = .idle)
    (hquiet : c.Quiet) {e : Nat} (hexchange : Exchanges cfg c i e)
    (hpromotes : Promotes cfg c i c') (hdead : c'.dead cfg = none) :
    c'.copies cfg =
      setAt
        (setAt (c.copies cfg) (.way (c.victimLine cfg i))
          (some
            { addr := cfg.lineAddr i.cpu.addr
              dirty := if i.cpu.write then true else (c.vc.entry e).dirty
              data := fun w => promotedWord cfg c i w }))
        (.victim e)
        (some
          { addr := c.array.lineAddr cfg.toGeometry (c.victimLine cfg i)
            dirty := c.array.dirty (c.victimLine cfg i)
            data := c.array.lineData cfg.toGeometry (c.victimLine cfg i) }) := by
  have hprev := @dead_idle cfg c hstate
  have hvc : c'.vc = _ := hpromotes.vc.trans hexchange.next
  funext s
  cases s with
  | way k =>
      rw [setAt_of_ne (by simp), setAt_apply]
      show c'.array.copyAt cfg.toGeometry (c'.dead cfg) k = _
      rw [hpromotes.array, hdead]
      by_cases hk : k = c.victimLine cfg i
      · rw [if_pos (by rw [hk]), hk]
        refine LineArray.copyAt_eq_some.mpr ⟨setAt_self _ _ _, by simp, ?_⟩
        ext1
        · exact (promotedArray_addr h).symm
        · rw [← hexchange.dirty]
          exact (setAt_self _ _ _).symm
        · funext w
          exact (promotedArray_data w).symm
      · rw [if_neg (by simp [hk])]
        show _ = c.array.copyAt cfg.toGeometry (c.dead cfg) k
        rw [hprev]
        apply LineArray.copyAt_congr
        · exact setAt_of_ne hk
        · exact setAt_of_ne hk
        · exact setAt_of_ne hk
        · intro w _
          exact promotedArray_data_of_ne hk
        · rfl
  | victim k =>
      rw [setAt_apply]
      show c'.vc.copyAt cfg.toGeometry cfg.victimEntries k = _
      by_cases hk : k = e
      · rw [if_pos (by rw [hk]), hk]
        have hentry : c'.vc.entry e
            = VictimCache.swapIn (c.leavingLine cfg i) (c.vc.entry e) := by
          rw [hvc]
          exact modifyAt_self _ _ _
        unfold VictimCache.copyAt
        rw [hentry, if_pos ⟨hexchange.inRange, hexchange.valid⟩]
        rfl
      · rw [if_neg (by simp [hk]), setAt_of_ne (by simp), hvc]
        exact vcCopy_of_ne (fun hne => modifyAt_of_ne hne) hk
  | leaving =>
      rw [setAt_of_ne (by simp), setAt_of_ne (by simp)]
      show c'.leavingCopy cfg = c.leavingCopy cfg
      rw [leavingCopy_none (hpromotes.pending.trans hquiet.noPending),
        leavingCopy_none hquiet.noPending]

/--
The two lines changed places, before a store is merged.
-/
theorem coherent_exchange (h : c.Inv cfg mem flat pend waiting) (hstate : c.state = .idle)
    {e : Nat} (hexchange : Exchanges cfg c i e) :
    Coherent
      (setAt
        (setAt (c.copies cfg) (.way (c.victimLine cfg i))
          (some
            { addr := cfg.lineAddr i.cpu.addr
              dirty := (c.vc.entry e).dirty
              data := fun w => (c.vc.entry e).data w }))
        (.victim e)
        (some
          { addr := c.array.lineAddr cfg.toGeometry (c.victimLine cfg i)
            dirty := c.array.dirty (c.victimLine cfg i)
            data := c.array.lineData cfg.toGeometry (c.victimLine cfg i) })) mem flat := by
  apply h.coherent.exchange
  · exact copies_way hexchange.outgoing (by simp [dead_idle hstate])
  · show c.vc.copyAt cfg.toGeometry cfg.victimEntries e = _
    rw [VictimCache.copyAt_valid hexchange.inRange hexchange.valid, hexchange.tag]

theorem coherent_promote_read (h : c.Inv cfg mem flat pend waiting) (hstate : c.state = .idle)
    (hquiet : c.Quiet) (hwrite : i.cpu.write = false) {e : Nat}
    (hexchange : Exchanges cfg c i e) (hpromotes : Promotes cfg c i c')
    (hdead : c'.dead cfg = none) :
    Coherent (c'.copies cfg) mem flat := by
  have hword : (fun w : Fin cfg.lineWords => promotedWord cfg c i w)
      = fun w : Fin cfg.lineWords => (c.vc.entry e).data w := by
    funext w
    unfold promotedWord
    rw [hwrite, hexchange.data]
    rfl
  rw [copies_promote h hstate hquiet hexchange hpromotes hdead, hword, hwrite]
  exact coherent_exchange h hstate hexchange

theorem coherent_promote_write (h : c.Inv cfg mem flat pend waiting) (hstate : c.state = .idle)
    (hquiet : c.Quiet) (hwrite : i.cpu.write = true) {e : Nat}
    (hexchange : Exchanges cfg c i e) (hpromotes : Promotes cfg c i c')
    (hdead : c'.dead cfg = none) :
    Coherent (c'.copies cfg) mem (flat.store i.cpu) := by
  have hexchanged := coherent_exchange h hstate hexchange
  -- the line found is current, so the merged word is the word of the store
  have hcurrent : (fun w : Fin cfg.lineWords => (c.vc.entry e).data w)
      = flat (cfg.lineAddr i.cpu.addr) := by
    rw [← hexchange.tag]
    exact h.coherent.current (s := .victim e)
      (VictimCache.copyAt_valid hexchange.inRange hexchange.valid)
  have hline : (fun w : Fin cfg.lineWords => promotedWord cfg c i w)
      = setAt (flat (cfg.lineAddr i.cpu.addr)) (LineMem.offset _ i.cpu.addr)
          (mergeWrite (flat.read i.cpu.addr) (lowBits i.cpu.funct3) (byteOff i.cpu.addr)
            i.cpu.wdata) := by
    funext w
    have hw : c.vcLookupData cfg i w = flat (cfg.lineAddr i.cpu.addr) w := by
      rw [hexchange.data]
      exact congrFun hcurrent w
    unfold promotedWord
    rw [hwrite, Bool.true_and, hw, setAt_apply]
    by_cases hoff : w = LineMem.offset cfg.toGeometry i.cpu.addr
    · have hval : (w : Nat) = cfg.wordOff i.cpu.addr := congrArg Fin.val hoff
      rw [if_pos hoff, if_pos (beq_iff_eq.mpr hval), hoff]
      rfl
    · have hval : ¬ ((w : Nat) == cfg.wordOff i.cpu.addr) = true := by
        intro heq
        exact hoff (Fin.ext (beq_iff_eq.mp heq))
      rw [if_neg hoff, if_neg hval]
  have hstore := @Coherent.store _ _ _ _ _ _ _ _ hexchanged (.way (c.victimLine cfg i))
    _ (by rw [setAt_of_ne (by simp), setAt_self]) (fun w => promotedWord cfg c i w)
  have hcopies : c'.copies cfg = _ :=
    copies_promote h hstate hquiet hexchange hpromotes hdead
  have hswap : forall (x y z : Option (LineCopy cfg.toGeometry)),
      setAt (setAt (setAt (c.copies cfg) (.way (c.victimLine cfg i)) x) (.victim e) y)
        (.way (c.victimLine cfg i)) z
      = setAt (setAt (c.copies cfg) (.way (c.victimLine cfg i)) z) (.victim e) y := by
    intro x y z
    funext s
    simp only [setAt_apply]
    by_cases hs : s = .way (c.victimLine cfg i)
    · rw [if_pos hs, if_neg (by rw [hs]; exact Slot.noConfusion), if_pos hs]
    · rw [if_neg hs, if_neg hs]
      simp only [if_neg hs]
  rw [hswap] at hstore
  rw [hcopies, hwrite]
  unfold LineMem.store LineMem.write
  rw [← hline]
  exact hstore

/-!
# The invariant after a promotion
-/

theorem hit_of_buffer (hvc : c.vcLookupHit cfg i = true) : c.hit cfg i = true := by
  unfold hit
  rw [hvc, Bool.or_true]

theorem invNext_promote_write (h : c.Inv cfg mem flat pend waiting) (hlegal : c.Legal pend i)
    (hbacked : c.Backed cfg mem i) (hstate : c.state = .idle) (hquiet : c.Quiet)
    (hwrite : i.cpu.write = true) (hmain : c.hitMain cfg i = false)
    (hvc : c.vcLookupHit cfg i = true) :
    InvNext cfg c mem flat waiting i (c.step cfg i) := by
  have hactive := active_of_write hwrite
  have hbusy := not_busy_idle hstate
  obtain ⟨e, hexchange⟩ := exists_exchange h hstate hmain hvc
  have hpromotes := @promote_promotes cfg c i mem hbusy hbacked
  have hstep : c.step cfg i = c.promote cfg i (c.common cfg i) := by
    rw [step_idle hstate]
    unfold idleStep
    rw [hactive, hwrite, hmain, hvc, (hlegal.noFlush hactive).left]
    rfl
  have hstate' : (c.step cfg i).state = .idle := by
    rw [hstep]
    exact hstate
  rw [← hstep] at hpromotes
  generalize c.step cfg i = c' at hpromotes hstate' ⊢
  have hready : c.respReady cfg i = true := by
    rw [respReady_idle hstate, hit_of_buffer hvc, hwrite]
    rfl
  have hflat : c.flatNext cfg flat i = flat.store i.cpu := by
    unfold flatNext
    rw [if_pos ⟨hwrite, hready⟩]
  have hmem : c.memNext cfg mem i = mem := memNext_of_not_wb (by simp [hstate])
  refine invNext_quiet h hlegal hquiet.empty (mshrComplete_of_not_busy hbusy)
    (mshrAccept_of_hit hbusy (hit_of_buffer hvc)) hpromotes.queue hpromotes.hu ?_ ?_ ?_ ?_ ?_
    ?_ ?_
  · intro _ hflush
    rwa [hpromotes.flush] at hflush
  · intro _ hrd
    rw [hstate'] at hrd
    cases hrd
  · rw [hpromotes.array]
    exact promotedArray_wellFormed h hmain
  · intro _
    exact buffered_promote h hstate hquiet hmain hvc hexchange hpromotes
  · rw [hmem, hflat]
    exact coherent_promote_write h hstate hquiet hwrite hexchange hpromotes
      (dead_idle hstate')
  · exact Phase.idle hstate'
      { empty := hpromotes.queue.right.right.trans hquiet.empty
        noFlush := hpromotes.flush.trans hquiet.noFlush
        noPending := hpromotes.pending.trans hquiet.noPending
        noActive := hpromotes.active.trans hquiet.noActive }
  · intro hdone
    rw [hpromotes.done] at hdone
    cases hdone

theorem invNext_promote_read (h : c.Inv cfg mem flat pend waiting) (hlegal : c.Legal pend i)
    (hsound : c.Sound cfg pend i) (hbacked : c.Backed cfg mem i) (hstate : c.state = .idle)
    (hquiet : c.Quiet) (hread : i.cpu.read = true) (hmain : c.hitMain cfg i = false)
    (hvc : c.vcLookupHit cfg i = true) :
    InvNext cfg c mem flat waiting i (c.step cfg i) := by
  have hactive := active_of_read hread
  have hwrite : i.cpu.write = false := (hlegal.request hactive).exclusive hread
  have hbusy := not_busy_idle hstate
  obtain ⟨e, hexchange⟩ := exists_exchange h hstate hmain hvc
  have hpromote := @promote_promotes cfg c i mem hbusy hbacked
  have hstep : c.step cfg i
      = toHitRd cfg i (c.promote cfg i (c.common cfg i)) (c.victimLine cfg i) := by
    rw [step_idle hstate]
    unfold idleStep
    rw [hactive, hwrite, hmain, hvc, (hlegal.noFlush hactive).left]
    rfl
  generalize c.promote cfg i (c.common cfg i) = next at hpromote hstep
  have hpromotes : Promotes cfg c i (toHitRd cfg i next (c.victimLine cfg i)) :=
    { array := hpromote.array, vc := hpromote.vc, queue := hpromote.queue, hu := hpromote.hu
      flush := hpromote.flush, done := hpromote.done, pending := hpromote.pending
      active := hpromote.active }
  have hready : c.respReady cfg i = false := by
    rw [respReady_idle hstate, hwrite, Bool.and_false, Bool.false_or]
    cases hhu : c.huPending with
    | false => rfl
    | true =>
        -- an answer that is ready is for a line of the main array
        have hanswer := hu_answers h.ported hlegal hsound hhu hactive
        rw [hmain] at hanswer
        cases hanswer.right.right.right
  have haccept := mshrAccept_of_hit hbusy (hit_of_buffer hvc)
  have hflat : c.flatNext cfg flat i = flat := flatNext_of_not_write hwrite
  have hmem : c.memNext cfg mem i = mem := memNext_of_not_wb (by simp [hstate])
  rw [hstep]
  refine invNext_quiet h hlegal hquiet.empty (mshrComplete_of_not_busy hbusy) haccept
    hpromotes.queue hpromotes.hu ?_ ?_ ?_ ?_ ?_ ?_ ?_
  · intro _ hflush
    rwa [hpromotes.flush] at hflush
  · intro _ _ hnone
    unfold pendNext at hnone
    rw [if_pos ⟨hactive, hready, haccept⟩] at hnone
    cases hnone
  · rw [hpromotes.array]
    exact promotedArray_wellFormed h hmain
  · intro _
    exact buffered_promote h hstate hquiet hmain hvc hexchange hpromotes
  · rw [hmem, hflat]
    exact coherent_promote_read h hstate hquiet hwrite hexchange hpromotes (dead_hitRd rfl)
  · apply Phase.hitRd
    exact
      { empty := hpromotes.queue.right.right.trans hquiet.empty
        noFlush := hpromotes.flush.trans hquiet.noFlush
        noPending := hpromotes.pending.trans hquiet.noPending
        noActive := hpromotes.active.trans hquiet.noActive
        state := rfl
        noHu := hpromotes.hu
        valid := by
          rw [hpromotes.array]
          exact setAt_self _ _ _
        addr := by
          rw [hpromotes.array]
          exact promotedArray_addr h
        word := rfl
        byteOff := rfl
        pending := by
          intro p hp
          rcases pendNext_eq_some hp with ⟨rfl, _⟩
          exact ⟨hread, rfl, rfl⟩ }
  · intro hdone
    rw [hpromotes.done] at hdone
    cases hdone

end DCache
end Cache
end RvCores
