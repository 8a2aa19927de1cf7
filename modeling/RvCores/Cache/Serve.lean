import RvCores.Cache.Frame

/-!
# Idle cycles and hits

The cycles in which no miss is under way: nothing is asked, a hit is found or
delivered, or a flush begins.
-/

namespace RvCores
namespace Cache

open Isa Lib

namespace DCache

variable {cfg : DCacheConfig} {c : DCache} {i : DCacheIn}
  {mem flat : LineMem cfg.toGeometry} {pend : Option CpuPort}
  {waiting : List (Nat × Word)}

/--
The invariant after one cycle, with the memories and the port moved on.
-/
def InvNext (cfg : DCacheConfig) (c : DCache) (mem flat : LineMem cfg.toGeometry)
    (waiting : List (Nat × Word)) (i : DCacheIn) (c' : DCache) : Prop :=
  c'.Inv cfg (c.memNext cfg mem i) (c.flatNext cfg flat i) (c.pendNext cfg i)
    (c.waitingNext cfg flat waiting i)

theorem memNext_of_not_wb (hstate : c.state ≠ .wb) : c.memNext cfg mem i = mem := by
  unfold memNext
  rw [if_neg]
  intro h
  exact hstate h.right

theorem flatNext_of_not_write (hwrite : i.cpu.write = false) :
    c.flatNext cfg flat i = flat := by
  unfold flatNext
  rw [if_neg]
  intro h
  rw [hwrite] at h
  cases h.left

theorem mshrAccept_of_not_read (hread : i.cpu.read = false) :
    c.mshrAccept cfg i = false := by
  unfold mshrAccept mshrFreshLoadMiss mshrBusyDispatchMiss
  simp [hread]

theorem mshrComplete_of_not_busy (hbusy : c.mshrBusy = false) :
    c.mshrComplete cfg i = false := by
  unfold mshrComplete
  rw [completeNow_of_not_busy hbusy]
  rfl

theorem not_busy_idle (hstate : c.state = .idle) : c.mshrBusy = false :=
  not_busy (by simp [hstate]) (by simp [hstate])

/-!
# Nothing asked
-/

/--
A victim buffer keeps its invariant when neither it nor the lines of the main
array change.
-/
theorem buffered_congr {c' : DCache} (h : c.Buffered cfg) (hvc : c'.vc = c.vc)
    (hpacked : c'.array.Packed cfg.toGeometry)
    (hvalid : forall line, c.array.valid line = true -> c'.array.valid line = true)
    (hturn : cfg.policy ≠ .lru ->
      c'.array.InTurn cfg.toGeometry ((c'.queue cfg).map (fun m => (m.set, m.way)))) :
    c'.Buffered cfg where
  fifo := by
    rw [hvc]
    exact h.fifo
  packed := hpacked
  full e d he := by
    rw [hvc] at he
    exact (h.full e d he).mono hvalid
  inTurn := hturn

theorem vcNext_of_no_entries (h : cfg.victimEntries = 0) : c.vcNext cfg i = c.vc := by
  unfold vcNext
  rw [if_pos h]

theorem touchedAge_of_no_hit (h : c.accessHit cfg i = false) :
    c.touchedAge cfg i = c.array.age := by
  unfold touchedAge
  rw [if_neg]
  intro hcond
  rw [h] at hcond
  cases hcond.right

theorem hitAnswers_of_not_hitRd (hstate : c.state ≠ .hitRd) : c.hitAnswers i = false := by
  unfold hitAnswers
  rw [beq_eq_false_iff_ne.mpr hstate]
  rfl

theorem accessHit_of_not_write (hstate : c.state ≠ .hitRd) (hwrite : i.cpu.write = false) :
    c.accessHit cfg i = false := by
  unfold accessHit
  rw [hitAnswers_of_not_hitRd hstate, hwrite]
  simp

/--
A cycle with no miss before or after it.
-/
theorem invNext_quiet {c' : DCache} (h : c.Inv cfg mem flat pend waiting)
    (hlegal : c.Legal pend i) (hcount : c.mshrCount = 0)
    (hcomplete : c.mshrComplete cfg i = false) (haccept : c.mshrAccept cfg i = false)
    (hmshr : c'.mshrHead = c.mshrHead ∧ c'.mshrTail = c.mshrTail ∧ c'.mshrCount = c.mshrCount)
    (hhu : c'.huPending = false)
    (hflush : i.flushAll = false -> c'.flushActive = true -> c.flushActive = true)
    (hsingle : cfg.mshrEntries = 1 -> c'.state = .hitRd -> c.pendNext cfg i ≠ none)
    (hwf : c'.array.WellFormed cfg.toGeometry)
    (hbuffered : cfg.victimEntries ≠ 0 -> c'.Buffered cfg)
    (hcoherent : Coherent (c'.copies cfg) (c.memNext cfg mem i) (c.flatNext cfg flat i))
    (hphase : c'.Phase cfg (c.memNext cfg mem i) (c.flatNext cfg flat i) (c.pendNext cfg i))
    (hdone : c'.flushDone = true ->
      c'.state = .idle ∧
        forall line, c'.array.valid line = true -> c'.array.dirty line = false) :
    InvNext cfg c mem flat waiting i c' where
  severalSets := h.severalSets
  wellFormed := hwf
  buffered := hbuffered
  coherent := hcoherent
  queued := queued_still h.queued hcount hcomplete haccept hmshr.left hmshr.right.left
    hmshr.right.right
  ported := by
    apply ported_next hlegal hflush
    · intro htrue
      rw [hhu] at htrue
      cases htrue
    · intro hone
      exact ⟨hhu, hsingle hone⟩
  phase := hphase
  flushed := hdone

/--
What is kept when a cycle changes neither lines nor misses.
-/
theorem invNext_still {c' : DCache} (h : c.Inv cfg mem flat pend waiting)
    (hlegal : c.Legal pend i) (hprev : c.dead cfg = none) (hcount : c.mshrCount = 0)
    (hbusy : c.mshrBusy = false) (hpending : c.vwbPending = false)
    (haccept : c.mshrAccept cfg i = false)
    (hflat : c.flatNext cfg flat i = flat)
    (harray : c'.array = { c.array with age := c'.array.age })
    (hpacked : cfg.victimEntries ≠ 0 -> c'.array.Packed cfg.toGeometry)
    (hvc : c'.vc = c.vc) (hdead : c'.dead cfg = none)
    (hmshr : c'.mshrHead = c.mshrHead ∧ c'.mshrTail = c.mshrTail ∧ c'.mshrCount = c.mshrCount)
    (hpending' : c'.vwbPending = false)
    (hhu : c'.huPending = false)
    (hflush : i.flushAll = false -> c'.flushActive = true -> c.flushActive = true)
    (hsingle : cfg.mshrEntries = 1 -> c'.state = .hitRd -> c.pendNext cfg i ≠ none)
    (hphase : c'.Phase cfg mem flat (c.pendNext cfg i))
    (hdone : c'.flushDone = true ->
      c'.state = .idle ∧
        forall line, c.array.valid line = true -> c.array.dirty line = false) :
    InvNext cfg c mem flat waiting i c' := by
  have hcopies : c'.copies cfg = c.copies cfg := by
    apply copies_congr
    · intro line
      rw [hdead, hprev, harray]
      rfl
    · exact hvc
    · rw [leavingCopy_none hpending', leavingCopy_none hpending]
  have hempty : c'.mshrCount = 0 := by rw [hmshr.right.right, hcount]
  have hmem : c.memNext cfg mem i = mem := by
    apply memNext_of_not_wb
    intro hstate
    rw [mshrBusy_of_wb hstate] at hbusy
    cases hbusy
  apply invNext_quiet h hlegal hcount (mshrComplete_of_not_busy hbusy) haccept hmshr hhu
    hflush hsingle
  · rw [harray]
    exact h.wellFormed.of_eq rfl rfl rfl
  · intro hentries
    apply buffered_congr (h.buffered hentries) hvc (hpacked hentries)
    · intro line hline
      rw [harray]
      exact hline
    · intro _
      exact inTurn_empty hempty
  · rw [hcopies, hflat, hmem]
    exact h.coherent
  · rw [hflat, hmem]
    exact hphase
  · intro hd
    refine ⟨(hdone hd).left, ?_⟩
    rw [harray]
    exact (hdone hd).right

theorem invNext_idle_quiet (h : c.Inv cfg mem flat pend waiting) (hlegal : c.Legal pend i)
    (hsound : c.Sound cfg pend i) (hbacked : c.Backed cfg mem i) (hstate : c.state = .idle)
    (hquiet : c.Quiet) (hactive : i.cpu.active = false) :
    InvNext cfg c mem flat waiting i (c.step cfg i) := by
  have hport := active_split hactive
  have hbusy := not_busy_idle hstate
  have hhit : c.accessHit cfg i = false :=
    accessHit_of_not_write (by simp [hstate]) hport.right
  have hvc : c.vcNext cfg i = c.vc := by
    by_cases hentries : cfg.victimEntries = 0
    · exact vcNext_of_no_entries hentries
    · have hbuffer := hsound.buffer hentries hstate hactive
      exact vcNext_eq hbuffer.left hbuffer.right
  have hcommon : c.common cfg i = { c with flushDone := false, huPending := false } := by
    rw [common_of_not_busy hbusy hbacked.noProbe, hvc, touchedAge_of_no_hit hhit]
  have hstep : c.step cfg i =
      if i.flushAll then
        { c with
          flushDone := false, huPending := false
          flushActive := true, flushScan := 0, state := .flushScan }
      else { c with flushDone := false, huPending := false } := by
    rw [step_idle hstate, hcommon]
    unfold idleStep
    rw [hactive, hquiet.noFlush]
    cases i.flushAll <;> simp
  have hnone : c.pendNext cfg i = none := pendNext_idle_port hactive
  rw [hstep]
  cases hflush : i.flushAll with
  | true =>
      rw [if_pos rfl]
      apply invNext_still h hlegal (dead_idle hstate) hquiet.empty hbusy hquiet.noPending
        (mshrAccept_of_not_read hport.left) (flatNext_of_not_write hport.right)
      case hphase =>
        apply Phase.scan
        exact
          { state := rfl
            flush := rfl
            empty := hquiet.empty
            noPending := hquiet.noPending
            noActive := hquiet.noActive
            inRange := Nat.mul_pos cfg.sets_pos cfg.ways_pos
            scanned := fun line hline => absurd hline (Nat.not_lt_zero line) }
      case hpacked => exact fun hentries => (h.buffered hentries).packed
      case hdead => exact dead_scan rfl
      case hpending' => exact hquiet.noPending
      case hflush =>
        intro hfalse
        rw [hflush] at hfalse
        cases hfalse
      all_goals simp
  | false =>
      rw [if_neg Bool.false_ne_true]
      apply invNext_still h hlegal (dead_idle hstate) hquiet.empty hbusy hquiet.noPending
        (mshrAccept_of_not_read hport.left) (flatNext_of_not_write hport.right)
      case hphase =>
        refine Phase.idle hstate ?_
        exact
          { empty := hquiet.empty
            noFlush := hquiet.noFlush
            noPending := hquiet.noPending
            noActive := hquiet.noActive }
      case hpacked => exact fun hentries => (h.buffered hentries).packed
      case hdead => exact dead_idle hstate
      case hpending' => exact hquiet.noPending
      all_goals simp [hstate]

/-!
# Delivering a hit
-/

theorem fillAnswers_of_not_busy (hbusy : c.mshrBusy = false) :
    c.fillAnswers cfg i = false := by
  unfold fillAnswers
  rw [completeNow_of_not_busy hbusy]
  rfl

theorem respReady_idle (hstate : c.state = .idle) :
    c.respReady cfg i = ((c.hit cfg i && i.cpu.write) || c.huPending) := by
  unfold respReady
  rw [hitAnswers_of_not_hitRd (by simp [hstate]),
    fillAnswers_of_not_busy (not_busy_idle hstate), hstate]
  simp

theorem respReady_hitRd (hstate : c.state = .hitRd) (hhu : c.huPending = false) :
    c.respReady cfg i = c.hitAnswers i := by
  unfold respReady
  rw [fillAnswers_of_not_busy (not_busy (by simp [hstate]) (by simp [hstate])), hstate, hhu]
  simp

theorem mshrAccept_of_no_dispatch (hidle : c.state ≠ .idle) (hbusy : c.mshrBusy = false) :
    c.mshrAccept cfg i = false := by
  unfold mshrAccept mshrFreshLoadMiss freshDispatchOk
  rw [dispatchMiss_of_not_busy hbusy, beq_eq_false_iff_ne.mpr hidle]
  simp

theorem mshrAccept_of_hit (hbusy : c.mshrBusy = false) (hhit : c.hit cfg i = true) :
    c.mshrAccept cfg i = false := by
  unfold mshrAccept mshrFreshLoadMiss
  rw [dispatchMiss_of_not_busy hbusy, hhit]
  simp

theorem packed_hitRd (hpacked : c.array.Packed cfg.toGeometry) (hstate : c.state = .hitRd)
    (hvalid : c.array.valid c.hitLine = true) :
    LineArray.Packed cfg.toGeometry { c.array with age := c.touchedAge cfg i } := by
  cases hhit : c.accessHit cfg i with
  | false =>
      rw [touchedAge_of_no_hit hhit]
      exact hpacked
  | true =>
      apply @LineArray.Packed.touch _ _ _ hpacked (cfg.setOf c.hitLine)
        (cfg.wayOf c.hitLine) (cfg.wayOf_lt c.hitLine)
      · rw [cfg.lineIdx_setOf_wayOf]
        exact hvalid
      · intro hpolicy
        show c.touchedAge cfg i = _
        unfold touchedAge
        rw [if_pos ⟨hpolicy, hhit⟩, hstate]
        rfl
      · rfl
      · rfl

/--
Nothing is stored while a load is delivered.
-/
theorem flatNext_hitRd (hlegal : c.Legal pend i) (hrd : c.HitRd cfg pend) :
    c.flatNext cfg flat i = flat := by
  unfold flatNext
  rw [respReady_hitRd hrd.state hrd.noHu, if_neg]
  rintro ⟨hwrite, hanswer⟩
  unfold hitAnswers at hanswer
  simp only [Bool.and_eq_true] at hanswer
  have hexclusive := (hlegal.request (active_of_write hwrite)).exclusive hanswer.left.right
  rw [hwrite] at hexclusive
  cases hexclusive

theorem invNext_hitRd (h : c.Inv cfg mem flat pend waiting) (hlegal : c.Legal pend i)
    (hbacked : c.Backed cfg mem i) (hrd : c.HitRd cfg pend) :
    InvNext cfg c mem flat waiting i (c.step cfg i) := by
  have hstate := hrd.state
  have hbusy : c.mshrBusy = false := not_busy (by simp [hstate]) (by simp [hstate])
  have hidle : c.state ≠ .idle := by simp [hstate]
  have hstep : c.step cfg i =
      { c with
        array := { c.array with age := c.touchedAge cfg i }
        flushDone := false, huPending := false, state := .idle } := by
    rw [step_hitRd hstate, common_of_not_busy hbusy hbacked.noProbe, vcNext_of_not_idle hidle]
  have hflat : c.flatNext cfg flat i = flat := flatNext_hitRd hlegal hrd
  rw [hstep]
  apply invNext_still h hlegal (dead_hitRd hstate) hrd.empty hbusy hrd.noPending
    (mshrAccept_of_no_dispatch hidle hbusy) hflat
  case hphase =>
    refine Phase.idle rfl ?_
    exact
      { empty := hrd.empty
        noFlush := hrd.noFlush
        noPending := hrd.noPending
        noActive := hrd.noActive }
  case hpacked => exact fun hentries => packed_hitRd (h.buffered hentries).packed hstate hrd.valid
  case hdead => exact dead_idle rfl
  case hpending' => exact hrd.noPending
  all_goals simp

/-!
# Finding a hit
-/

theorem hit_of_hitMain (hhit : c.hitMain cfg i = true) : c.hit cfg i = true := by
  unfold hit
  rw [hhit, Bool.true_or]

theorem vcNext_of_hitMain (hhit : c.hitMain cfg i = true) : c.vcNext cfg i = c.vc := by
  apply vcNext_eq
  · unfold vcDoSwap
    rw [hhit]
    simp
  · unfold vcDoInsert
    rw [hhit]
    simp

theorem invNext_readHit (h : c.Inv cfg mem flat pend waiting) (hlegal : c.Legal pend i)
    (hbacked : c.Backed cfg mem i) (hstate : c.state = .idle) (hquiet : c.Quiet)
    (hread : i.cpu.read = true) (hhit : c.hitMain cfg i = true) :
    InvNext cfg c mem flat waiting i (c.step cfg i) := by
  have hactive := active_of_read hread
  have hwrite : i.cpu.write = false := (hlegal.request hactive).exclusive hread
  have hbusy := not_busy_idle hstate
  have hhitAccess : c.accessHit cfg i = false := accessHit_of_not_write (by simp [hstate]) hwrite
  have hselects := LineArray.hit_selects h.wellFormed hhit
  have hstep : c.step cfg i =
      toHitRd cfg i { c with flushDone := false, huPending := false } (c.hitLineIdx cfg i) := by
    rw [step_idle hstate, common_of_not_busy hbusy hbacked.noProbe, vcNext_of_hitMain hhit,
      touchedAge_of_no_hit hhitAccess]
    unfold idleStep
    rw [hactive, hwrite, hhit, (hlegal.noFlush hactive).left]
    simp
  have hready : c.respReady cfg i = c.huPending := by
    rw [respReady_idle hstate, hwrite]
    simp
  have haccept := mshrAccept_of_hit hbusy (hit_of_hitMain hhit)
  rw [hstep]
  apply invNext_still h hlegal (dead_idle hstate) hquiet.empty hbusy hquiet.noPending
    haccept (flatNext_of_not_write hwrite)
  case hphase =>
    apply Phase.hitRd
    exact
      { empty := hquiet.empty
        noFlush := hquiet.noFlush
        noPending := hquiet.noPending
        noActive := hquiet.noActive
        state := rfl
        noHu := rfl
        valid := hselects.left
        addr := hselects.right.left
        word := rfl
        byteOff := rfl
        pending := by
          intro p hp
          rcases pendNext_eq_some hp with ⟨rfl, _⟩
          exact ⟨hread, rfl, rfl⟩ }
  case hpacked => exact fun hentries => (h.buffered hentries).packed
  case hdead => exact dead_hitRd rfl
  case hpending' => exact hquiet.noPending
  case hsingle =>
    intro hone _ hnone
    have hhu := (h.ported.single hone).left
    unfold pendNext at hnone
    rw [if_pos ⟨hactive, hready.trans hhu, haccept⟩] at hnone
    cases hnone
  all_goals simp [toHitRd]

theorem invNext_writeHit (h : c.Inv cfg mem flat pend waiting) (hlegal : c.Legal pend i)
    (hbacked : c.Backed cfg mem i) (hstate : c.state = .idle) (hquiet : c.Quiet)
    (hwrite : i.cpu.write = true) (hhit : c.hitMain cfg i = true) :
    InvNext cfg c mem flat waiting i (c.step cfg i) := by
  have hactive := active_of_write hwrite
  have hbusy := not_busy_idle hstate
  have hselects := LineArray.hit_selects h.wellFormed hhit
  have hanyHit := hit_of_hitMain hhit
  have hready : c.respReady cfg i = true := by
    rw [respReady_idle hstate, hanyHit, hwrite]
    rfl
  have haccess : c.accessHit cfg i = true := by
    unfold accessHit
    rw [hstate, hwrite, hanyHit]
    rfl
  have hnone : c.pendNext cfg i = none := by
    unfold pendNext
    rw [hready, if_neg]
    rintro ⟨_, hfalse, _⟩
    cases hfalse
  let line := c.hitLineIdx cfg i
  let word := mergeWrite (c.hitData cfg i) (lowBits i.cpu.funct3) (byteOff i.cpu.addr) i.cpu.wdata
  have hstep : c.step cfg i =
      { c with
        array :=
          { c.array with
            age := c.touchedAge cfg i
            data := setAt c.array.data (line, cfg.wordOff i.cpu.addr) word
            dirty := setAt c.array.dirty line true }
        flushDone := false, huPending := false } := by
    rw [step_idle hstate, common_of_not_busy hbusy hbacked.noProbe, vcNext_of_hitMain hhit]
    unfold idleStep
    rw [hactive, hwrite, hhit, (hlegal.noFlush hactive).left]
    rfl
  -- the merged word, in the terms of the flat memory
  have hdead : c.dead cfg = none := dead_idle hstate
  have hlive : c.dead cfg ≠ some line := by simp [hdead]
  have hcurrent := way_current h.coherent hselects.left hlive
  have hread : flat.read i.cpu.addr = c.hitData cfg i := by
    unfold LineMem.read
    rw [← hselects.right.left, ← hcurrent]
    exact hselects.right.right.symm
  have hflat : c.flatNext cfg flat i
      = setAt flat (c.array.lineAddr cfg.toGeometry line)
          (setAt (c.array.lineData cfg.toGeometry line) (LineMem.offset _ i.cpu.addr) word) := by
    unfold flatNext LineMem.store LineMem.write
    rw [if_pos ⟨hwrite, hready⟩, hread, ← hselects.right.left, ← hcurrent]
    rfl
  have hstore := h.coherent.store (copies_way hselects.left hlive)
    (setAt (c.array.lineData cfg.toGeometry line) (LineMem.offset _ i.cpu.addr) word)
  generalize c.step cfg i = c' at hstep ⊢
  have harray : c'.array =
      { c.array with
        age := c.touchedAge cfg i
        data := setAt c.array.data (line, cfg.wordOff i.cpu.addr) word
        dirty := setAt c.array.dirty line true } := by
    rw [hstep]
  have hdead' : c'.dead cfg = none := by
    apply dead_idle
    rw [hstep]
    exact hstate
  have hcopies : c'.copies cfg
      = setAt (c.copies cfg) (.way line)
          (some
            { addr := c.array.lineAddr cfg.toGeometry line
              dirty := true
              data :=
                setAt (c.array.lineData cfg.toGeometry line) (LineMem.offset _ i.cpu.addr)
                  word }) := by
    rw [@copies_update_way cfg c c' line]
    · congr 1
      rw [hdead', harray]
      refine LineArray.copyAt_eq_some.mpr ⟨hselects.left, by simp, ?_⟩
      ext1
      · rfl
      · exact (setAt_self _ _ _).symm
      · exact (LineArray.lineData_write (cfg.wordOff_lt i.cpu.addr)).symm
    · intro k hk
      rw [hdead', hdead, harray]
      apply LineArray.copyAt_congr
      · rfl
      · rfl
      · exact setAt_of_ne hk
      · intro w _
        apply setAt_of_ne
        intro heq
        exact hk (congrArg Prod.fst heq)
      · rfl
    · rw [hstep]
    · rw [hstep]
      rfl
  have hmem : c.memNext cfg mem i = mem := memNext_of_not_wb (by simp [hstate])
  apply invNext_quiet h hlegal hquiet.empty (mshrComplete_of_not_busy hbusy)
    (mshrAccept_of_hit hbusy hanyHit)
  case hwf =>
    rw [harray]
    exact h.wellFormed.of_eq rfl rfl rfl
  case hbuffered =>
    intro hentries
    have hbuffered := h.buffered hentries
    apply buffered_congr hbuffered
    · rw [hstep]
    · rw [harray]
      apply @LineArray.Packed.touch _ _ _ hbuffered.packed (cfg.setOf line)
        (cfg.wayOf line) (cfg.wayOf_lt line)
      · rw [cfg.lineIdx_setOf_wayOf]
        exact hselects.left
      · intro hpolicy
        show c.touchedAge cfg i = _
        unfold touchedAge
        rw [if_pos ⟨hpolicy, haccess⟩, hstate, hhit]
        rfl
      · rfl
      · rfl
    · rw [harray]
      exact fun _ hk => hk
    · intro _
      apply inTurn_empty
      rw [hstep]
      exact hquiet.empty
  case hcoherent =>
    rw [hcopies, hflat, hmem]
    exact hstore
  case hphase =>
    refine Phase.idle (by rw [hstep]; exact hstate) ?_
    rw [hstep]
    exact
      { empty := hquiet.empty
        noFlush := hquiet.noFlush
        noPending := hquiet.noPending
        noActive := hquiet.noActive }
  all_goals simp [hstep, hstate]

end DCache
end Cache
end RvCores
