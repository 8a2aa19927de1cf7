import RvCores.Cache.Serve

/-!
# Writebacks and the flush

A line is written back word by word, for an eviction, for a line that left the
victim buffer, or for the flush.  The flush scans the main array from the first
line to the last and writes back every dirty line.
-/

namespace RvCores
namespace Cache

open Isa Lib

namespace DCache

variable {cfg : DCacheConfig} {c c' : DCache} {i : DCacheIn}
  {mem flat : LineMem cfg.toGeometry} {pend : Option CpuPort}
  {waiting : List (Nat × Word)}

/-!
# One word
-/

theorem mDataO_of_way (hstate : c.state = .wb) (hactive : c.vwbActive = false) :
    c.mDataO = c.array.data (c.wbLine, c.fillWord) := by
  unfold mDataO
  rw [if_pos hstate, hactive, if_neg Bool.false_ne_true]

theorem mAddr_of_wb (hstate : c.state = .wb) : c.mAddr = c.wbBase + 4 * c.fillWord := by
  unfold mAddr
  rw [if_pos hstate]

theorem last_word (hword : c.fillWord < cfg.lineWords)
    (hlast : c.fillIsLastWord cfg = true) (w : Fin cfg.lineWords) :
    (w : Nat) < c.fillWord + 1 := by
  unfold fillIsLastWord at hlast
  have heq := beq_iff_eq.mp hlast
  have hw := w.isLt
  omega

theorem next_word (hword : c.fillWord < cfg.lineWords)
    (hlast : c.fillIsLastWord cfg = false) :
    c.fillWord + 1 < cfg.lineWords := by
  unfold fillIsLastWord at hlast
  have hne := beq_eq_false_iff_ne.mp hlast
  omega

/-!
# The branches of a writeback cycle
-/

section

variable {next : DCache}

theorem wbStep_hold (hack : i.mAck = false) : c.wbStep cfg i next = next := by
  unfold wbStep
  rw [hack, if_neg Bool.false_ne_true]

theorem wbStep_word (hack : i.mAck = true) (hlast : c.fillIsLastWord cfg = false) :
    c.wbStep cfg i next = { next with fillWord := c.fillWord + 1 } := by
  unfold wbStep
  rw [hack, hlast, if_pos rfl, if_neg Bool.false_ne_true]

variable (hack : i.mAck = true) (hlast : c.fillIsLastWord cfg = true)

include hack hlast

theorem wbStep_drained (hactive : c.vwbActive = true) :
    c.wbStep cfg i next =
      { next with vwbActive := false, vwbPending := false, fillWord := 0, state := .fill } := by
  unfold wbStep
  rw [hack, hlast, hactive, if_pos rfl, if_pos rfl, if_pos rfl]

theorem wbStep_flush (hactive : c.vwbActive = false) (hreturn : c.wbReturnToFlush = true) :
    c.wbStep cfg i next = c.flushAdvance cfg
      { next with
        array := { next.array with dirty := setAt next.array.dirty c.wbLine false } } := by
  unfold wbStep
  rw [hack, hlast, hactive, hreturn, if_pos rfl, if_pos rfl, if_neg Bool.false_ne_true,
    if_pos rfl]

theorem wbStep_chain (hactive : c.vwbActive = false) (hreturn : c.wbReturnToFlush = false)
    (hpending : c.vwbPending = true) :
    c.wbStep cfg i next =
      { next with
        array := { next.array with dirty := setAt next.array.dirty c.wbLine false }
        vwbActive := true
        wbBase := cfg.lineBase c.vwbTag
        fillWord := 0 } := by
  unfold wbStep
  rw [hack, hlast, hactive, hreturn, hpending, if_pos rfl, if_pos rfl,
    if_neg Bool.false_ne_true, if_neg Bool.false_ne_true, if_pos rfl]

theorem wbStep_evicted (hactive : c.vwbActive = false) (hreturn : c.wbReturnToFlush = false)
    (hpending : c.vwbPending = false) :
    c.wbStep cfg i next =
      { next with
        array := { next.array with dirty := setAt next.array.dirty c.wbLine false }
        fillWord := 0
        state := .fill } := by
  unfold wbStep
  rw [hack, hlast, hactive, hreturn, hpending, if_pos rfl, if_pos rfl,
    if_neg Bool.false_ne_true, if_neg Bool.false_ne_true, if_neg Bool.false_ne_true]

end

/-!
# The scan
-/

theorem Legal.quiet_of_flush (h : c.Legal pend i) (hflush : c.flushActive = true) :
    i.cpu.active = false := by
  cases hactive : i.cpu.active with
  | false => rfl
  | true =>
      have hno := (h.noFlush hactive).right
      rw [hflush] at hno
      cases hno

theorem dispatchHit_of_no_read (hread : i.cpu.read = false) :
    c.mshrBusyDispatchHit cfg i = false := by
  unfold mshrBusyDispatchHit
  rw [hread]
  simp

theorem dispatchMiss_of_no_read (hread : i.cpu.read = false) :
    c.mshrBusyDispatchMiss cfg i = false := by
  unfold mshrBusyDispatchMiss
  rw [hread]
  simp

theorem Scan.quiet_common (h : c.Scan cfg) (hlegal : c.Legal pend i)
    (hbacked : c.Backed cfg mem i) :
    c.common cfg i = { c with flushDone := false, huPending := false } := by
  have hport := active_split (hlegal.quiet_of_flush h.flush)
  have hidle : c.state ≠ .idle := by simp [h.state]
  have hbusy : c.mshrBusy = false := not_busy (by simp [h.state]) (by simp [h.state])
  rw [common_of_not_busy hbusy hbacked.noProbe, vcNext_of_not_idle hidle,
    touchedAge_of_no_hit (accessHit_of_not_write (by simp [h.state]) hport.right)]

theorem invNext_scan (h : c.Inv cfg mem flat pend waiting) (hlegal : c.Legal pend i)
    (hbacked : c.Backed cfg mem i) (hscan : c.Scan cfg) :
    InvNext cfg c mem flat waiting i (c.step cfg i) := by
  have hactive := hlegal.quiet_of_flush hscan.flush
  have hport := active_split hactive
  have hidle : c.state ≠ .idle := by simp [hscan.state]
  have hbusy : c.mshrBusy = false := not_busy (by simp [hscan.state]) (by simp [hscan.state])
  have hdead := @dead_scan cfg c hscan.state
  have haccept := @mshrAccept_of_no_dispatch cfg c i hidle hbusy
  have hflat := @flatNext_of_not_write cfg c i flat hport.right
  rw [step_scan hscan.state, hscan.quiet_common hlegal hbacked]
  unfold flushScanStep
  by_cases hdirty : (c.array.valid c.flushScan && c.array.dirty c.flushScan) = true
  · rw [if_pos hdirty]
    have hsplit := Bool.and_eq_true_iff.mp hdirty
    apply invNext_still h hlegal hdead hscan.empty hbusy hscan.noPending haccept hflat
    case hphase =>
      apply Phase.flushWb
      exact
        { state := rfl
          flush := hscan.flush
          returns := rfl
          empty := hscan.empty
          noPending := hscan.noPending
          noActive := hscan.noActive
          inRange := hscan.inRange
          scanned := hscan.scanned
          line := rfl
          valid := hsplit.left
          dirty := hsplit.right
          base := congrArg cfg.lineBase (LineArray.concatTag_setOf h.severalSets _)
          word := cfg.lineWords_pos
          written := fun w hw => absurd hw (Nat.not_lt_zero w) }
    case hpacked => exact fun hentries => (h.buffered hentries).packed
    case hdead => exact dead_eq_none (by simp) (fun _ => Or.inl hscan.flush)
    case hpending' => exact hscan.noPending
    all_goals simp
  · rw [if_neg hdirty]
    have hclean : forall line, line < c.flushScan + 1 -> c.array.valid line = true ->
        c.array.dirty line = false := by
      intro line hline hvalid
      rcases Nat.lt_succ_iff_lt_or_eq.mp hline with hlt | heq
      · exact hscan.scanned line hlt hvalid
      · subst heq
        rw [hvalid, Bool.true_and] at hdirty
        exact Bool.eq_false_iff.mpr hdirty
    unfold flushAdvance
    by_cases hlast : c.flushScan = cfg.numLines - 1
    · rw [if_pos hlast]
      apply invNext_still h hlegal hdead hscan.empty hbusy hscan.noPending haccept hflat
      case hphase =>
        refine Phase.idle rfl ?_
        exact
          { empty := hscan.empty
            noFlush := rfl
            noPending := hscan.noPending
            noActive := hscan.noActive }
      case hpacked => exact fun hentries => (h.buffered hentries).packed
      case hdead => exact dead_idle rfl
      case hpending' => exact hscan.noPending
      case hdone =>
        intro _
        refine ⟨rfl, ?_⟩
        intro line hvalid
        apply hclean line _ hvalid
        have hrange := h.wellFormed.inRange hvalid
        omega
      all_goals simp
    · rw [if_neg hlast]
      apply invNext_still h hlegal hdead hscan.empty hbusy hscan.noPending haccept hflat
      case hphase =>
        apply Phase.scan
        exact
          { state := rfl
            flush := hscan.flush
            empty := hscan.empty
            noPending := hscan.noPending
            noActive := hscan.noActive
            inRange := by
              show c.flushScan + 1 < cfg.numLines
              have hrange := hscan.inRange
              omega
            scanned := hclean }
      case hpacked => exact fun hentries => (h.buffered hentries).packed
      case hdead => exact dead_scan rfl
      case hpending' => exact hscan.noPending
      all_goals simp

/-!
# Writebacks of the flush
-/

theorem FlushWb.quiet_common (h : c.FlushWb cfg mem flat) (hlegal : c.Legal pend i)
    (hbacked : c.Backed cfg mem i) :
    c.common cfg i = { c with flushDone := false, huPending := false } := by
  have hport := active_split (hlegal.quiet_of_flush h.flush)
  have hidle : c.state ≠ .idle := by simp [h.state]
  rw [common_of_no_dispatch (dispatchHit_of_no_read hport.left)
      (dispatchMiss_of_no_read hport.left) (completeNow_of_wb h.state) hbacked.noProbe,
    vcNext_of_not_idle hidle,
    touchedAge_of_no_hit (accessHit_of_not_write (by simp [h.state]) hport.right)]

theorem FlushWb.dead (h : c.FlushWb cfg mem flat) : c.dead cfg = none :=
  dead_eq_none (by simp [h.state]) (fun _ => Or.inl h.flush)

theorem FlushWb.held (h : c.FlushWb cfg mem flat) :
    exists s d, c.copies cfg s = some d ∧
      d.addr = c.array.lineAddr cfg.toGeometry c.wbLine ∧ d.dirty = true :=
  ⟨_, _, copies_way h.valid (by simp [h.dead]), rfl, h.dirty⟩

/--
The word on the bus is the flat memory's.
-/
theorem FlushWb.data (h : c.FlushWb cfg mem flat) (hcoherent : Coherent (c.copies cfg) mem flat) :
    c.mDataO = flat (c.array.lineAddr cfg.toGeometry c.wbLine) ⟨c.fillWord, h.word⟩ := by
  rw [mDataO_of_way h.state h.noActive,
    ← way_current hcoherent h.valid (by simp [h.dead])]
  rfl

theorem FlushWb.addr (h : c.FlushWb cfg mem flat) :
    c.mAddr = cfg.lineBase (c.array.lineAddr cfg.toGeometry c.wbLine) + 4 * c.fillWord := by
  rw [mAddr_of_wb h.state, h.base]

theorem mshrComplete_of_wb (hstate : c.state = .wb) : c.mshrComplete cfg i = false := by
  unfold mshrComplete
  rw [completeNow_of_wb hstate]
  rfl

theorem memNext_ack (hstate : c.state = .wb) (hack : i.mAck = true) :
    c.memNext cfg mem i = mem.write c.mAddr c.mDataO := by
  unfold memNext
  rw [if_pos ⟨hack, hstate⟩]

theorem memNext_no_ack (hack : i.mAck = false) : c.memNext cfg mem i = mem := by
  unfold memNext
  rw [hack, if_neg]
  intro h
  cases h.left

/--
The main array with one line marked clean.
-/
theorem copies_clean {line : Nat} (hvalid : c.array.valid line = true)
    (hdead : c.dead cfg = none) (hdead' : c'.dead cfg = none)
    (harray : c'.array = { c.array with dirty := setAt c.array.dirty line false })
    (hvc : c'.vc = c.vc) (hout : c'.leavingCopy cfg = c.leavingCopy cfg) :
    c'.copies cfg
      = setAt (c.copies cfg) (.way line)
          (some
            { addr := c.array.lineAddr cfg.toGeometry line
              dirty := false
              data := c.array.lineData cfg.toGeometry line }) := by
  rw [@copies_update_way cfg c c' line]
  · congr 1
    rw [hdead', harray]
    refine LineArray.copyAt_eq_some.mpr ⟨hvalid, by simp, ?_⟩
    ext1
    · rfl
    · exact (setAt_self _ _ _).symm
    · rfl
  · intro k hk
    rw [hdead', hdead, harray]
    apply LineArray.copyAt_congr
    · rfl
    · rfl
    · exact setAt_of_ne hk
    · intro w _
      rfl
    · rfl
  · exact hvc
  · exact hout

theorem buffered_still (h : c.Buffered cfg) (hvc : c'.vc = c.vc)
    (hvalid : c'.array.valid = c.array.valid) (hvictim : c'.array.victim = c.array.victim)
    (hage : c'.array.age = c.array.age) (hempty : c'.mshrCount = 0) :
    c'.Buffered cfg := by
  apply buffered_congr h hvc
  · apply h.packed.congr
    · intro k
      rw [hage]
    · intro set
      exact Or.inr (by rw [hvictim])
    · intro line
      rw [hvalid]
  · intro line hline
    rw [hvalid]
    exact hline
  · intro _
    exact inTurn_empty hempty

/--
A writeback of the flush in which nothing but the word counter moves.
-/
theorem invNext_flushWb_same {w : Nat} (h : c.Inv cfg mem flat pend waiting)
    (hlegal : c.Legal pend i) (hwb : c.FlushWb cfg mem flat)
    (hcoherent : Coherent (c.copies cfg) (c.memNext cfg mem i) flat)
    (hw : w < cfg.lineWords)
    (hwritten : forall k : Fin cfg.lineWords, (k : Nat) < w ->
      c.memNext cfg mem i (c.array.lineAddr cfg.toGeometry c.wbLine) k
        = flat (c.array.lineAddr cfg.toGeometry c.wbLine) k) :
    InvNext cfg c mem flat waiting i
      { c with flushDone := false, huPending := false, fillWord := w } := by
  have hactive := hlegal.quiet_of_flush hwb.flush
  have hport := active_split hactive
  have hflat := @flatNext_of_not_write cfg c i flat hport.right
  apply invNext_quiet h hlegal hwb.empty (mshrComplete_of_wb hwb.state)
    (mshrAccept_of_not_read hport.left)
  case hwf => exact h.wellFormed
  case hbuffered =>
    intro hentries
    refine buffered_still (h.buffered hentries) ?_ ?_ ?_ ?_ hwb.empty <;> rfl
  case hcoherent =>
    rw [hflat]
    exact hcoherent
  case hphase =>
    rw [hflat]
    apply Phase.flushWb
    exact
      { state := hwb.state
        flush := hwb.flush
        returns := hwb.returns
        empty := hwb.empty
        noPending := hwb.noPending
        noActive := hwb.noActive
        inRange := hwb.inRange
        scanned := hwb.scanned
        line := hwb.line
        valid := hwb.valid
        dirty := hwb.dirty
        base := hwb.base
        word := hw
        written := hwritten }
  all_goals simp [hwb.state]

/--
The last word of a line: the line is clean and the scan goes on.
-/
theorem invNext_flushWb_last {c' : DCache} (h : c.Inv cfg mem flat pend waiting)
    (hlegal : c.Legal pend i) (hwb : c.FlushWb cfg mem flat)
    (hcoherent : Coherent (c.copies cfg) (c.memNext cfg mem i) flat)
    (hwritten : forall w : Fin cfg.lineWords,
      c.memNext cfg mem i (c.array.lineAddr cfg.toGeometry c.wbLine) w
        = flat (c.array.lineAddr cfg.toGeometry c.wbLine) w)
    (hstep : c' = c.flushAdvance cfg
      { c with
        flushDone := false, huPending := false
        array := { c.array with dirty := setAt c.array.dirty c.wbLine false } }) :
    InvNext cfg c mem flat waiting i c' := by
  have hport := active_split (hlegal.quiet_of_flush hwb.flush)
  have hflat := @flatNext_of_not_write cfg c i flat hport.right
  -- whichever way the scan goes on, only the dirty bit of the line changed
  have hsame : c'.array = { c.array with dirty := setAt c.array.dirty c.wbLine false } ∧
      c'.vc = c.vc ∧ c'.mshrCount = 0 ∧ c'.vwbPending = false ∧ c'.huPending = false ∧
      c'.mshrHead = c.mshrHead ∧ c'.mshrTail = c.mshrTail ∧ c'.vwbActive = false := by
    rw [hstep]
    unfold flushAdvance
    split <;> simp [hwb.empty, hwb.noPending, hwb.noActive]
  obtain ⟨harray, hvc, hempty, hpending, hhu, hhead, htail, hactive⟩ := hsame
  have hclean : forall line, line < c.flushScan + 1 -> c'.array.valid line = true ->
      c'.array.dirty line = false := by
    intro line hline hvalid
    rw [harray] at hvalid ⊢
    show setAt c.array.dirty c.wbLine false line = false
    rw [setAt_apply]
    split
    · rfl
    · next hne =>
        rw [hwb.line] at hne
        exact hwb.scanned line (by omega) hvalid
  have hnext : (c'.state = .idle ∧ c'.flushActive = false ∧ c'.flushDone = true ∧
        c.flushScan + 1 = cfg.numLines) ∨
      (c'.state = .flushScan ∧ c'.flushActive = true ∧ c'.flushDone = false ∧
        c'.flushScan = c.flushScan + 1 ∧ c.flushScan + 1 < cfg.numLines) := by
    have hrange := hwb.inRange
    rw [hstep]
    unfold flushAdvance
    split
    · next hlast =>
        apply Or.inl
        exact ⟨rfl, rfl, rfl, by omega⟩
    · next hlast =>
        apply Or.inr
        exact ⟨rfl, hwb.flush, rfl, rfl, by omega⟩
  have hdead' : c'.dead cfg = none := by
    rcases hnext with hidle | hscan
    · exact dead_idle hidle.left
    · exact dead_scan hscan.left
  have hcopies := copies_clean hwb.valid hwb.dead hdead' harray hvc
    (by rw [leavingCopy_none hpending, leavingCopy_none hwb.noPending])
  apply invNext_quiet h hlegal hwb.empty (mshrComplete_of_wb hwb.state)
    (mshrAccept_of_not_read hport.left) ⟨hhead, htail, hempty.trans hwb.empty.symm⟩ hhu
  · intro _ _
    exact hwb.flush
  · intro _ hrd
    rcases hnext with hidle | hscan
    · exact absurd (hidle.left.symm.trans hrd) CacheState.noConfusion
    · exact absurd (hscan.left.symm.trans hrd) CacheState.noConfusion
  · rw [harray]
    exact h.wellFormed.of_eq rfl rfl rfl
  · intro hentries
    apply buffered_still (h.buffered hentries) hvc _ _ _ hempty <;> rw [harray]
  · rw [hcopies, hflat]
    apply hcoherent.clean (copies_way hwb.valid (by simp [hwb.dead]))
    rw [way_current h.coherent hwb.valid (by simp [hwb.dead])]
    funext w
    exact hwritten w
  · rw [pendNext_idle_port (hlegal.quiet_of_flush hwb.flush)]
    rcases hnext with hidle | hscan
    · refine Phase.idle hidle.left ?_
      exact
        { empty := hempty
          noFlush := hidle.right.left
          noPending := hpending
          noActive := hactive }
    · apply Phase.scan
      exact
        { state := hscan.left
          flush := hscan.right.left
          empty := hempty
          noPending := hpending
          noActive := hactive
          inRange := by
            rw [hscan.right.right.right.left]
            exact hscan.right.right.right.right
          scanned := by
            unfold Scanned
            rw [hscan.right.right.right.left]
            exact hclean }
  · intro hdone
    rcases hnext with hidle | hscan
    · refine ⟨hidle.left, ?_⟩
      intro line hvalid
      apply hclean line _ hvalid
      rw [harray] at hvalid
      rw [hidle.right.right.right]
      exact h.wellFormed.inRange hvalid
    · rw [hscan.right.right.left] at hdone
      cases hdone

theorem invNext_flushWb (h : c.Inv cfg mem flat pend waiting) (hlegal : c.Legal pend i)
    (hbacked : c.Backed cfg mem i) (hwb : c.FlushWb cfg mem flat) :
    InvNext cfg c mem flat waiting i (c.step cfg i) := by
  have hport := active_split (hlegal.quiet_of_flush hwb.flush)
  have hstep : c.step cfg i
      = c.wbStep cfg i { c with flushDone := false, huPending := false } := by
    rw [step_wb hwb.state, hwb.quiet_common hlegal hbacked]
  cases hack : i.mAck with
  | false =>
      rw [wbStep_hold hack] at hstep
      have hmem := @memNext_no_ack cfg c i mem hack
      rw [hstep]
      apply invNext_flushWb_same h hlegal hwb _ hwb.word
      · rw [hmem]
        exact hwb.written
      · rw [hmem]
        exact h.coherent
  | true =>
      have hmem := @memNext_ack cfg c i mem hwb.state hack
      have hcoherent : Coherent (c.copies cfg) (c.memNext cfg mem i) flat := by
        rw [hmem]
        exact LineMem.coherent_write _ h.coherent hwb.word hwb.addr hwb.held
      have hwritten := LineMem.written_succ mem hwb.word hwb.written hwb.addr (hwb.data h.coherent)
      cases hlast : c.fillIsLastWord cfg with
      | false =>
          rw [wbStep_word hack hlast] at hstep
          rw [hstep]
          apply invNext_flushWb_same h hlegal hwb hcoherent (next_word hwb.word hlast)
          rw [hmem]
          exact hwritten
      | true =>
          rw [wbStep_flush hack hlast hwb.noActive hwb.returns] at hstep
          apply invNext_flushWb_last h hlegal hwb hcoherent _ hstep
          intro w
          rw [hmem]
          exact hwritten w (last_word hwb.word hlast w)

end DCache
end Cache
end RvCores
