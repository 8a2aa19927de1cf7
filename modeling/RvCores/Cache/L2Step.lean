import RvCores.Cache.L2Invariant

/-!
# The cycles of the second-level cache
-/

namespace RvCores
namespace Cache

open Isa Lib

namespace L2Cache

variable {g : Geometry} {c c' : L2Cache} {i : L2In} {mem upper : LineMem g}

/--
The invariant after one cycle, with both memories moved on.
-/
def InvNext (g : Geometry) (c : L2Cache) (mem upper : LineMem g) (i : L2In) (c' : L2Cache) :
    Prop :=
  c'.Inv g (c.memNext g mem i) (c.upperNext g upper i)

theorem step_idle (h : c.state = .idle) : c.step g i = c.idleStep g i (c.common g i) := by
  unfold step
  rw [h]

theorem step_hitRd (h : c.state = .hitRd) :
    c.step g i = { c.common g i with state := .idle } := by
  unfold step
  rw [h]

theorem step_probe (h : c.state = .probeWait) :
    c.step g i = c.probeStep i (c.common g i) := by
  unfold step
  rw [h]

theorem step_wb (h : c.state = .wb) : c.step g i = c.wbStep g i (c.common g i) := by
  unfold step
  rw [h]

theorem step_fill (h : c.state = .fill) : c.step g i = c.fillStep g i (c.common g i) := by
  unfold step
  rw [h]

theorem step_scan (h : c.state = .flushScan) :
    c.step g i = c.flushScanStep g (c.common g i) := by
  unfold step
  rw [h]

theorem accessHit_of_busy (hidle : c.state ≠ .idle) (hrd : c.state ≠ .hitRd) :
    c.accessHit g i = false := by
  unfold accessHit
  rw [hitAnswers_of_not_hitRd hrd, beq_eq_false_iff_ne.mpr hidle]
  rfl

theorem common_array (hidle : c.state ≠ .idle) (hrd : c.state ≠ .hitRd) :
    (c.common g i).array = c.array := by
  unfold common
  rw [touchedAge_of_no_hit (accessHit_of_busy hidle hrd)]

/-!
# Idle cycles
-/

theorem invNext_quiet (h : c.Inv g mem upper) (hstate : c.state = .idle)
    (hflush : c.flushActive = false) (hcyc : i.uCyc = false) :
    InvNext g c mem upper i (c.step g i) := by
  have hupper : c.upperNext g upper i = upper := by
    apply upperNext_no_write (by simp [hstate])
    intro htrue
    rw [hcyc] at htrue
    cases htrue
  have hnone : c.dead g = none :=
    dead_none (by simp [hstate]) (not_latched_of_state (by simp [hstate]))
  have hout : c.latchCopy g = none :=
    latchCopy_none (not_latched_of_state (by simp [hstate]))
  unfold InvNext
  rw [memNext_of_not_wb (by simp [hstate]), hupper, step_idle hstate]
  unfold idleStep
  rw [hcyc, hflush]
  cases hall : i.flushAll with
  | true =>
      refine inv_of_same h rfl ?_ ?_ ?_ ?_
      · rw [hnone]
        exact dead_none (by simp) (not_latched_of_state (by simp))
      · rw [hout]
        exact latchCopy_none (not_latched_of_state (by simp))
      · exact Phase.scan rfl rfl (Nat.mul_pos g.sets_pos g.ways_pos)
          (fun line hline => absurd hline (Nat.not_lt_zero line))
      · intro hdone
        cases hdone
  | false =>
      refine inv_of_same h rfl ?_ ?_ ?_ ?_
      · rw [hnone]
        exact dead_none (by simp [common, hstate]) (not_latched_of_state (by simp [common, hstate]))
      · rw [hout]
        exact latchCopy_none (not_latched_of_state (by simp [common, hstate]))
      · exact Phase.idle hstate hflush
      · intro hdone
        cases hdone

theorem Served.no_flush (h : c.Served g mem i) (hcyc : i.uCyc = true) :
    i.flushAll = false := by
  cases hall : i.flushAll with
  | false => rfl
  | true =>
      have hquiet := h.quiet (Or.inl hall)
      rw [hcyc] at hquiet
      cases hquiet

theorem invNext_readHit (h : c.Inv g mem upper) (hserved : c.Served g mem i)
    (hstate : c.state = .idle) (hflush : c.flushActive = false) (hcyc : i.uCyc = true)
    (hwe : i.uWe = false) (hhit : c.hit g i = true) :
    InvNext g c mem upper i (c.step g i) := by
  have hall := hserved.no_flush hcyc
  have hselects := LineArray.hit_selects h.wellFormed hhit
  have hupper : c.upperNext g upper i = upper :=
    upperNext_no_write (by simp [hstate]) (fun _ => hwe)
  have hstep : c.step g i = c.readHit g i (c.common g i) := by
    rw [step_idle hstate]
    unfold idleStep
    rw [hcyc, hhit, hwe, hall]
    rfl
  unfold InvNext
  rw [memNext_of_not_wb (by simp [hstate]), hupper, hstep]
  refine inv_of_same h rfl ?_ ?_ ?_ ?_
  · rw [dead_none (c := c) (by simp [hstate]) (not_latched_of_state (by simp [hstate]))]
    exact dead_none (by simp [readHit]) (not_latched_of_state (by simp [readHit]))
  · rw [latchCopy_none (c := c) (not_latched_of_state (by simp [hstate]))]
    exact latchCopy_none (not_latched_of_state (by simp [readHit]))
  · apply Phase.hitRd
    exact
      { state := rfl
        noFlush := hflush
        valid := hselects.left
        addr := hselects.right.left
        word := rfl
        funct3 := hserved.words }
  · intro hdone
    cases hdone

theorem mergeWrite_word (old wdata : Word) (off : Nat) :
    mergeWrite old (lowBits 0b010) off wdata = wdata := rfl

theorem extendRead_word (word : Word) (off : Nat) : extendRead word 0b010 off = word := rfl

theorem invNext_writeHit (h : c.Inv g mem upper) (hserved : c.Served g mem i)
    (hstate : c.state = .idle) (hflush : c.flushActive = false) (hcyc : i.uCyc = true)
    (hwe : i.uWe = true) :
    InvNext g c mem upper i (c.step g i) := by
  have hhit := hserved.writes hcyc hwe
  have hall := hserved.no_flush hcyc
  have hselects := LineArray.hit_selects h.wellFormed hhit
  let line := c.hitLineIdx g i
  have hstep : c.step g i =
      { c with
        array :=
          { c.array with
            age := c.touchedAge g i
            data := setAt c.array.data (line, g.wordOff i.uAddr) i.uDataO
            dirty := setAt c.array.dirty line true }
        flushDone := false } := by
    rw [step_idle hstate]
    unfold idleStep
    rw [hcyc, hhit, hwe, hall]
    unfold writeHit
    rw [hserved.words, mergeWrite_word]
    rfl
  have hnone : c.dead g = none :=
    dead_none (by simp [hstate]) (not_latched_of_state (by simp [hstate]))
  have hlive : c.dead g ≠ some line := by simp [hnone]
  have hout : c.latchCopy g = none :=
    latchCopy_none (not_latched_of_state (by simp [hstate]))
  have hcurrent := way_current h.coherent hselects.left hlive
  have hupper : c.upperNext g upper i
      = setAt upper (c.array.lineAddr g line)
          (setAt (c.array.lineData g line) (LineMem.offset g i.uAddr) i.uDataO) := by
    unfold upperNext LineMem.write
    rw [if_pos ⟨hstate, hcyc, hwe⟩, ← hselects.right.left, ← hcurrent]
    rfl
  have hstore := h.coherent.store (copies_way hselects.left hlive)
    (setAt (c.array.lineData g line) (LineMem.offset g i.uAddr) i.uDataO)
  unfold InvNext
  rw [memNext_of_not_wb (by simp [hstate]), hupper]
  generalize c.step g i = c' at hstep ⊢
  have hstate' : c'.state = .idle := by
    rw [hstep]
    exact hstate
  have hnone' : c'.dead g = none :=
    dead_none (by simp [hstate']) (not_latched_of_state (by simp [hstate']))
  have hout' : c'.latchCopy g = none :=
    latchCopy_none (not_latched_of_state (by simp [hstate']))
  exact
    { severalSets := h.severalSets
      wellFormed := by
        rw [hstep]
        exact h.wellFormed.of_eq rfl rfl rfl
      coherent := by
        have hcopies : c'.copies g
            = setAt (c.copies g) (.way line)
                (some
                  { addr := c.array.lineAddr g line
                    dirty := true
                    data :=
                      setAt (c.array.lineData g line) (LineMem.offset g i.uAddr) i.uDataO }) := by
          rw [@copies_update g c c' line, hout', setAt_latch_none]
          · congr 1
            rw [hnone', hstep]
            refine LineArray.copyAt_eq_some.mpr ⟨hselects.left, by simp, ?_⟩
            ext1
            · rfl
            · exact (setAt_self _ _ _).symm
            · exact (LineArray.lineData_write (g.wordOff_lt i.uAddr)).symm
          · rw [setAt_of_ne (by simp)]
            exact hout
          · intro k hk
            rw [hnone', hnone, hstep]
            apply LineArray.copyAt_congr
            · rfl
            · rfl
            · exact setAt_of_ne hk
            · intro w _
              apply setAt_of_ne
              intro heq
              exact hk (congrArg Prod.fst heq)
            · rfl
        rw [hcopies]
        exact hstore
      phase := Phase.idle hstate' (by rw [hstep]; exact hflush)
      flushed := by
        intro hdone
        rw [hstep] at hdone
        cases hdone }

/-!
# A miss begins
-/

theorem missing_entry (h : c.Inv g mem upper) (hserved : c.Served g mem i)
    (hwe : i.uWe = false) (hmiss : c.hit g i = false) (hentry : c'.miss = c.missEntry g i)
    (hvalid : c'.array.valid = c.array.valid) (htag : c'.array.tag = c.array.tag) :
    c'.Missing g := by
  have haddr : forall line, c'.array.lineAddr g line = c.array.lineAddr g line := by
    intro line
    unfold LineArray.lineAddr
    rw [htag]
  refine ⟨?_, ?_, ?_, ?_, ?_, ?_, ?_, ?_⟩
  all_goals rw [hentry]
  · exact LineArray.victimTargetWay_lt h.wellFormed _
  · rfl
  · rfl
  · rfl
  · rfl
  · exact hserved.words
  · exact hwe
  · intro line hline
    rw [hvalid] at hline
    rw [haddr]
    exact LineArray.not_held_of_miss h.wellFormed hmiss hline

theorem invNext_miss (h : c.Inv g mem upper) (hserved : c.Served g mem i)
    (hstate : c.state = .idle) (hflush : c.flushActive = false) (hcyc : i.uCyc = true)
    (hmiss : c.hit g i = false) :
    InvNext g c mem upper i (c.step g i) := by
  have hwe : i.uWe = false := by
    cases hwe : i.uWe with
    | false => rfl
    | true =>
        rw [hserved.writes hcyc hwe] at hmiss
        cases hmiss
  have hall := hserved.no_flush hcyc
  have hupper : c.upperNext g upper i = upper :=
    upperNext_no_write (by simp [hstate]) (fun _ => hwe)
  have hnone : c.dead g = none :=
    dead_none (by simp [hstate]) (not_latched_of_state (by simp [hstate]))
  have hout : c.latchCopy g = none :=
    latchCopy_none (not_latched_of_state (by simp [hstate]))
  have hstep : c.step g i = c.startMiss g i (c.common g i) := by
    rw [step_idle hstate]
    unfold idleStep
    rw [hcyc, hmiss, hall]
    rfl
  unfold InvNext
  rw [memNext_of_not_wb (by simp [hstate]), hupper, hstep]
  unfold startMiss
  split
  · next hvalid =>
      refine inv_of_same h rfl ?_ ?_ ?_ ?_
      · rw [hnone]
        exact dead_none (by simp) (not_latched_of_state (by simp))
      · rw [hout]
        exact latchCopy_none (not_latched_of_state (by simp))
      · refine Phase.probe rfl hflush ?_
        exact
          { toMissing := missing_entry h hserved hwe hmiss rfl rfl rfl
            line := rfl
            valid := hvalid
            base' := congrArg g.lineBase
              (LineArray.concatTag_victimLine h.wellFormed h.severalSets i.uAddr) }
      · intro hdone
        cases hdone
  · next hinvalid =>
      have hvalid : c.array.valid (c.victimLine g i) = false := Bool.eq_false_iff.mpr hinvalid
      exact
        { severalSets := h.severalSets
          wellFormed := h.wellFormed.of_eq rfl rfl rfl
          coherent := by
            have hcopies : L2Cache.copies g
                { c.common g i with miss := c.missEntry g i, fillWord := 0, state := .fill }
                = c.copies g := by
              apply copies_congr
              · intro k
                rw [hnone, dead_fill rfl]
                by_cases hk : k = c.victimLine g i
                · rw [LineArray.copyAt_invalid (by rw [hk]; exact hvalid),
                    LineArray.copyAt_invalid (by rw [hk]; exact hvalid)]
                · apply LineArray.copyAt_congr rfl rfl rfl (fun _ _ => rfl)
                  constructor
                  · intro heq
                    exact absurd (Option.some.inj heq).symm hk
                  · intro heq
                    cases heq
              · rw [hout]
                exact latchCopy_none (not_latched_of_state (by simp))
            rw [hcopies]
            exact h.coherent
          phase := by
            apply Phase.fill
            exact
              { toMissing := missing_entry h hserved hwe hmiss rfl rfl rfl
                state := rfl
                noFlush := hflush
                word := g.lineWords_pos
                filled := fun w hw => absurd hw (Nat.not_lt_zero w) }
          flushed := by
            intro hdone
            cases hdone }

/-!
# Delivering a hit
-/

theorem invNext_hitRd (h : c.Inv g mem upper) (hrd : c.HitRd g) :
    InvNext g c mem upper i (c.step g i) := by
  have hstate := hrd.state
  unfold InvNext
  rw [memNext_of_not_wb (by simp [hstate]),
    upperNext_still (by simp [hstate]) (by simp [hstate]), step_hitRd hstate]
  refine inv_of_same h rfl ?_ ?_ ?_ ?_
  · rw [dead_none (c := c) (by simp [hstate]) (not_latched_of_state (by simp [hstate]))]
    exact dead_none (by simp) (not_latched_of_state (by simp))
  · rw [latchCopy_none (c := c) (not_latched_of_state (by simp [hstate]))]
    exact latchCopy_none (not_latched_of_state (by simp))
  · exact Phase.idle rfl hrd.noFlush
  · intro hdone
    cases hdone

/-!
# The probe
-/

theorem Missing.of_eq (h : c.Missing g) (hmiss : c'.miss = c.miss)
    (hvalid : c'.array.valid = c.array.valid) (htag : c'.array.tag = c.array.tag) :
    c'.Missing g := by
  have haddr : forall line, c'.array.lineAddr g line = c.array.lineAddr g line := by
    intro line
    unfold LineArray.lineAddr
    rw [htag]
  refine ⟨?_, ?_, ?_, ?_, ?_, ?_, ?_, ?_⟩
  all_goals rw [hmiss]
  · exact h.way
  · exact h.set
  · exact h.tag
  · exact h.base
  · exact h.wordOff
  · exact h.funct3
  · exact h.load
  · intro line hline
    rw [hvalid] at hline
    rw [haddr]
    exact h.unheld line hline

theorem Replaced.of_eq (h : c.Replaced g) (hmiss : c'.miss = c.miss)
    (hvalid : c'.array.valid = c.array.valid) (htag : c'.array.tag = c.array.tag)
    (hline : c'.wbLine = c.wbLine) (hbase : c'.wbBase = c.wbBase) :
    c'.Replaced g where
  toMissing := h.toMissing.of_eq hmiss hvalid htag
  line := by
    unfold fillLine
    rw [hline, hmiss, h.line]
    rfl
  valid := by
    rw [hline, hvalid]
    exact h.valid
  base' := by
    unfold LineArray.lineAddr
    rw [hline, hbase, htag, h.base']
    rfl

/--
The line that is replaced leaves its way.
-/
theorem copies_giveUp (hdead : c.dead g = none ∨ c.dead g = some (c.fillLine g))
    (hdead' : c'.dead g = some (c.fillLine g))
    (hother : forall k, k ≠ c.fillLine g ->
      c'.array.valid k = c.array.valid k ∧ c'.array.tag k = c.array.tag k ∧
        c'.array.dirty k = c.array.dirty k ∧
        forall w, w < g.lineWords -> c'.array.data (k, w) = c.array.data (k, w)) :
    c'.copies g
      = setAt (setAt (c.copies g) (.way (c.fillLine g)) none) .latch (c'.latchCopy g) := by
  rw [@copies_update g c c' (c.fillLine g)]
  · rw [hdead', LineArray.copyAt_dead]
  · intro k hk
    obtain ⟨hvalid, htag, hdirty, hdata⟩ := hother k hk
    rw [hdead']
    apply LineArray.copyAt_congr hvalid htag hdirty hdata
    constructor
    · intro heq
      exact absurd (Option.some.inj heq).symm hk
    · intro heq
      rcases hdead with hnone | hsome
      · rw [hnone] at heq
        cases heq
      · rw [hsome] at heq
        exact absurd (Option.some.inj heq).symm hk

theorem invNext_probe (h : c.Inv g mem upper) (hserved : c.Served g mem i)
    (hstate : c.state = .probeWait) (hflush : c.flushActive = false)
    (hreplaced : c.Replaced g) :
    InvNext g c mem upper i (c.step g i) := by
  have hack : i.probeAck = true := by
    rw [hserved.probed]
    unfold probeReq
    rw [hstate]
    rfl
  have harray : (c.common g i).array = c.array :=
    common_array (by simp [hstate]) (by simp [hstate])
  have hstep : c.step g i =
      { c.common g i with
        probeDirty := i.probeDirty
        probeData := i.probeData
        fillWord := 0
        wbReturnToFlush := false
        state := if c.array.dirty c.wbLine || i.probeDirty then .wb else .fill } := by
    rw [step_probe hstate]
    unfold probeStep
    rw [hack]
    rfl
  have hnone : c.dead g = none :=
    dead_none (by simp [hstate]) (not_latched_of_state (by simp [hstate]))
  have hlive : c.dead g ≠ some c.wbLine := by simp [hnone]
  have hout : c.copies g .latch = none :=
    latchCopy_none (not_latched_of_state (by simp [hstate]))
  have hway := copies_way hreplaced.valid hlive
  unfold InvNext
  rw [memNext_of_not_wb (by simp [hstate])]
  cases hdirty : i.probeDirty with
  | true =>
      -- the line of the first level is newer; it goes to the latch
      have hupper : c.upperNext g upper i
          = setAt upper (c.array.lineAddr g c.wbLine) (fun w => i.probeData w) := by
        unfold upperNext
        rw [if_neg (by simp [hstate]), if_pos ⟨hstate, hdirty⟩]
      rw [hdirty, Bool.or_true, if_pos rfl] at hstep
      rw [hupper, hstep]
      generalize hc : ({ c.common g i with
        probeDirty := true
        probeData := i.probeData
        fillWord := 0
        wbReturnToFlush := false
        state := .wb } : L2Cache) = c'
      have harray' : c'.array = c.array := by
        rw [← hc]
        exact harray
      have hlatch : c'.Latched := by
        rw [← hc]
        exact ⟨rfl, hflush, rfl⟩
      have hmiss : c'.miss = c.miss := by
        rw [← hc]
        rfl
      have hlatchCopy : c'.latchCopy g = some
          { addr := c.array.lineAddr g c.wbLine
            dirty := true
            data := fun w => i.probeData w } := by
        unfold latchCopy
        rw [if_pos hlatch, harray', ← hc]
        rfl
      have hdead' : c'.dead g = some (c.fillLine g) := by
        rw [dead_latched hlatch]
        unfold fillLine
        rw [hmiss]
      have hstore := h.coherent.store hway (fun w => i.probeData w)
      have hmove := hstore.move (setAt_self _ _ _)
        (show setAt (c.copies g) _ _ .latch = none by rw [setAt_of_ne (by simp)]; exact hout)
      exact
        { severalSets := h.severalSets
          wellFormed := by
            rw [harray']
            exact h.wellFormed
          coherent := by
            rw [copies_giveUp (Or.inl hnone) hdead', hlatchCopy, ← hreplaced.line]
            · rw [setAt_setAt] at hmove
              exact hmove
            · intro k _
              rw [harray']
              exact ⟨rfl, rfl, rfl, fun _ _ => rfl⟩
          phase := by
            apply Phase.evict
            exact
              { toReplaced := hreplaced.of_eq hmiss (by rw [harray']) (by rw [harray'])
                  (by rw [← hc]; rfl) (by rw [← hc]; rfl)
                state := hlatch.left
                noFlush := hlatch.right.left
                noReturn := by
                  rw [← hc]
                word := by
                  rw [← hc]
                  exact g.lineWords_pos
                dirty := by
                  rw [hlatch.right.right]
                  intro hfalse
                  cases hfalse
                written := by
                  intro w hw
                  rw [← hc] at hw
                  exact absurd hw (Nat.not_lt_zero w) }
          flushed := by
            intro hdone
            rw [← hc] at hdone
            cases hdone }
  | false =>
      have hupper : c.upperNext g upper i = upper := by
        unfold upperNext
        rw [if_neg (by simp [hstate]), if_neg]
        rintro ⟨_, htrue⟩
        rw [hdirty] at htrue
        cases htrue
      rw [hdirty, Bool.or_false] at hstep
      rw [hupper]
      cases hline : c.array.dirty c.wbLine with
      | true =>
          rw [hline, if_pos rfl] at hstep
          rw [hstep]
          have hlatch : ¬ L2Cache.Latched { c.common g i with
              probeDirty := false, probeData := i.probeData, fillWord := 0
              wbReturnToFlush := false, state := .wb } := by
            rintro ⟨_, _, hfalse⟩
            cases hfalse
          refine inv_of_same h rfl ?_ ?_ ?_ ?_
          · rw [hnone]
            exact dead_none (by simp) hlatch
          · rw [latchCopy_none hlatch]
            exact hout.symm
          · apply Phase.evict
            exact
              { toReplaced := hreplaced.of_eq rfl rfl rfl rfl rfl
                state := rfl
                noFlush := hflush
                noReturn := rfl
                word := g.lineWords_pos
                dirty := fun _ => hline
                written := fun w hw => absurd hw (Nat.not_lt_zero w) }
          · intro hdone
            cases hdone
      | false =>
          rw [hline, if_neg Bool.false_ne_true] at hstep
          rw [hstep]
          generalize hc : ({ c.common g i with
            probeDirty := false
            probeData := i.probeData
            fillWord := 0
            wbReturnToFlush := false
            state := .fill } : L2Cache) = c'
          have harray' : c'.array = c.array := by
            rw [← hc]
            exact harray
          have hmiss : c'.miss = c.miss := by
            rw [← hc]
            rfl
          have hstate' : c'.state = .fill := by rw [← hc]
          have hdead' : c'.dead g = some (c.fillLine g) := by
            rw [dead_fill hstate']
            unfold fillLine
            rw [hmiss]
          exact
            { severalSets := h.severalSets
              wellFormed := by
                rw [harray']
                exact h.wellFormed
              coherent := by
                rw [copies_giveUp (Or.inl hnone) hdead',
                  latchCopy_none (not_latched_of_state (by simp [hstate'])), setAt_latch_none]
                · rw [← hreplaced.line]
                  apply h.coherent.drop
                  intro d hd
                  rw [hway] at hd
                  cases hd
                  exact h.coherent.mem_of_clean hway hline
                · rw [setAt_of_ne (by simp)]
                  exact hout
                · intro k _
                  rw [harray']
                  exact ⟨rfl, rfl, rfl, fun _ _ => rfl⟩
              phase := by
                apply Phase.fill
                exact
                  { toMissing := hreplaced.toMissing.of_eq hmiss (by rw [harray'])
                      (by rw [harray'])
                    state := hstate'
                    noFlush := by
                      rw [← hc]
                      exact hflush
                    word := by
                      rw [← hc]
                      exact g.lineWords_pos
                    filled := by
                      intro w hw
                      rw [← hc] at hw
                      exact absurd hw (Nat.not_lt_zero w) }
              flushed := by
                intro hdone
                rw [← hc] at hdone
                cases hdone }

end L2Cache
end Cache
end RvCores
