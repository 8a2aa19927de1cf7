import RvCores.Cache.L2Step

/-!
# Line transfers of the second-level cache

Writebacks, fills and the flush, and the step of the whole cache.
-/

namespace RvCores
namespace Cache

open Isa Lib

namespace L2Cache

variable {g : Geometry} {c c' : L2Cache} {i : L2In} {mem upper : LineMem g}

theorem last_word (hword : c.fillWord < g.lineWords) (hlast : c.fillIsLastWord g = true)
    (w : Fin g.lineWords) :
    (w : Nat) < c.fillWord + 1 := by
  have heq := beq_iff_eq.mp hlast
  have hw := w.isLt
  omega

theorem next_word (hword : c.fillWord < g.lineWords) (hlast : c.fillIsLastWord g = false) :
    c.fillWord + 1 < g.lineWords := by
  have hne := beq_eq_false_iff_ne.mp hlast
  omega

/-!
# Eviction
-/

theorem Evict.addr (h : c.Evict g mem upper) :
    c.mAddr = g.lineBase (c.array.lineAddr g c.wbLine) + 4 * c.fillWord := by
  unfold mAddr
  rw [if_pos h.state, h.base']

theorem Evict.dead_cases (h : c.Evict g mem upper) :
    (c.Latched ∧ c.dead g = some (c.fillLine g)) ∨
      (¬ c.Latched ∧ c.probeDirty = false ∧ c.dead g = none) := by
  by_cases hlatch : c.Latched
  · exact Or.inl ⟨hlatch, dead_latched hlatch⟩
  · refine Or.inr ⟨hlatch, ?_, dead_none (by simp [h.state]) hlatch⟩
    cases hdirty : c.probeDirty with
    | false => rfl
    | true => exact absurd ⟨h.state, h.noFlush, hdirty⟩ hlatch

theorem latch_copy (hlatch : c.Latched) :
    c.copies g .latch = some
      { addr := c.array.lineAddr g c.wbLine
        dirty := true
        data := fun w => c.probeData w } := by
  show c.latchCopy g = _
  unfold latchCopy
  rw [if_pos hlatch]

/--
The word on the bus is the one that the memory above has.
-/
theorem Evict.data (h : c.Evict g mem upper) (hcoherent : Coherent (c.copies g) mem upper) :
    c.mDataO = upper (c.array.lineAddr g c.wbLine) ⟨c.fillWord, h.word⟩ := by
  unfold mDataO
  rw [if_pos h.state]
  rcases h.dead_cases with ⟨hlatch, _⟩ | ⟨_, hclean, hnone⟩
  · have hcurrent := hcoherent.current (latch_copy hlatch)
    rw [if_pos hlatch.right.right, ← hcurrent]
  · have hcurrent := way_current hcoherent h.valid (by simp [hnone])
    rw [hclean, if_neg Bool.false_ne_true, ← hcurrent]
    rfl

theorem Evict.held (h : c.Evict g mem upper) :
    exists s d, c.copies g s = some d ∧ d.addr = c.array.lineAddr g c.wbLine ∧
      d.dirty = true := by
  rcases h.dead_cases with ⟨hlatch, _⟩ | ⟨_, hclean, hnone⟩
  · exact ⟨_, _, latch_copy hlatch, rfl, rfl⟩
  · exact ⟨_, _, copies_way h.valid (by simp [hnone]), rfl, h.dirty hclean⟩

/--
Both places that hold the line may forget it once memory has it.
-/
theorem Evict.coherent_drop (h : c.Evict g mem upper) {mem' : LineMem g}
    (hcoherent : Coherent (c.copies g) mem' upper)
    (hwritten : mem' (c.array.lineAddr g c.wbLine) = upper (c.array.lineAddr g c.wbLine)) :
    Coherent (setAt (setAt (c.copies g) (.way (c.fillLine g)) none) .latch none) mem' upper := by
  have hway : Coherent (setAt (c.copies g) (.way (c.fillLine g)) none) mem' upper := by
    apply hcoherent.drop
    intro d hd
    obtain ⟨_, _, rfl⟩ := LineArray.copyAt_eq_some.mp hd
    rw [← h.line]
    exact hwritten
  apply hway.drop
  intro d hd
  rw [setAt_of_ne (by simp)] at hd
  have hcopy : c.latchCopy g = some d := hd
  unfold latchCopy at hcopy
  split at hcopy
  · cases hcopy
    exact hwritten
  · cases hcopy

theorem invNext_evict_same {w : Nat} (h : c.Inv g mem upper) (hevict : c.Evict g mem upper)
    (hcoherent : Coherent (c.copies g) (c.memNext g mem i) upper) (hw : w < g.lineWords)
    (hwritten : forall v : Fin g.lineWords, (v : Nat) < w ->
      c.memNext g mem i (c.array.lineAddr g c.wbLine) v
        = upper (c.array.lineAddr g c.wbLine) v) :
    InvNext g c mem upper i { c.common g i with fillWord := w } := by
  have hidle : c.state ≠ .idle := by simp [hevict.state]
  have harray : (c.common g i).array = c.array :=
    common_array hidle (by simp [hevict.state])
  unfold InvNext
  rw [upperNext_still hidle (by simp [hevict.state])]
  generalize hc : ({ c.common g i with fillWord := w } : L2Cache) = c'
  have harray' : c'.array = c.array := by
    rw [← hc]
    exact harray
  have hcopies : c'.copies g = c.copies g := by
    apply copies_congr
    · intro k
      rw [← hc]
      rfl
    · rw [← hc]
      rfl
  exact
    { severalSets := h.severalSets
      wellFormed := by
        rw [harray']
        exact h.wellFormed
      coherent := by
        rw [hcopies]
        exact hcoherent
      phase := by
        apply Phase.evict
        exact
          { toReplaced := hevict.toReplaced.of_eq (by rw [← hc]; rfl) (by rw [harray'])
              (by rw [harray']) (by rw [← hc]; rfl) (by rw [← hc]; rfl)
            state := by
              rw [← hc]
              exact hevict.state
            noFlush := by
              rw [← hc]
              exact hevict.noFlush
            noReturn := by
              rw [← hc]
              exact hevict.noReturn
            word := by
              rw [← hc]
              exact hw
            dirty := by
              rw [harray', ← hc]
              exact hevict.dirty
            written := by
              intro v hv
              rw [← hc] at hv
              rw [harray', show c'.wbLine = c.wbLine by rw [← hc]; rfl]
              exact hwritten v hv }
      flushed := by
        intro hdone
        rw [← hc] at hdone
        cases hdone }

theorem invNext_evict_last (h : c.Inv g mem upper) (hevict : c.Evict g mem upper)
    (hcoherent : Coherent (c.copies g) (c.memNext g mem i) upper)
    (hwritten : c.memNext g mem i (c.array.lineAddr g c.wbLine)
      = upper (c.array.lineAddr g c.wbLine)) :
    InvNext g c mem upper i
      { c.common g i with
        array := { (c.common g i).array with
          dirty := setAt (c.common g i).array.dirty c.wbLine false }
        fillWord := 0
        state := .fill } := by
  have hidle : c.state ≠ .idle := by simp [hevict.state]
  have harray : (c.common g i).array = c.array :=
    common_array hidle (by simp [hevict.state])
  unfold InvNext
  rw [upperNext_still hidle (by simp [hevict.state]), harray]
  generalize hc : ({ c.common g i with
    array := { c.array with dirty := setAt c.array.dirty c.wbLine false }
    fillWord := 0
    state := .fill } : L2Cache) = c'
  have harray' : c'.array = { c.array with dirty := setAt c.array.dirty c.wbLine false } := by
    rw [← hc]
  have hmiss : c'.miss = c.miss := by
    rw [← hc]
    rfl
  have hstate' : c'.state = .fill := by rw [← hc]
  have hdead' : c'.dead g = some (c.fillLine g) := by
    rw [dead_fill hstate']
    unfold fillLine
    rw [hmiss]
  have hdead : c.dead g = none ∨ c.dead g = some (c.fillLine g) := by
    rcases hevict.dead_cases with ⟨_, hsome⟩ | ⟨_, _, hnone⟩
    · exact Or.inr hsome
    · exact Or.inl hnone
  exact
    { severalSets := h.severalSets
      wellFormed := by
        rw [harray']
        exact h.wellFormed.of_eq rfl rfl rfl
      coherent := by
        rw [copies_giveUp hdead hdead',
          latchCopy_none (not_latched_of_state (by simp [hstate']))]
        · exact hevict.coherent_drop hcoherent hwritten
        · intro k hk
          rw [harray']
          exact ⟨rfl, rfl, setAt_of_ne (hevict.line ▸ hk), fun _ _ => rfl⟩
      phase := by
        apply Phase.fill
        exact
          { toMissing := hevict.toMissing.of_eq hmiss (by rw [harray']) (by rw [harray'])
            state := hstate'
            noFlush := by
              rw [← hc]
              exact hevict.noFlush
            word := by
              rw [← hc]
              exact g.lineWords_pos
            filled := by
              intro w hw
              rw [← hc] at hw
              exact absurd hw (Nat.not_lt_zero w) }
      flushed := by
        intro hdone
        rw [← hc] at hdone
        cases hdone }

theorem invNext_evict (h : c.Inv g mem upper) (hevict : c.Evict g mem upper) :
    InvNext g c mem upper i (c.step g i) := by
  rw [step_wb hevict.state]
  unfold wbStep
  cases hack : i.mAck with
  | false =>
      have hmem := @memNext_no_ack g c mem i hack
      rw [if_neg Bool.false_ne_true]
      apply @invNext_evict_same g c i mem upper c.fillWord h hevict _ hevict.word
      · rw [hmem]
        exact hevict.written
      · rw [hmem]
        exact h.coherent
  | true =>
      have hmem := @memNext_ack g c mem i hevict.state hack
      have hdata := hevict.data h.coherent
      have hcoherent : Coherent (c.copies g) (c.memNext g mem i) upper := by
        rw [hmem]
        exact LineMem.coherent_write _ h.coherent hevict.word hevict.addr hevict.held
      have hwritten := LineMem.written_succ mem hevict.word hevict.written hevict.addr hdata
      rw [← hmem] at hwritten
      rw [if_pos rfl]
      cases hlast : c.fillIsLastWord g with
      | false =>
          rw [if_neg Bool.false_ne_true]
          exact invNext_evict_same h hevict hcoherent (next_word hevict.word hlast) hwritten
      | true =>
          rw [if_pos rfl, hevict.noReturn]
          apply invNext_evict_last h hevict hcoherent
          funext w
          exact hwritten w (last_word hevict.word hlast w)

/-!
# Fill
-/

theorem Missing.fillLine_lt (h : c.Missing g) :
    c.fillLine g < g.numLines ∧ g.setOf (c.fillLine g) = c.miss.set := by
  have hset : c.miss.set < g.sets := by
    rw [h.set]
    exact g.setIdx_lt _
  exact ⟨g.lineIdx_lt hset h.way, g.setOf_lineIdx h.way⟩

theorem Fill.unheld_copies (h : c.Fill g upper) {s : L2Slot} {d : LineCopy g}
    (hs : c.copies g s = some d) : d.addr ≠ g.lineAddr c.miss.origAddr := by
  cases s with
  | way line =>
      obtain ⟨hvalid, _, rfl⟩ := LineArray.copyAt_eq_some.mp hs
      exact h.unheld line hvalid
  | latch =>
      have hnone : c.latchCopy g = some d := hs
      rw [latchCopy_none (not_latched_of_state (by simp [h.state]))] at hnone
      cases hnone

theorem Fill.value (h : c.Inv g mem upper) (hserved : c.Served g mem i)
    (hfill : c.Fill g upper) (hack : i.mAck = true) :
    c.fillValue i = upper (g.lineAddr c.miss.origAddr) ⟨c.fillWord, hfill.word⟩ := by
  have haddr : c.mAddr = g.lineBase (g.lineAddr c.miss.origAddr) + 4 * c.fillWord := by
    unfold mAddr
    rw [if_neg (by simp [hfill.state]), hfill.base]
  have hmem := h.coherent.mem_of_unheld (fun _ _ => hfill.unheld_copies)
  unfold fillValue fillDoMerge
  rw [hfill.load, Bool.false_and, if_neg Bool.false_ne_true,
    hserved.reads hfill.state hack, haddr, mem.read_base _ hfill.word, hmem]

theorem invNext_fill_hold (h : c.Inv g mem upper) (hfill : c.Fill g upper) :
    InvNext g c mem upper i (c.common g i) := by
  have hidle : c.state ≠ .idle := by simp [hfill.state]
  unfold InvNext
  rw [memNext_of_not_wb (by simp [hfill.state]), upperNext_still hidle (by simp [hfill.state])]
  refine inv_of_same h rfl rfl rfl ?_ ?_
  · apply Phase.fill
    exact
      { toMissing := hfill.toMissing.of_eq rfl rfl rfl
        state := hfill.state
        noFlush := hfill.noFlush
        word := hfill.word
        filled := hfill.filled }
  · intro hdone
    cases hdone

theorem invNext_fill_word (h : c.Inv g mem upper) (hserved : c.Served g mem i)
    (hfill : c.Fill g upper) (hack : i.mAck = true) (hlast : c.fillIsLastWord g = false) :
    InvNext g c mem upper i
      { c.common g i with
        array := { (c.common g i).array with
          data := setAt (c.common g i).array.data (c.fillLine g, c.fillWord) (c.fillValue i) }
        fillWord := c.fillWord + 1 } := by
  have hidle : c.state ≠ .idle := by simp [hfill.state]
  have harray : (c.common g i).array = c.array :=
    common_array hidle (by simp [hfill.state])
  unfold InvNext
  rw [memNext_of_not_wb (by simp [hfill.state]), upperNext_still hidle (by simp [hfill.state]),
    harray]
  generalize hc : ({ c.common g i with
    array := { c.array with
      data := setAt c.array.data (c.fillLine g, c.fillWord) (c.fillValue i) }
    fillWord := c.fillWord + 1 } : L2Cache) = c'
  have harray' : c'.array = { c.array with
      data := setAt c.array.data (c.fillLine g, c.fillWord) (c.fillValue i) } := by rw [← hc]
  have hmiss : c'.miss = c.miss := by
    rw [← hc]
    rfl
  have hstate' : c'.state = .fill := by
    rw [← hc]
    exact hfill.state
  have hline : c'.fillLine g = c.fillLine g := by
    unfold fillLine
    rw [hmiss]
  have hdead' : c'.dead g = some (c.fillLine g) := by rw [dead_fill hstate', hline]
  have hcopies : c'.copies g = c.copies g := by
    apply copies_congr
    · intro k
      rw [hdead', dead_fill hfill.state]
      by_cases hk : k = c.fillLine g
      · rw [hk, LineArray.copyAt_dead, LineArray.copyAt_dead]
      · rw [harray']
        refine LineArray.copyAt_congr rfl rfl rfl ?_ Iff.rfl
        intro w _
        apply setAt_of_ne
        intro heq
        exact hk (congrArg Prod.fst heq)
    · rw [latchCopy_none (not_latched_of_state (by simp [hstate'])),
        latchCopy_none (not_latched_of_state (by simp [hfill.state]))]
  exact
    { severalSets := h.severalSets
      wellFormed := by
        rw [harray']
        exact h.wellFormed.of_eq rfl rfl rfl
      coherent := by
        rw [hcopies]
        exact h.coherent
      phase := by
        apply Phase.fill
        exact
          { toMissing := hfill.toMissing.of_eq hmiss (by rw [harray']) (by rw [harray'])
            state := hstate'
            noFlush := by
              rw [← hc]
              exact hfill.noFlush
            word := by
              rw [← hc]
              exact next_word hfill.word hlast
            filled := by
              intro w hw
              rw [← hc] at hw
              rw [hline, hmiss, harray']
              show setAt c.array.data (c.fillLine g, c.fillWord) (c.fillValue i)
                (c.fillLine g, w) = _
              rw [setAt_apply]
              split
              · next heq =>
                  have hval : (w : Nat) = c.fillWord := congrArg Prod.snd heq
                  rw [hfill.value h hserved hack]
                  congr 1
                  exact Fin.ext hval.symm
              · next hne =>
                  apply hfill.filled
                  have hval : (w : Nat) ≠ c.fillWord := by
                    intro heq
                    exact hne (by rw [heq])
                  have hlt : (w : Nat) < c.fillWord + 1 := hw
                  omega }
      flushed := by
        intro hdone
        rw [← hc] at hdone
        cases hdone }

/--
The array once the line is complete.
-/
def filledArray (g : Geometry) (c : L2Cache) (i : L2In) : LineArray :=
  { valid := setAt c.array.valid (c.fillLine g) true
    tag := setAt c.array.tag (c.fillLine g) c.miss.tag
    dirty := setAt c.array.dirty (c.fillLine g) c.miss.isWrite
    data := setAt c.array.data (c.fillLine g, c.fillWord) (c.fillValue i)
    victim := setAt c.array.victim c.miss.set (LineArray.nextVictim g c.miss.way)
    age :=
      if g.policy = .lru then c.array.lruTouch g c.miss.set c.miss.way else c.array.age }

theorem filledArray_addr (h : c.Missing g) :
    (filledArray g c i).lineAddr g (c.fillLine g) = g.lineAddr c.miss.origAddr := by
  unfold LineArray.lineAddr
  rw [h.fillLine_lt.right]
  show g.joinTag (setAt c.array.tag (c.fillLine g) c.miss.tag (c.fillLine g)) _ = _
  rw [setAt_self, h.tag, h.set]
  exact g.joinTag_tag_setIdx _

theorem filledArray_addr_of_ne {line : Nat} (hne : line ≠ c.fillLine g) :
    (filledArray g c i).lineAddr g line = c.array.lineAddr g line := by
  unfold LineArray.lineAddr
  show g.joinTag (setAt c.array.tag (c.fillLine g) c.miss.tag line) _ = _
  rw [setAt_of_ne hne]

theorem filledArray_wellFormed (h : c.array.WellFormed g) (hmissing : c.Missing g) :
    (filledArray g c i).WellFormed g := by
  apply h.install hmissing.fillLine_lt.left
  · intro k hne
    exact ⟨setAt_of_ne hne, filledArray_addr_of_ne hne⟩
  · intro k _ hvalid
    rw [filledArray_addr hmissing]
    exact hmissing.unheld k hvalid
  · intro set
    show setAt c.array.victim c.miss.set _ set < _
    rw [setAt_apply]
    split
    · exact LineArray.nextVictim_lt hmissing.way
    · exact h.pointer set

theorem filledArray_data (h : c.Inv g mem upper) (hserved : c.Served g mem i)
    (hfill : c.Fill g upper) (hack : i.mAck = true) (hlast : c.fillIsLastWord g = true) :
    (filledArray g c i).lineData g (c.fillLine g)
      = upper (g.lineAddr c.miss.origAddr) := by
  funext w
  show setAt c.array.data (c.fillLine g, c.fillWord) (c.fillValue i) (c.fillLine g, w) = _
  rw [setAt_apply]
  split
  · next heq =>
      have hval : (w : Nat) = c.fillWord := congrArg Prod.snd heq
      rw [hfill.value h hserved hack]
      congr 1
      exact Fin.ext hval.symm
  · next hne =>
      apply hfill.filled
      have hval : (w : Nat) ≠ c.fillWord := by
        intro heq
        exact hne (by rw [heq])
      have hlt := last_word hfill.word hlast w
      omega

theorem invNext_fill_last (h : c.Inv g mem upper) (hserved : c.Served g mem i)
    (hfill : c.Fill g upper) (hack : i.mAck = true) (hlast : c.fillIsLastWord g = true) :
    InvNext g c mem upper i
      { c.common g i with array := filledArray g c i, state := .idle } := by
  have hidle : c.state ≠ .idle := by simp [hfill.state]
  unfold InvNext
  rw [memNext_of_not_wb (by simp [hfill.state]), upperNext_still hidle (by simp [hfill.state])]
  generalize hc : ({ c.common g i with array := filledArray g c i, state := .idle } : L2Cache)
    = c'
  have harray' : c'.array = filledArray g c i := by rw [← hc]
  have hstate' : c'.state = .idle := by rw [← hc]
  have hdead' : c'.dead g = none :=
    dead_none (by simp [hstate']) (not_latched_of_state (by simp [hstate']))
  have hempty : c.copies g (.way (c.fillLine g)) = none := by
    show c.array.copyAt g (c.dead g) _ = none
    rw [dead_fill hfill.state, LineArray.copyAt_dead]
  have hnew : c'.array.copyAt g (c'.dead g) (c.fillLine g) = some
      { addr := g.lineAddr c.miss.origAddr
        dirty := false
        data := upper (g.lineAddr c.miss.origAddr) } := by
    rw [hdead', harray']
    refine LineArray.copyAt_eq_some.mpr ⟨setAt_self _ _ _, by simp, ?_⟩
    ext1
    · exact (filledArray_addr hfill.toMissing).symm
    · show false = setAt c.array.dirty _ c.miss.isWrite _
      rw [setAt_self, hfill.load]
    · exact (filledArray_data h hserved hfill hack hlast).symm
  exact
    { severalSets := h.severalSets
      wellFormed := by
        rw [harray']
        exact filledArray_wellFormed h.wellFormed hfill.toMissing
      coherent := by
        rw [@copies_update g c c' (c.fillLine g), hnew,
          latchCopy_none (not_latched_of_state (by simp [hstate'])), setAt_latch_none]
        · exact h.coherent.fetch hempty (fun _ _ => hfill.unheld_copies) rfl
        · rw [setAt_of_ne (by simp)]
          exact latchCopy_none (not_latched_of_state (by simp [hfill.state]))
        · intro k hk
          rw [hdead', dead_fill hfill.state, harray']
          apply LineArray.copyAt_congr
          · exact setAt_of_ne hk
          · exact setAt_of_ne hk
          · exact setAt_of_ne hk
          · intro w _
            apply setAt_of_ne
            intro heq
            exact hk (congrArg Prod.fst heq)
          · constructor
            · intro heq
              cases heq
            · intro heq
              exact absurd (Option.some.inj heq).symm hk
      phase := Phase.idle hstate' (by rw [← hc]; exact hfill.noFlush)
      flushed := by
        intro hdone
        rw [← hc] at hdone
        cases hdone }

theorem invNext_fill (h : c.Inv g mem upper) (hserved : c.Served g mem i)
    (hfill : c.Fill g upper) :
    InvNext g c mem upper i (c.step g i) := by
  have harray : (c.common g i).array = c.array :=
    common_array (by simp [hfill.state]) (by simp [hfill.state])
  rw [step_fill hfill.state]
  unfold fillStep
  cases hack : i.mAck with
  | false =>
      rw [if_neg Bool.false_ne_true]
      exact invNext_fill_hold h hfill
  | true =>
      rw [if_pos rfl]
      cases hlast : c.fillIsLastWord g with
      | false =>
          rw [if_neg Bool.false_ne_true]
          exact invNext_fill_word h hserved hfill hack hlast
      | true =>
          rw [if_pos rfl, harray]
          exact invNext_fill_last h hserved hfill hack hlast

/-!
# Flush
-/

theorem flushAdvance_cases {next : L2Cache} (hrange : c.flushScan < g.numLines) :
    (c.flushScan + 1 = g.numLines ∧ c.flushAdvance g next =
      { next with flushActive := false, flushDone := true, state := .idle }) ∨
    (c.flushScan + 1 < g.numLines ∧ c.flushAdvance g next =
      { next with flushScan := c.flushScan + 1, state := .flushScan }) := by
  unfold flushAdvance
  by_cases hlast : c.flushScan = g.numLines - 1
  · rw [if_pos hlast]
    exact Or.inl ⟨by omega, rfl⟩
  · rw [if_neg hlast]
    exact Or.inr ⟨by omega, rfl⟩

/--
With no line on its way out every valid line is a copy.
-/
def liveCopies (g : Geometry) (arr : LineArray) : L2Slot -> Option (LineCopy g)
  | .way line => arr.copyAt g none line
  | .latch => none

theorem copies_eq_of_live (hfill : c.state ≠ .fill) (hlatch : ¬ c.Latched) :
    c.copies g = liveCopies g c.array := by
  funext s
  cases s with
  | way line =>
      show c.array.copyAt g (c.dead g) line = _
      rw [dead_none hfill hlatch]
      rfl
  | latch => exact latchCopy_none hlatch

/--
The scan moves on over lines that are clean up to the one it was at.
-/
theorem inv_flushAdvance {next : L2Cache} (hsets : 1 <= g.setBits)
    (hrange : c.flushScan < g.numLines)
    (hwf : next.array.WellFormed g)
    (hcoherent : Coherent (liveCopies g next.array) mem upper)
    (hflush : next.flushActive = true) (hdone : next.flushDone = false)
    (hclean : forall line, line < c.flushScan + 1 -> next.array.valid line = true ->
      next.array.dirty line = false) :
    (c.flushAdvance g next).Inv g mem upper := by
  rcases @flushAdvance_cases g c next hrange with ⟨hlast, hstep⟩ | ⟨hmore, hstep⟩
  · rw [hstep]
    refine ⟨hsets, hwf, ?_, Phase.idle rfl rfl, ?_⟩
    · rw [copies_eq_of_live (by simp) (not_latched_of_state (by simp))]
      exact hcoherent
    · intro _
      refine ⟨rfl, ?_⟩
      intro line hvalid
      have hlt := hwf.inRange hvalid
      exact hclean line (by omega) hvalid
  · rw [hstep]
    refine ⟨hsets, hwf, ?_, Phase.scan rfl hflush hmore hclean, ?_⟩
    · rw [copies_eq_of_live (by simp) (not_latched_of_state (by simp))]
      exact hcoherent
    · intro htrue
      rw [show L2Cache.flushDone _ = next.flushDone from rfl, hdone] at htrue
      cases htrue

theorem invNext_scan (h : c.Inv g mem upper) (hstate : c.state = .flushScan)
    (hflush : c.flushActive = true) (hrange : c.flushScan < g.numLines)
    (hscanned : c.Scanned) :
    InvNext g c mem upper i (c.step g i) := by
  have harray : (c.common g i).array = c.array :=
    common_array (by simp [hstate]) (by simp [hstate])
  have hlatch : ¬ c.Latched := not_latched_of_flush hflush
  unfold InvNext
  rw [memNext_of_not_wb (by simp [hstate]),
    upperNext_still (by simp [hstate]) (by simp [hstate]), step_scan hstate]
  unfold flushScanStep
  split
  · next hdirty =>
      obtain ⟨hvalid, hline⟩ := Bool.and_eq_true_iff.mp hdirty
      refine inv_of_same h rfl ?_ ?_ ?_ ?_
      · rw [dead_none (c := c) (by simp [hstate]) hlatch]
        exact dead_none (by simp) (not_latched_of_flush hflush)
      · rw [latchCopy_none hlatch]
        exact latchCopy_none (not_latched_of_flush hflush)
      · apply Phase.flushWb
        exact
          { state := rfl
            flush := hflush
            returns := rfl
            inRange := hrange
            scanned := hscanned
            line := rfl
            valid := hvalid
            dirty := hline
            noProbe := rfl
            base := congrArg g.lineBase (LineArray.concatTag_setOf h.severalSets _)
            word := g.lineWords_pos
            written := fun w hw => absurd hw (Nat.not_lt_zero w) }
      · intro hdone
        cases hdone
  · next hclean =>
      refine inv_flushAdvance h.severalSets hrange ?_ ?_ hflush rfl ?_
      · rw [harray]
        exact h.wellFormed
      · have hcoherent := h.coherent
        rw [copies_eq_of_live (by simp [hstate]) hlatch] at hcoherent
        rw [harray]
        exact hcoherent
      · rw [harray]
        intro line hlt hvalid
        rcases Nat.lt_succ_iff_lt_or_eq.mp hlt with hbelow | heq
        · exact hscanned line hbelow hvalid
        · cases hline : c.array.dirty line with
          | false => rfl
          | true =>
              rw [← heq, hvalid, hline] at hclean
              exact absurd rfl hclean

theorem FlushWb.addr (h : c.FlushWb g mem upper) :
    c.mAddr = g.lineBase (c.array.lineAddr g c.wbLine) + 4 * c.fillWord := by
  unfold mAddr
  rw [if_pos h.state, h.base]

theorem FlushWb.dead (h : c.FlushWb g mem upper) : c.dead g = none :=
  dead_none (by simp [h.state]) (not_latched_of_flush h.flush)

theorem FlushWb.data (h : c.FlushWb g mem upper)
    (hcoherent : Coherent (c.copies g) mem upper) :
    c.mDataO = upper (c.array.lineAddr g c.wbLine) ⟨c.fillWord, h.word⟩ := by
  have hcurrent := way_current hcoherent h.valid (by simp [h.dead])
  unfold mDataO
  rw [if_pos h.state, h.noProbe, if_neg Bool.false_ne_true, ← hcurrent]
  rfl

theorem invNext_flushWb_same {w : Nat} (h : c.Inv g mem upper) (hwb : c.FlushWb g mem upper)
    (hcoherent : Coherent (c.copies g) (c.memNext g mem i) upper) (hw : w < g.lineWords)
    (hwritten : forall v : Fin g.lineWords, (v : Nat) < w ->
      c.memNext g mem i (c.array.lineAddr g c.wbLine) v
        = upper (c.array.lineAddr g c.wbLine) v) :
    InvNext g c mem upper i { c.common g i with fillWord := w } := by
  have hidle : c.state ≠ .idle := by simp [hwb.state]
  unfold InvNext
  rw [upperNext_still hidle (by simp [hwb.state])]
  have hcopies : L2Cache.copies g { c.common g i with fillWord := w } = c.copies g := by
    apply copies_congr
    · intro k
      rfl
    · rfl
  exact
    { severalSets := h.severalSets
      wellFormed := h.wellFormed.of_eq rfl rfl rfl
      coherent := by
        rw [hcopies]
        exact hcoherent
      phase := by
        apply Phase.flushWb
        exact
          { state := hwb.state
            flush := hwb.flush
            returns := hwb.returns
            inRange := hwb.inRange
            scanned := hwb.scanned
            line := hwb.line
            valid := hwb.valid
            dirty := hwb.dirty
            noProbe := hwb.noProbe
            base := hwb.base
            word := hw
            written := hwritten }
      flushed := by
        intro hdone
        cases hdone }

theorem invNext_flushWb_last (h : c.Inv g mem upper) (hwb : c.FlushWb g mem upper)
    (hcoherent : Coherent (c.copies g) (c.memNext g mem i) upper)
    (hwritten : c.memNext g mem i (c.array.lineAddr g c.wbLine)
      = upper (c.array.lineAddr g c.wbLine)) :
    InvNext g c mem upper i
      (c.flushAdvance g
        { c.common g i with
          array := { (c.common g i).array with
            dirty := setAt (c.common g i).array.dirty c.wbLine false } }) := by
  have hidle : c.state ≠ .idle := by simp [hwb.state]
  have harray : (c.common g i).array = c.array :=
    common_array hidle (by simp [hwb.state])
  have hlatch : ¬ c.Latched := not_latched_of_flush hwb.flush
  have hway := @copies_way g c c.wbLine hwb.valid (by simp [hwb.dead])
  unfold InvNext
  rw [upperNext_still hidle (by simp [hwb.state]), harray]
  refine inv_flushAdvance h.severalSets hwb.inRange ?_ ?_ hwb.flush rfl ?_
  · exact h.wellFormed.of_eq rfl rfl rfl
  · have hclean := hcoherent.clean hway (hwritten.trans (h.coherent.current hway).symm)
    refine Eq.mp ?_ hclean
    congr 1
    funext s
    cases s with
    | way k =>
        show setAt (c.copies g) _ _ _ = LineArray.copyAt g _ none k
        rw [setAt_apply]
        by_cases hk : k = c.wbLine
        · rw [if_pos (by rw [hk]), hk]
          symm
          refine LineArray.copyAt_eq_some.mpr ⟨hwb.valid, by simp, ?_⟩
          ext1
          · rfl
          · exact (setAt_self _ _ _).symm
          · rfl
        · rw [if_neg (by simp [hk])]
          show c.array.copyAt g (c.dead g) k = _
          rw [hwb.dead]
          symm
          exact LineArray.copyAt_congr rfl rfl (setAt_of_ne hk) (fun _ _ => rfl) Iff.rfl
    | latch =>
        show setAt (c.copies g) _ _ _ = none
        rw [setAt_of_ne (by simp)]
        exact latchCopy_none hlatch
  · intro line hlt hvalid
    show setAt c.array.dirty c.wbLine false line = false
    rw [setAt_apply]
    split
    · rfl
    · next hne =>
        apply hwb.scanned line _ hvalid
        rw [hwb.line] at hne
        omega

theorem invNext_flushWb (h : c.Inv g mem upper) (hwb : c.FlushWb g mem upper) :
    InvNext g c mem upper i (c.step g i) := by
  rw [step_wb hwb.state]
  unfold wbStep
  cases hack : i.mAck with
  | false =>
      have hmem := @memNext_no_ack g c mem i hack
      rw [if_neg Bool.false_ne_true]
      apply @invNext_flushWb_same g c i mem upper c.fillWord h hwb _ hwb.word
      · rw [hmem]
        exact hwb.written
      · rw [hmem]
        exact h.coherent
  | true =>
      have hmem := @memNext_ack g c mem i hwb.state hack
      have hdata := hwb.data h.coherent
      have hcoherent : Coherent (c.copies g) (c.memNext g mem i) upper := by
        rw [hmem]
        exact LineMem.coherent_write _ h.coherent hwb.word hwb.addr
          ⟨_, _, copies_way hwb.valid (by simp [hwb.dead]), rfl, hwb.dirty⟩
      have hwritten := LineMem.written_succ mem hwb.word hwb.written hwb.addr hdata
      rw [← hmem] at hwritten
      rw [if_pos rfl]
      cases hlast : c.fillIsLastWord g with
      | false =>
          rw [if_neg Bool.false_ne_true]
          exact invNext_flushWb_same h hwb hcoherent (next_word hwb.word hlast) hwritten
      | true =>
          rw [if_pos rfl, hwb.returns]
          apply invNext_flushWb_last h hwb hcoherent
          funext w
          exact hwritten w (last_word hwb.word hlast w)

/-!
# The step
-/

theorem Inv.step (h : c.Inv g mem upper) (hserved : c.Served g mem i) :
    InvNext g c mem upper i (c.step g i) := by
  cases h.phase with
  | idle hstate hflush =>
      cases hcyc : i.uCyc with
      | false => exact invNext_quiet h hstate hflush hcyc
      | true =>
          cases hhit : c.hit g i with
          | false => exact invNext_miss h hserved hstate hflush hcyc hhit
          | true =>
              cases hwe : i.uWe with
              | true => exact invNext_writeHit h hserved hstate hflush hcyc hwe
              | false => exact invNext_readHit h hserved hstate hflush hcyc hwe hhit
  | hitRd hrd => exact invNext_hitRd h hrd
  | probe hstate hflush hreplaced => exact invNext_probe h hserved hstate hflush hreplaced
  | evict hevict => exact invNext_evict h hevict
  | fill hfill => exact invNext_fill h hserved hfill
  | scan hstate hflush hrange hscanned => exact invNext_scan h hstate hflush hrange hscanned
  | flushWb hwb => exact invNext_flushWb h hwb

/--
A read that is acknowledged delivers the word of the memory above.
-/
theorem read_value (h : c.Inv g mem upper) (hserved : c.Served g mem i)
    (hwe : i.uWe = false) (hack : c.uAck g i = true) :
    c.uDataI g i = upper.read i.uAddr := by
  have hanswers : c.hitAnswers i = true ∨ c.fillAnswers g i = true := by
    unfold uAck at hack
    rw [hwe, Bool.and_false, Bool.false_and, Bool.false_or] at hack
    exact Bool.or_eq_true_iff.mp hack
  cases hhit : c.hitAnswers i with
  | true =>
      have hfacts := hhit
      unfold hitAnswers at hfacts
      simp only [Bool.and_eq_true, beq_iff_eq] at hfacts
      obtain ⟨hstate, haddr⟩ := hfacts
      cases h.phase with
      | hitRd hrd =>
          have hcurrent := @way_current g c mem upper h.coherent c.hitLine hrd.valid
            (by simp [dead_none (c := c) (g := g) (by simp [hstate])
              (not_latched_of_state (by simp [hstate]))])
          have hword := congrFun hcurrent (LineMem.offset g c.servedAddr)
          rw [hrd.addr] at hword
          unfold uDataI LineMem.read
          rw [hhit, if_pos rfl, hrd.funct3, extendRead_word, hrd.word, haddr, ← hword]
          rfl
      | idle hother _ => exact absurd (hstate.symm.trans hother) L2State.noConfusion
      | probe hother _ _ => exact absurd (hstate.symm.trans hother) L2State.noConfusion
      | evict hevict => exact absurd (hstate.symm.trans hevict.state) L2State.noConfusion
      | fill hfill => exact absurd (hstate.symm.trans hfill.state) L2State.noConfusion
      | scan hother _ _ _ => exact absurd (hstate.symm.trans hother) L2State.noConfusion
      | flushWb hwb => exact absurd (hstate.symm.trans hwb.state) L2State.noConfusion
  | false =>
      have hfillAns : c.fillAnswers g i = true := by
        rcases hanswers with htrue | hfill
        · rw [hhit] at htrue
          cases htrue
        · exact hfill
      have hfacts := hfillAns
      unfold fillAnswers at hfacts
      simp only [Bool.and_eq_true, beq_iff_eq] at hfacts
      obtain ⟨⟨⟨hstate, hmAck⟩, hlast⟩, haddr⟩ := hfacts
      cases h.phase with
      | fill hfill =>
          have hline := filledArray_data h hserved hfill hmAck hlast
          have hword := congrFun hline (LineMem.offset g c.miss.origAddr)
          have hresp : c.respFillWord g i
              = (filledArray g c i).data (c.fillLine g, c.miss.wordOff) := by
            show _ = setAt c.array.data (c.fillLine g, c.fillWord) (c.fillValue i) _
            unfold respFillWord
            rw [setAt_apply]
            simp only [Prod.mk.injEq, true_and]
          unfold uDataI LineMem.read
          rw [hhit, if_neg Bool.false_ne_true, hfillAns, if_pos rfl, hfill.funct3,
            extendRead_word, hresp, hfill.wordOff, haddr]
          exact hword
      | idle hother _ => exact absurd (hstate.symm.trans hother) L2State.noConfusion
      | hitRd hrd => exact absurd (hstate.symm.trans hrd.state) L2State.noConfusion
      | probe hother _ _ => exact absurd (hstate.symm.trans hother) L2State.noConfusion
      | evict hevict => exact absurd (hstate.symm.trans hevict.state) L2State.noConfusion
      | scan hother _ _ _ => exact absurd (hstate.symm.trans hother) L2State.noConfusion
      | flushWb hwb => exact absurd (hstate.symm.trans hwb.state) L2State.noConfusion

/--
The bus below addresses words of lines, and a word written is the upper memory's.
-/
theorem bus_addr (h : c.Inv g mem upper) (hcyc : c.mCyc = true) :
    exists a, exists w : Fin g.lineWords, c.mAddr = g.lineBase a + 4 * w ∧
      (c.mWe = true -> c.mDataO = upper a w) := by
  cases h.phase with
  | evict hevict =>
      exact ⟨_, ⟨_, hevict.word⟩, hevict.addr, fun _ => hevict.data h.coherent⟩
  | flushWb hwb => exact ⟨_, ⟨_, hwb.word⟩, hwb.addr, fun _ => hwb.data h.coherent⟩
  | fill hfill =>
      refine ⟨g.lineAddr c.miss.origAddr, ⟨_, hfill.word⟩, ?_, ?_⟩
      · unfold mAddr
        rw [if_neg (by simp [hfill.state]), hfill.base]
      · intro hwe
        unfold mWe at hwe
        rw [hfill.state] at hwe
        cases hwe
  | idle hother _ => simp [mCyc, hother] at hcyc
  | hitRd hrd => simp [mCyc, hrd.state] at hcyc
  | probe hother _ _ => simp [mCyc, hother] at hcyc
  | scan hother _ _ _ => simp [mCyc, hother] at hcyc

end L2Cache
end Cache
end RvCores
