import RvCores.Soc.Sequential

/-!
# Control registers without time

The counters run in every cycle; everything else in the control registers changes only
when an instruction or a trap asks for it.  Without the counters, an update of the core
is the update that the instruction makes in the sequential machine.
-/

namespace RvCores
namespace Block
namespace Csr

variable {w : Nat} {vlen : Nat} {csr : Csr w} {i : CsrIn w}

/--
A cycle that asks for nothing only lets the counters run.
-/
theorem timeless_step_quiet (hwrite : i.writeEn = false) (htrap : i.trapTaken = false)
    (hmret : i.mretTaken = false) (hsret : i.sretTaken = false)
    (hflags : i.fpFlagsWe = true -> i.fpFlagsIn &&& ~~~csr.fflags = 0)
    (hvec : i.vecCfgWriteEn = false) :
    (csr.step vlen i).timeless = csr.timeless := by
  have hsticky : (if i.fpFlagsWe then csr.fflags ||| i.fpFlagsIn else csr.fflags) =
      csr.fflags := by
    cases hwe : i.fpFlagsWe with
    | false => rfl
    | true =>
        have hnew := hflags hwe
        apply BitVec.eq_of_getLsbD_eq
        intro k hk
        have hbit := congrArg (fun b : BitVec 5 => b.getLsbD k) hnew
        simp only [BitVec.getLsbD_and, BitVec.getLsbD_not, hk, decide_true, Bool.true_and] at hbit
        rw [if_pos rfl, BitVec.getLsbD_or]
        cases hold : csr.fflags.getLsbD k with
        | true => rfl
        | false => simpa [hold] using hbit
  simp [step, timeless, withCounters, Counters.zero, writes, nextMstatus, nextPrivMode,
    nextMie, hwrite, htrap, hmret, hsret, hvec, hsticky]

/--
What is written where nothing is, and what counts, does not matter.
-/
theorem timeless_step_congr (d : BitVec w) (f : BitVec 5) (retired : Bool)
    (events : Nat -> Bool) (hd : i.writeEn = true -> d = i.wdata)
    (hf : i.fpFlagsWe = true -> f = i.fpFlagsIn) :
    (csr.step vlen { i with
        wdata := d, fpFlagsIn := f, instretPulse := retired,
        hpmEventPulse := events }).timeless =
      (csr.step vlen i).timeless := by
  have hflags : (if i.fpFlagsWe then csr.fflags ||| f
      else if writes i CsrAddr.fflags || writes i CsrAddr.fcsr then
        (csr.newVal vlen i).setWidth 5
      else csr.fflags) =
      (if i.fpFlagsWe then csr.fflags ||| i.fpFlagsIn
      else if writes i CsrAddr.fflags || writes i CsrAddr.fcsr then
        (csr.newVal vlen i).setWidth 5
      else csr.fflags) := by
    cases hwe : i.fpFlagsWe with
    | false => rfl
    | true => rw [hf hwe]
  by_cases hen : i.writeEn = true
  · rw [hd hen]
    have hsame : (csr.step vlen i).timeless = { (csr.step vlen i).timeless with
        fflags := if i.fpFlagsWe then csr.fflags ||| i.fpFlagsIn
          else if writes i CsrAddr.fflags || writes i CsrAddr.fcsr then
            (csr.newVal vlen i).setWidth 5
          else csr.fflags } := rfl
    rw [hsame, <- hflags]
    rfl
  · simp only [writes, hen, Bool.false_and, Bool.or_self, Bool.false_eq_true, if_false]
      at hflags
    simp [step, timeless, withCounters, Counters.zero, writes, nextMstatus, nextPrivMode,
      nextMie, trapTargetIsS, trapDelegated, causeWord, hen, hflags]

/-!
# What does not depend on time
-/

end Csr

/--
The addresses that read a counter.
-/
def CsrAddr.isCounter (addr : BitVec 12) : Bool :=
  addr == mcycle || addr == mcycleh || addr == minstret || addr == minstreth ||
    (bankIndex mhpmcounter3Base addr).isSome || (bankIndex mhpmcounter3hBase addr).isSome

namespace Csr

variable {w : Nat} {vlen : Nat} {csr : Csr w} {i : CsrIn w}

theorem rdata_withCounters (c : Counters w) (h : CsrAddr.isCounter i.addr = false) :
    (csr.withCounters c).rdata vlen i = csr.rdata vlen i := by
  simp only [CsrAddr.isCounter, Bool.or_eq_false_iff, beq_eq_false_iff_ne,
    Option.isSome_eq_false_iff, Option.isNone_iff_eq_none] at h
  obtain ⟨⟨⟨⟨⟨hcycle, hcycleh⟩, hinstret⟩, hinstreth⟩, hlow⟩, hhigh⟩ := h
  rw [rdata, rdata, if_neg hcycle, if_neg hcycleh, if_neg hinstret, if_neg hinstreth,
    if_neg hcycle, if_neg hcycleh, if_neg hinstret, if_neg hinstreth, hlow, hhigh]
  cases CsrAddr.bankIndex CsrAddr.mhpmevent3Base i.addr <;> rfl

theorem newVal_withCounters (c : Counters w) (h : CsrAddr.isCounter i.addr = false) :
    (csr.withCounters c).newVal vlen i = csr.newVal vlen i := by
  rw [newVal, newVal, rdata_withCounters c h]

theorem timeless_step_withCounters (c : Counters w)
    (h : i.writeEn = true -> CsrAddr.isCounter i.addr = false) :
    ((csr.withCounters c).step vlen i).timeless = (csr.step vlen i).timeless := by
  cases hwrite : i.writeEn with
  | false =>
      unfold step nextMstatus nextMie
      simp only [writes, hwrite, Bool.false_and, Bool.false_or, Bool.false_eq_true, if_false]
      rfl
  | true =>
      have hvalue : (csr.withCounters c).newVal vlen i = csr.newVal vlen i :=
        newVal_withCounters c (h hwrite)
      unfold step nextMstatus nextMie
      simp only [hvalue]
      rfl

end Csr

theorem csrUpdates_withCounters {w vlen : Nat} {csr : Csr w} {i : CsrIn w} (c : Counters w)
    (h : i.writeEn = true -> CsrAddr.isCounter i.addr = false) :
    csrUpdates vlen (csr.withCounters c) i = csrUpdates vlen csr i := by
  cases hwrite : i.writeEn with
  | false =>
      unfold csrUpdates
      rw [hwrite]
      rfl
  | true =>
      unfold csrUpdates
      rw [Csr.newVal_withCounters c (h hwrite)]
      rfl

end Block
end RvCores
