import RvCores.Pipe.Execute

/-!
# The path from fetch to decode

Fetch runs ahead along predicted addresses.  Between redirects it brings one word after
the other to decode: each stands at the address that is predicted for the one before it.
With the split fetch a relay register lies in between, and the program counter is
incremented by the length of the word before it.
-/

namespace RvCores
namespace Pipe

open Isa Block

variable {w : Nat}

/-!
# Words and where they lead
-/

namespace Reg1

def next (r : Reg1 w) : BitVec w :=
  if r.predictTaken then r.predictTarget else r.pc + Core.instLength r.isCompressed

/--
The register holds the word that stands at its address.
-/
structure Holds (cfg : Config w) (fetch : BitVec w -> Word) (r : Reg1 w) : Prop where
  inst : r.inst = instFinal (fetch r.pc)
  isCompressed : r.isCompressed = Isa.isCompressed (fetch r.pc)
  ifetchFault : r.ifetchFault = false
  unpredicted : cfg.dynamic = false -> r.predictTaken = false

end Reg1

namespace Reg1a

def next (fetch : BitVec w -> Word) (r : Reg1a w) : BitVec w :=
  if r.predictTaken then r.predictTarget
  else r.pc + Core.instLength (isCompressed (fetch r.pc))

end Reg1a

namespace Core

variable {m : Mmu w} {cfg : Config w} {s : Core m} {i : CoreIn w}
  {fetch : BitVec w -> Word} {a : BitVec w}

/-!
# What comes next
-/

/--
The next word that fetch brings to decode stands at `a`, and fetch goes on from there.
-/
def Fetches (cfg : Config w) (fetch : BitVec w -> Word) (s : Core m) (a : BitVec w) : Prop :=
  if cfg.splitFetch then
    if s.redirectSquashExtendR then s.pc = a
    else s.reg1a.pc = a ∧ s.pc = s.reg1a.next fetch ∧
      (cfg.dynamic = false -> s.reg1a.predictTaken = false)
  else s.redirectSquashExtendR = false ∧ s.pc = a

/--
The next word that leaves decode stands at `a`.
-/
inductive Front (cfg : Config w) (fetch : BitVec w -> Word) (s : Core m) (a : BitVec w) : Prop where
  | empty (hbubble : s.idBubbleR = true) (hreg1 : s.reg1 = .squashed)
      (hnext : Fetches cfg fetch s a)
  | filled (hlive : s.idBubbleR = false) (hext : s.redirectSquashExtendR = false)
      (hreg1 : s.reg1.Holds cfg fetch) (hpc : s.reg1.pc = a)
      (hnext : Fetches cfg fetch s s.reg1.next)

/--
Where fetch moves on in order, it does so by the length of the word that stands at the
program counter, and it does not stall in the cycle after a redirect.
-/
structure FetchInStep (cfg : Config w) (fetch : BitVec w -> Word) (s : Core m)
    (i : CoreIn w) : Prop where
  length : cfg.splitFetch = true -> s.branchTaken cfg i = false -> s.pcStall cfg i = false ->
    s.predictTakenIf cfg = false ->
      isCompressed (fetch s.reg1a.pc) = isCompressed (fetch s.pc)
  moves : s.redirectSquashExtendR = true -> s.branchTaken cfg i = false ->
    s.pcStall cfg i = false

/-!
# One cycle
-/

theorem predictTakenIf_static (h : cfg.dynamic = false) : s.predictTakenIf cfg = false := by
  have hkind : cfg.branchPredictor = .static := by simpa [Config.dynamic] using h
  rw [predictTakenIf, hkind]
  rfl

theorem pcFinal_of_noRedirect (htaken : s.branchTaken cfg i = false) :
    s.pcFinal cfg i =
      if s.predictTakenIf cfg then s.predictTargetIf cfg
      else s.pc + instLength (isCompressed i.inst) := by
  rw [pcFinal, htaken]
  rfl

/--
A redirect that is not held back empties decode and sends fetch to its target.
-/
theorem front_redirect (htaken : s.branchTaken cfg i = true) (hgo : s.pcStall cfg i = false) :
    Front cfg fetch (s.step cfg i) (s.redirectTarget cfg i) := by
  have hpc : (s.step cfg i).pc = s.redirectTarget cfg i := by
    show s.nextPc cfg i = _
    rw [nextPc, hgo, pcFinal, htaken]
    rfl
  have hext : (s.step cfg i).redirectSquashExtendR = cfg.splitFetch := by
    show (cfg.splitFetch && s.branchTaken cfg i) = _
    rw [htaken, Bool.and_true]
  apply Front.empty
  · show s.nextIdBubbleR cfg i = true
    rw [nextIdBubbleR, htaken]
    rfl
  · show s.nextReg1 cfg i = _
    rw [nextReg1, htaken]
    rfl
  · unfold Fetches
    rw [hext, hpc]
    cases cfg.splitFetch <;> simp

section NoRedirect

variable (htaken : s.branchTaken cfg i = false)

include htaken

theorem ext_step : (s.step cfg i).redirectSquashExtendR = false := by
  show (cfg.splitFetch && s.branchTaken cfg i) = false
  rw [htaken, Bool.and_false]

theorem ext_of_stall (hfetch : FetchInStep cfg fetch s i) (hstall : s.pcStall cfg i = true) :
    s.redirectSquashExtendR = false := by
  cases hext : s.redirectSquashExtendR with
  | false => rfl
  | true =>
      rw [hfetch.moves hext htaken] at hstall
      cases hstall

theorem fetches_hold (hfetch : FetchInStep cfg fetch s i) (hstall : s.pcStall cfg i = true)
    (h : Fetches cfg fetch s a) :
    Fetches cfg fetch (s.step cfg i) a := by
  have hpc : (s.step cfg i).pc = s.pc := by
    show s.nextPc cfg i = _
    rw [nextPc, hstall]
    rfl
  have hreg1a : (s.step cfg i).reg1a = s.reg1a := by
    show s.nextReg1a cfg i = _
    rw [nextReg1a, Reg1a.step, hstall]
    rfl
  unfold Fetches at h ⊢
  rw [ext_step htaken, hpc, hreg1a]
  rw [ext_of_stall htaken hfetch hstall] at h
  exact h

/--
A stall of fetch keeps what decode has and what comes next.
-/
theorem front_hold (hfetch : FetchInStep cfg fetch s i) (hstall : s.pcStall cfg i = true)
    (h : Front cfg fetch s a) :
    Front cfg fetch (s.step cfg i) a := by
  have hext := ext_of_stall htaken hfetch hstall
  have hbubble : (s.step cfg i).idBubbleR = s.idBubbleR := by
    show s.nextIdBubbleR cfg i = _
    simp [nextIdBubbleR, htaken, hext, hstall]
  have hreg1 : (s.step cfg i).reg1 = s.reg1 := by
    show s.nextReg1 cfg i = _
    simp [nextReg1, Reg1.step, htaken, hext, hstall]
  cases h with
  | empty hempty hsquashed hnext =>
      exact .empty (hbubble.trans hempty) (hreg1.trans hsquashed)
        (fetches_hold htaken hfetch hstall hnext)
  | filled hlive _ hholds hpc hnext =>
      refine .filled (hbubble.trans hlive) (ext_step htaken) ?_ ?_ ?_
      · rw [hreg1]
        exact hholds
      · rw [hreg1]
        exact hpc
      · rw [hreg1]
        exact fetches_hold htaken hfetch hstall hnext

theorem pc_advance (hgo : s.pcStall cfg i = false) :
    (s.step cfg i).pc =
      if s.predictTakenIf cfg then s.predictTargetIf cfg
      else s.pc + instLength (isCompressed i.inst) := by
  show s.nextPc cfg i = _
  rw [nextPc, hgo]
  exact pcFinal_of_noRedirect htaken

omit htaken in
theorem reg1a_advance (hgo : s.pcStall cfg i = false) :
    (s.step cfg i).reg1a =
      { pc := s.pc, predictTaken := s.predictTakenIf cfg
        predictTarget := s.predictTargetIf cfg } := by
  show s.nextReg1a cfg i = _
  rw [nextReg1a, Reg1a.step, hgo]
  rfl

section Advance

variable (hinst : i.inst = fetch (s.imemReadAddr cfg)) (hplain : Untranslated s)
  (hfetch : FetchInStep cfg fetch s i) (hgo : s.pcStall cfg i = false)

include hinst hplain hfetch hgo

/--
The word that stands at `a` goes to decode, and fetch to the one after it.
-/
theorem front_fetched (h : Fetches cfg fetch s a) (hext : s.redirectSquashExtendR = false) :
    Front cfg fetch (s.step cfg i) a := by
  have hreg1 : (s.step cfg i).reg1 = s.fetched cfg i := by
    show s.nextReg1 cfg i = _
    simp [nextReg1, Reg1.step, htaken, hext, hgo]
  have hpc := pc_advance htaken hgo
  unfold Fetches at h
  rw [hext] at h
  refine .filled ?_ (ext_step htaken) ?_ ?_ ?_
  · show s.nextIdBubbleR cfg i = false
    simp [nextIdBubbleR, htaken, hext, hgo]
  · rw [hreg1]
    refine ⟨?_, ?_, ifetchFaultIf_of_untranslated hplain, ?_⟩
    · show instFinal i.inst = instFinal (fetch (s.imemReadAddr cfg))
      rw [hinst]
    · show isCompressed i.inst = isCompressed (fetch (s.imemReadAddr cfg))
      rw [hinst]
    · intro hstatic
      show (if cfg.splitFetch then s.reg1a.predictTaken else s.predictTakenIf cfg) = false
      cases hsplit : cfg.splitFetch with
      | false => exact predictTakenIf_static hstatic
      | true =>
          rw [hsplit] at h
          exact h.right.right hstatic
  · rw [hreg1]
    show s.imemReadAddr cfg = a
    unfold imemReadAddr
    cases hsplit : cfg.splitFetch with
    | false =>
        rw [hsplit] at h
        exact h.right
    | true =>
        rw [hsplit] at h
        exact h.left
  · rw [hreg1]
    unfold Fetches
    rw [ext_step htaken, hpc]
    cases hsplit : cfg.splitFetch with
    | false =>
        refine ⟨rfl, ?_⟩
        simp [Reg1.next, fetched, imemReadAddr, hsplit]
    | true =>
        rw [hsplit] at h
        have hread : s.imemReadAddr cfg = s.reg1a.pc := by
          simp [imemReadAddr, hsplit]
        rw [reg1a_advance hgo]
        refine ⟨?_, ?_, fun hstatic => predictTakenIf_static hstatic⟩
        · show s.pc = _
          rw [h.right.left, Reg1.next, fetched, hsplit, hinst, hread]
          rfl
        · rw [Reg1a.next, hinst, hread]
          cases hpredict : s.predictTakenIf cfg with
          | true => rfl
          | false =>
              rw [hfetch.length hsplit htaken hgo hpredict]

omit hplain in
/--
In the cycle after a redirect of the split fetch the word on its way is dropped.
-/
theorem front_dropped (h : Fetches cfg fetch s a) (hext : s.redirectSquashExtendR = true) :
    Front cfg fetch (s.step cfg i) a := by
  have hpc := pc_advance htaken hgo
  unfold Fetches at h
  rw [hext] at h
  apply Front.empty
  · show s.nextIdBubbleR cfg i = true
    simp [nextIdBubbleR, htaken, hext]
  · show s.nextReg1 cfg i = _
    simp [nextReg1, Reg1.step, htaken, hext]
  · unfold Fetches
    rw [ext_step htaken, hpc]
    cases hsplit : cfg.splitFetch with
    | false =>
        rw [hsplit] at h
        exact absurd h.left (by simp)
    | true =>
        rw [hsplit] at h
        have hread : s.imemReadAddr cfg = s.reg1a.pc := by
          simp [imemReadAddr, hsplit]
        rw [reg1a_advance hgo]
        refine ⟨h, ?_, fun hstatic => predictTakenIf_static hstatic⟩
        rw [Reg1a.next, hinst, hread]
        cases hpredict : s.predictTakenIf cfg with
        | true => rfl
        | false => rw [hfetch.length hsplit htaken hgo hpredict]

theorem front_next (h : Fetches cfg fetch s a) : Front cfg fetch (s.step cfg i) a := by
  cases hext : s.redirectSquashExtendR with
  | false => exact front_fetched htaken hinst hplain hfetch hgo h hext
  | true => exact front_dropped htaken hinst hfetch hgo h hext

/--
When fetch moves, the instruction in decode moves on to execute.
-/
theorem front_advance (h : Front cfg fetch s a) :
    Front cfg fetch (s.step cfg i) (if s.idBubbleR then a else s.reg1.next) := by
  cases h with
  | empty hbubble _ hnext =>
      rw [hbubble]
      exact front_next htaken hinst hplain hfetch hgo hnext
  | filled hlive _ _ _ hnext =>
      rw [hlive]
      exact front_next htaken hinst hplain hfetch hgo hnext

end Advance

end NoRedirect

end Core
end Pipe
end RvCores
