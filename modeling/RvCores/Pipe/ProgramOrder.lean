import RvCores.Pipe.Issue
import RvCores.Pipe.Redirect

/-!
# Program order

An observer follows the program beside the pipeline.  It keeps the address of the
next instruction and moves it as a machine without a pipeline would: past an
instruction that executes, to the vector at a trap or an interrupt.  What leaves
execute is an instruction in program order if it stands at that address.  The
observer sees which registers of the pipeline move, and never their valid bits.
-/

namespace RvCores
namespace Pipe

open Isa Block

variable {w : Nat} {m : Mmu w}

/--
The address of the next instruction, whether decode and execute hold an instruction,
whether the memory stage holds one that was the next, and whether execute has squashed
decode by a redirect that it still has to make.
-/
structure Observer (w : Nat) where
  next : BitVec w
  inDecode : Bool
  inExecute : Bool
  inMemory : Bool
  owesRedirect : Bool

def Observer.reset : Observer w :=
  { next := 0, inDecode := false, inExecute := false, inMemory := false
    owesRedirect := false }

namespace Core

section

variable (cfg : Config w) (s : Core m) (i : CoreIn w)

def trapVector : BitVec w :=
  if s.csr.trapTargetIsS (s.csrIn cfg i) then s.csr.stvec else s.csr.mtvec

/--
Where the program goes on after the instruction in execute.
-/
def successor : BitVec w :=
  if s.mretReal then s.csr.mepc
  else if s.sretReal then s.csr.sepc
  else if s.desiredTaken cfg then s.desiredTarget cfg
  else s.pcPlus4Regde

/--
The instruction in decode goes on to execute.
-/
def decodeMoves : Bool :=
  !s.reg2Hold cfg i && !s.branchTaken cfg i && !s.reg2Flush cfg i

end

end Core

/-!
# The observer's clock edge
-/

namespace Observer

variable (o : Observer w) (cfg : Config w) (s : Core m) (i : CoreIn w)

/--
The instruction that leaves execute is the next one and is not trapped.
-/
def executes : Bool :=
  o.inExecute && s.reg2.pc == o.next && !s.reg2Hold cfg i && !s.exceptionTaken cfg

def nextNext : BitVec w :=
  if s.interruptTaken cfg i then s.trapVector cfg i
  else if s.reg2Hold cfg i || s.reg2.pc != o.next then o.next
  else if s.exceptionTaken cfg then s.trapVector cfg i
  else if o.inExecute then s.successor cfg
  else o.next

def step : Observer w :=
  { next := o.nextNext cfg s i
    inDecode :=
      if s.branchTaken cfg i || s.redirectSquashExtendR then false
      else if s.pcStall cfg i then o.inDecode
      else true
    inExecute :=
      if s.reg2Hold cfg i then o.inExecute
      else if s.decodeMoves cfg i then o.inDecode
      else false
    inMemory := if s.backHold cfg i then o.inMemory else o.executes cfg s i
    owesRedirect :=
      s.reg2Hold cfg i && (o.owesRedirect || (s.branchTaken cfg i && o.inDecode)) }

/--
An instruction that was the next in program order leaves the memory stage.
-/
def completes : Bool := o.inMemory && !s.backHold cfg i

/-!
# Runs that stay in program order
-/

/--
A redirect that execute makes reaches the program counter, and no bubble makes one.  When
execute moves on after it has squashed decode, it redirects.
-/
def RedirectsHeld : Prop :=
  s.reg2Hold cfg i = false ->
    (s.branchTaken cfg i = true ->
      (s.waitsForOperand cfg i = false ∨ s.pc = s.redirectTarget cfg i) ∧
        (s.reg2.valid || s.reg2.ifetchFault || s.interruptTaken cfg i) = true) ∧
    (o.owesRedirect = true -> s.branchTaken cfg i = true)

instance : Decidable (RedirectsHeld o cfg s i) :=
  inferInstanceAs (Decidable (_ -> (_ -> _ ∧ _) ∧ (_ -> _)))

/--
What goes on from decode to execute is the word behind the instruction in execute.
-/
def FetchesInOrder : Prop :=
  s.decodeMoves cfg i = true -> o.inDecode = true ->
    s.reg1.pc = if o.inExecute then s.successor cfg else o.next

instance : Decidable (FetchesInOrder o cfg s i) :=
  inferInstanceAs (Decidable (_ -> _ -> _))

/--
The five-stage core leaves program order only by a redirect.  With the split fetch the
words come in the wrong order by themselves: the first one twice, and those behind a
word of another length.
-/
def KeepsOrder : Prop :=
  if cfg.splitFetch then FetchesInOrder o cfg s i else RedirectsHeld o cfg s i

instance : Decidable (KeepsOrder o cfg s i) :=
  inferInstanceAs (Decidable
    (if cfg.splitFetch then FetchesInOrder o cfg s i else RedirectsHeld o cfg s i))

end Observer

/-!
# The pipeline and its observer
-/

structure Watched (m : Mmu w) where
  core : Core m
  observer : Observer w

namespace Watched

def start (s : Core m) : Watched m := { core := s, observer := .reset }

def step (cfg : Config w) (x : Watched m) (i : CoreIn w) : Watched m :=
  { core := x.core.step cfg i, observer := x.observer.step cfg x.core i }

end Watched

/-!
# What the wires say
-/

/--
Where fetch goes on behind a word, as it was predicted.
-/
def Reg1.follow (r : Reg1 w) : BitVec w :=
  if r.predictTaken then r.predictTarget else r.pc + Core.instLength r.isCompressed

def Reg2.follow (r : Reg2 w) : BitVec w :=
  if r.predictTaken then r.predictTarget else r.pc + Core.instLength r.isCompressed

namespace Core

variable {cfg : Config w} {s : Core m} {i : CoreIn w}

theorem pcStall_of_reg2Hold (h : s.reg2Hold cfg i = true) : s.pcStall cfg i = true := by
  simp only [reg2Hold, Bool.or_eq_true] at h
  simp only [pcStall, Bool.or_eq_true]
  tauto

theorem pcStall_of_reg2Flush (h : s.reg2Flush cfg i = true) : s.pcStall cfg i = true := by
  simp only [reg2Flush, Bool.or_eq_true] at h
  simp only [pcStall, Bool.or_eq_true]
  tauto

theorem pcStall_of_decodeMoves (h : s.decodeMoves cfg i = true) :
    s.pcStall cfg i = false := by
  simp only [decodeMoves, Bool.and_eq_true, Bool.not_eq_true', reg2Hold, reg2Flush,
    Bool.or_eq_false_iff] at h
  simp [pcStall, h]

theorem interruptTaken_of_reg2Hold (h : s.reg2Hold cfg i = true) :
    s.interruptTaken cfg i = false := by
  by_contra htaken
  have htaken : s.interruptTaken cfg i = true := by simpa using htaken
  have hbranch : s.branchTaken cfg i = true := by simp [branchTaken, htaken]
  have hdtlb : s.dtlbMiss cfg i = false := by simp [dtlbMiss, hbranch]
  simp only [interruptTaken, Bool.and_eq_true, Bool.not_eq_true', hardStall,
    Bool.or_eq_false_iff] at htaken
  simp [reg2Hold, hdtlb, htaken] at h

theorem exceptionTaken_of_noBranch (h : s.branchTaken cfg i = false) :
    s.exceptionTaken cfg = false := by
  simp only [branchTaken, otherRedirectTaken, Bool.or_eq_false_iff] at h
  exact h.left.left.left.right

theorem interruptTaken_of_noBranch (h : s.branchTaken cfg i = false) :
    s.interruptTaken cfg i = false := by
  simp only [branchTaken, Bool.or_eq_false_iff] at h
  exact h.right

theorem exceptionTaken_of_fetchFault (h : s.reg2.ifetchFault = true) :
    s.exceptionTaken cfg = true := by
  simp [exceptionTaken, h]

theorem redirectTarget_of_trap
    (h : (s.exceptionTaken cfg || s.interruptTaken cfg i) = true) :
    s.redirectTarget cfg i = s.trapVector cfg i := by
  rw [redirectTarget, if_pos h, trapVector]

/--
A redirect that is no trap goes where the program goes on.
-/
theorem redirectTarget_of_noTrap (htaken : s.branchTaken cfg i = true)
    (hexc : s.exceptionTaken cfg = false) (hint : s.interruptTaken cfg i = false) :
    s.redirectTarget cfg i = s.successor cfg := by
  rw [branchTaken, otherRedirectTaken, hexc, hint] at htaken
  rw [redirectTarget, successor, hexc, hint]
  cases hmret : s.mretReal with
  | true => rfl
  | false =>
      cases hsret : s.sretReal with
      | true => rfl
      | false =>
          rw [hmret, hsret] at htaken
          simp only [Bool.or_false, branchOrJumpRedirect] at htaken
          simp only [Bool.or_false, Bool.false_eq_true, if_false, branchOrJumpTarget]
          cases hdynamic : cfg.dynamic with
          | true => cases s.desiredTaken cfg <;> simp
          | false =>
              rw [hdynamic] at htaken
              simp [show s.desiredTaken cfg = true from htaken]

/--
An instruction that makes no redirect was predicted right.
-/
theorem successor_of_noBranch (h : s.branchTaken cfg i = false)
    (hstatic : cfg.dynamic = false -> s.reg2.predictTaken = false) :
    s.successor cfg = s.reg2.follow := by
  simp only [branchTaken, otherRedirectTaken, Bool.or_eq_false_iff] at h
  obtain ⟨⟨⟨⟨hbranch, _⟩, hmret⟩, hsret⟩, _⟩ := h
  rw [successor, hmret, hsret, Reg2.follow, pcPlus4Regde]
  cases hdynamic : cfg.dynamic with
  | false =>
      have hnot : s.desiredTaken cfg = false := by
        simpa [branchOrJumpRedirect, hdynamic] using hbranch
      simp [hnot, hstatic hdynamic]
  | true =>
      have hright : s.mispredict cfg = false := by
        simpa [branchOrJumpRedirect, hdynamic] using hbranch
      simp only [mispredict, Bool.or_eq_false_iff, bne_eq_false_iff_eq] at hright
      obtain ⟨hdir, htarget⟩ := hright
      rw [hdir]
      cases hdesired : s.desiredTaken cfg with
      | false => simp
      | true =>
          have htarget : s.reg2.predictTarget = s.desiredTarget cfg := by
            simpa [hdesired] using htarget
          simp [htarget]

theorem follow_decoded : (s.decoded cfg i).follow = s.reg1.follow := rfl

theorem follow_fetched (hsplit : cfg.splitFetch = false) :
    (s.fetched cfg i).follow = s.pcSpeculative cfg i := by
  simp [Reg1.follow, fetched, pcSpeculative, hsplit, imemReadAddr, pcNew]

theorem reg2_of_redirect (hhold : s.reg2Hold cfg i = false)
    (htaken : s.branchTaken cfg i = true) : (s.step cfg i).reg2 = .squashed := by
  show s.reg2.step _ _ _ _ = _
  rw [Reg2.step, hhold, htaken]
  rfl

theorem reg2_of_flush (hhold : s.reg2Hold cfg i = false)
    (htaken : s.branchTaken cfg i = false) (hflush : s.reg2Flush cfg i = true) :
    (s.step cfg i).reg2 = (s.decoded cfg i).bubble := by
  show s.reg2.step _ _ _ _ = _
  rw [Reg2.step, hhold, htaken, hflush]
  rfl

theorem reg2_of_decodeMoves (h : s.decodeMoves cfg i = true) :
    (s.step cfg i).reg2 = s.decoded cfg i := by
  simp only [decodeMoves, Bool.and_eq_true, Bool.not_eq_true'] at h
  show s.reg2.step _ _ _ _ = _
  rw [Reg2.step, h.left.left, h.left.right, h.right]
  rfl

end Core

/-!
# The observer sees every instruction
-/

/--
The valid bits of the pipeline mark the registers that hold an instruction, and the one
in execute is the next.
-/
structure Tracks (o : Observer w) (s : Core m) : Prop where
  decode : s.idBubbleR = !o.inDecode
  execute : s.reg2.valid = o.inExecute
  memory : s.reg3.valid = o.inMemory
  place : o.inExecute = true -> s.reg2.pc = o.next

/--
Without the relay register the words in decode and at the program counter are those that
follow execute, unless decode has been squashed by a redirect that is still to come.
-/
structure Chained (cfg : Config w) (o : Observer w) (s : Core m) : Prop where
  extend : s.redirectSquashExtendR = false
  squashed : o.inDecode = false -> s.reg1 = .squashed
  fault : s.reg2.ifetchFault = true -> s.reg2.pc = o.next
  static : cfg.dynamic = false ->
    s.reg1.predictTaken = false ∧ s.reg2.predictTaken = false
  decodePc : o.owesRedirect = false -> o.inDecode = true ->
    s.reg1.pc = if o.inExecute then s.reg2.follow else o.next
  pc : o.owesRedirect = false ->
    s.pc =
      if o.inDecode then s.reg1.follow
      else if o.inExecute then s.reg2.follow
      else o.next

section

variable {cfg : Config w} {o : Observer w} {s : Core m} {i : CoreIn w}

theorem tracks_reset (s : Core m) : Tracks .reset (s.reset cfg) :=
  ⟨rfl, rfl, rfl, fun h => absurd h Bool.false_ne_true⟩

theorem chained_reset (s : Core m) : Chained cfg .reset (s.reset cfg) where
  extend := rfl
  squashed := fun _ => rfl
  fault := fun h => absurd h Bool.false_ne_true
  static := fun _ => ⟨rfl, rfl⟩
  decodePc := fun _ h => absurd h Bool.false_ne_true
  pc := fun _ => rfl

/-!
# Where the observer looks next
-/

theorem nextNext_of_hold (h : s.reg2Hold cfg i = true) : o.nextNext cfg s i = o.next := by
  rw [Observer.nextNext, Core.interruptTaken_of_reg2Hold h, h]
  rfl

theorem nextNext_of_noBranch (hhold : s.reg2Hold cfg i = false)
    (htaken : s.branchTaken cfg i = false) (hplace : o.inExecute = true -> s.reg2.pc = o.next) :
    o.nextNext cfg s i = if o.inExecute then s.successor cfg else o.next := by
  rw [Observer.nextNext, Core.interruptTaken_of_noBranch htaken,
    Core.exceptionTaken_of_noBranch htaken, hhold]
  cases hexec : o.inExecute with
  | true => simp [hplace hexec]
  | false => simp

/--
A redirect that no bubble makes takes the observer along.
-/
theorem nextNext_of_redirect (hhold : s.reg2Hold cfg i = false)
    (htaken : s.branchTaken cfg i = true)
    (hreal : (s.reg2.valid || s.reg2.ifetchFault || s.interruptTaken cfg i) = true)
    (h : Tracks o s) (hfault : s.reg2.ifetchFault = true -> s.reg2.pc = o.next) :
    o.nextNext cfg s i = s.redirectTarget cfg i := by
  rw [Observer.nextNext, hhold]
  cases hint : s.interruptTaken cfg i with
  | true =>
      have htrap : (s.exceptionTaken cfg || s.interruptTaken cfg i) = true := by simp [hint]
      simp [Core.redirectTarget_of_trap htrap]
  | false =>
      have hpc : s.reg2.pc = o.next := by
        rw [hint, Bool.or_false, Bool.or_eq_true, h.execute] at hreal
        exact hreal.elim h.place hfault
      cases hexc : s.exceptionTaken cfg with
      | true =>
          have htrap : (s.exceptionTaken cfg || s.interruptTaken cfg i) = true := by
            simp [hexc]
          simp [hpc, Core.redirectTarget_of_trap htrap]
      | false =>
          have hnoFault : s.reg2.ifetchFault = false := by
            by_contra hne
            have hthere : s.exceptionTaken cfg = true :=
              Core.exceptionTaken_of_fetchFault (by simpa using hne)
            rw [hexc] at hthere
            cases hthere
          have hexec : o.inExecute = true := by simpa [hint, hnoFault, h.execute] using hreal
          simp [hpc, hexec, Core.redirectTarget_of_noTrap htaken hexc hint]

/-!
# One cycle
-/

theorem decode_step (h : s.idBubbleR = !o.inDecode) :
    (s.step cfg i).idBubbleR = !(o.step cfg s i).inDecode := by
  show s.nextIdBubbleR cfg i = !(if _ then _ else if _ then _ else _ : Bool)
  rw [Core.nextIdBubbleR, h]
  split
  · rfl
  · split <;> rfl

theorem execute_step (hdecode : s.idBubbleR = !o.inDecode)
    (h : s.reg2.valid = o.inExecute) :
    (s.step cfg i).reg2.valid = (o.step cfg s i).inExecute := by
  show (s.reg2.step _ _ _ _).valid = if _ then _ else if _ then _ else _
  rw [Reg2.step, Core.decodeMoves]
  cases s.reg2Hold cfg i with
  | true => simpa using h
  | false =>
      cases s.branchTaken cfg i with
      | true => rfl
      | false =>
          cases s.reg2Flush cfg i with
          | true => rfl
          | false =>
              show (!s.idBubbleR) = o.inDecode
              rw [hdecode, Bool.not_not]

theorem memory_step (h : Tracks o s) :
    (s.step cfg i).reg3.valid = (o.step cfg s i).inMemory := by
  show (s.reg3.step _ _).valid = if _ then _ else _
  rw [Reg3.step]
  cases hhold : s.backHold cfg i with
  | true => exact h.memory
  | false =>
      have hback := Bool.or_eq_false_iff.mp hhold
      have hplace : (o.inExecute && s.reg2.pc == o.next) = o.inExecute := by
        cases hexec : o.inExecute with
        | true => simp [h.place hexec]
        | false => rfl
      show (!s.reg3Bubble cfg i && s.reg2.valid) = o.executes cfg s i
      rw [Observer.executes, hplace, h.execute, Core.reg3Bubble, Core.reg2Hold, hback.left,
        hback.right]
      cases o.inExecute <;> cases s.divStall <;> cases s.fpStall <;>
        cases s.dtlbMiss cfg i <;> cases s.exceptionTaken cfg <;> rfl

/--
The instruction that comes into execute stands where the observer looks.
-/
theorem place_step (h : Tracks o s)
    (horder : s.decodeMoves cfg i = true -> o.inDecode = true ->
      s.reg1.pc = if o.inExecute then s.successor cfg else o.next)
    (hexec : (o.step cfg s i).inExecute = true) :
    (s.step cfg i).reg2.pc = (o.step cfg s i).next := by
  show _ = o.nextNext cfg s i
  have hin : (if s.reg2Hold cfg i then o.inExecute
      else if s.decodeMoves cfg i then o.inDecode else false) = true := hexec
  cases hhold : s.reg2Hold cfg i with
  | true =>
      rw [hhold] at hin
      rw [Core.reg2_of_hold hhold, nextNext_of_hold hhold]
      exact h.place hin
  | false =>
      rw [hhold] at hin
      cases hmoves : s.decodeMoves cfg i with
      | false =>
          rw [hmoves] at hin
          cases hin
      | true =>
          rw [hmoves] at hin
          have htaken : s.branchTaken cfg i = false := by
            simp only [Core.decodeMoves, Bool.and_eq_true, Bool.not_eq_true'] at hmoves
            exact hmoves.left.right
          rw [Core.reg2_of_decodeMoves hmoves, nextNext_of_noBranch hhold htaken h.place]
          exact horder hmoves hin

theorem tracks_step (h : Tracks o s) (horder : o.FetchesInOrder cfg s i) :
    Tracks (o.step cfg s i) (s.step cfg i) :=
  ⟨decode_step h.decode, execute_step h.decode h.execute, memory_step h,
    place_step h horder⟩

/-!
# Five stages
-/

theorem noOwed_of_noBranch (hheld : o.RedirectsHeld cfg s i)
    (hhold : s.reg2Hold cfg i = false) (htaken : s.branchTaken cfg i = false) :
    o.owesRedirect = false := by
  by_contra howes
  have hthere := (hheld hhold).right (by simpa using howes)
  rw [htaken] at hthere
  cases hthere

theorem Chained.successor (h : Chained cfg o s) (htaken : s.branchTaken cfg i = false) :
    s.successor cfg = s.reg2.follow :=
  Core.successor_of_noBranch htaken fun hdynamic => (h.static hdynamic).right

/--
Only a word brings a fault along.
-/
theorem Chained.inDecode_of_fault (h : Chained cfg o s)
    (hfault : s.reg1.ifetchFault = true) : o.inDecode = true := by
  by_contra hnone
  rw [h.squashed (by simpa using hnone)] at hfault
  cases hfault

theorem extend_step (hsplit : cfg.splitFetch = false) :
    (s.step cfg i).redirectSquashExtendR = false := by
  show (cfg.splitFetch && _) = false
  rw [hsplit]
  rfl

theorem Chained.fetchesInOrder (h : Chained cfg o s) (hheld : o.RedirectsHeld cfg s i) :
    o.FetchesInOrder cfg s i := by
  intro hmoves hin
  simp only [Core.decodeMoves, Bool.and_eq_true, Bool.not_eq_true'] at hmoves
  obtain ⟨⟨hhold, htaken⟩, _⟩ := hmoves
  rw [h.successor htaken]
  exact h.decodePc (noOwed_of_noBranch hheld hhold htaken) hin

/--
While execute is held nothing moves, but a redirect can squash decode.
-/
theorem Chained.held (h : Chained cfg o s) (hsplit : cfg.splitFetch = false)
    (hhold : s.reg2Hold cfg i = true) : Chained cfg (o.step cfg s i) (s.step cfg i) := by
  have hstall := Core.pcStall_of_reg2Hold hhold
  have hreg2 := Core.reg2_of_hold hhold
  have hnext : (o.step cfg s i).next = o.next := nextNext_of_hold hhold
  have hexec : (o.step cfg s i).inExecute = o.inExecute := by
    show (if _ then _ else _) = _
    rw [if_pos hhold]
  have hpc : (s.step cfg i).pc = s.pc := by
    show s.nextPc cfg i = _
    rw [Core.nextPc, if_pos hstall]
  have howes : (o.step cfg s i).owesRedirect =
      (o.owesRedirect || (s.branchTaken cfg i && o.inDecode)) := by
    show (_ && _) = _
    rw [hhold, Bool.true_and]
  cases htaken : s.branchTaken cfg i with
  | true =>
      have hreg1 : (s.step cfg i).reg1 = .squashed := by
        show s.reg1.step _ _ _ = _
        rw [Reg1.step, htaken]
        rfl
      have hin : (o.step cfg s i).inDecode = false := by
        show (if _ then _ else _) = _
        rw [htaken]
        rfl
      have hempty : (o.step cfg s i).owesRedirect = false ->
          o.owesRedirect = false ∧ o.inDecode = false := by
        intro hno
        rw [howes, htaken, Bool.true_and, Bool.or_eq_false_iff] at hno
        exact hno
      refine ⟨extend_step hsplit, fun _ => hreg1, ?_, ?_, ?_, ?_⟩
      · rw [hreg2, hnext]
        exact h.fault
      · intro hdynamic
        rw [hreg1, hreg2]
        exact ⟨rfl, (h.static hdynamic).right⟩
      · intro _ hthere
        rw [hin] at hthere
        cases hthere
      · intro hno
        have hchain := h.pc (hempty hno).left
        rw [(hempty hno).right] at hchain
        rw [hin, hexec, hreg2, hnext, hpc, hchain]
        rfl
  | false =>
      have hreg1 : (s.step cfg i).reg1 = s.reg1 := by
        show s.reg1.step _ _ _ = _
        rw [Reg1.step, htaken, h.extend, hstall]
        rfl
      have hin : (o.step cfg s i).inDecode = o.inDecode := by
        show (if _ then _ else _) = _
        rw [htaken, h.extend, hstall]
        rfl
      rw [htaken, Bool.false_and, Bool.or_false] at howes
      refine ⟨extend_step hsplit, ?_, ?_, ?_, ?_, ?_⟩
      · rw [hin, hreg1]
        exact h.squashed
      · rw [hreg2, hnext]
        exact h.fault
      · rw [hreg1, hreg2]
        exact h.static
      · rw [howes, hin, hexec, hreg1, hreg2, hnext]
        exact h.decodePc
      · rw [howes, hin, hexec, hreg1, hreg2, hnext, hpc]
        exact h.pc

/--
A redirect empties decode and execute and takes the observer and the program counter to
one address.
-/
theorem Chained.redirected (h : Chained cfg o s) (htracks : Tracks o s)
    (hsplit : cfg.splitFetch = false) (hheld : o.RedirectsHeld cfg s i)
    (hhold : s.reg2Hold cfg i = false) (htaken : s.branchTaken cfg i = true) :
    Chained cfg (o.step cfg s i) (s.step cfg i) := by
  obtain ⟨hreaches, hreal⟩ := (hheld hhold).left htaken
  have hpc : (s.step cfg i).pc = s.redirectTarget cfg i := by
    rw [Core.pc_of_redirect htaken hhold]
    rcases hreaches with hfree | hthere
    · rw [hfree]
      rfl
    · rw [hthere, ite_self]
  have hnext : (o.step cfg s i).next = s.redirectTarget cfg i :=
    nextNext_of_redirect hhold htaken hreal htracks h.fault
  have hreg1 : (s.step cfg i).reg1 = .squashed := by
    show s.reg1.step _ _ _ = _
    rw [Reg1.step, htaken]
    rfl
  have hreg2 := Core.reg2_of_redirect hhold htaken
  have hin : (o.step cfg s i).inDecode = false := by
    show (if _ then _ else _) = _
    rw [htaken]
    rfl
  have hexec : (o.step cfg s i).inExecute = false := by
    show (if _ then _ else if _ then _ else _) = _
    rw [Core.decodeMoves, hhold, htaken]
    rfl
  refine ⟨extend_step hsplit, fun _ => hreg1, ?_, ?_, ?_, ?_⟩
  · intro hfault
    rw [hreg2] at hfault
    cases hfault
  · intro _
    rw [hreg1, hreg2]
    exact ⟨rfl, rfl⟩
  · intro _ hthere
    rw [hin] at hthere
    cases hthere
  · intro _
    rw [hin, hexec, hpc, hnext]
    rfl

/--
Decode waits and execute gets a bubble.
-/
theorem Chained.flushed (h : Chained cfg o s) (htracks : Tracks o s)
    (hsplit : cfg.splitFetch = false) (hheld : o.RedirectsHeld cfg s i)
    (hhold : s.reg2Hold cfg i = false) (htaken : s.branchTaken cfg i = false)
    (hflush : s.reg2Flush cfg i = true) :
    Chained cfg (o.step cfg s i) (s.step cfg i) := by
  have hstall := Core.pcStall_of_reg2Flush hflush
  have howes := noOwed_of_noBranch hheld hhold htaken
  have hreg1 : (s.step cfg i).reg1 = s.reg1 := by
    show s.reg1.step _ _ _ = _
    rw [Reg1.step, htaken, h.extend, hstall]
    rfl
  have hreg2 := Core.reg2_of_flush hhold htaken hflush
  have hin : (o.step cfg s i).inDecode = o.inDecode := by
    show (if _ then _ else _) = _
    rw [htaken, h.extend, hstall]
    rfl
  have hexec : (o.step cfg s i).inExecute = false := by
    show (if _ then _ else if _ then _ else _) = _
    rw [Core.decodeMoves, hhold, htaken, hflush]
    rfl
  have hnext : (o.step cfg s i).next = if o.inExecute then s.reg2.follow else o.next := by
    show o.nextNext cfg s i = _
    rw [nextNext_of_noBranch hhold htaken htracks.place, h.successor htaken]
  have hpc : (s.step cfg i).pc = s.pc := by
    show s.nextPc cfg i = _
    rw [Core.nextPc, if_pos hstall]
  refine ⟨extend_step hsplit, ?_, ?_, ?_, ?_, ?_⟩
  · rw [hin, hreg1]
    exact h.squashed
  · intro hfault
    rw [hreg2] at hfault ⊢
    rw [hnext]
    exact h.decodePc howes (h.inDecode_of_fault hfault)
  · intro hdynamic
    rw [hreg1, hreg2]
    exact ⟨(h.static hdynamic).left, (h.static hdynamic).left⟩
  · intro _ hthere
    rw [hin] at hthere
    rw [hexec, hreg1, hnext]
    exact h.decodePc howes hthere
  · intro _
    rw [hin, hexec, hreg1, hnext, hpc, h.pc howes]
    cases o.inDecode <;> rfl

/--
Every register takes the word behind it.
-/
theorem Chained.moved (h : Chained cfg o s) (htracks : Tracks o s)
    (hsplit : cfg.splitFetch = false) (hheld : o.RedirectsHeld cfg s i)
    (hmoves : s.decodeMoves cfg i = true) :
    Chained cfg (o.step cfg s i) (s.step cfg i) := by
  have hstall := Core.pcStall_of_decodeMoves hmoves
  have hreg2 := Core.reg2_of_decodeMoves hmoves
  have hparts := hmoves
  simp only [Core.decodeMoves, Bool.and_eq_true, Bool.not_eq_true'] at hparts
  obtain ⟨⟨hhold, htaken⟩, _⟩ := hparts
  have howes := noOwed_of_noBranch hheld hhold htaken
  have hreg1 : (s.step cfg i).reg1 = s.fetched cfg i := by
    show s.reg1.step _ _ _ = _
    rw [Reg1.step, htaken, h.extend, hstall]
    rfl
  have hin : (o.step cfg s i).inDecode = true := by
    show (if _ then _ else _) = _
    rw [htaken, h.extend, hstall]
    rfl
  have hexec : (o.step cfg s i).inExecute = o.inDecode := by
    show (if _ then _ else if _ then _ else _) = _
    rw [hhold, hmoves]
    rfl
  have hnext : (o.step cfg s i).next = if o.inExecute then s.reg2.follow else o.next := by
    show o.nextNext cfg s i = _
    rw [nextNext_of_noBranch hhold htaken htracks.place, h.successor htaken]
  have hpc : (s.step cfg i).pc = s.pcSpeculative cfg i := by
    show s.nextPc cfg i = _
    rw [Core.nextPc, hstall, Core.pcFinal, htaken]
    rfl
  refine ⟨extend_step hsplit, ?_, ?_, ?_, ?_, ?_⟩
  · rw [hin]
    intro hnone
    cases hnone
  · intro hfault
    rw [hreg2] at hfault ⊢
    rw [hnext]
    exact h.decodePc howes (h.inDecode_of_fault hfault)
  · intro hdynamic
    rw [hreg1, hreg2]
    refine ⟨?_, (h.static hdynamic).left⟩
    show (if cfg.splitFetch then _ else _) = false
    rw [hsplit]
    exact Core.predictTakenIf_static hdynamic
  · intro _ _
    rw [hexec, hreg1, hreg2, hnext, Core.follow_decoded]
    have hfetched : (s.fetched cfg i).pc = s.pc := by
      show s.imemReadAddr cfg = _
      rw [Core.imemReadAddr, hsplit]
      rfl
    rw [hfetched, h.pc howes]
  · intro _
    rw [hin, hreg1, hpc, Core.follow_fetched hsplit]
    rfl

theorem chained_step (h : Chained cfg o s) (htracks : Tracks o s)
    (hsplit : cfg.splitFetch = false) (hheld : o.RedirectsHeld cfg s i) :
    Chained cfg (o.step cfg s i) (s.step cfg i) := by
  cases hhold : s.reg2Hold cfg i with
  | true => exact h.held hsplit hhold
  | false =>
      cases htaken : s.branchTaken cfg i with
      | true => exact h.redirected htracks hsplit hheld hhold htaken
      | false =>
          cases hflush : s.reg2Flush cfg i with
          | true => exact h.flushed htracks hsplit hheld hhold htaken hflush
          | false =>
              exact h.moved htracks hsplit hheld (by
                simp [Core.decodeMoves, hhold, htaken, hflush])

/-!
# Every profile
-/

/--
What the runs that keep to program order preserve.
-/
structure InOrder (cfg : Config w) (x : Watched m) : Prop where
  tracks : Tracks x.observer x.core
  chained : cfg.splitFetch = false -> Chained cfg x.observer x.core

theorem inOrder_start (s : Core m) : InOrder cfg (.start (s.reset cfg)) :=
  ⟨tracks_reset s, fun _ => chained_reset s⟩

theorem inOrder_step {x : Watched m} (h : InOrder cfg x)
    (hkeeps : x.observer.KeepsOrder cfg x.core i) : InOrder cfg (x.step cfg i) := by
  cases hsplit : cfg.splitFetch with
  | true =>
      rw [Observer.KeepsOrder, if_pos hsplit] at hkeeps
      refine ⟨tracks_step h.tracks hkeeps, ?_⟩
      rw [hsplit]
      intro hno
      cases hno
  | false =>
      rw [Observer.KeepsOrder, hsplit] at hkeeps
      have hchained := h.chained hsplit
      exact ⟨tracks_step h.tracks (hchained.fetchesInOrder hkeeps),
        fun _ => chained_step hchained h.tracks hsplit hkeeps⟩

end

end Pipe
end RvCores
