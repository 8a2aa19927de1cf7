import RvCores.Cache.Blocking

/-!
# The data cache with several miss registers

A load that misses may be accepted early; its value comes later, together with the
register it is for.  The cache is a flat memory in every run whose cycles avoid four
situations: a hit on a word that the fill has already overwritten, a request in the
cycle after a hit-under-miss was answered, a load that meets the delivery of another
one to the same address, and a miss whose dirty victim way is already promised to a
queued miss.  If there is a victim buffer, it also has to rest while nothing is asked.
-/

namespace RvCores
namespace Cache

open Isa Block Lib

namespace CacheSystem

variable {cfg : DCacheConfig} {s t : CacheSystem}

/-!
# Accepted and completed loads
-/

/--
The loads accepted in the cycles from `n` on, `d` of them, with the values they have
to get.
-/
def accepted (cfg : DCacheConfig) (u : Nat -> CacheSystem) (i : Nat -> PortIn) (n : Nat) :
    Nat -> List (Nat × Word)
  | 0 => []
  | d + 1 =>
      accepted cfg u i n d ++
        if (u (n + d)).mshrAccept cfg (i (n + d)) then
          [((i (n + d)).cpu.destReg,
            Flat.load (u (n + d)).flat (i (n + d)).cpu.addr (i (n + d)).cpu.funct3)]
        else []

/--
The completions in the same cycles, with the registers and values that the cache puts
out.
-/
def completed (cfg : DCacheConfig) (u : Nat -> CacheSystem) (i : Nat -> PortIn) (n : Nat) :
    Nat -> List (Nat × Word)
  | 0 => []
  | d + 1 =>
      completed cfg u i n d ++
        if (u (n + d)).mshrComplete cfg (i (n + d)) then
          [((u (n + d)).cache.head.destReg, (u (n + d)).mshrCompleteData cfg (i (n + d)))]
        else []

section

variable {u : Nat -> CacheSystem} {i : Nat -> PortIn}
  (hrun : IsRun (CacheSystem.step cfg) (Cycle cfg) u i)
  (hinv : forall n, (u n).Inv cfg)

include hrun hinv

/--
Every load that waits or is accepted is completed once, in order, or still waits.
-/
theorem waiting_accounts (n d : Nat) :
    (u n).waiting ++ accepted cfg u i n d = completed cfg u i n d ++ (u (n + d)).waiting := by
  induction d with
  | zero => simp [accepted, completed]
  | succ d ih =>
      have hnext : (u (n + (d + 1))).waiting
          = (if (u (n + d)).mshrComplete cfg (i (n + d)) then (u (n + d)).waiting.tail
              else (u (n + d)).waiting) ++
            (if (u (n + d)).mshrAccept cfg (i (n + d)) then
              [((i (n + d)).cpu.destReg,
                Flat.load (u (n + d)).flat (i (n + d)).cpu.addr (i (n + d)).cpu.funct3)]
            else []) := by
        rw [← Nat.add_assoc, (hrun (n + d)).right]
        rfl
      have hhead : (u (n + d)).waiting =
          (if (u (n + d)).mshrComplete cfg (i (n + d)) then
            [((u (n + d)).cache.head.destReg, (u (n + d)).mshrCompleteData cfg (i (n + d)))]
          else []) ++
          (if (u (n + d)).mshrComplete cfg (i (n + d)) then (u (n + d)).waiting.tail
            else (u (n + d)).waiting) := by
        cases hcomplete : (u (n + d)).mshrComplete cfg (i (n + d)) with
        | false => simp
        | true =>
            have hvalue := (hinv (n + d)).complete_value hcomplete
            simp only [if_true]
            exact hvalue
      unfold accepted completed
      rw [← List.append_assoc, ih, hnext]
      conv_lhs => rw [hhead]
      simp only [List.append_assoc]

/-!
# Every accepted load completes
-/

omit hrun in
/--
The head of the queue is an accepted load when any load waits.
-/
theorem head_early {k : Nat} (hwaits : (u k).waiting ≠ []) :
    0 < (u k).cache.mshrCount ∧ (u k).cache.head.earlyRetired = true := by
  have hqueued := DCache.Inv.queued (hinv k)
  have hawaited := hqueued.awaited
  have hbusy : 0 < (u k).cache.mshrCount := by
    apply Nat.pos_of_ne_zero
    intro hzero
    exact hwaits (hqueued.waiting_nil hzero)
  refine ⟨hbusy, ?_⟩
  cases hearly : (u k).cache.head.earlyRetired with
  | true => rfl
  | false =>
      have halone := (hqueued.blocking _ (DCache.head_mem hbusy) hearly).left
      rw [halone, List.filter_cons, hearly] at hawaited
      exact absurd hawaited hwaits

theorem waits_until_complete (hfair : Fair u i) {n : Nat} (hwaits : (u n).waiting ≠ []) :
    exists d, completed cfg u i n d = [] ∧
      (u (n + d)).mshrComplete cfg (i (n + d)) = true := by
  let waits := fun k => (u k).waiting ≠ [] ∧ (u k).mshrComplete cfg (i k) = false
  have hwork : forall k, waits k ->
      (u (k + 1)).cache.work cfg < (u k).cache.work cfg ∨
        (((u k).cache.mCyc = true ∧ (i k).ack = false) ∧
          (u (k + 1)).cache.work cfg = (u k).cache.work cfg) := by
    intro k hk
    obtain ⟨hbusy, hearly⟩ := head_early hinv hk.left
    apply work_of_advances hrun
    apply DCache.miss_advances (hinv k) hbusy
    have hcomplete : ((u k).cache.mshrCompleteNow cfg ((u k).bus (i k))
        && (u k).cache.head.earlyRetired) = false := hk.right
    rw [hearly, Bool.and_true] at hcomplete
    exact hcomplete
  obtain ⟨m, hm, hall, hend⟩ :=
    @waits_end waits _ (fun k => (u k).cache.work cfg) hwork hfair.unstalled n
  obtain ⟨d, rfl⟩ := Nat.exists_eq_add_of_le hm
  have hnone : forall k, k <= d -> completed cfg u i n k = [] := by
    intro k
    induction k with
    | zero =>
        intro _
        rfl
    | succ k ih =>
        intro hk
        unfold completed
        rw [ih (by omega), (hall (n + k) (by omega) (by omega)).right]
        rfl
  -- without a completion the waiting loads are still there
  have hstill : (u (n + d)).waiting ≠ [] := by
    have haccounts := waiting_accounts hrun hinv n d
    rw [hnone d (Nat.le_refl d), List.nil_append] at haccounts
    rw [← haccounts]
    intro hnil
    exact hwaits (List.append_eq_nil_iff.mp hnil).left
  refine ⟨d, hnone d (Nat.le_refl d), ?_⟩
  cases hcomplete : (u (n + d)).mshrComplete cfg (i (n + d)) with
  | true => rfl
  | false => exact absurd ⟨hstill, hcomplete⟩ hend

omit hrun hinv in
theorem completed_add (n d e : Nat) :
    completed cfg u i n (d + e) = completed cfg u i n d ++ completed cfg u i (n + d) e := by
  induction e with
  | zero => simp [completed]
  | succ e ih =>
      show completed cfg u i n (d + e) ++ _ = _ ++ (completed cfg u i (n + d) e ++ _)
      rw [ih, List.append_assoc, Nat.add_assoc n d e]
      rfl

theorem all_complete (hfair : Fair u i) (k n : Nat) (hk : k <= (u n).waiting.length) :
    exists d, k <= (completed cfg u i n d).length := by
  induction k generalizing n with
  | zero => exact ⟨0, Nat.zero_le _⟩
  | succ k ih =>
      have hwaits : (u n).waiting ≠ [] := by
        intro hnil
        rw [hnil] at hk
        cases hk
      obtain ⟨d, hnone, hcomplete⟩ := waits_until_complete hrun hinv hfair hwaits
      have hone : (completed cfg u i n (d + 1)).length = 1 := by
        unfold completed
        rw [hnone, hcomplete]
        rfl
      -- one load less waits after the completion
      have hlength : k <= (u (n + (d + 1))).waiting.length := by
        have haccounts := congrArg List.length (waiting_accounts hrun hinv n (d + 1))
        rw [List.length_append, List.length_append, hone] at haccounts
        omega
      obtain ⟨e, he⟩ := ih (n + (d + 1)) hlength
      refine ⟨d + 1 + e, ?_⟩
      rw [completed_add, List.length_append, hone]
      omega

end

/--
A load is not answered in the cycle in which it is accepted.
-/
theorem Inv.ready_or_accept {i : PortIn} (h : t.Inv cfg) (hcycle : Cycle cfg t i)
    (hready : t.respReady cfg i = true) :
    t.mshrAccept cfg i = false := by
  cases haccept : t.mshrAccept cfg i with
  | false => rfl
  | true =>
      have hacc : t.cache.mshrAccept cfg (t.bus i) = true := haccept
      have hread : i.cpu.read = true := by
        cases hread : i.cpu.read with
        | true => rfl
        | false =>
            rw [DCache.mshrAccept_of_not_read hread] at hacc
            cases hacc
      have hactive : (t.bus i).cpu.active = true := DCache.active_of_read hread
      have hwrite : (t.bus i).cpu.write = false :=
        (hcycle.left.request hactive).exclusive hread
      have hmiss : t.cache.hitMain cfg (t.bus i) = false := by
        unfold DCache.mshrAccept DCache.mshrFreshLoadMiss DCache.mshrBusyDispatchMiss
          DCache.hit at hacc
        cases hmain : t.cache.hitMain cfg (t.bus i) with
        | false => rfl
        | true =>
            rw [hmain] at hacc
            simp at hacc
      have hbusy : t.cache.fillAnswers cfg (t.bus i) = true -> False := by
        intro hanswer
        unfold DCache.fillAnswers at hanswer
        simp only [Bool.and_eq_true, Bool.not_eq_true'] at hanswer
        obtain ⟨⟨⟨hnow, hblocking⟩, _⟩, _⟩ := hanswer
        have hstate : t.cache.state = .fill := by
          unfold DCache.mshrCompleteNow at hnow
          simp only [Bool.and_eq_true, beq_iff_eq] at hnow
          exact hnow.left.left
        have hfill := DCache.Inv.fill_of_state h hstate
        have hholds := DCache.blocking_holds h hcycle.left (DCache.head_mem hfill.busy)
          hblocking
        rw [DCache.mshrAccept_busy (by simp [hstate]), hholds.right.right.left] at hacc
        cases hacc
      have hanswers : t.cache.respReady cfg (t.bus i) = true := hready
      unfold DCache.respReady at hanswers
      rw [hwrite, Bool.and_false, Bool.false_or] at hanswers
      rcases Bool.or_eq_true_iff.mp hanswers with hfirst | hhu
      · rcases Bool.or_eq_true_iff.mp hfirst with hhit | hfill
        · have hstate : t.cache.state = .hitRd := by
            unfold DCache.hitAnswers at hhit
            simp only [Bool.and_eq_true, beq_iff_eq] at hhit
            exact hhit.left.left
          rw [DCache.mshrAccept_of_no_dispatch (by simp [hstate])
            (DCache.not_busy (by simp [hstate]) (by simp [hstate]))] at hacc
          cases hacc
        · exact (hbusy hfill).elim
      · have hanswer := DCache.hu_answers (DCache.Inv.ported h) hcycle.left hcycle.right hhu
          hactive
        rw [hmiss] at hanswer
        cases hanswer.right.right.right

/-!
# The refinement
-/

/--
In every run whose cycles are sound: loads that are answered get the value of the
answered stores, also by hit-under-miss; accepted loads complete once each, in order,
with their own register and the value at acceptance; and every word written back is
the flat memory's word of the address it is written to.
-/
theorem mshr_refines_flat (hentries : 1 < cfg.mshrEntries) (hsets : 1 <= cfg.setBits)
    (hreset : s.IsReset cfg)
    (hreach : ReachableWhen (CacheSystem.step cfg) (Cycle cfg) s t) :
    (forall i, Cycle cfg t i -> i.cpu.read = true -> t.respReady cfg i = true ->
      t.respRdata cfg i = Flat.load t.flat i.cpu.addr i.cpu.funct3) ∧
    (forall i, Cycle cfg t i -> t.respReady cfg i = true -> t.mshrAccept cfg i = false) ∧
    (t.cache.mWe = true -> t.cache.mDataO = Flat.word t.flat t.cache.mAddr) ∧
    (forall u i, u 0 = t -> IsRun (CacheSystem.step cfg) (Cycle cfg) u i ->
      (forall n d, (u n).waiting ++ accepted cfg u i n d
        = completed cfg u i n d ++ (u (n + d)).waiting) ∧
      (Fair u i -> forall n, exists d,
        (u n).waiting.length <= (completed cfg u i n d).length)) := by
  have hinv := inv_reachable hreset hsets (by omega) hreach
  refine ⟨?_, ?_, ?_, ?_⟩
  · intro i hcycle hread hready
    exact hinv.read_value hcycle.left hcycle.right hread hready
  · intro i hcycle hready
    exact hinv.ready_or_accept hcycle hready
  · intro hwe
    exact hinv.writeback_value hwe
  · intro u i hstart hrun
    have hall : forall k, (u k).Inv cfg := by
      intro k
      apply inv_reachable hreset hsets (by omega)
      have hk := hrun.reachableWhen k
      rw [hstart] at hk
      exact Relation.ReflTransGen.trans hreach hk
    constructor
    · exact waiting_accounts hrun hall
    · intro hfair n
      exact all_complete hrun hall hfair _ n (Nat.le_refl _)

/-!
# Runs
-/

def twoMisses : DCacheConfig :=
  { wayBits := 1, setBits := 1, wordBits := 1, policy := .roundRobin, victimEntries := 0
    mshrEntries := 2 }

/--
A store, a load of another line that is accepted early, and a load of the stored word
while the miss is served.
-/
def hitUnderMiss : List PortIn :=
  List.replicate 3 (storeWord 0 7) ++ [loadWord 16 false, loadWord 0 false]

theorem mshr_refines_flat_hitUnderMiss :
    exists t, ReachableWhen (CacheSystem.step twoMisses) (Cycle twoMisses)
        (initial (fun _ => 0)) t ∧
      t.waiting = [(1, 0)] ∧ t.respReady twoMisses (loadWord 0 false) = true ∧
      t.respRdata twoMisses (loadWord 0 false) = Flat.load t.flat 0 0b010 := by
  have hreach := reachableWhen_run
    (show Along (CacheSystem.step twoMisses) (Cycle twoMisses) (initial (fun _ => 0)) hitUnderMiss
      by decide +kernel)
  refine ⟨_, hreach, by decide +kernel, by decide +kernel, ?_⟩
  have hall := mshr_refines_flat (by decide) (by decide) (initial_isReset _ _) hreach
  exact hall.left (loadWord 0 false) (by decide +kernel) rfl (by decide +kernel)

/--
The load behind it is answered at once, with the word of the load before.
-/
theorem hitUnderMiss_stale_answer :
    let t := run (CacheSystem.step twoMisses) (initial (fun _ => 0))
      (hitUnderMiss ++ [loadWord 0 false])
    Along (CacheSystem.step twoMisses) CacheSystem.Legal (initial (fun _ => 0))
        (hitUnderMiss ++ [loadWord 0 false, loadWord 4 false]) ∧
      t.respReady twoMisses (loadWord 4 false) = true ∧
      t.respRdata twoMisses (loadWord 4 false) = 7 ∧ Flat.load t.flat 4 0b010 = 0 := by
  decide +kernel

end CacheSystem
end Cache
end RvCores
