import RvCores.Cache.System

/-!
# Caches with one miss register

With a single miss register the caller waits for every miss.  Without a victim
buffer the cache then is a flat memory to its caller, provided that it has several
sets and that nothing is asked of it while it flushes.
-/

namespace RvCores
namespace Cache

open Isa Block Lib

namespace CacheSystem

variable {cfg : DCacheConfig} {s t : CacheSystem} {i : PortIn}

/--
The victim buffer does not move in an idle cycle without a request.
-/
def BufferStill (cfg : DCacheConfig) (s : CacheSystem) (i : PortIn) : Prop :=
  s.cache.state = .idle -> i.cpu.active = false ->
    s.cache.vcDoSwap cfg (s.bus i) = false ∧ s.cache.vcDoInsert cfg (s.bus i) = false

theorem sound_of_single (h : s.Inv cfg) (hlegal : s.Legal i) (hone : cfg.mshrEntries = 1)
    (hbuffer : cfg.victimEntries ≠ 0 -> s.BufferStill cfg i) :
    s.Sound cfg i :=
  DCache.sound_of_single h hlegal hone hbuffer

/-!
# Progress along a run
-/

/--
Every bus request is acknowledged after finitely many cycles.
-/
def Fair (u : Nat -> CacheSystem) (i : Nat -> PortIn) : Prop :=
  forall n, (u n).cache.mCyc = true -> exists m, n <= m ∧ (i m).ack = true

theorem Fair.unstalled {u : Nat -> CacheSystem} {i : Nat -> PortIn} (h : Fair u i) (n : Nat)
    (hstall : (u n).cache.mCyc = true ∧ (i n).ack = false) :
    exists m, n <= m ∧ ¬ ((u m).cache.mCyc = true ∧ (i m).ack = false) := by
  obtain ⟨m, hm, hack⟩ := h n hstall.left
  refine ⟨m, hm, ?_⟩
  rintro ⟨_, hno⟩
  rw [hack] at hno
  cases hno

section

variable {u : Nat -> CacheSystem} {i : Nat -> PortIn}
  {cond : CacheSystem -> PortIn -> Prop}
  (hrun : IsRun (CacheSystem.step cfg) cond u i)

include hrun

theorem work_of_advances {n : Nat} (h : (u n).cache.Advances cfg ((u n).bus (i n))) :
    (u (n + 1)).cache.work cfg < (u n).cache.work cfg ∨
      (((u n).cache.mCyc = true ∧ (i n).ack = false) ∧
        (u (n + 1)).cache.work cfg = (u n).cache.work cfg) := by
  rw [(hrun n).right]
  rcases h with hless | ⟨hcyc, hack, hsame⟩
  · exact Or.inl hless
  · exact Or.inr ⟨⟨hcyc, hack⟩, hsame⟩

/--
A request that is not answered stays on the port.
-/
theorem port_held (hlegal : forall n, (u n).Legal (i n)) {n m : Nat} (hnm : n <= m)
    (hwait : forall k, n <= k -> k < m -> (i k).cpu.active = true ∧
      (u k).respReady cfg (i k) = false ∧ (u k).mshrAccept cfg (i k) = false) :
    (i m).cpu = (i n).cpu := by
  induction m, hnm using Nat.le_induction with
  | base => rfl
  | succ m hm ih =>
      obtain ⟨hactive, hready, haccept⟩ := hwait m hm (Nat.lt_succ_self m)
      have hpend : (u (m + 1)).pend = some (i m).cpu := by
        rw [(hrun m).right]
        show (if _ then _ else _) = _
        rw [hactive, hready, haccept]
        rfl
      have hheld : (i (m + 1)).cpu = (i m).cpu := (hlegal (m + 1)).held _ hpend
      rw [hheld]
      exact ih (fun k hk hlt => hwait k hk (Nat.lt_succ_of_lt hlt))

theorem request_answered (hone : cfg.mshrEntries = 1) (hinv : forall n, (u n).Inv cfg)
    (hlegal : forall n, (u n).Legal (i n)) (hfair : Fair u i) {n : Nat}
    (hactive : (i n).cpu.active = true) :
    exists m, n <= m ∧ (i m).cpu = (i n).cpu ∧ (u m).respReady cfg (i m) = true := by
  let waits := fun k => (i k).cpu.active = true ∧ (u k).respReady cfg (i k) = false
  have hwork : forall k, waits k ->
      (u (k + 1)).cache.work cfg < (u k).cache.work cfg ∨
        (((u k).cache.mCyc = true ∧ (i k).ack = false) ∧
          (u (k + 1)).cache.work cfg = (u k).cache.work cfg) := by
    intro k hk
    apply work_of_advances hrun
    exact DCache.request_advances (hinv k) (hlegal k) (hinv k).backed hone hk.left hk.right
  obtain ⟨m, hm, hall, hend⟩ :=
    @waits_end waits _ (fun k => (u k).cache.work cfg) hwork hfair.unstalled n
  have hcpu : (i m).cpu = (i n).cpu := by
    apply port_held hrun hlegal hm
    intro k hk hlt
    obtain ⟨hk1, hk2⟩ := hall k hk hlt
    refine ⟨hk1, hk2, ?_⟩
    exact DCache.mshrAccept_of_single hone
  refine ⟨m, hm, hcpu, ?_⟩
  cases hready : (u m).respReady cfg (i m) with
  | true => rfl
  | false =>
      rw [← hcpu] at hactive
      exact absurd ⟨hactive, hready⟩ hend

end

/-!
# Without a victim buffer
-/

theorem blocking_inv (hone : cfg.mshrEntries = 1) (hnone : cfg.victimEntries = 0)
    (hsets : 1 <= cfg.setBits) (hreset : s.IsReset cfg)
    (hreach : ReachableWhen (CacheSystem.step cfg) CacheSystem.Legal s t) :
    t.Inv cfg := by
  refine @invariant_of_reachableWhen _ _ _ _ (fun u => u.Inv cfg) s t
    (hreset.inv hsets (by omega)) ?_ hreach
  intro u i hu hlegal
  exact hu.step hlegal (sound_of_single hu hlegal hone (fun h => absurd hnone h))

def storeThenLoad : List PortIn :=
  let load : CpuPort :=
    { read := true, write := false, addr := 9, wdata := 0, funct3 := 0b000
      destReg := 1, intLoad := true }
  [{ storeWord 8 0xABCD with ack := false }, { storeWord 8 0xABCD with ack := false },
    storeWord 8 0xABCD, { storeWord 8 0xABCD with ack := false }, storeWord 8 0xABCD,
    { cpu := load, flushAll := false, ack := false }]

end CacheSystem
end Cache
end RvCores
