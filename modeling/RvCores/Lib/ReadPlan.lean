import Mathlib.Data.List.Basic

/-!
# Plans of reads

A plan reads a memory some times, each time at an address that depends on the earlier
answers, and ends with a result.  A reader carries out plans over a bus that answers after
any time.
-/

namespace RvCores
namespace Lib

inductive ReadPlan (A D R : Type) where
  | answer (r : R)
  | read (a : A) (next : D -> ReadPlan A D R)

namespace ReadPlan

variable {A D R : Type}

def result (mem : A -> D) : ReadPlan A D R -> R
  | answer r => r
  | read a next => result mem (next (mem a))

/--
The addresses that a plan reads, in order.
-/
def path (mem : A -> D) : ReadPlan A D R -> List A
  | answer _ => []
  | read a next => a :: path mem (next (mem a))

end ReadPlan

/--
While it asks, a reader holds the address and what it does with the answer; when it has
the answer it works a cycle without the bus.
-/
structure Reader (U I A D R : Type) where
  step : U -> I -> U
  start : I -> Bool
  plan : I -> ReadPlan A D R
  busy : U -> Bool
  done : U -> Bool
  outcome : U -> R
  cyc : U -> Bool
  addr : U -> A
  ack : I -> Bool
  data : I -> D
  Rests : U -> Prop
  Asks : A -> (D -> ReadPlan A D R) -> U -> Prop
  Decodes : ReadPlan A D R -> U -> Prop

namespace Reader

variable {U I A D R : Type} (S : Reader U I A D R)

structure Finished (r : R) (u : U) : Prop where
  rests : S.Rests u
  done : S.done u = true
  outcome : S.outcome u = r

/--
The next thing that the plan says.
-/
def Follows : ReadPlan A D R -> U -> Prop
  | .answer r => S.Finished r
  | .read a next => S.Asks a next

/-!
# Laws
-/

structure Lawful : Prop where
  rests_cyc : forall {u}, S.Rests u -> S.cyc u = false
  asks_busy : forall {a next u}, S.Asks a next u -> S.busy u = true
  asks_done : forall {a next u}, S.Asks a next u -> S.done u = false
  asks_cyc : forall {a next u}, S.Asks a next u -> S.cyc u = true
  asks_addr : forall {a next u}, S.Asks a next u -> S.addr u = a
  decodes_busy : forall {p u}, S.Decodes p u -> S.busy u = true
  decodes_done : forall {p u}, S.Decodes p u -> S.done u = false
  decodes_cyc : forall {p u}, S.Decodes p u -> S.cyc u = false
  begin : forall {u i}, S.Rests u -> S.done u = false -> S.start i = true ->
    S.Follows (S.plan i) (S.step u i)
  rest : forall {u i}, S.Rests u -> S.done u = true ∨ S.start i = false ->
    S.Rests (S.step u i) ∧ S.done (S.step u i) = false
  stay : forall {a next u i}, S.Asks a next u -> S.ack i = false -> S.Asks a next (S.step u i)
  answer : forall {a next u i}, S.Asks a next u -> S.ack i = true ->
    S.Decodes (next (S.data i)) (S.step u i)
  decode : forall {p u} i, S.Decodes p u -> S.Follows p (S.step u i)

/-!
# Runs
-/

def run (u : U) (j : Nat -> I) : Nat -> U
  | 0 => u
  | m + 1 => S.step (run u j m) (j m)

/--
The addresses of the requests that were answered, in order.
-/
def reads (u : U) (j : Nat -> I) : Nat -> List A
  | 0 => []
  | m + 1 =>
      reads u j m ++ if S.cyc (S.run u j m) && S.ack (j m) then [S.addr (S.run u j m)] else []

/--
The memory answers every request at some time, with what it holds.
-/
structure Answers (mem : A -> D) (u : U) (j : Nat -> I) : Prop where
  data : forall m, S.cyc (S.run u j m) = true -> S.ack (j m) = true ->
    S.data (j m) = mem (S.addr (S.run u j m))
  ack : forall m, S.cyc (S.run u j m) = true -> exists d, S.ack (j (m + d)) = true

/--
The reader works from one cycle to another, without a pulse, and asks for nothing but
some addresses.
-/
structure Works (u : U) (j : Nat -> I) (path : List A) (m n : Nat) : Prop where
  le : m <= n
  busy : forall k, m <= k -> k < n -> S.busy (S.run u j k) = true
  done : forall k, m <= k -> k < n -> S.done (S.run u j k) = false
  asks : forall k, m <= k -> k < n -> S.cyc (S.run u j k) = true ->
    S.addr (S.run u j k) ∈ path

variable {S} {u : U} {j : Nat -> I} {mem : A -> D} {path path' : List A}

theorem reads_quiet {m : Nat} (h : S.cyc (S.run u j m) = false ∨ S.ack (j m) = false) :
    S.reads u j (m + 1) = S.reads u j m := by
  simp only [reads]
  rcases h with h | h <;> simp [h]

theorem reads_answer {m : Nat} (hcyc : S.cyc (S.run u j m) = true)
    (hack : S.ack (j m) = true) :
    S.reads u j (m + 1) = S.reads u j m ++ [S.addr (S.run u j m)] := by
  simp only [reads, hcyc, hack, Bool.and_self, if_true]

theorem Works.mono {m n : Nat} (h : S.Works u j path m n)
    (hsub : forall a, a ∈ path -> a ∈ path') :
    S.Works u j path' m n :=
  ⟨h.le, h.busy, h.done, fun k hk hlt hcyc => hsub _ (h.asks k hk hlt hcyc)⟩

theorem Works.trans {m n l : Nat} (h : S.Works u j path m n) (h' : S.Works u j path n l) :
    S.Works u j path m l := by
  constructor
  · exact Nat.le_trans h.le h'.le
  · intro k hk hlt
    rcases Nat.lt_or_ge k n with hbefore | hafter
    · exact h.busy k hk hbefore
    · exact h'.busy k hafter hlt
  · intro k hk hlt
    rcases Nat.lt_or_ge k n with hbefore | hafter
    · exact h.done k hk hbefore
    · exact h'.done k hafter hlt
  · intro k hk hlt
    rcases Nat.lt_or_ge k n with hbefore | hafter
    · exact h.asks k hk hbefore
    · exact h'.asks k hafter hlt

theorem works_succ {m : Nat} (hbusy : S.busy (S.run u j m) = true)
    (hdone : S.done (S.run u j m) = false)
    (hasks : S.cyc (S.run u j m) = true -> S.addr (S.run u j m) ∈ path) :
    S.Works u j path m (m + 1) := by
  have hsame {k : Nat} (hk : m <= k) (hlt : k < m + 1) : k = m := by omega
  constructor
  · exact Nat.le_succ m
  · intro k hk hlt
    rw [hsame hk hlt]
    exact hbusy
  · intro k hk hlt
    rw [hsame hk hlt]
    exact hdone
  · intro k hk hlt
    rw [hsame hk hlt]
    exact hasks

namespace Lawful

variable {a : A} {next : D -> ReadPlan A D R} {m : Nat}

theorem works_asking (hS : S.Lawful) (h : S.Asks a next (S.run u j m)) (ha : a ∈ path) :
    S.Works u j path m (m + 1) := by
  apply works_succ (hS.asks_busy h) (hS.asks_done h)
  intro _
  rw [hS.asks_addr h]
  exact ha

theorem works_decoding {p : ReadPlan A D R} (hS : S.Lawful) (h : S.Decodes p (S.run u j m)) :
    S.Works u j path m (m + 1) := by
  apply works_succ (hS.decodes_busy h) (hS.decodes_done h)
  intro hcyc
  rw [hS.decodes_cyc h] at hcyc
  cases hcyc

/--
A request stays on the bus until it is answered.
-/
theorem waits_for_answer (hS : S.Lawful) (hmem : S.Answers mem u j)
    (h : S.Asks a next (S.run u j m)) (d : Nat) (hack : S.ack (j (m + d)) = true) :
    exists n, m < n ∧ S.Works u j [a] m n ∧ S.Decodes (next (mem a)) (S.run u j n) ∧
      S.reads u j n = S.reads u j m ++ [a] := by
  have hasking : S.Works u j [a] m (m + 1) := hS.works_asking h (List.mem_singleton_self a)
  have hcyc := hS.asks_cyc h
  induction d generalizing m with
  | zero =>
      have hnow : S.ack (j m) = true := hack
      have hread : S.Decodes (next (S.data (j m))) (S.run u j (m + 1)) := hS.answer h hnow
      rw [hmem.data m hcyc hnow, hS.asks_addr h] at hread
      refine ⟨m + 1, Nat.lt_succ_self m, hasking, hread, ?_⟩
      rw [reads_answer hcyc hnow, hS.asks_addr h]
  | succ d ih =>
      cases hnow : S.ack (j m) with
      | true =>
          have hread : S.Decodes (next (S.data (j m))) (S.run u j (m + 1)) := hS.answer h hnow
          rw [hmem.data m hcyc hnow, hS.asks_addr h] at hread
          refine ⟨m + 1, Nat.lt_succ_self m, hasking, hread, ?_⟩
          rw [reads_answer hcyc hnow, hS.asks_addr h]
      | false =>
          have hnext : S.ack (j (m + 1 + d)) = true := by
            rwa [Nat.add_right_comm, Nat.add_assoc]
          have hstay : S.Asks a next (S.run u j (m + 1)) := hS.stay h hnow
          obtain ⟨n, hlt, hworks, hdecodes, hreads⟩ :=
            ih hstay hnext (hS.works_asking hstay (List.mem_singleton_self a))
              (hS.asks_cyc hstay)
          refine ⟨n, Nat.lt_of_succ_lt hlt, hasking.trans hworks, hdecodes, ?_⟩
          rw [hreads, reads_quiet (Or.inr hnow)]

/--
From any point of a plan on it is carried out, by induction on the plan.
-/
theorem carries_out (hS : S.Lawful) (hmem : S.Answers mem u j) (p : ReadPlan A D R)
    (h : S.Follows p (S.run u j m)) :
    exists n, S.Works u j (p.path mem) m n ∧ S.Finished (p.result mem) (S.run u j n) ∧
      S.reads u j n = S.reads u j m ++ p.path mem := by
  induction p generalizing m with
  | answer r =>
      refine ⟨m, ⟨Nat.le_refl m, ?_, ?_, ?_⟩, h, ?_⟩
      · intro k hk hlt
        exact absurd hk (by omega)
      · intro k hk hlt
        exact absurd hk (by omega)
      · intro k hk hlt
        exact absurd hk (by omega)
      · simp [ReadPlan.path]
  | read a next ih =>
      obtain ⟨d, hack⟩ := hmem.ack m (hS.asks_cyc h)
      obtain ⟨n, _, hasks, hdecodes, hread⟩ := hS.waits_for_answer hmem h d hack
      have hnext : S.Follows (next (mem a)) (S.run u j (n + 1)) := hS.decode (j n) hdecodes
      obtain ⟨l, hrest, hfinished, hreads⟩ := ih (mem a) hnext
      have hhead : S.Works u j (ReadPlan.path mem (.read a next)) m n := by
        apply hasks.mono
        intro b hb
        rw [List.mem_singleton.mp hb]
        exact List.mem_cons_self
      have htail : S.Works u j (ReadPlan.path mem (.read a next)) (n + 1) l := by
        apply hrest.mono
        intro b hb
        exact List.mem_cons_of_mem a hb
      refine ⟨l, (hhead.trans (hS.works_decoding hdecodes)).trans htail, hfinished, ?_⟩
      rw [hreads, reads_quiet (Or.inl (hS.decodes_cyc hdecodes)), hread, List.append_assoc]
      rfl

/--
A reader that has finished shows no pulse until it is started again.
-/
theorem rests_quiet (hS : S.Lawful) {n : Nat} (hrests : S.Rests (S.run u j n))
    (hdone : S.done (S.run u j n) = true) {m : Nat} (hm : n < m)
    (hquiet : forall k, n < k -> k < m -> S.start (j k) = false) :
    S.Rests (S.run u j m) ∧ S.done (S.run u j m) = false := by
  induction m with
  | zero => exact absurd hm (Nat.not_lt_zero n)
  | succ m ih =>
      rcases Nat.eq_or_lt_of_le (Nat.le_of_lt_succ hm) with heq | hlt
      · rw [← heq]
        exact hS.rest hrests (Or.inl hdone)
      · have hbefore := ih hlt fun k hk hlt => hquiet k hk (Nat.lt_succ_of_lt hlt)
        exact hS.rest hbefore.left (Or.inr (hquiet m hlt (Nat.lt_succ_self m)))

/--
A started reader carries out the plan of the first cycle and shows its result with one
pulse.
-/
theorem started (hS : S.Lawful) (hmem : S.Answers mem u j) (hrests : S.Rests u)
    (hdone : S.done u = false) (hstart : S.start (j 0) = true) :
    exists n, 0 < n ∧
      S.Works u j ((S.plan (j 0)).path mem) 1 n ∧
      S.Finished ((S.plan (j 0)).result mem) (S.run u j n) ∧
      S.reads u j n = (S.plan (j 0)).path mem ∧
      forall m, n < m -> (forall k, n < k -> k < m -> S.start (j k) = false) ->
        S.done (S.run u j m) = false := by
  have hbegin : S.Follows (S.plan (j 0)) (S.run u j 1) := hS.begin hrests hdone hstart
  obtain ⟨n, hworks, hfinished, hreads⟩ := hS.carries_out hmem (S.plan (j 0)) hbegin
  have hnone : S.reads u j 1 = [] := reads_quiet (Or.inl (hS.rests_cyc hrests))
  refine ⟨n, hworks.le, hworks, hfinished, ?_, ?_⟩
  · rw [hreads, hnone, List.nil_append]
  · intro m hm hquiet
    exact (hS.rests_quiet hfinished.rests hfinished.done hm hquiet).right

end Lawful
end Reader
end Lib
end RvCores
