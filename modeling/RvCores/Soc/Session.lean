import RvCores.Block.RamPort
import RvCores.Lib.Run

/-!
# A master at the memory port

A master presents one request after the other and holds each until it is
acknowledged.  The walker and the data cache take the word of a read in the cycle
of the acknowledge.  The load unit leaves the request on the bus for one more
cycle and takes the word there.
-/

namespace RvCores
namespace Soc

open Block

variable {w : Nat}

/-!
# Memory as the program sees it
-/

/--
The word a read returns when it finds these bytes in memory.
-/
def loadValue (size : Nat) (mem : Bytes) (addr : BitVec w) (funct3 : BitVec 3) : BitVec w :=
  DataMemory.readData
    { bytes := mem, rawWord := DataMemory.fetchRaw size mem addr, funct3R := funct3
      memReadR := true }

structure Outcome (w : Nat) where
  mem : Bytes
  answers : List (Option (BitVec w))

def serve (size : Nat) (o : Outcome w) (b : BusCycle w) : Outcome w :=
  if b.we then
    { mem := DataMemory.storeBytes size o.mem b.memRequest, answers := o.answers ++ [none] }
  else
    { o with answers := o.answers ++ [some (loadValue size o.mem b.addr b.funct3)] }

/--
The requests one after the other, each at once.
-/
def replay (size : Nat) (mem : Bytes) (requests : List (BusCycle w)) : Outcome w :=
  requests.foldl (serve size) { mem := mem, answers := [] }

/-!
# The master
-/

/--
What a master offers in one cycle.  A late access is one of the load unit's.
-/
structure Access (w : Nat) where
  bus : BusCycle w
  late : Bool
deriving DecidableEq

def Access.heldOver (a : Access w) : Bool := a.late && !a.bus.we

inductive Phase (w : Nat) where
  | idle
  | waiting (a : Access w)
  | holding (a : Access w)
deriving DecidableEq

/--
The request in service has been on the bus for `age` cycles.  Whether it continues
a burst was said by the request before it.
-/
structure Session (P : RamPort w) where
  port : P.State
  phase : Phase w
  age : Nat
  continues : Bool
  burst : Bool
  requests : List (BusCycle w)
  answers : List (Option (BitVec w))

namespace Session

variable {P : RamPort w}

def start (port : P.State) : Session P :=
  { port := port, phase := .idle, age := 0, continues := false, burst := false
    requests := [], answers := [] }

def current (s : Session P) (offer : Access w) : Access w :=
  match s.phase with
  | .idle => offer
  | .waiting a => a
  | .holding a => a

def currentAge (s : Session P) : Nat :=
  match s.phase with
  | .idle => 0
  | .waiting _ => s.age
  | .holding _ => s.age

def currentContinues (s : Session P) : Bool :=
  match s.phase with
  | .idle => s.burst
  | .waiting _ => s.continues
  | .holding _ => s.continues

def finish (s : Session P) (a : Access w) : Session P :=
  { s with
    phase := .idle
    requests := s.requests ++ [a.bus]
    answers := s.answers ++ [if a.bus.we then none else some (P.dataI s.port)] }

/--
The port's clock edge, and what the master learned in the cycle.
-/
def tick (s : Session P) (a : Access w) : Session P :=
  { s with
    port := P.step s.port a.bus
    age := s.currentAge + 1
    continues := s.currentContinues
    burst := a.bus.cti == ctiIncrBurst }

def attend (s : Session P) (a : Access w) : Session P :=
  if P.ack s.port a.bus then
    if a.heldOver then { s.tick a with phase := .holding a }
    else { s.finish a with port := P.step s.port a.bus, burst := a.bus.cti == ctiIncrBurst }
  else { s.tick a with phase := .waiting a }

def step (s : Session P) (offer : Access w) : Session P :=
  match s.phase with
  | .idle =>
      if offer.bus.stb then s.attend offer
      else { s with port := P.step s.port offer.bus }
  | .waiting a => s.attend a
  | .holding a =>
      { s.finish a with port := P.step s.port a.bus, burst := a.bus.cti == ctiIncrBurst }

/--
A request is first presented in this cycle.
-/
def Presents (s : Session P) (offer : Access w) : Prop :=
  s.phase = .idle ∧ offer.bus.stb = true

/-!
# Serving in order

Enough about a port to show that the answers of a session are those of the memory
served one request at a time: what is known of it between requests, while it
attends to one, and while one is held over.
-/

structure Discipline (P : RamPort w) (size : Nat) where
  Ready : P.State -> Access w -> Prop
  Idle : P.State -> Bool -> Prop
  Attending : P.State -> Access w -> Nat -> Bool -> Prop
  Held : P.State -> Access w -> Prop
  bytes_step : forall p b, P.bytes (P.step p b) =
    if b.memWrite then DataMemory.storeBytes size (P.bytes p) b.memRequest else P.bytes p
  idle_step : forall {p burst b}, Idle p burst -> b.stb = false -> Idle (P.step p b) burst
  present : forall {p burst a}, Idle p burst -> a.bus.stb = true -> Ready p a ->
    Attending p a 0 burst
  wait : forall {p a age cont}, Attending p a age cont -> P.ack p a.bus = false ->
    Attending (P.step p a.bus) a (age + 1) cont
  answer : forall {p a age cont}, Attending p a age cont -> P.ack p a.bus = true ->
    a.bus.we = false -> a.late = false ->
      P.dataI p = loadValue size (P.bytes p) a.bus.addr a.bus.funct3
  finish : forall {p a age cont}, Attending p a age cont -> P.ack p a.bus = true ->
    a.heldOver = false -> Idle (P.step p a.bus) (a.bus.cti == ctiIncrBurst)
  hold : forall {p a age cont}, Attending p a age cont -> P.ack p a.bus = true ->
    a.heldOver = true -> Held (P.step p a.bus) a
  held_answer : forall {p a}, Held p a ->
    P.dataI p = loadValue size (P.bytes p) a.bus.addr a.bus.funct3
  held_finish : forall {p a}, Held p a ->
    Idle (P.step p a.bus) (a.bus.cti == ctiIncrBurst)

namespace Discipline

variable {size : Nat} (D : Discipline P size)

/--
A request that is first presented finds the port ready for it.
-/
def Permits (s : Session P) (offer : Access w) : Prop :=
  s.Presents offer -> D.Ready s.port offer

/--
Memory already has the write of a request that waits.
-/
def InOrder (mem : Bytes) (s : Session P) : Prop :=
  s.answers = (replay size mem s.requests).answers ∧
  match s.phase with
  | .idle =>
      P.bytes s.port = (replay size mem s.requests).mem ∧ D.Idle s.port s.burst
  | .waiting a =>
      a.bus.stb = true ∧
      P.bytes s.port = (serve size (replay size mem s.requests) a.bus).mem ∧
      D.Attending s.port a s.age s.continues
  | .holding a =>
      a.bus.stb = true ∧ a.bus.we = false ∧
      P.bytes s.port = (replay size mem s.requests).mem ∧ D.Held s.port a

variable {D} {mem : Bytes} {s : Session P} {a : Access w}

theorem serve_write {o : Outcome w} {b : BusCycle w} (hwe : b.we = true) :
    (serve size o b).mem = DataMemory.storeBytes size o.mem b.memRequest := by
  simp [serve, hwe]

theorem serve_read {o : Outcome w} {b : BusCycle w} (hwe : b.we = false) :
    (serve size o b).mem = o.mem := by
  simp [serve, hwe]

theorem replay_append (requests : List (BusCycle w)) (b : BusCycle w) :
    replay size mem (requests ++ [b]) = serve size (replay size mem requests) b := by
  simp [replay, List.foldl_append]

/--
A write that stays on the bus is done again in every cycle, with the same result.
-/
theorem bytes_attend (D : Discipline P size) (hstb : a.bus.stb = true) {o : Outcome w} {p : P.State}
    (hbytes : P.bytes p = o.mem ∨ P.bytes p = (serve size o a.bus).mem) :
    P.bytes (P.step p a.bus) = (serve size o a.bus).mem := by
  rw [D.bytes_step]
  cases hwe : a.bus.we with
  | false =>
      have hread : a.bus.memWrite = false := by simp [BusCycle.memWrite, hwe]
      rw [hread, serve_read hwe]
      rw [serve_read hwe] at hbytes
      simpa using hbytes
  | true =>
      have hwrite : a.bus.memWrite = true := by simp [BusCycle.memWrite, hstb, hwe]
      rw [if_pos hwrite]
      rcases hbytes with hbytes | hbytes
      · rw [hbytes, serve_write hwe]
      · rw [hbytes, serve_write hwe]
        exact DataMemory.storeBytes_twice size o.mem a.bus.memRequest

theorem finish_inOrder (hanswers : s.answers = (replay size mem s.requests).answers)
    (hvalue : a.bus.we = false ->
      P.dataI s.port =
        loadValue size (replay size mem s.requests).mem a.bus.addr a.bus.funct3) :
    (s.finish a).answers = (replay size mem (s.finish a).requests).answers := by
  show s.answers ++ [if a.bus.we then none else some (P.dataI s.port)] =
    (replay size mem (s.requests ++ [a.bus])).answers
  rw [replay_append, hanswers]
  cases hwe : a.bus.we with
  | false => simp [serve, hwe, hvalue hwe]
  | true => simp [serve, hwe]

theorem attend_inOrder (hanswers : s.answers = (replay size mem s.requests).answers)
    (hstb : a.bus.stb = true)
    (hbytes : P.bytes s.port = (replay size mem s.requests).mem ∨
      P.bytes s.port = (serve size (replay size mem s.requests) a.bus).mem)
    (hattending : D.Attending s.port a s.currentAge s.currentContinues) :
    D.InOrder mem (s.attend a) := by
  have hnext := bytes_attend D hstb hbytes
  cases hack : P.ack s.port a.bus with
  | false =>
      have hform : s.attend a = { s.tick a with phase := .waiting a } := by
        simp [attend, hack]
      rw [hform]
      exact ⟨hanswers, hstb, hnext, D.wait hattending hack⟩
  | true =>
      cases hheld : a.heldOver with
      | true =>
          have hwe : a.bus.we = false := by
            simp only [Access.heldOver, Bool.and_eq_true, Bool.not_eq_true'] at hheld
            exact hheld.right
          have hform : s.attend a = { s.tick a with phase := .holding a } := by
            simp [attend, hack, hheld]
          rw [hform]
          rw [serve_read hwe] at hnext
          exact ⟨hanswers, hstb, hwe, hnext, D.hold hattending hack hheld⟩
      | false =>
          have hform : s.attend a =
              { s.finish a with
                port := P.step s.port a.bus, burst := a.bus.cti == ctiIncrBurst } := by
            simp [attend, hack, hheld]
          have hvalue : a.bus.we = false ->
              P.dataI s.port =
                loadValue size (replay size mem s.requests).mem a.bus.addr a.bus.funct3 := by
            intro hwe
            have hlate : a.late = false := by
              simpa [Access.heldOver, hwe] using hheld
            rw [D.answer hattending hack hwe hlate]
            rw [serve_read hwe] at hbytes
            rw [show P.bytes s.port = (replay size mem s.requests).mem by simpa using hbytes]
          rw [hform]
          refine ⟨finish_inOrder hanswers hvalue, ?_, D.finish hattending hack hheld⟩
          show P.bytes (P.step s.port a.bus) = (replay size mem (s.requests ++ [a.bus])).mem
          rw [hnext, replay_append]

theorem step_inOrder {offer : Access w} (h : D.InOrder mem s) (hpermits : D.Permits s offer) :
    D.InOrder mem (s.step offer) := by
  obtain ⟨hanswers, hphase⟩ := h
  cases hp : s.phase with
  | idle =>
      rw [hp] at hphase
      obtain ⟨hbytes, hidle⟩ := hphase
      cases hstb : offer.bus.stb with
      | true =>
          have hready := hpermits ⟨hp, hstb⟩
          have hform : s.step offer = s.attend offer := by simp [step, hp, hstb]
          rw [hform]
          refine attend_inOrder hanswers hstb (Or.inl hbytes) ?_
          have hage : s.currentAge = 0 := by simp [currentAge, hp]
          have hcont : s.currentContinues = s.burst := by simp [currentContinues, hp]
          rw [hage, hcont]
          exact D.present hidle hstb hready
      | false =>
          have hform : s.step offer = { s with port := P.step s.port offer.bus } := by
            simp [step, hp, hstb]
          have hquiet : offer.bus.memWrite = false := by simp [BusCycle.memWrite, hstb]
          have hbytes' : P.bytes (P.step s.port offer.bus) =
              (replay size mem s.requests).mem := by
            rw [D.bytes_step, hquiet]
            exact hbytes
          rw [hform]
          refine ⟨hanswers, ?_⟩
          simp only [hp]
          exact ⟨hbytes', D.idle_step hidle hstb⟩
  | waiting a =>
      rw [hp] at hphase
      obtain ⟨hstb, hbytes, hattending⟩ := hphase
      have hform : s.step offer = s.attend a := by simp [step, hp]
      have hage : s.currentAge = s.age := by simp [currentAge, hp]
      have hcont : s.currentContinues = s.continues := by simp [currentContinues, hp]
      rw [hform]
      refine attend_inOrder hanswers hstb (Or.inr hbytes) ?_
      rw [hage, hcont]
      exact hattending
  | holding a =>
      rw [hp] at hphase
      obtain ⟨hstb, hwe, hbytes, hheld⟩ := hphase
      have hform : s.step offer =
          { s.finish a with
            port := P.step s.port a.bus, burst := a.bus.cti == ctiIncrBurst } := by
        simp [step, hp]
      have hnext := bytes_attend D hstb (Or.inl hbytes)
      rw [hform]
      refine ⟨finish_inOrder hanswers ?_, ?_, D.held_finish hheld⟩
      · intro _
        rw [D.held_answer hheld, hbytes]
      · show P.bytes (P.step s.port a.bus) = (replay size mem (s.requests ++ [a.bus])).mem
        rw [hnext, replay_append]

theorem run_inOrder {port : P.State} (hidle : D.Idle port false) {t : Session P}
    (hrun : Lib.ReachableWhen Session.step D.Permits (Session.start port) t) :
    D.InOrder (P.bytes port) t := by
  refine Lib.invariant_of_reachableWhen ?_ (fun _ _ => step_inOrder) hrun
  exact ⟨rfl, rfl, hidle⟩

end Discipline

end Session
end Soc
end RvCores
