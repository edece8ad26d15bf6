import RentalProxy.Connections
import RentalProxy.Registry

/-!
# Who is registered

The handlers of all connections, SV1 and SV2, and the reapers of empty rigs put sessions into the
registry and take them out.  `State` is what they share with the program counter of each, and
`step` runs one of them up to the next point where another may come in between.

* An SV1 miner is registered when it authorizes, and deregistered under the label that its session
  has when the miner loop ends.
* An SV2 connection joins the rig of its worker or builds a session of its own.  The gate of the
  worker is held meanwhile, and by a reaper that takes a rig down.
* `Transition` lists the steps.

A session has the id of the connection that built it.  `authorized` and `torn` record the sessions
that were registered and those that were torn down; no step reads them.
-/

namespace RentalProxy

open Sv1 (PoolAnswer connectRaw bootstrapGeneration bootstrap installRaw)
open Sv2 (initialTarget placeholder attachMember detachMember firstMember)

/-! ## The tasks -/

namespace Registration

/-- Where the handler of a connection stands. -/
inductive Handler where
  /-- It has returned. -/
  | closed
  /-- SV1: the miner is served, authorized or not. -/
  | relaying
  /-- The label is set; the session is still to be registered. -/
  | registering (worker : String)
  /-- The miner loop has ended. -/
  | leaving
  /-- SV2: waits for the gate of the worker. -/
  | opening (worker : String) (o : Opening)
  | gated (worker : String) (o : Opening)
  /-- The worker has a rig. -/
  | found (worker : String) (o : Opening) (rig : Nat)
  /-- No rig takes the connection. -/
  | connecting (worker : String) (o : Opening)
  /-- The fresh session is connected; it is still to be registered. -/
  | installed (worker : String)
  /-- The fresh session is registered. -/
  | registered (worker : String)
  /-- A member of a session is served. -/
  | serving (session member : Nat)
  /-- The last member of the session has been detached. -/
  | detached (session : Nat)
  /-- The session was the rig of its worker. -/
  | resting (session : Nat) (worker : String)
  /-- The session was not the rig of its worker. -/
  | removing (session : Nat) (worker : String)

/-- How far a reaper is. -/
inductive ReaperStage where
  | asleep
  /-- It has the gate of the worker. -/
  | awake
  /-- The rig is idle, under the token of the reaper. -/
  | expired
  /-- The rig is out of `sv2_rigs`. -/
  | unlisted
deriving DecidableEq

/-- `reap_idle_rig`. -/
structure Reaper where
  rig : Nat
  worker : String
  token : Nat
  stage : ReaperStage

/-- Who holds the gate of a worker. -/
inductive Holder where
  | handler (c : Nat)
  | reaper (k : Nat)
deriving DecidableEq

structure State where
  /-- The number of connections so far. -/
  accepted : Nat
  handler : Nat → Handler
  session : Nat → Option AnySession
  registry : Registry
  /-- `sv2_rigs`. -/
  rigs : String → Option Nat
  gate : String → Option Holder
  idleToken : Nat → Nat
  /-- The number of reapers so far. -/
  spawned : Nat
  reaper : Nat → Option Reaper
  authorized : List Nat
  torn : List Nat

/-- A step of one handler or task. -/
inductive Event where
  /-- SV1: a miner connects, and the pool answers the bootstrap connect. -/
  | handshake (target : UpstreamTarget) (answer : PoolAnswer) (peer : String)
  /-- The miner authorizes; `known` says whether the worker has an order or a pool. -/
  | authorize (c : Nat) (worker : String) (known : Bool)
  | insert (c : Nat)
  /-- The miner loop ends: a hang-up, a read error, or a pool change. -/
  | hangUp (c : Nat)
  | deregister (c : Nat)
  /-- SV2: the first open of a connection, with the order and the pool of its worker. -/
  | openChannel (worker : String) (o : Opening)
  | enter (c : Nat)
  | look (c : Nat)
  | bundle (c : Nat)
  /-- A fresh session connects, and the pools answer. -/
  | connect (c : Nat) (reach : Sv2.Reach)
  | register (c : Nat)
  | publish (c : Nat)
  /-- The downstream loop ends. -/
  | leave (c : Nat)
  | check (c : Nat)
  | rest (c : Nat)
  | remove (c : Nat)
  /-- The grace of a reaper is over. -/
  | wake (k : Nat)
  | inspect (k : Nat)
  | unlist (k : Nat)
  | reap (k : Nat)
  /-- Anything else that a session does. -/
  | traffic (c : Nat) (x : AnySession)

/-- The connection whose handler takes the step. -/
def Event.connection? : Event → Option Nat
  | .authorize c .. | .insert c | .hangUp c | .deregister c | .enter c | .look c | .bundle c
  | .connect c _ | .register c | .publish c | .leave c | .check c | .rest c | .remove c => some c
  | _ => none

/-- The reaper that takes the step. -/
def Event.reaping? : Event → Option Nat
  | .wake k | .inspect k | .unlist k | .reap k => some k
  | _ => none

end Registration

/-- A connect that failed has left an open pending: it has installed the upstream before. -/
def Sv2.Inner.halfOpen (i : Sv2.Inner) : Bool := !i.pending.entries.isEmpty

namespace AnySession

def isSv2 : AnySession → Bool
  | .sv1 _ => false
  | .sv2 _ => true

def label : AnySession → String
  | .sv1 i => i.label
  | .sv2 i => i.label

/-- The members that a session of the SV2 relay serves. -/
def members : AnySession → List Nat
  | .sv1 _ => []
  | .sv2 i => i.members

def nextMemberId : AnySession → Nat
  | .sv1 _ => 0
  | .sv2 i => i.nextMemberId

/-- The session keeps its label and its members. -/
structure Keeps (x y : AnySession) : Prop where
  isSv2 : y.isSv2 = x.isSv2
  label : y.label = x.label
  members : y.members = x.members
  nextMemberId : y.nextMemberId = x.nextMemberId

instance (x y : AnySession) : Decidable (x.Keeps y) :=
  decidable_of_iff (y.isSv2 = x.isSv2 ∧ y.label = x.label ∧ y.members = x.members ∧
      y.nextMemberId = x.nextMemberId)
    ⟨fun h => ⟨h.1, h.2.1, h.2.2.1, h.2.2.2⟩,
      fun h => ⟨h.isSv2, h.label, h.members, h.nextMemberId⟩⟩

end AnySession

namespace Registration

namespace State

def goto (s : State) (c : Nat) (h : Handler) : State :=
  { s with handler := Function.update s.handler c h }

def put (s : State) (c : Nat) (x : AnySession) : State :=
  { s with session := Function.update s.session c (some x) }

/-- The session is registered. -/
def enlist (s : State) (c : Nat) (worker : String) : State :=
  { s with registry := s.registry.insert worker c, authorized := c :: s.authorized }

/-- The session is torn down. -/
def delist (s : State) (c : Nat) (worker : String) : State :=
  { s with registry := s.registry.removeIf worker c, torn := c :: s.torn }

def setGate (s : State) (worker : String) (holder : Option Holder) : State :=
  { s with gate := Function.update s.gate worker holder }

def setReaper (s : State) (k : Nat) (reaper : Option Reaper) : State :=
  { s with reaper := Function.update s.reaper k reaper }

/-- `insert_if_absent`. -/
def insertIfAbsent (s : State) (worker : String) (rig : Nat) : State :=
  { s with
    rigs := if s.rigs worker = none then Function.update s.rigs worker (some rig) else s.rigs }

/-- `Sv2RigRegistry::remove`. -/
def removeRig (s : State) (worker : String) (rig : Nat) : State :=
  { s with
    rigs := if s.rigs worker = some rig then Function.update s.rigs worker none else s.rigs }

/-- A connection is accepted. -/
def accept (s : State) (h : Handler) : State :=
  { s with accepted := s.accepted + 1 }.goto s.accepted h

@[simp] theorem goto_handler (s : State) (c : Nat) (h : Handler) :
    (s.goto c h).handler = Function.update s.handler c h := rfl

@[simp] theorem accept_handler (s : State) (h : Handler) :
    (s.accept h).handler = Function.update s.handler s.accepted h := rfl

@[simp] theorem put_session (s : State) (c : Nat) (x : AnySession) :
    (s.put c x).session = Function.update s.session c (some x) := rfl

@[simp] theorem setGate_gate (s : State) (worker : String) (holder : Option Holder) :
    (s.setGate worker holder).gate = Function.update s.gate worker holder := rfl

@[simp] theorem setReaper_reaper (s : State) (k : Nat) (reaper : Option Reaper) :
    (s.setReaper k reaper).reaper = Function.update s.reaper k reaper := rfl

/-- The fresh session of an SV2 connection, and whether its connect returned `Ok`. -/
def freshSession (reach : Sv2.Reach) (worker : String) (o : Opening) :
    Option (Sv2.Inner × Bool) :=
  (initialTarget o.order o.pool).map fun (target, routing) =>
    reach.connectFresh o.spec o.order target routing (placeholder target routing o.pool worker)

/-- A step of an SV1 connection whose session is this. -/
def sv1Step (s : State) (c : Nat) (i : Sv1.Inner) (e : Event) : Option State :=
  match s.handler c, e with
  | .relaying, .authorize _ worker true =>
    some ((s.put c (.sv1 { i with label := worker })).goto c (.registering worker))
  | .relaying, .authorize _ _ false => some (s.goto c .leaving)
  | .registering worker, .insert _ => some ((s.enlist c worker).goto c .relaying)
  | .relaying, .hangUp _ => some (s.goto c .leaving)
  | .leaving, .deregister _ => some ((s.delist c i.label).goto c .closed)
  | _, _ => none

/-- A step of an SV2 connection up to the downstream loop. -/
def openStep (s : State) (c : Nat) (e : Event) : Option State :=
  match s.handler c, e with
  | .opening worker o, .enter _ =>
    if s.gate worker = none then
      some ((s.setGate worker (some (.handler c))).goto c (.gated worker o))
    else none
  | .gated worker o, .look _ =>
    match s.rigs worker with
    | some r => some (s.goto c (.found worker o r))
    | none => some (s.goto c (.connecting worker o))
  | .found worker o r, .bundle _ =>
    match s.session r with
    | some (.sv2 i) =>
      match attachMember o.spec i with
      | some (j, member) =>
        some (((s.put r (.sv2 j)).setGate worker none).goto c (.serving r member))
      | none => some (s.goto c (.connecting worker o))
    | _ => none
  | .connecting worker o, .connect _ reach =>
    match freshSession reach worker o with
    | some (j, true) => some ((s.put c (.sv2 j)).goto c (.installed worker))
    | some (j, false) =>
      -- the reader of an upstream that was installed holds on to the session
      if j.halfOpen then some (((s.put c (.sv2 j)).setGate worker none).goto c .closed)
      else some ((s.setGate worker none).goto c .closed)
    | none => none
  | .installed worker, .register _ => some ((s.enlist c worker).goto c (.registered worker))
  | .registered worker, .publish _ =>
    match s.session c with
    | some (.sv2 i) =>
      let s := if i.translating then s else s.insertIfAbsent worker c
      some ((s.setGate worker none).goto c (.serving c firstMember))
    | _ => none
  | _, _ => none

/-- A step of an SV2 connection whose downstream loop has ended. -/
def closeStep (s : State) (c : Nat) (e : Event) : Option State :=
  match s.handler c, e with
  | .serving r member, .leave _ =>
    match s.session r with
    | some (.sv2 i) =>
      let (j, last) := detachMember member i
      some ((s.put r (.sv2 j)).goto c (if last then .detached r else .closed))
    | _ => none
  | .detached r, .check _ =>
    match s.session r with
    | some (.sv2 i) =>
      some (s.goto c (if s.rigs i.label = some r then .resting r i.label else .removing r i.label))
    | _ => none
  | .resting r worker, .rest _ =>
    let token := s.idleToken r + 1
    some (({ s with
      idleToken := Function.update s.idleToken r token
      spawned := s.spawned + 1 }.setReaper s.spawned (some ⟨r, worker, token, .asleep⟩)).goto c
        .closed)
  | .removing r worker, .remove _ => some ((s.delist r worker).goto c .closed)
  | _, _ => none

/-- A step of a reaper. -/
def reaperStep (s : State) (k : Nat) (p : Reaper) (e : Event) : Option State :=
  match p.stage, e with
  | .asleep, .wake _ =>
    if s.gate p.worker = none then
      some ((s.setGate p.worker (some (.reaper k))).setReaper k (some { p with stage := .awake }))
    else none
  | .awake, .inspect _ =>
    match s.session p.rig with
    | some (.sv2 i) =>
      -- a member rejoined, or a newer idle round owns the reap
      if i.members ≠ [] ∨ s.idleToken p.rig ≠ p.token then
        some ((s.setGate p.worker none).setReaper k none)
      else some (s.setReaper k (some { p with stage := .expired }))
    | _ => none
  | .expired, .unlist _ =>
    some ((s.removeRig p.worker p.rig).setReaper k (some { p with stage := .unlisted }))
  | .unlisted, .reap _ =>
    some (((s.delist p.rig p.worker).setGate p.worker none).setReaper k none)
  | _, _ => none

/-- One step. -/
def step (s : State) (e : Event) : Option State :=
  match e with
  | .handshake target answer peer => (connectRaw target none target.user answer).map fun raw =>
      (s.accept .relaying).put s.accepted
        (.sv1 (installRaw raw bootstrapGeneration target .idle (bootstrap target peer)).1)
  | .openChannel worker o =>
    -- an unregistered worker is refused
    (initialTarget o.order o.pool).map fun _ => s.accept (.opening worker o)
  | .authorize c .. | .insert c | .hangUp c | .deregister c =>
    match s.session c with
    | some (.sv1 i) => s.sv1Step c i e
    | _ => none
  | .enter c | .look c | .bundle c | .connect c _ | .register c | .publish c => s.openStep c e
  | .leave c | .check c | .rest c | .remove c => s.closeStep c e
  | .wake k | .inspect k | .unlist k | .reap k => (s.reaper k).bind fun p => s.reaperStep k p e
  | .traffic c x =>
    match s.session c with
    | some y => if y.Keeps x then some (s.put c x) else none
    | none => none

/-- The proxy comes up. -/
def boot : State where
  accepted := 0
  handler _ := .closed
  session _ := none
  registry := .empty
  rigs _ := none
  gate _ := none
  idleToken _ := 0
  spawned := 0
  reaper _ := none
  authorized := []
  torn := []

/-- The states that the proxy can reach along steps that meet `G`. -/
def ReachesUnder (G : State → Event → Prop) (s : State) : Prop :=
  StepSystem.Run step G boot s

end State

/-! ## Steps -/

/-- What a step does. -/
inductive Transition (s : State) : Event → State → Prop where
  | handshake {target : UpstreamTarget} {answer : PoolAnswer} {peer : String} (i : Sv1.Inner) :
      Transition s (.handshake target answer peer)
        ((s.accept .relaying).put s.accepted (.sv1 i))
  | authorize {c : Nat} {worker : String} {i : Sv1.Inner} (hhandler : s.handler c = .relaying)
      (hsession : s.session c = some (.sv1 i)) :
      Transition s (.authorize c worker true)
        ((s.put c (.sv1 { i with label := worker })).goto c (.registering worker))
  | refuse {c : Nat} {worker : String} (hhandler : s.handler c = .relaying) :
      Transition s (.authorize c worker false) (s.goto c .leaving)
  | insert {c : Nat} {worker : String} (hhandler : s.handler c = .registering worker) :
      Transition s (.insert c) ((s.enlist c worker).goto c .relaying)
  | hangUp {c : Nat} (hhandler : s.handler c = .relaying) :
      Transition s (.hangUp c) (s.goto c .leaving)
  | deregister {c : Nat} {i : Sv1.Inner} (hhandler : s.handler c = .leaving)
      (hsession : s.session c = some (.sv1 i)) :
      Transition s (.deregister c) ((s.delist c i.label).goto c .closed)
  | openChannel {worker : String} {o : Opening} :
      Transition s (.openChannel worker o) (s.accept (.opening worker o))
  | enter {c : Nat} {worker : String} {o : Opening} (hhandler : s.handler c = .opening worker o)
      (hfree : s.gate worker = none) :
      Transition s (.enter c)
        ((s.setGate worker (some (.handler c))).goto c (.gated worker o))
  | look {c : Nat} {worker : String} {o : Opening} {r : Nat}
      (hhandler : s.handler c = .gated worker o) (hrig : s.rigs worker = some r) :
      Transition s (.look c) (s.goto c (.found worker o r))
  | lookNone {c : Nat} {worker : String} {o : Opening}
      (hhandler : s.handler c = .gated worker o) :
      Transition s (.look c) (s.goto c (.connecting worker o))
  | bundle {c r member : Nat} {worker : String} {o : Opening} {i j : Sv2.Inner}
      (hhandler : s.handler c = .found worker o r) (hsession : s.session r = some (.sv2 i))
      (hattach : attachMember o.spec i = some (j, member)) :
      Transition s (.bundle c)
        (((s.put r (.sv2 j)).setGate worker none).goto c (.serving r member))
  | standalone {c r : Nat} {worker : String} {o : Opening}
      (hhandler : s.handler c = .found worker o r) :
      Transition s (.bundle c) (s.goto c (.connecting worker o))
  | connect {c : Nat} {worker : String} {o : Opening} {reach : Sv2.Reach} {j : Sv2.Inner}
      (hhandler : s.handler c = .connecting worker o)
      (hfresh : State.freshSession reach worker o = some (j, true)) :
      Transition s (.connect c reach) ((s.put c (.sv2 j)).goto c (.installed worker))
  | abandon {c : Nat} {worker : String} {o : Opening} {reach : Sv2.Reach} {j : Sv2.Inner}
      (hhandler : s.handler c = .connecting worker o)
      (hfresh : State.freshSession reach worker o = some (j, false)) (hhalf : j.halfOpen = true) :
      Transition s (.connect c reach)
        (((s.put c (.sv2 j)).setGate worker none).goto c .closed)
  | connectFailed {c : Nat} {worker : String} {o : Opening} {reach : Sv2.Reach}
      (hhandler : s.handler c = .connecting worker o) :
      Transition s (.connect c reach) ((s.setGate worker none).goto c .closed)
  | register {c : Nat} {worker : String} (hhandler : s.handler c = .installed worker) :
      Transition s (.register c) ((s.enlist c worker).goto c (.registered worker))
  | publish {c : Nat} {worker : String} {s₁ : State}
      (hhandler : s.handler c = .registered worker)
      (hrig : s₁ = s ∨ s₁ = s.insertIfAbsent worker c) :
      Transition s (.publish c) ((s₁.setGate worker none).goto c (.serving c firstMember))
  | leave {c r member : Nat} {i : Sv2.Inner} (hhandler : s.handler c = .serving r member)
      (hsession : s.session r = some (.sv2 i)) :
      Transition s (.leave c) ((s.put r (.sv2 (detachMember member i).1)).goto c
        (if (detachMember member i).2 then .detached r else .closed))
  | checkTarget {c r : Nat} {i : Sv2.Inner} (hhandler : s.handler c = .detached r)
      (hsession : s.session r = some (.sv2 i)) (hrig : s.rigs i.label = some r) :
      Transition s (.check c) (s.goto c (.resting r i.label))
  | checkOther {c r : Nat} {i : Sv2.Inner} (hhandler : s.handler c = .detached r)
      (hsession : s.session r = some (.sv2 i)) (hrig : s.rigs i.label ≠ some r) :
      Transition s (.check c) (s.goto c (.removing r i.label))
  | rest {c r : Nat} {worker : String} (hhandler : s.handler c = .resting r worker) :
      Transition s (.rest c) (({ s with
        idleToken := Function.update s.idleToken r (s.idleToken r + 1)
        spawned := s.spawned + 1 }.setReaper s.spawned
          (some ⟨r, worker, s.idleToken r + 1, .asleep⟩)).goto c .closed)
  | remove {c r : Nat} {worker : String} (hhandler : s.handler c = .removing r worker) :
      Transition s (.remove c) ((s.delist r worker).goto c .closed)
  | wake {k : Nat} {p : Reaper} (hreaper : s.reaper k = some p) (hstage : p.stage = .asleep)
      (hfree : s.gate p.worker = none) :
      Transition s (.wake k) ((s.setGate p.worker (some (.reaper k))).setReaper k
        (some { p with stage := .awake }))
  | giveUp {k : Nat} {p : Reaper} {i : Sv2.Inner} (hreaper : s.reaper k = some p)
      (hstage : p.stage = .awake) (hsession : s.session p.rig = some (.sv2 i))
      (hbusy : i.members ≠ [] ∨ s.idleToken p.rig ≠ p.token) :
      Transition s (.inspect k) ((s.setGate p.worker none).setReaper k none)
  | inspect {k : Nat} {p : Reaper} {i : Sv2.Inner} (hreaper : s.reaper k = some p)
      (hstage : p.stage = .awake) (hsession : s.session p.rig = some (.sv2 i))
      (hmembers : i.members = []) (htoken : s.idleToken p.rig = p.token) :
      Transition s (.inspect k) (s.setReaper k (some { p with stage := .expired }))
  | unlist {k : Nat} {p : Reaper} (hreaper : s.reaper k = some p) (hstage : p.stage = .expired) :
      Transition s (.unlist k) ((s.removeRig p.worker p.rig).setReaper k
        (some { p with stage := .unlisted }))
  | reap {k : Nat} {p : Reaper} (hreaper : s.reaper k = some p) (hstage : p.stage = .unlisted) :
      Transition s (.reap k) (((s.delist p.rig p.worker).setGate p.worker none).setReaper k none)
  | traffic {c : Nat} {x y : AnySession} (hsession : s.session c = some y)
      (hkeeps : y.Keeps x) :
      Transition s (.traffic c x) (s.put c x)

namespace Transition

variable {s s' : State} {c : Nat} {e : Event}

/-- The steps of an SV1 connection. -/
theorem of_sv1Step {i : Sv1.Inner} (hsession : s.session c = some (.sv1 i))
    (hc : e.connection? = some c) (h : s.sv1Step c i e = some s') : Transition s e s' := by
  unfold State.sv1Step at h
  split at h
  case h_1 hhandler =>
    cases hc
    cases h
    exact .authorize hhandler hsession
  case h_2 hhandler =>
    cases hc
    cases h
    exact .refuse hhandler
  case h_3 hhandler =>
    cases hc
    cases h
    exact .insert hhandler
  case h_4 hhandler =>
    cases hc
    cases h
    exact .hangUp hhandler
  case h_5 hhandler =>
    cases hc
    cases h
    exact .deregister hhandler hsession
  case h_6 => cases h

/-- The steps of an SV2 connection up to the downstream loop. -/
theorem of_openStep (hc : e.connection? = some c) (h : s.openStep c e = some s') :
    Transition s e s' := by
  unfold State.openStep at h
  split at h
  case h_1 hhandler =>
    cases hc
    split at h <;> cases h
    exact .enter hhandler ‹_›
  case h_2 hhandler =>
    cases hc
    split at h <;> cases h
    · exact .look hhandler ‹_›
    · exact .lookNone hhandler
  case h_3 hhandler =>
    cases hc
    split at h
    · split at h <;> cases h
      · exact .bundle hhandler ‹_› ‹_›
      · exact .standalone hhandler
    · cases h
  case h_4 hhandler =>
    cases hc
    split at h
    · cases h
      exact .connect hhandler ‹_›
    · split at h <;> cases h
      · exact .abandon hhandler ‹_› ‹_›
      · exact .connectFailed hhandler
    · cases h
  case h_5 hhandler =>
    cases hc
    cases h
    exact .register hhandler
  case h_6 hhandler =>
    cases hc
    split at h <;> cases h
    refine .publish hhandler ?_
    split
    · exact Or.inl rfl
    · exact Or.inr rfl
  case h_7 => cases h

/-- The steps of an SV2 connection whose downstream loop has ended. -/
theorem of_closeStep (hc : e.connection? = some c) (h : s.closeStep c e = some s') :
    Transition s e s' := by
  unfold State.closeStep at h
  split at h
  case h_1 hhandler =>
    cases hc
    split at h <;> cases h
    exact .leave hhandler ‹_›
  case h_2 hhandler =>
    cases hc
    split at h <;> cases h
    split
    · exact .checkTarget hhandler ‹_› ‹_›
    · exact .checkOther hhandler ‹_› ‹_›
  case h_3 hhandler =>
    cases hc
    cases h
    exact .rest hhandler
  case h_4 hhandler =>
    cases hc
    cases h
    exact .remove hhandler
  case h_5 => cases h

/-- The steps of a reaper. -/
theorem of_reaperStep {k : Nat} {p : Reaper} (hreaper : s.reaper k = some p)
    (hk : e.reaping? = some k) (h : s.reaperStep k p e = some s') : Transition s e s' := by
  unfold State.reaperStep at h
  split at h
  case h_1 hstage =>
    cases hk
    split at h <;> cases h
    exact .wake hreaper hstage ‹_›
  case h_2 hstage =>
    cases hk
    split at h
    · split at h <;> cases h
      · exact .giveUp hreaper hstage ‹_› ‹_›
      · rename_i hidle
        obtain ⟨hmembers, htoken⟩ := not_or.mp hidle
        exact .inspect hreaper hstage ‹_› (not_not.mp hmembers) (not_not.mp htoken)
    · cases h
  case h_3 hstage =>
    cases hk
    cases h
    exact .unlist hreaper hstage
  case h_4 hstage =>
    cases hk
    cases h
    exact .reap hreaper hstage
  case h_5 => cases h

/-- Every step is one of these. -/
theorem of_step (h : s.step e = some s') : Transition s e s' := by
  cases e with
  | handshake target answer peer =>
    obtain ⟨raw, _, rfl⟩ := Option.map_eq_some_iff.mp h
    exact .handshake _
  | openChannel worker o =>
    obtain ⟨_, _, rfl⟩ := Option.map_eq_some_iff.mp h
    exact .openChannel
  | authorize c | insert c | hangUp c | deregister c =>
    simp only [State.step] at h
    split at h
    · exact of_sv1Step ‹_› rfl h
    · cases h
  | enter c | look c | bundle c | connect c | register c | publish c => exact of_openStep rfl h
  | leave c | check c | rest c | remove c => exact of_closeStep rfl h
  | wake k | inspect k | unlist k | reap k =>
    obtain ⟨p, hreaper, h⟩ := Option.bind_eq_some_iff.mp h
    exact of_reaperStep hreaper rfl h
  | traffic c x =>
    simp only [State.step] at h
    split at h
    · split at h <;> cases h
      exact .traffic ‹_› ‹_›
    · cases h

end Transition

end Registration

end RentalProxy
