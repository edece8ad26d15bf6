import RentalProxy.ConnectFailover

/-!
# The connections of one worker

The handlers of all connections of one worker, SV1 and SV2, run beside the API calls and the
expiry task that change its rental.  `Proxy` is the state they share with the program counter of
each, and `step` runs one of them up to the next point where another may come in between.

* `Handler` says where a connection stands.  A handler looks up the live order, waits for gates
  and pools, and puts its session into the registry.
* A call that changes a row (`create_order`, `cancel_order`, the expiry task) changes it first,
  then reads the registry, then signals what it has read.  Calls are not told apart: `marked`
  counts those that have not read the registry yet, and `todo` holds the sessions that were read
  and not yet signalled.
* Every connect succeeds: `Env` holds what the pools answer.

A session has the id of the connection that built it, and only the orders of the worker are
changed.
-/

namespace RentalProxy

open Sv1 (connectRaw bootstrapGeneration bootstrap installRaw)
open Sv2 (OpenSpec SwapAnswer initialTarget placeholder attachMember detachMember firstMember)

/-! ## State -/

/-- A session of either protocol. -/
inductive AnySession where
  | sv1 (inner : Sv1.Inner)
  | sv2 (inner : Sv2.Inner)

namespace AnySession

def routing : AnySession → Routing
  | .sv1 i => i.routing
  | .sv2 i => i.routing

/-- The upstream, its routing and the members are the same. -/
def SameUpstream : AnySession → AnySession → Prop
  | .sv1 i, .sv1 j => j.active.target = i.active.target ∧ j.routing = i.routing ∧
      j.defaultTarget = i.defaultTarget
  | .sv2 i, .sv2 j => j.active.target = i.active.target ∧ j.routing = i.routing ∧
      j.defaultTarget = i.defaultTarget ∧ j.translating = i.translating ∧ j.members = i.members
  | _, _ => False

instance (x y : AnySession) : Decidable (x.SameUpstream y) := by
  cases x <;> cases y <;> simp only [SameUpstream] <;> infer_instance

end AnySession

/-- What a handler of the SV2 relay has looked up when it waits for the gate. -/
structure Opening where
  spec : OpenSpec
  order : Option Order
  pool : Option UpstreamTarget

/-- Where the handler of a connection stands. -/
inductive Handler where
  /-- It has returned. -/
  | closed
  /-- SV1: the miner loop waits for a line. -/
  | relaying
  /-- Order and pool of the worker have been looked up. -/
  | authorizing (order : Option Order) (want : UpstreamTarget)
  /-- The session is registered and the miner answered. -/
  | comparing (order : Option Order) (want : UpstreamTarget)
  /-- The upstream was the wanted one. -/
  | attaching (o : Order)
  /-- Waits for `mining.extranonce.subscribe`. -/
  | choosing (order : Option Order) (want : UpstreamTarget)
  /-- The live switch. -/
  | switching (order : Option Order) (want : UpstreamTarget)
  /-- SV2: order and pool have been looked up; waits for the gate of the worker. -/
  | opening (o : Opening)
  | gated (o : Opening)
  /-- Subscribed to the rig of the worker. -/
  | found (o : Opening) (rig : Nat)
  /-- The order was looked up again. -/
  | reconciling (o : Opening) (rig : Nat) (desired : Option Order)
  /-- `reconcile_routing` has returned. -/
  | bundling (o : Opening) (rig : Nat)
  /-- No rig takes the connection. -/
  | connecting (o : Opening)
  /-- The fresh session is connected; it is still to be registered. -/
  | installed (o : Opening)
  /-- The fresh session is registered. -/
  | registered
  /-- A member of a session is served. -/
  | serving (session member : Nat)

namespace Handler

/-- A handler of the SV1 relay that has not returned. -/
def isSv1 : Handler → Bool
  | .relaying | .authorizing .. | .comparing .. | .attaching _ | .choosing .. | .switching .. =>
    true
  | _ => false

/-- A handler of the SV2 relay that has registered no session. -/
def isFresh : Handler → Bool
  | .opening _ | .gated _ | .found .. | .reconciling .. | .bundling .. | .connecting _
  | .installed _ => true
  | _ => false

/-- A handler of the SV1 relay whose session is registered. -/
def isListed : Handler → Bool
  | .comparing .. | .attaching _ | .choosing .. | .switching .. => true
  | _ => false

/-- The session that the handler finds in `sv2_rigs`, or serves. -/
def rig? : Handler → Option Nat
  | .found _ r | .reconciling _ r _ | .bundling _ r | .serving r _ => some r
  | _ => none

/-- Nothing is under way. -/
def isDone : Handler → Bool
  | .closed | .relaying | .serving .. => true
  | _ => false

end Handler

/-- Where the expiry task stands. -/
inductive Expiry where
  | sleeping
  /-- The buffered accounting has been flushed. -/
  | flushed
  /-- `take_expired` ends the selected rows. -/
  | ending (now : Int) (ids : List String)
deriving DecidableEq

/-- The proxy, as far as one worker is concerned. -/
structure Proxy where
  orders : OrderStore
  now : Int
  /-- The number of connections so far. -/
  accepted : Nat
  handler : Nat → Handler
  session : Nat → Option AnySession
  registry : List Nat
  /-- `sv2_rigs` of the worker. -/
  rig : Option Nat
  /-- The connection that holds the gate of the worker. -/
  gate : Option Nat
  /-- The calls that have changed a row and not yet read the registry. -/
  marked : Nat
  /-- The sessions that were read from the registry and not yet signalled. -/
  todo : List Nat
  signaled : List Nat
  expiry : Expiry

/-- What does not change. -/
structure Env where
  worker : String
  sv1 : Sv1.Reach
  sv2 : UpstreamTarget → SwapAnswer

/-- Every connect of the SV1 relay succeeds. -/
def Env.Connects (env : Env) : Prop :=
  ∀ target configure identity, (connectRaw target configure identity (env.sv1 target)).isSome = true

/-- Every pool can be reached by the SV2 relay. -/
def Env.reach (env : Env) : Sv2.Reach := fun target => some (env.sv2 target)

/-- A step of one handler or task. -/
inductive Event where
  /-- SV1: a miner connects; the pool is the bootstrap pool or a reconnect hint. -/
  | handshake (target : UpstreamTarget) (peer : String)
  /-- The miner authorizes, and the seller store has this pool for the worker. -/
  | authorize (c : Nat) (pool : Option UpstreamTarget)
  | answer (c : Nat)
  | compare (c : Nat)
  | attach (c : Nat)
  | choose (c : Nat)
  | switch (c : Nat)
  /-- The miner hangs up. -/
  | hangUp (c : Nat)
  /-- SV2: the first open of a connection, and the pool that the seller store has. -/
  | openChannel (spec : OpenSpec) (pool : Option UpstreamTarget)
  | enter (c : Nat)
  | look (c : Nat)
  | resolve (c : Nat)
  | reconcile (c : Nat)
  | bundle (c : Nat)
  | connect (c : Nat)
  | register (c : Nat)
  | publish (c : Nat)
  | leave (c : Nat)
  /-- The reaper of an empty rig. -/
  | reap
  /-- Anything else that a session does. -/
  | traffic (c : Nat) (x : AnySession)
  /-- `create_order` and `cancel_order` change the row. -/
  | create (o : Order)
  | cancel (id : String)
  /-- The expiry task. -/
  | flush
  | select
  | expire
  /-- A call reads the registry. -/
  | collect
  /-- A call signals a session. -/
  | signal (c : Nat)
  /-- A share is accounted for. -/
  | credit (c : Credit)
  | tick (now : Int)

namespace Proxy

/-- The order that is live for the worker. -/
def live (env : Env) (s : Proxy) : Option Order := s.orders.activeForWorker env.worker s.now

/-- The routing that belongs to a live order, or to none. -/
def routingOf : Option Order → Routing
  | some o => .rented o.id
  | none => .idle

/-- The routing that the worker should have. -/
def desired (env : Env) (s : Proxy) : Routing := routingOf (s.live env)

def goto (s : Proxy) (c : Nat) (h : Handler) : Proxy :=
  { s with handler := Function.update s.handler c h }

def put (s : Proxy) (c : Nat) (x : AnySession) : Proxy :=
  { s with session := Function.update s.session c (some x) }

@[simp] theorem goto_handler (s : Proxy) (c : Nat) (h : Handler) :
    (s.goto c h).handler = Function.update s.handler c h := rfl

@[simp] theorem put_session (s : Proxy) (c : Nat) (x : AnySession) :
    (s.put c x).session = Function.update s.session c (some x) := rfl

/-- A session leaves the registry. -/
def remove (s : Proxy) (c : Nat) : Proxy :=
  { s with registry := s.registry.filter fun x => decide (x ≠ c) }

/-- The rows that `take_expired` selects. -/
def finishedRows (env : Env) (s : Proxy) : List Order :=
  s.orders.rows.filter fun o => decide (o.worker = env.worker) && decide (o.status = .active) &&
    OrderStore.finished o s.now

/-- The session of an SV1 miner that has just connected, on the pool of its handshake. -/
def handshaken (env : Env) (target : UpstreamTarget) (peer : String) : Option AnySession :=
  (connectRaw target none target.user (env.sv1 target)).map fun raw =>
    .sv1 (installRaw raw bootstrapGeneration target .idle (bootstrap target peer)).1

/-- The live switch of the authorize step. -/
def switched (env : Env) (order : Option Order) (want : UpstreamTarget) (i : Sv1.Inner) :
    Sv1.Inner :=
  match order with
  | some o => (env.sv1.switchTo o.id o.target i).1
  | none => (env.sv1.setDefault want i).1

/-- The fresh session of an SV2 connection. -/
def freshSession (env : Env) (o : Opening) : Option Sv2.Inner :=
  (initialTarget o.order o.pool).bind fun (target, routing) =>
    env.reach.openFresh o.spec o.order target routing
      (placeholder target routing o.pool env.worker)

/-- `revert` without an idle pool: the members are dropped. -/
def drops (desired : Option Order) (i : Sv2.Inner) : Bool :=
  desired.isNone && i.routing.orderId?.isSome && i.defaultTarget.isNone

/-- A step of an SV1 connection whose handler and session are these. -/
def sv1Step (env : Env) (s : Proxy) (c : Nat) (h : Handler) (i : Sv1.Inner) :
    Event → Option Proxy
  | .authorize _ pool =>
    match h with
    | .relaying =>
      match Sv1.Authorizing.wanted (s.live env) pool with
      | some want => some (s.goto c (.authorizing (s.live env) want))
      | none => some ((s.remove c).goto c .closed)
    | _ => none
  | .answer _ =>
    match h with
    | .authorizing order want =>
      some ({ s with registry := s.registry ++ [c] }.put c (.sv1 { i with label := env.worker })
        |>.goto c (.comparing order want))
    | _ => none
  | .compare _ =>
    match h with
    | .comparing order want =>
      if i.active.target = want then
        match order with
        | some o => some (s.goto c (.attaching o))
        | none => some (s.goto c .relaying)
      else some (s.goto c (.choosing order want))
    | _ => none
  | .attach _ =>
    match h with
    | .attaching o => some ((s.put c (.sv1 { i with routing := .rented o.id })).goto c .relaying)
    | _ => none
  | .choose _ =>
    match h with
    | .choosing order want =>
      if i.extranonceCapable then some (s.goto c (.switching order want))
      else some ((s.remove c).goto c .closed)
    | _ => none
  | .switch _ =>
    match h with
    | .switching order want =>
      some ((s.put c (.sv1 (switched env order want i))).goto c .relaying)
    | _ => none
  | .hangUp _ =>
    match h with
    | .relaying => some ((s.remove c).goto c .closed)
    | _ => none
  | _ => none

/-- A step of an SV2 connection whose handler is this. -/
def sv2Step (env : Env) (s : Proxy) (c : Nat) (h : Handler) : Event → Option Proxy
  | .enter _ =>
    match h, s.gate with
    | .opening o, none => some ({ s with gate := some c }.goto c (.gated o))
    | _, _ => none
  | .look _ =>
    match h with
    | .gated o =>
      match s.rig with
      | some r => some (s.goto c (.found o r))
      | none => some (s.goto c (.connecting o))
    | _ => none
  | .resolve _ =>
    match h with
    | .found o r => some (s.goto c (.reconciling o r (s.live env)))
    | _ => none
  | .reconcile _ =>
    match h with
    | .reconciling o r desired =>
      match s.session r with
      | some (.sv2 i) =>
        some ({ s with signaled := if drops desired i then r :: s.signaled else s.signaled }.put r
          (.sv2 (env.reach.reconcileRouting s.orders desired i)) |>.goto c (.bundling o r))
      | _ => none
    | _ => none
  | .bundle _ =>
    match h with
    | .bundling o r =>
      match s.session r with
      | some (.sv2 i) =>
        match attachMember o.spec i with
        | some (j, member) =>
          some ({ s with gate := none }.put r (.sv2 j) |>.goto c (.serving r member))
        | none => some (s.goto c (.connecting o))
      | _ => none
    | _ => none
  | .connect _ =>
    match h with
    | .connecting o =>
      match freshSession env o with
      | some j => some ((s.put c (.sv2 j)).goto c (.installed o))
      | none => some ({ s with gate := none }.goto c .closed)
    | _ => none
  | .register _ =>
    match h with
    | .installed _ => some ({ s with registry := s.registry ++ [c] }.goto c .registered)
    | _ => none
  | .publish _ =>
    match h, s.session c with
    | .registered, some (.sv2 i) =>
      some ({ s with
        gate := none
        rig := if i.translating then s.rig else s.rig.or (some c) }.goto c
          (.serving c firstMember))
    | _, _ => none
  | .leave _ =>
    match h with
    | .serving r member =>
      match s.session r with
      | some (.sv2 i) =>
        let (j, last) := detachMember member i
        let s := (s.put r (.sv2 j)).goto c .closed
        -- the upstream of the rig in `sv2_rigs` is kept for the grace window
        if last && decide (s.rig ≠ some r) then some (s.remove r) else some s
      | _ => none
    | _ => none
  | _ => none

/-- A step of a call, of the expiry task or of the clock. -/
def callStep (env : Env) (s : Proxy) : Event → Option Proxy
  | .create o =>
    if o.worker = env.worker then
      (s.orders.create o).map fun orders => { s with orders, marked := s.marked + 1 }
    else none
  | .cancel id =>
    match s.orders.cancel id s.now with
    | some (o, orders) =>
      if o.worker = env.worker then some { s with orders, marked := s.marked + 1 } else none
    | none => none
  | .flush =>
    match s.expiry with
    | .sleeping => some { s with orders := s.orders.flush, expiry := .flushed }
    | _ => none
  | .select =>
    match s.expiry with
    | .flushed => some { s with expiry := .ending s.now ((s.finishedRows env).map Order.id) }
    | _ => none
  | .expire =>
    match s.expiry with
    | .ending now (id :: ids) => some { s with
        orders := s.orders.setStatus id .ended now, marked := s.marked + 1
        expiry := .ending now ids }
    | .ending _ [] => some { s with expiry := .sleeping }
    | _ => none
  | .collect =>
    match s.marked with
    | n + 1 => some { s with marked := n, todo := s.todo ++ s.registry }
    | 0 => none
  | .signal c =>
    if c ∈ s.todo then some { s with todo := s.todo.erase c, signaled := c :: s.signaled }
    else none
  | .credit c => some { s with orders := { s.orders with pending := s.orders.pending.credit c } }
  | .tick now => if s.now ≤ now then some { s with now } else none
  | _ => none

/-- One step. -/
def step (env : Env) (s : Proxy) (e : Event) : Option Proxy :=
  match e with
  | .handshake target peer => (handshaken env target peer).map fun x =>
      { s with accepted := s.accepted + 1 }.put s.accepted x |>.goto s.accepted .relaying
  | .openChannel spec pool =>
    -- an unregistered worker is refused
    (initialTarget (s.live env) pool).map fun _ =>
      { s with accepted := s.accepted + 1 }.goto s.accepted (.opening ⟨spec, s.live env, pool⟩)
  | .authorize c _ | .answer c | .compare c | .attach c | .choose c | .switch c | .hangUp c =>
    match s.session c with
    | some (.sv1 i) => sv1Step env s c (s.handler c) i e
    | _ => none
  | .enter c | .look c | .resolve c | .reconcile c | .bundle c | .connect c | .register c
  | .publish c | .leave c => sv2Step env s c (s.handler c) e
  | .reap =>
    match s.rig, s.gate with
    | some r, none =>
      match s.session r with
      | some (.sv2 i) => if i.members = [] then some { s.remove r with rig := none } else none
      | _ => none
    | _, _ => none
  | .traffic c x =>
    match s.session c with
    | some y => if y.SameUpstream x then some (s.put c x) else none
    | none => none
  | e => callStep env s e

/-- The proxy comes up.  The first pass of the expiry task has nothing to flush. -/
def boot (orders : OrderStore) (now : Int) : Proxy where
  orders
  now
  accepted := 0
  handler _ := .closed
  session _ := none
  registry := []
  rig := none
  gate := none
  marked := 0
  todo := []
  signaled := []
  expiry := .flushed

/-- The states that the proxy can reach along steps that meet `G`. -/
def ReachesUnder (env : Env) (G : Proxy → Event → Prop) (s : Proxy) : Prop :=
  ∃ orders now, 0 ≤ now ∧ StepSystem.Run (step env) G (boot orders now) s

end Proxy

end RentalProxy
