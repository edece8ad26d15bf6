import RentalProxy.Sv1.Hosted

/-!
# The routing of an SV1 session

The authorize step of the miner loop looks whether the session is already on the pool
of the worker's order.  If so, it only marks the session (`attach_order`), outside the
switch lock.  The supervisor may have looked at the old routing before, and revert the
session after it was marked.

* `Authorizing` is a session with its supervisor and its authorize step.
* `Truthful` is the property: the routing tells the truth about the upstream.
* `StaysTrue` is the condition on the steps, `RoutingInv` the invariant.
-/

namespace RentalProxy.Sv1

open StepSystem
open Supervised (kind_of_step moves_of_step)

/-! ## The authorize step -/

/-- Where the authorize step stands. -/
inductive AuthorizeTask where
  /-- The miner loop waits for the next line. -/
  | idle
  /-- Order and pool of the worker have been looked up. -/
  | resolved (worker : String) (order : Option Order) (pool : Option UpstreamTarget)
  /-- The miner is answered; `active_target` is still to be compared. -/
  | comparing (order : Option Order) (want : UpstreamTarget)
  /-- The upstream was the wanted one; `attach_order` is still to be called. -/
  | attaching (o : Order)
  /-- A switch is needed; the loop waits for `mining.extranonce.subscribe`. -/
  | choosing (order : Option Order) (want : UpstreamTarget)
  /-- The live switch waits for the switch lock. -/
  | waiting (target : UpstreamTarget) (routing : Routing)
  /-- The live switch holds the switch lock. -/
  | holding
  /-- The miner loop has ended. -/
  | closed
deriving DecidableEq

/-- A session with its supervisor and its authorize step. -/
structure Authorizing where
  tasks : Supervised Hosted
  authorize : AuthorizeTask
  /-- The orders that `attach_order` has marked the session with. -/
  marked : List String

/-- A step of the authorize step, or of anything else. -/
inductive AuthorizeEvent where
  | tasks (e : SwapEvent HostedEvent)
  /-- A miner authorizes, and the seller store has this pool for the worker. -/
  | resolve (worker : String) (pool : Option UpstreamTarget)
  /-- The miner is registered and answered, or rejected. -/
  | answer (id : Option Value)
  /-- `active_target` is compared with the wanted pool. -/
  | compare
  | attach
  /-- A live switch, or a reconnect. -/
  | choose
  /-- The live switch takes the lock. -/
  | begin

/-- What only the authorize step does. -/
def HostedEvent.ofAuthorize : HostedEvent → Bool
  | .relay (.attachOrder _) | .relay (.setDefault _) | .relay (.swapBegin ..) => true
  | _ => false

namespace Authorizing

/-- The state behind the session lock. -/
def inner (x : Authorizing) : Inner := x.tasks.session.relay.inner

def swap (x : Authorizing) : SwapTask := x.tasks.session.relay.swap

def store (x : Authorizing) : OrderStore := x.tasks.session.store

/-- A step of the session in the authorize step. -/
def relayStep (x : Authorizing) (e : Event) : Option Authorizing :=
  (x.tasks.session.step (.relay e)).map fun session => { x with tasks := { x.tasks with session } }

/-- The pool that the worker should be on. -/
def wanted (order : Option Order) (pool : Option UpstreamTarget) : Option UpstreamTarget :=
  (order.map Order.target).or pool

/-- One step. -/
def step (x : Authorizing) : AuthorizeEvent → Option Authorizing
  | .tasks e =>
    match e with
    | .session f =>
      if f.ofAuthorize then none
      else (x.tasks.step swappable (.session f)).map fun tasks =>
        -- the live switch of the authorize step returns when it gives the lock back
        if x.authorize = .holding ∧ tasks.session.relay.swap.isIdle then
          { x with tasks, authorize := .idle }
        else { x with tasks }
    | e => (x.tasks.step swappable e).map fun tasks => { x with tasks }
  | .resolve worker pool =>
    match x.authorize with
    | .idle => some { x with
        authorize := .resolved worker (x.store.activeForWorker worker x.tasks.now) pool }
    | _ => none
  | .answer id =>
    match x.authorize with
    | .resolved worker order pool =>
      match wanted order pool with
      | none => (x.relayStep (.minerReject id)).map fun y => { y with authorize := .closed }
      | some want => (x.relayStep (.minerAuthorize worker id)).map fun y =>
          { y with authorize := .comparing order want }
    | _ => none
  | .compare =>
    match x.authorize with
    | .comparing order want =>
      some { x with authorize :=
        if x.inner.active.target = want then
          match order with
          | some o => .attaching o
          | none => .idle
        else .choosing order want }
    | _ => none
  | .attach =>
    match x.authorize with
    | .attaching o => (x.relayStep (.attachOrder o.id)).map fun y =>
        { y with authorize := .idle, marked := y.marked ++ [o.id] }
    | _ => none
  | .choose =>
    match x.authorize with
    | .choosing order want =>
      if x.inner.extranonceCapable then
        match order with
        | some o => some { x with authorize := .waiting o.target (.rented o.id) }
        | none => (x.relayStep (.setDefault want)).map fun y =>
            { y with authorize := .waiting want .idle }
      else (x.relayStep .minerClientReconnect).map fun y => { y with authorize := .closed }
    | _ => none
  | .begin =>
    match x.authorize with
    | .waiting target routing => (x.relayStep (.swapBegin target routing)).map fun y =>
        { y with authorize := .holding }
    | _ => none

/-- The session on its bootstrap upstream. -/
def fresh (session : Hosted) (now : Int) : Authorizing where
  tasks := .fresh session now
  authorize := .idle
  marked := []

/-- The states that a session can reach along steps that meet `G`. -/
def ReachesUnder (G : Authorizing → AuthorizeEvent → Prop) (x : Authorizing) : Prop :=
  ∃ session now, Established session ∧ Run step G (fresh session now) x

end Authorizing

/-! ## The property and its condition -/

/-- A pool of the order. -/
def PoolOf (s : OrderStore) (id : String) (target : UpstreamTarget) : Prop :=
  ∃ o, s.get id = some o ∧ target ∈ o.pools

/-- A pool of an order that the session was marked with and that has not ended. -/
def MarkedPool (s : OrderStore) (marked : List String) (target : UpstreamTarget) : Prop :=
  ∃ id ∈ marked, ∃ o, s.get id = some o ∧ o.status = .active ∧ target ∈ o.pools

/-- The pools that the supervisor is on its way to, without the lock. -/
def revertsOf (defaultTarget : UpstreamTarget) : Phase → List UpstreamTarget
  | .call .readDefault => [defaultTarget]
  | .call (.wait (.default target)) => [target, defaultTarget]
  | _ => []

/-- The pools that a swap to the default upstream is on its way to. -/
def SwapTask.reverts (defaultTarget : UpstreamTarget) : SwapTask → List UpstreamTarget
  | .connecting snap => if snap.routing = .idle then [snap.target, defaultTarget] else []
  | _ => []

namespace Authorizing

/-- The routing tells the truth about the upstream. -/
structure Truthful (x : Authorizing) : Prop where
  rented : ∀ id, x.inner.routing = .rented id → PoolOf x.store id x.inner.active.target
  idle : x.inner.routing = .idle → ¬MarkedPool x.store x.marked x.inner.active.target

/-- Where a revert that is under way takes the session, and where the next one would. -/
def reverting (x : Authorizing) : List UpstreamTarget :=
  revertsOf x.inner.defaultTarget (x.tasks.task .supervisor) ++
    x.swap.reverts x.inner.defaultTarget

/-- When the session is marked, it is on a pool of the order and no revert is under way
to one, and no pool of a marked order is made the default upstream. -/
def StaysTrue (x : Authorizing) : AuthorizeEvent → Prop
  | .attach => ∀ o, x.authorize = .attaching o →
      x.inner.active.target ∈ o.pools ∧ ∀ target ∈ x.reverting, target ∉ o.pools
  | .choose => ∀ want, x.authorize = .choosing none want → x.inner.extranonceCapable = true →
      ¬MarkedPool x.store x.marked want
  | _ => True

end Authorizing

/-! ## The route -/

/-- The route is the same, and no swap has begun. -/
structure SameRoute (r r' : Relay) : Prop where
  target : r'.inner.active.target = r.inner.active.target
  routing : r'.inner.routing = r.inner.routing
  defaultTarget : r'.inner.defaultTarget = r.inner.defaultTarget
  connecting : ∀ snap, r'.swap = .connecting snap → r.swap = .connecting snap

theorem SameRoute.of_swap {r r' : Relay} (htarget : r'.inner.active.target = r.inner.active.target)
    (hrouting : r'.inner.routing = r.inner.routing)
    (hdefault : r'.inner.defaultTarget = r.inner.defaultTarget)
    (hswap : r'.swap = r.swap ∨ ∀ snap, r'.swap ≠ .connecting snap) : SameRoute r r' where
  target := htarget
  routing := hrouting
  defaultTarget := hdefault
  connecting := by
    intro snap hsnap
    rcases hswap with hsame | hnone
    · rwa [← hsame]
    · exact absurd hsnap (hnone snap)

theorem SameRoute.of_sameSession {r r' : Relay} (h : r.inner.SameSession r'.inner)
    (hswap : r'.swap = r.swap) : SameRoute r r' := by
  unfold Inner.SameSession at h
  refine .of_swap ?_ ?_ ?_ (Or.inl hswap) <;> rw [h]

/-- What a step does to the route. -/
inductive RouteStep (r : Relay) : Event → Relay → Prop where
  | same {e : Event} {r' : Relay} (h : SameRoute r r') : RouteStep r e r'
  | attachOrder {o : String} :
      RouteStep r (.attachOrder o) { r with inner := { r.inner with routing := .rented o } }
  | setDefault {target : UpstreamTarget} :
      RouteStep r (.setDefault target) { r with
        inner := { r.inner with defaultTarget := target } }
  | swapBegin {target : UpstreamTarget} {routing : Routing} {r' : Relay} {snap : SwapSnapshot}
      (htarget : r'.inner.active.target = r.inner.active.target)
      (hrouting : r'.inner.routing = r.inner.routing)
      (hdefault : r'.inner.defaultTarget = r.inner.defaultTarget)
      (hswap : r'.swap = .connecting snap) (hidle : r.swap = .idle)
      (hsnap : snap.target = target ∧ snap.routing = routing) :
      RouteStep r (.swapBegin target routing) r'
  | install {answer : PoolAnswer} {snap : SwapSnapshot} {raw : RawUpstream}
      (hswap : r.swap = .connecting snap) :
      RouteStep r (.swapConnect answer) (r.install snap raw)

theorem route_of_step {r r' : Relay} {e : Event} (h : step r e = some r') : RouteStep r e r' := by
  cases e with
  | attachOrder o =>
    cases h
    exact .attachOrder
  | setDefault target =>
    cases h
    exact .setDefault
  | swapBegin target routing =>
    simp only [step] at h
    split at h <;> cases h
    exact .swapBegin rfl rfl rfl rfl ‹_› ⟨rfl, rfl⟩
  | swapConnect answer =>
    simp only [step] at h
    split at h
    · split at h <;> cases h
      · refine .same (.of_swap rfl rfl rfl (Or.inr ?_))
        rintro snap ⟨⟩
      · exact .install ‹_›
    · cases h
  | minerMsg msg =>
    simp only [step] at h
    split at h <;> cases h
    refine .same (.of_swap ?_ ?_ ?_ (Or.inl rfl)) <;> unfold onMinerMsg <;> split_ifs <;> rfl
  | upstreamLine g msg now =>
    simp only [step] at h
    split at h <;> cases h
    exact .same (.of_sameSession (onUpstreamMsg_same now g msg r.inner) rfl)
  | translateCredit g count now =>
    simp only [step] at h
    split at h <;> cases h
    exact .same (.of_sameSession (creditTranslateAccepted_same now g count r.inner) rfl)
  | translateDifficulty g diff =>
    simp only [step] at h
    split at h <;> cases h
    refine .same (.of_swap ?_ ?_ ?_ (Or.inl rfl)) <;> unfold setTranslateDifficulty <;> split <;>
      rfl
  | translateLine g msg =>
    simp only [step] at h
    split at h <;> cases h
    refine .same (.of_swap ?_ ?_ ?_ (Or.inl rfl)) <;> unfold sendOrStash <;> split_ifs <;> rfl
  | minerConfigure msg =>
    simp only [step] at h
    split at h
    · split at h <;> cases h
      exact .same (.of_swap rfl rfl rfl (Or.inl rfl))
    · cases h
  | swapRepoint | swapTakePrelude | swapFlush =>
    simp only [step] at h
    split at h <;> cases h <;> refine .same (.of_swap rfl rfl rfl (Or.inr ?_)) <;>
      rintro snap ⟨⟩
  | _ =>
    simp only [step] at h
    split at h <;> cases h <;> exact .same (.of_swap rfl rfl rfl (Or.inl rfl))

/-! ## The store -/

/-- Rows keep their pools, and none becomes active again. -/
structure Kept (s s' : OrderStore) : Prop where
  pools : OrderStore.SamePools s s'
  revived : OrderStore.NoneRevived s s'

/-- The order has a row with its pools. -/
def Row (s : OrderStore) (o : Order) : Prop := ∃ o', s.get o.id = some o' ∧ o'.pools = o.pools

section Kept

variable {s s' : OrderStore} {marked : List String} {target : UpstreamTarget}

theorem Kept.refl (s : OrderStore) : Kept s s where
  pools := .refl s
  revived id o o' hget hget' hactive := by
    rw [hget] at hget'
    cases hget'
    exact hactive

theorem Kept.of_step (h : OrderStore.Step s s') : Kept s s' := ⟨h.samePools, h.noneRevived⟩

theorem Kept.poolOf {id : String} (h : Kept s s') (hpool : PoolOf s id target) :
    PoolOf s' id target := by
  obtain ⟨o, hget, hmem⟩ := hpool
  obtain ⟨o', hget', heq⟩ := h.pools id o hget
  exact ⟨o', hget', heq ▸ hmem⟩

theorem Kept.row {o : Order} (h : Kept s s') (hrow : Row s o) : Row s' o := by
  obtain ⟨row, hget, heq⟩ := hrow
  obtain ⟨row', hget', heq'⟩ := h.pools _ row hget
  exact ⟨row', hget', heq'.trans heq⟩

theorem Kept.free (h : Kept s s') (hknown : ∀ id ∈ marked, ∃ o, s.get id = some o)
    (hfree : ¬MarkedPool s marked target) : ¬MarkedPool s' marked target := by
  rintro ⟨id, hid, o', hget', hactive, hmem⟩
  obtain ⟨o, hget⟩ := hknown id hid
  obtain ⟨o'', hget'', heq⟩ := h.pools id o hget
  rw [hget'] at hget''
  cases hget''
  exact hfree ⟨id, hid, o, hget, h.revived id o o' hget hget' hactive, heq ▸ hmem⟩

/-- One more order is marked. -/
theorem free_append {o : Order} (hrow : Row s o) (hfree : ¬MarkedPool s marked target)
    (hother : target ∉ o.pools) : ¬MarkedPool s (marked ++ [o.id]) target := by
  rintro ⟨id, hid, row, hget, hactive, hmem⟩
  rcases List.mem_append.mp hid with hold | hnew
  · exact hfree ⟨id, hold, row, hget, hactive, hmem⟩
  · rw [List.mem_singleton.mp hnew] at hget
    obtain ⟨row', hget', heq⟩ := hrow
    rw [hget] at hget'
    cases hget'
    exact hother (heq ▸ hmem)

end Kept

/-! ## The invariant -/

/-- An upstream with this routing tells the truth, and a revert after it does. -/
structure RouteOk (s : OrderStore) (marked : List String) (defaultTarget target : UpstreamTarget)
    (routing : Routing) : Prop where
  rented : ∀ id, routing = .rented id → PoolOf s id target
  idle : routing = .idle → ¬MarkedPool s marked target ∧ ¬MarkedPool s marked defaultTarget

/-- What the supervisor is about to do is truthful. -/
def SupervisorOk (s : OrderStore) (marked : List String) (defaultTarget : UpstreamTarget) :
    Phase → Prop
  | .call .readDefault => RouteOk s marked defaultTarget defaultTarget .idle
  | .call (.wait (.default target)) => RouteOk s marked defaultTarget target .idle
  | .call (.wait (.order o _ _)) | .call (.hold (.order o _ _)) => Row s o
  | _ => True

/-- What the authorize step is about to do is truthful. -/
def AuthorizeOk (s : OrderStore) (marked : List String) (defaultTarget : UpstreamTarget) :
    AuthorizeTask → Prop
  | .resolved _ (some o) _ | .comparing (some o) _ | .attaching o | .choosing (some o) _ => Row s o
  | .waiting target routing => RouteOk s marked defaultTarget target routing
  | _ => True

/-- The routing tells the truth, and will after what is under way. -/
structure RoutingInv (x : Authorizing) : Prop where
  index : x.store.OneActive
  known : ∀ id ∈ x.marked, ∃ o, x.store.get id = some o
  alone : ∀ t, t ≠ .supervisor → x.tasks.task t = .done
  never : ∀ desired, x.tasks.task .supervisor ≠ .compare desired
  active : RouteOk x.store x.marked x.inner.defaultTarget x.inner.active.target x.inner.routing
  swap : ∀ snap, x.swap = .connecting snap →
    RouteOk x.store x.marked x.inner.defaultTarget snap.target snap.routing
  supervisor : SupervisorOk x.store x.marked x.inner.defaultTarget (x.tasks.task .supervisor)
  authorize : AuthorizeOk x.store x.marked x.inner.defaultTarget x.authorize

section Ok

variable {s s' : OrderStore} {marked : List String} {defaultTarget target : UpstreamTarget}
  {routing : Routing}

theorem RouteOk.kept (h : RouteOk s marked defaultTarget target routing) (hkept : Kept s s')
    (hknown : ∀ id ∈ marked, ∃ o, s.get id = some o) :
    RouteOk s' marked defaultTarget target routing where
  rented id hid := hkept.poolOf (h.rented id hid)
  idle hidle := ⟨hkept.free hknown (h.idle hidle).1, hkept.free hknown (h.idle hidle).2⟩

/-- The default upstream is another one. -/
theorem RouteOk.default {want : UpstreamTarget}
    (h : RouteOk s marked defaultTarget target routing) (hwant : ¬MarkedPool s marked want) :
    RouteOk s marked want target routing where
  rented := h.rented
  idle hidle := ⟨(h.idle hidle).1, hwant⟩

/-- One more order is marked. -/
theorem RouteOk.mark {o : Order} (h : RouteOk s marked defaultTarget target routing)
    (hrow : Row s o) (hother : routing = .idle → target ∉ o.pools ∧ defaultTarget ∉ o.pools) :
    RouteOk s (marked ++ [o.id]) defaultTarget target routing where
  rented := h.rented
  idle hidle := ⟨free_append hrow (h.idle hidle).1 (hother hidle).1,
    free_append hrow (h.idle hidle).2 (hother hidle).2⟩

theorem SupervisorOk.kept {p : Phase} (h : SupervisorOk s marked defaultTarget p)
    (hkept : Kept s s') (hknown : ∀ id ∈ marked, ∃ o, s.get id = some o) :
    SupervisorOk s' marked defaultTarget p := by
  unfold SupervisorOk at *
  split
  · exact RouteOk.kept h hkept hknown
  · exact RouteOk.kept h hkept hknown
  · exact hkept.row h
  · exact hkept.row h
  · trivial

/-- The default upstream is another one. -/
theorem SupervisorOk.default {p : Phase} {want : UpstreamTarget}
    (h : SupervisorOk s marked defaultTarget p) (hwant : ¬MarkedPool s marked want) :
    SupervisorOk s marked want p := by
  unfold SupervisorOk at *
  split
  · exact ⟨(fun _ hid => by cases hid), fun _ => ⟨hwant, hwant⟩⟩
  · exact RouteOk.default h hwant
  · exact h
  · exact h
  · trivial

/-- One more order is marked. -/
theorem SupervisorOk.mark {p : Phase} {o : Order} (h : SupervisorOk s marked defaultTarget p)
    (hrow : Row s o) (hreverts : ∀ target ∈ revertsOf defaultTarget p, target ∉ o.pools) :
    SupervisorOk s (marked ++ [o.id]) defaultTarget p := by
  unfold SupervisorOk at *
  split
  · have hdefault := hreverts _ List.mem_cons_self
    exact RouteOk.mark h hrow fun _ => ⟨hdefault, hdefault⟩
  · exact RouteOk.mark h hrow fun _ => ⟨hreverts _ List.mem_cons_self,
      hreverts _ (List.mem_cons_of_mem _ List.mem_cons_self)⟩
  · exact h
  · exact h
  · trivial

theorem AuthorizeOk.kept {a : AuthorizeTask} (h : AuthorizeOk s marked defaultTarget a)
    (hkept : Kept s s') (hknown : ∀ id ∈ marked, ∃ o, s.get id = some o) :
    AuthorizeOk s' marked defaultTarget a := by
  unfold AuthorizeOk at *
  split
  · exact hkept.row h
  · exact hkept.row h
  · exact hkept.row h
  · exact hkept.row h
  · exact RouteOk.kept h hkept hknown
  · trivial

end Ok

/-! ## Steps -/

/-- A row that was read. -/
theorem Row.of_get {s : OrderStore} {id : String} {o : Order} (h : s.get id = some o) : Row s o :=
  ⟨o, by rwa [(OrderStore.mem_of_get h).2], rfl⟩

/-- The supervisor decides from what it has looked at. -/
theorem RoutingInv.supervisorMoves {x : Authorizing} {e : SwapEvent HostedEvent}
    {tasks : Supervised Hosted} {p : Phase} (h : RoutingInv x)
    (hmoves : Supervised.Moves swappable x.tasks e tasks .supervisor p) :
    SupervisorOk x.store x.marked x.inner.defaultTarget p := by
  have hsupervisor := h.supervisor
  cases hmoves with
  | same => exact hsupervisor
  | failover _ _ _ _ _ hcall =>
    rcases hcall with ⟨hidle, rfl⟩ | ⟨_, _, rfl⟩
    · have hfree := (h.active.idle hidle).2
      exact ⟨(fun _ hid => by cases hid), fun _ => ⟨hfree, hfree⟩⟩
    · trivial
  | reconcile hphase => exact absurd hphase (h.never _)
  | readOrder _ _ hget => exact Row.of_get hget
  | readDefault _ hphase hdefault =>
    rw [hphase] at hsupervisor
    cases hdefault
    exact hsupervisor
  | @begin a hphase =>
    rw [hphase] at hsupervisor
    cases a with
    | order o readAt fallback => exact hsupervisor
    | default target => trivial
  | @next a b _ hphase hnext =>
    rw [hphase] at hsupervisor
    cases a with
    | default target => cases hnext
    | order o readAt fallback =>
      cases fallback with
      | true => cases hnext
      | false =>
        simp only [Attempt.next] at hnext
        split at hnext <;> cases hnext
        exact hsupervisor
  | _ => trivial

/-- What a step of the tasks makes of store and route. -/
structure RouteAfter (x : Authorizing) (session : Hosted) : Prop where
  index : session.store.OneActive
  kept : Kept x.store session.store
  defaultTarget : session.relay.inner.defaultTarget = x.inner.defaultTarget
  active : RouteOk x.store x.marked x.inner.defaultTarget session.relay.inner.active.target
    session.relay.inner.routing
  swap : ∀ snap, session.relay.swap = .connecting snap →
    RouteOk x.store x.marked x.inner.defaultTarget snap.target snap.routing

theorem RoutingInv.after_refl {x : Authorizing} (h : RoutingInv x) :
    RouteAfter x x.tasks.session where
  index := h.index
  kept := .refl _
  defaultTarget := rfl
  active := h.active
  swap := h.swap

/-- A statement of the store leaves the route. -/
theorem RoutingInv.after_store {x : Authorizing} (h : RoutingInv x) {s : OrderStore}
    (hstep : OrderStore.Step x.store s) : RouteAfter x (x.tasks.session.withStore s) where
  index := hstep.oneActive h.index
  kept := .of_step hstep
  defaultTarget := rfl
  active := h.active
  swap := h.swap

/-- A step of the session that is not the authorize step's. -/
theorem RoutingInv.after_session {x : Authorizing} (h : RoutingInv x) {f : HostedEvent}
    {session : Hosted} (hown : f.ofAuthorize = false)
    (hstep : x.tasks.session.step f = some session) : RouteAfter x session := by
  cases f with
  | relay e =>
    obtain ⟨relay, hrelay, rfl⟩ := Option.map_eq_some_iff.mp hstep
    -- the rows and what is buffered for them
    have hkept : Kept x.store ({ x.tasks.session with relay } : Hosted).store :=
      ⟨OrderStore.SamePools.refl x.store, (Kept.refl x.store).revived⟩
    cases route_of_step hrelay with
    | same hsame =>
      refine ⟨h.index, hkept, hsame.defaultTarget, ?_, ?_⟩
      · dsimp only
        rw [hsame.target, hsame.routing]
        exact h.active
      · exact fun snap hsnap => h.swap snap (hsame.connecting snap hsnap)
    | attachOrder | setDefault | swapBegin => cases hown
    | @install answer snap raw hswap =>
      have hsnap := h.swap snap hswap
      refine ⟨h.index, hkept, ?_, ?_, ?_⟩
      · cases raw <;> rfl
      · cases raw <;> exact hsnap
      · cases raw <;> rintro snap' ⟨⟩
  | createOrder order =>
    obtain ⟨s, hs, rfl⟩ := Option.map_eq_some_iff.mp hstep
    exact h.after_store (.create hs)
  | cancelOrder orderId now =>
    obtain ⟨⟨o, s⟩, hs, rfl⟩ := Option.map_eq_some_iff.mp hstep
    exact h.after_store (.cancel hs)
  | expireOrders now =>
    cases hstep
    exact h.after_store (.expire now)
  | flushOrders =>
    cases hstep
    exact h.after_store .flush

/-- A swap that begins towards a truthful route. -/
theorem RoutingInv.after_begin {x : Authorizing} (h : RoutingInv x) {target : UpstreamTarget}
    {routing : Routing} {session : Hosted}
    (hok : RouteOk x.store x.marked x.inner.defaultTarget target routing)
    (hstep : x.tasks.session.step (.relay (.swapBegin target routing)) = some session) :
    RouteAfter x session := by
  obtain ⟨relay, hrelay, rfl⟩ := Option.map_eq_some_iff.mp hstep
  simp only [Sv1.step] at hrelay
  split at hrelay <;> cases hrelay
  refine ⟨h.index, ⟨OrderStore.SamePools.refl x.store, (Kept.refl x.store).revived⟩, rfl,
    h.active, ?_⟩
  rintro snap ⟨⟩
  exact hok

/-- What any step of the tasks makes of store and route. -/
theorem RoutingInv.after_tasks {x : Authorizing} (h : RoutingInv x) {e : SwapEvent HostedEvent}
    {tasks : Supervised Hosted} (hown : ∀ f, e = .session f → f.ofAuthorize = false)
    (hstep : x.tasks.step swappable e = some tasks) : RouteAfter x tasks.session := by
  cases kind_of_step hstep with
  | session he _ hsession hadvance =>
    rw [← hadvance, Supervised.advance_session]
    exact h.after_session (hown _ he) hsession
  | @begin t a f he hphase _ hbegin hsession =>
    have hsupervisor := h.supervisor
    have ht : t = .supervisor := by
      by_contra hother
      cases hphase.symm.trans (h.alone t hother)
    rw [← ht, hphase] at hsupervisor
    cases a with
    | order o readAt fallback =>
      obtain ⟨target, htarget, rfl⟩ := Option.map_eq_some_iff.mp hbegin
      have hmem : target ∈ o.pools := by
        cases fallback <;> simp_all [Order.pools]
      obtain ⟨row, hget, hpools⟩ := hsupervisor
      refine h.after_begin ⟨?_, fun hidle => by cases hidle⟩ hsession
      rintro id ⟨⟩
      exact ⟨row, hget, hpools ▸ hmem⟩
    | default target =>
      cases hbegin
      exact h.after_begin hsupervisor hsession
  | tick _ _ htick =>
    rw [← htick]
    exact h.after_refl
  | receive _ _ hsession =>
    rw [hsession.1]
    exact h.after_refl
  | quiet _ hsame =>
    rw [hsame.session]
    exact h.after_refl

/-- What is truthful before such a step is truthful after it. -/
theorem RoutingInv.of_after {x y : Authorizing} (h : RoutingInv x)
    (hafter : RouteAfter x y.tasks.session) (hmarked : y.marked = x.marked)
    (halone : ∀ t, t ≠ .supervisor → y.tasks.task t = .done)
    (hnever : ∀ desired, y.tasks.task .supervisor ≠ .compare desired)
    (hsupervisor : SupervisorOk x.store x.marked x.inner.defaultTarget
      (y.tasks.task .supervisor))
    (hauthorize : AuthorizeOk x.store x.marked x.inner.defaultTarget y.authorize) :
    RoutingInv y := by
  have hdefault : y.inner.defaultTarget = x.inner.defaultTarget := hafter.defaultTarget
  refine ⟨hafter.index, ?_, halone, hnever, ?_, ?_, ?_, ?_⟩
  · rw [hmarked]
    intro id hid
    obtain ⟨o, hget⟩ := h.known id hid
    obtain ⟨o', hget', _⟩ := hafter.kept.pools id o hget
    exact ⟨o', hget'⟩
  · rw [hdefault, hmarked]
    exact hafter.active.kept hafter.kept h.known
  · rw [hdefault, hmarked]
    exact fun snap hsnap => (hafter.swap snap hsnap).kept hafter.kept h.known
  · rw [hdefault, hmarked]
    exact hsupervisor.kept hafter.kept h.known
  · rw [hdefault, hmarked]
    exact hauthorize.kept hafter.kept h.known

/-- A step of the tasks, after which the authorize step may be done. -/
theorem RoutingInv.tasks {x : Authorizing} (h : RoutingInv x) {e : SwapEvent HostedEvent}
    {tasks : Supervised Hosted} (hown : ∀ f, e = .session f → f.ofAuthorize = false)
    (hstep : x.tasks.step swappable e = some tasks) {authorize : AuthorizeTask}
    (hauthorize : authorize = x.authorize ∨ authorize = .idle) :
    RoutingInv { x with tasks, authorize } := by
  refine h.of_after (h.after_tasks hown hstep) rfl
    (fun t ht => Supervised.alone_of_step rfl h.alone hstep ht)
    (Supervised.never_compares_of_step h.never hstep)
    (h.supervisorMoves (moves_of_step hstep .supervisor)) ?_
  rcases hauthorize with rfl | rfl
  · exact h.authorize
  · trivial

/-- A step of the authorize step that keeps marks and default upstream. -/
theorem RoutingInv.authorizes {x y : Authorizing} (h : RoutingInv x) {authorize : AuthorizeTask}
    (hafter : RouteAfter x y.tasks.session)
    (hy : y = { x with tasks := { x.tasks with session := y.tasks.session }, authorize })
    (hauthorize : AuthorizeOk x.store x.marked x.inner.defaultTarget authorize) :
    RoutingInv y := by
  refine h.of_after hafter ?_ ?_ ?_ ?_ ?_ <;> rw [hy]
  · exact h.alone
  · exact h.never
  · exact h.supervisor
  · exact hauthorize

/-- `attach_order`, when no revert is under way to a pool of the order. -/
theorem RoutingInv.attach {x : Authorizing} (h : RoutingInv x) {o : Order}
    (hphase : x.authorize = .attaching o) (hpool : x.inner.active.target ∈ o.pools)
    (hreverting : ∀ target ∈ x.reverting, target ∉ o.pools) :
    RoutingInv { x with
      tasks := { x.tasks with session := { x.tasks.session with
        relay := { x.tasks.session.relay with
          inner := { x.inner with routing := .rented o.id } } } }
      authorize := .idle
      marked := x.marked ++ [o.id] } := by
  have hrow : Row x.store o := by
    have hauthorize := h.authorize
    rwa [hphase] at hauthorize
  refine ⟨h.index, ?_, h.alone, h.never, ⟨?_, fun hidle => by cases hidle⟩, ?_, ?_, trivial⟩
  · intro id hid
    rcases List.mem_append.mp hid with hold | hnew
    · exact h.known id hold
    · obtain ⟨row, hget, _⟩ := hrow
      rw [List.mem_singleton.mp hnew]
      exact ⟨row, hget⟩
  · rintro id ⟨⟩
    obtain ⟨row, hget, hpools⟩ := hrow
    exact ⟨row, hget, hpools ▸ hpool⟩
  · intro snap hsnap
    refine (h.swap snap hsnap).mark hrow fun hidle => ?_
    have hmem : ∀ target ∈ [snap.target, x.inner.defaultTarget], target ∈ x.reverting := by
      intro target htarget
      refine List.mem_append_right _ ?_
      rw [show x.swap = .connecting snap from hsnap]
      simpa only [SwapTask.reverts, if_pos hidle] using htarget
    exact ⟨hreverting _ (hmem _ List.mem_cons_self),
      hreverting _ (hmem _ (List.mem_cons_of_mem _ List.mem_cons_self))⟩
  · exact h.supervisor.mark hrow fun target htarget =>
      hreverting target (List.mem_append_left _ htarget)

/-- `set_default` to a pool of no marked order. -/
theorem RoutingInv.setDefault {x : Authorizing} (h : RoutingInv x) {want : UpstreamTarget}
    (hwant : ¬MarkedPool x.store x.marked want) :
    RoutingInv { x with
      tasks := { x.tasks with session := { x.tasks.session with
        relay := { x.tasks.session.relay with
          inner := { x.inner with defaultTarget := want } } } }
      authorize := .waiting want .idle } := by
  refine ⟨h.index, h.known, h.alone, h.never, h.active.default hwant,
    fun snap hsnap => (h.swap snap hsnap).default hwant, h.supervisor.default hwant, ?_⟩
  exact ⟨(fun _ hid => by cases hid), fun _ => ⟨hwant, hwant⟩⟩

theorem RoutingInv.step {x x' : Authorizing} {e : AuthorizeEvent} (h : RoutingInv x)
    (hguard : x.StaysTrue e) (hstep : x.step e = some x') : RoutingInv x' := by
  have hauthorize := h.authorize
  cases e with
  | tasks e =>
    simp only [Authorizing.step] at hstep
    split at hstep
    · split at hstep
      · cases hstep
      · rename_i f hown
        obtain ⟨tasks, htasks, rfl⟩ := Option.map_eq_some_iff.mp hstep
        have hown' : ∀ g, SwapEvent.session f = .session g → g.ofAuthorize = false := by
          rintro g ⟨⟩
          simpa using hown
        split
        · exact h.tasks hown' htasks (Or.inr rfl)
        · exact h.tasks hown' htasks (Or.inl rfl)
    · rename_i hother
      obtain ⟨tasks, htasks, rfl⟩ := Option.map_eq_some_iff.mp hstep
      exact h.tasks (fun f hf => absurd hf (hother f)) htasks (Or.inl rfl)
  | resolve worker pool =>
    simp only [Authorizing.step] at hstep
    split at hstep <;> cases hstep
    refine h.authorizes h.after_refl rfl ?_
    cases horder : x.store.activeForWorker worker x.tasks.now with
    | none => trivial
    | some o => exact Row.of_get (h.index.get_activeForWorker horder)
  | answer id =>
    simp only [Authorizing.step] at hstep
    split at hstep
    · rename_i worker order pool hphase
      rw [hphase] at hauthorize
      split at hstep
      · obtain ⟨y, hy, rfl⟩ := Option.map_eq_some_iff.mp hstep
        obtain ⟨session, hsession, rfl⟩ := Option.map_eq_some_iff.mp hy
        exact h.authorizes (h.after_session rfl hsession) rfl trivial
      · obtain ⟨y, hy, rfl⟩ := Option.map_eq_some_iff.mp hstep
        obtain ⟨session, hsession, rfl⟩ := Option.map_eq_some_iff.mp hy
        refine h.authorizes (h.after_session rfl hsession) rfl ?_
        cases order with
        | none => trivial
        | some o => exact hauthorize
    · cases hstep
  | compare =>
    simp only [Authorizing.step] at hstep
    split at hstep <;> cases hstep
    rename_i order want hphase
    rw [hphase] at hauthorize
    refine h.authorizes h.after_refl rfl ?_
    cases order with
    | none => split <;> trivial
    | some o => split <;> exact hauthorize
  | attach =>
    simp only [Authorizing.step] at hstep
    split at hstep
    · rename_i o hphase
      obtain ⟨y, hy, rfl⟩ := Option.map_eq_some_iff.mp hstep
      obtain ⟨session, hsession, rfl⟩ := Option.map_eq_some_iff.mp hy
      cases hsession
      exact h.attach hphase (hguard o hphase).1 (hguard o hphase).2
    · cases hstep
  | choose =>
    simp only [Authorizing.step] at hstep
    split at hstep
    · rename_i order want hphase
      rw [hphase] at hauthorize
      split at hstep
      · rename_i hcapable
        split at hstep
        · rename_i o
          cases hstep
          refine h.authorizes h.after_refl rfl ⟨?_, fun hidle => by cases hidle⟩
          rintro id ⟨⟩
          obtain ⟨row, hget, hpools⟩ := hauthorize
          exact ⟨row, hget, hpools ▸ List.mem_cons_self⟩
        · obtain ⟨y, hy, rfl⟩ := Option.map_eq_some_iff.mp hstep
          obtain ⟨session, hsession, rfl⟩ := Option.map_eq_some_iff.mp hy
          cases hsession
          exact h.setDefault (hguard want hphase hcapable)
      · obtain ⟨y, hy, rfl⟩ := Option.map_eq_some_iff.mp hstep
        obtain ⟨session, hsession, rfl⟩ := Option.map_eq_some_iff.mp hy
        exact h.authorizes (h.after_session rfl hsession) rfl trivial
    · cases hstep
  | begin =>
    simp only [Authorizing.step] at hstep
    split at hstep
    · rename_i target routing hphase
      rw [hphase] at hauthorize
      obtain ⟨y, hy, rfl⟩ := Option.map_eq_some_iff.mp hstep
      obtain ⟨session, hsession, rfl⟩ := Option.map_eq_some_iff.mp hy
      exact h.authorizes (h.after_begin hauthorize hsession) rfl trivial
    · cases hstep

/-! ## The result -/

theorem RoutingInv.fresh {session : Hosted} (h : Established session) (now : Int) :
    RoutingInv (.fresh session now) := by
  obtain ⟨hone, target, peer, orders, answer, hstart⟩ := h
  obtain ⟨raw, _, hrelay⟩ := Option.map_eq_some_iff.mp hstart
  have hrouting : session.relay.inner.routing = .idle := by
    rw [← hrelay]
    cases raw <;> rfl
  have hswap : session.relay.swap = .idle := by rw [← hrelay]
  refine ⟨hone, (fun id hid => by cases hid), fun t _ => rfl, (fun d hd => by cases hd), ⟨?_, ?_⟩,
    ?_, trivial, trivial⟩
  · intro id hid
    cases hrouting.symm.trans hid
  · intro _
    refine ⟨?_, ?_⟩ <;> rintro ⟨id, hid, _⟩ <;> cases hid
  · intro snap hsnap
    cases hswap.symm.trans hsnap

/-- In every run whose steps keep it true, the routing tells the truth about the
upstream. -/
theorem routing_truthful {x : Authorizing} (h : Authorizing.ReachesUnder Authorizing.StaysTrue x) :
    x.Truthful := by
  obtain ⟨session, now, hsession, hrun⟩ := h
  have hinv : RoutingInv x :=
    hrun.invariant (.fresh hsession now) fun _ _ _ hold hguard hstep => hold.step hguard hstep
  exact ⟨hinv.active.rented, fun hidle => (hinv.active.idle hidle).1⟩

/-- An order for the pool that a session is on. -/
def pooledOrder : Order where
  id := "o1"
  worker := "bc1q.rig"
  target := ⟨"pool:3333", "bc1q", "", none⟩

/-- A session that was reconnected straight onto the pool of the order. -/
def hintedSession : Option Hosted :=
  (eagerSession 1).map fun relay => { relay, rows := [pooledOrder] }

/-- The worker authorizes and is found on the pool of its order. -/
def authorized : List AuthorizeEvent :=
  [.resolve "bc1q.rig" none, .answer none, .compare, .attach]

/-- The supervisor connects the default pool again. -/
def revertEvents : List AuthorizeEvent :=
  [.tasks (.read .supervisor), .tasks (.begin .supervisor),
    .tasks (.session (.relay (.swapConnect (eagerPool 1)))),
    .tasks (.session (.relay .swapRepoint)), .tasks (.session (.relay .swapTakePrelude)),
    .tasks (.session (.relay .swapFlush)), .tasks (.session (.relay .swapFlush))]

/-- The pool drops the session, and the supervisor has looked at its routing. -/
def dropped : List AuthorizeEvent :=
  [.tasks (.died 1), .tasks .receive, .tasks .check]

/-- A marked session is on the pool of the order and is not about to leave it. -/
def marksTruly (x : Authorizing) : AuthorizeEvent → Bool
  | .attach => match x.authorize with
    | .attaching o => decide (x.inner.active.target ∈ o.pools) &&
        x.reverting.all fun target => decide (target ∉ o.pools)
    | _ => true
  | .choose => false
  | _ => true

theorem staysTrue_of_marksTruly (x : Authorizing) (e : AuthorizeEvent)
    (h : marksTruly x e = true) : x.StaysTrue e := by
  cases e with
  | attach =>
    intro o ho
    simpa [marksTruly, ho] using h
  | choose => cases h
  | _ => trivial

/-- A schedule from such a session. -/
theorem reaches_of_hinted {G : Authorizing → AuthorizeEvent → Prop}
    {g : Authorizing → AuthorizeEvent → Bool} (hg : ∀ x e, g x e = true → G x e)
    (es : List AuthorizeEvent) {p : Authorizing → Bool}
    (h : (hintedSession.bind fun session =>
      runWhile Authorizing.step g (.fresh session 0) es).any p = true) :
    ∃ x, Authorizing.ReachesUnder G x ∧ p x = true := by
  obtain ⟨x, hx, hp⟩ := (Option.any_eq_true ..).mp h
  obtain ⟨session, hsession, hrun⟩ := Option.bind_eq_some_iff.mp hx
  obtain ⟨relay, hrelay, rfl⟩ := Option.map_eq_some_iff.mp hsession
  have hone : OrderStore.OneActive (Hosted.store { relay, rows := [pooledOrder] }) :=
    List.pairwise_singleton ..
  exact ⟨x, ⟨_, 0, ⟨hone, _, _, _, _, hrelay⟩, .of_runWhile hg hrun⟩, hp⟩

theorem routing_truthful_resumed :
    ∃ x : Authorizing, x.inner.routing = .rented "o1" ∧ x.Truthful := by
  obtain ⟨x, hx, hrouting⟩ := reaches_of_hinted staysTrue_of_marksTruly authorized
    (p := fun x => decide (x.inner.routing = .rented "o1")) (by decide +kernel)
  exact ⟨x, of_decide_eq_true hrouting, routing_truthful hx⟩

/-- The session is marked after the supervisor has looked at its routing, and then
reverted: it mines on the pool of the order and is not rented. -/
theorem marked_session_reverted :
    ∃ x : Authorizing, Authorizing.ReachesUnder (fun _ _ => True) x ∧ x.swap.isIdle = true ∧
      x.inner.routing = .idle ∧ MarkedPool x.store x.marked x.inner.active.target := by
  obtain ⟨x, hx, hp⟩ := reaches_of_hinted (G := fun _ _ => True) (g := fun _ _ => true)
    (fun _ _ _ => trivial) (dropped ++ authorized ++ revertEvents)
    (p := fun x => x.swap.isIdle && decide (x.inner.routing = .idle) &&
      decide ("o1" ∈ x.marked) && decide (x.store.get "o1" = some pooledOrder) &&
        decide (x.inner.active.target = pooledOrder.target)) (by decide +kernel)
  simp only [Bool.and_eq_true, decide_eq_true_eq] at hp
  obtain ⟨⟨⟨⟨hidle, hrouting⟩, hmarked⟩, hrow⟩, htarget⟩ := hp
  refine ⟨x, hx, hidle, hrouting, "o1", hmarked, pooledOrder, hrow, rfl, ?_⟩
  rw [htarget]
  exact List.mem_cons_self

end RentalProxy.Sv1
