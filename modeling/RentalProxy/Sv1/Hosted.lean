import RentalProxy.Failover
import RentalProxy.Sv1.Tasks

/-!
# An SV1 session and the order store

`Relay` has the buffered accounting of the order store and not its rows.  `Hosted` is
a session with the rows, and `swappable` that session as its tasks see it.
-/

namespace RentalProxy.Sv1

open StepSystem

/-- A session with the rows of the order store. -/
structure Hosted where
  relay : Relay
  rows : List Order

/-- A step of the session, or a statement of the store. -/
inductive HostedEvent where
  | relay (e : Event)
  | createOrder (order : Order)
  | cancelOrder (orderId : String) (now : Int)
  | expireOrders (now : Int)
  | flushOrders

namespace Hosted

/-- The order store. -/
def store (h : Hosted) : OrderStore where
  rows := h.rows
  pending := h.relay.orders

def withStore (h : Hosted) (s : OrderStore) : Hosted where
  relay := { h.relay with orders := s.pending }
  rows := s.rows

def step (h : Hosted) : HostedEvent → Option Hosted
  | .relay e => (Sv1.step h.relay e).map fun relay => { h with relay }
  | .createOrder order => (h.store.create order).map h.withStore
  | .cancelOrder orderId now => (h.store.cancel orderId now).map fun (_, s) => h.withStore s
  | .expireOrders now => some (h.withStore (h.store.takeExpired now).2)
  | .flushOrders => some (h.withStore h.store.flush)

@[simp] theorem withStore_store (h : Hosted) (s : OrderStore) : (h.withStore s).store = s := rfl
@[simp] theorem withStore_inner (h : Hosted) (s : OrderStore) :
    (h.withStore s).relay.inner = h.relay.inner := rfl
@[simp] theorem withStore_swap (h : Hosted) (s : OrderStore) :
    (h.withStore s).relay.swap = h.relay.swap := rfl

end Hosted

/-- No swap is under way. -/
def SwapTask.isIdle : SwapTask → Bool
  | .idle => true
  | _ => false

/-- All lines of the swap are queued. -/
def SwapTask.returning : SwapTask → Bool
  | .flushing [] => true
  | _ => false

/-- A session as its tasks see it.  The authorize step begins swaps of its own, and no
connection is attached to the session of another. -/
def swappable : Swappable Hosted HostedEvent where
  step := Hosted.step
  generation h := h.relay.inner.active.generation
  routing h := h.relay.inner.routing
  worker h := h.relay.inner.label
  defaultTarget h := some h.relay.inner.defaultTarget
  store := Hosted.store
  unlocked h := h.relay.swap.isIdle
  returning h := h.relay.swap.returning
  begin _ _ a := match a with
    | .order o _ fallback => (if fallback then o.fallback else some o.target).map fun target =>
        .relay (.swapBegin target (.rented o.id))
    | .default target => some (.relay (.swapBegin target .idle))
  inCall _ := false
  bundles := false

/-- A session on its bootstrap upstream. -/
def Established (h : Hosted) : Prop :=
  h.store.OneActive ∧ ∃ target peer orders answer, start target peer orders answer = some h.relay

theorem swappable_takesLock : Supervised.TakesLock swappable := by
  intro h t a f h' hbegin hstep
  have hbegins : ∃ target routing, f = .relay (.swapBegin target routing) := by
    cases a with
    | order o readAt fallback =>
      obtain ⟨target, _, rfl⟩ := Option.map_eq_some_iff.mp hbegin
      exact ⟨_, _, rfl⟩
    | default target =>
      cases hbegin
      exact ⟨_, _, rfl⟩
  obtain ⟨target, routing, rfl⟩ := hbegins
  obtain ⟨relay, hrelay, rfl⟩ := Option.map_eq_some_iff.mp hstep
  simp only [step] at hrelay
  split at hrelay <;> cases hrelay
  rfl

/-- What a step does to the store: its work, or one statement. -/
theorem Hosted.oneActive_step {h h' : Hosted} {e : HostedEvent} (hstep : h.step e = some h')
    (hone : h.store.OneActive) : h'.store.OneActive := by
  cases e with
  | relay e =>
    obtain ⟨relay, _, rfl⟩ := Option.map_eq_some_iff.mp hstep
    exact hone
  | createOrder order =>
    obtain ⟨s, hs, rfl⟩ := Option.map_eq_some_iff.mp hstep
    exact (OrderStore.Step.create hs).oneActive hone
  | cancelOrder orderId now =>
    obtain ⟨⟨o, s⟩, hs, rfl⟩ := Option.map_eq_some_iff.mp hstep
    exact (OrderStore.Step.cancel hs).oneActive hone
  | expireOrders now =>
    cases hstep
    exact (OrderStore.Step.expire now).oneActive hone
  | flushOrders =>
    cases hstep
    exact OrderStore.Step.flush.oneActive hone

end RentalProxy.Sv1
