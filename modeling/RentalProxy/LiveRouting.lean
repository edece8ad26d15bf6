import RentalProxy.Sv1.Hosted
import RentalProxy.Sv2.Swaps

/-!
# Only live orders are switched to

The connection that attaches and the background retry look the live order of the
worker up, and `switch_to_order` then reads the row again.  The supervisor takes the
order from the routing and never asks whether it is still live, so it connects an
ended rental again (`ended_order_reconnected`).

* `OrdersLast` is the condition on the steps.
* `LiveReads` is the invariant, for a session of either protocol.
* `routed_orders_live` is the result.
-/

namespace RentalProxy

open StepSystem
open Supervised (kind_of_step moves_of_step routed_of_step)

/-! ## Decided and read -/

/-- The order that a task has decided to switch to, and has not read yet. -/
def Phase.decided : Phase → Option String
  | .compare (some o) => some o.id
  | .call (.readOrder id) => some id
  | _ => none

theorem Attempt.next_read {a b : Attempt} (h : a.next = some b) : b.read = a.read := by
  cases a with
  | order o readAt fallback =>
    cases fallback with
    | true => cases h
    | false =>
      simp only [Attempt.next] at h
      split at h <;> cases h
      rfl
  | default target => cases h

namespace Supervised

variable {σ ε : Type}

/-- The order is in the store, and live now. -/
def LiveRow (s : Swappable σ ε) (x : Supervised σ) (id : String) : Prop :=
  ∃ o, (s.store x.session).get id = some o ∧ o.isLive x.now = true

/-- The supervisor finds the order of the routing live when it looks at it, and no
step ends an order that a task has decided to switch to and not read yet. -/
def OrdersLast (s : Swappable σ ε) (x : Supervised σ) (e : SwapEvent ε) : Prop :=
  (e = .check → s.generation x.session = x.signal →
    ∀ id, s.routing x.session = .rented id → x.LiveRow s id) ∧
  ∀ x', x.step s e = some x' →
    ∀ t id, (x.task t).decided = some id → x.LiveRow s id → x'.LiveRow s id

/-- What is decided is live, and what was read was live when it was read. -/
structure LiveReads (s : Swappable σ ε) (x : Supervised σ) : Prop where
  decided : ∀ t id, (x.task t).decided = some id → x.LiveRow s id
  read : ∀ t a, x.task t = .call (.wait a) ∨ x.task t = .call (.hold a) →
    ∀ p ∈ a.read, p.1.isLive p.2 = true
  routed : ∀ p ∈ x.routed, p.1.isLive p.2 = true

section Steps

variable {s : Swappable σ ε} {x x' : Supervised σ} {e : SwapEvent ε}

theorem LiveRow.of_same {id : String} (h : x.LiveRow s id) (hsame : SameBut x x') :
    x'.LiveRow s id := by
  unfold LiveRow
  rw [hsame.session, hsame.now]
  exact h

theorem LiveReads.step (h : LiveReads s x) (hone : (s.store x.session).OneActive)
    (hguard : OrdersLast s x e) (hstep : x.step s e = some x') : LiveReads s x' where
  decided := by
    intro t id hdecided
    have hkept : (x.task t).decided = some id → x'.LiveRow s id := fun hbefore =>
      hguard.2 x' hstep t id hbefore (h.decided t id hbefore)
    have hmoves := moves_of_step hstep t
    generalize x'.task t = p at hmoves hdecided
    cases hmoves with
    | same => exact hkept hdecided
    | compare _ hsame _ =>
      -- the live order was looked up in this step
      unfold Phase.decided at hdecided
      split at hdecided
      · rename_i o ho
        cases hdecided
        have hlookup : x.liveOrder s = some o := Phase.compare.inj ho
        obtain ⟨_, _, hlive⟩ := OrderStore.mem_of_activeForWorker hlookup
        exact LiveRow.of_same ⟨o, hone.get_activeForWorker hlookup, hlive⟩ hsame
      · rename_i hcall
        cases hcall
      · cases hdecided
    | failover _ _ he hsame hgeneration hcall =>
      rcases hcall with ⟨_, rfl⟩ | ⟨id', hrouting, rfl⟩
      · cases hdecided
      · cases hdecided
        exact (hguard.1 he hgeneration id hrouting).of_same hsame
    | reconcile hphase hcall =>
      rcases hcall with rfl | ⟨o, rfl, rfl⟩
      · cases hdecided
      · exact hkept (by rw [hphase]; exact hdecided)
    | _ => cases hdecided
  read := by
    intro t a hphase p hp
    have hmoves := moves_of_step hstep t
    generalize x'.task t = q at hmoves hphase
    cases hmoves with
    | same => exact h.read t a hphase p hp
    | failover _ _ _ _ _ hcall =>
      rcases hcall with ⟨_, rfl⟩ | ⟨_, _, rfl⟩ <;>
        rcases hphase with hphase | hphase <;> cases hphase
    | reconcile _ hcall =>
      rcases hcall with rfl | ⟨_, _, rfl⟩ <;> rcases hphase with hphase | hphase <;> cases hphase
    | @readOrder id o _ hbefore hget =>
      rcases hphase with hphase | hphase <;> cases hphase
      cases hp
      obtain ⟨o', hget', hlive⟩ := h.decided t id (by rw [hbefore]; rfl)
      rw [hget] at hget'
      cases hget'
      exact hlive
    | readDefault =>
      rcases hphase with hphase | hphase <;> cases hphase
      cases hp
    | begin hbefore =>
      rcases hphase with hphase | hphase <;> cases hphase
      exact h.read t a (Or.inl hbefore) p hp
    | next hbefore hnext =>
      rcases hphase with hphase | hphase <;> cases hphase
      rw [Attempt.next_read hnext] at hp
      exact h.read t _ (Or.inr hbefore) p hp
    | _ => rcases hphase with hphase | hphase <;> cases hphase
  routed := by
    intro p hp
    rcases routed_of_step hstep with hsame | ⟨t, a, hphase, hnew⟩
    · rw [hsame] at hp
      exact h.routed p hp
    · rw [hnew] at hp
      rcases List.mem_append.mp hp with hold | hread
      · exact h.routed p hold
      · exact h.read t a (Or.inr hphase) p (Option.mem_toList.mp hread)

theorem LiveReads.fresh (session : σ) (now : Int) : LiveReads s (fresh session now) where
  decided t id hdecided := by cases hdecided
  read t a hphase := by rcases hphase with hphase | hphase <;> cases hphase
  routed p hp := by cases hp

/-- In a run whose steps all let orders last, every order that was switched to was
live when it was read. -/
theorem LiveReads.of_reaches {Start : σ → Prop} (h : ReachesUnder s Start (OrdersLast s) x)
    (hindex : ∀ r₀ r, Start r₀ → Reachable s.step r₀ r → (s.store r).OneActive) :
    LiveReads s x := by
  refine (h.invariant (I := fun y => (∃ r₀, Start r₀ ∧ Reachable s.step r₀ y.session) ∧
    LiveReads s y) ?_ ?_).2
  · exact fun r now hr => ⟨⟨r, hr, .refl⟩, .fresh r now⟩
  · intro y e z ⟨⟨r₀, hr₀, hrun⟩, hreads⟩ hguard hstep
    refine ⟨⟨r₀, hr₀, ?_⟩, hreads.step (hindex r₀ _ hr₀ hrun) hguard hstep⟩
    rcases session_of_step hstep with hsame | ⟨f, hf⟩
    · rwa [hsame]
    · exact .tail hrun hf trivial

end Steps

end Supervised

/-! ## Sessions of either protocol -/

/-- A session of either protocol with its tasks. -/
inductive SupervisedSession where
  | sv1 (x : Supervised Sv1.Hosted)
  | sv2 (x : Supervised Sv2.Rig)

namespace SupervisedSession

open Sv2 (Decoder Sv1Library wireDecoder plainLibrary)

/-- The orders that were switched to, as they were read, with the time of the read. -/
def routed : SupervisedSession → List (Order × Int)
  | .sv1 x => x.routed
  | .sv2 x => x.routed

/-- The states that are reached along any steps. -/
def Reaches (decode : Decoder) (lib : Sv1Library) : SupervisedSession → Prop
  | .sv1 x => Supervised.ReachesUnder Sv1.swappable Sv1.Established (fun _ _ => True) x
  | .sv2 x => Supervised.ReachesUnder (Sv2.swappable decode lib) (Sv2.Established lib)
      (fun _ _ => True) x

/-- The states that are reached along steps that let orders last. -/
def ReachesLasting (decode : Decoder) (lib : Sv1Library) : SupervisedSession → Prop
  | .sv1 x => Supervised.ReachesUnder Sv1.swappable Sv1.Established
      (Supervised.OrdersLast Sv1.swappable) x
  | .sv2 x => Supervised.ReachesUnder (Sv2.swappable decode lib) (Sv2.Established lib)
      (Supervised.OrdersLast (Sv2.swappable decode lib)) x

/-- Every order that `switch_to_order` has installed was live when it was read. -/
theorem routed_orders_live {decode : Decoder} {lib : Sv1Library} {x : SupervisedSession}
    (h : x.ReachesLasting decode lib) : ∀ p ∈ x.routed, p.1.isLive p.2 = true := by
  cases x with
  | sv1 x =>
    refine (Supervised.LiveReads.of_reaches h ?_).routed
    intro r₀ r hr₀ hrun
    exact hrun.invariant (I := fun r => r.store.OneActive) hr₀.1
      fun _ _ _ hone _ hstep => Sv1.Hosted.oneActive_step hstep hone
  | sv2 x =>
    refine (Supervised.LiveReads.of_reaches h ?_).routed
    rintro r₀ r ⟨worker, spec, store, idlePool, now, failed, answer, hone, hstart⟩ hrun
    exact (Sv2.Serving.of_reaches ⟨worker, spec, store, idlePool, now, failed, answer, r₀, hone,
      hstart, hrun⟩).store

/-- A rig that starts on the pool of an order that is live. -/
def rentedRig : Option Sv2.Rig :=
  Sv2.start plainLibrary "bc1q.rig" (Sv2.extendedOpen 7) { rows := [Sv2.buyerOrder] }
    (some Sv2.sellerPool) 0 none .native

/-- The pool of the order drops the rig, and the supervisor connects it again. -/
def reconnected : List (SwapEvent Sv2.Event) :=
  [.session (.upstreamFrame 0 (Sv2.openedFrame 1 10 0) 0), .died 0, .receive, .check,
    .read .supervisor, .begin .supervisor, .session (.swapReopened [Sv2.reopenedInfo 30])]

/-- Store and clock stay as they are, and the supervisor finds the order live. -/
def steady (x : Supervised Sv2.Rig) (e : SwapEvent Sv2.Event) : Bool :=
  (match e with
    | .check => (x.session.store.get "o1").any fun o => o.isLive x.now
    | _ => true) &&
  decide (x.session.inner.routing = .rented "o1") &&
  (x.step (Sv2.swappable wireDecoder plainLibrary) e).all fun x' =>
    decide (x'.session.store.rows = x.session.store.rows) && decide (x'.now = x.now)

theorem ordersLast_of_steady (x : Supervised Sv2.Rig) (e : SwapEvent Sv2.Event)
    (h : steady x e = true) :
    Supervised.OrdersLast (Sv2.swappable wireDecoder plainLibrary) x e := by
  simp only [steady, Bool.and_eq_true, decide_eq_true_eq] at h
  obtain ⟨⟨hcheck, hrouting⟩, hsame⟩ := h
  refine ⟨?_, ?_⟩
  · rintro rfl _ id hid
    have hid' : x.session.inner.routing = .rented id := hid
    rw [hrouting] at hid'
    cases hid'
    exact (Option.any_eq_true ..).mp hcheck
  · intro x' hx' t id _ hlive
    simp only [hx', Option.all_some, Bool.and_eq_true, decide_eq_true_eq] at hsame
    obtain ⟨o, hget, ho⟩ := hlive
    refine ⟨o, ?_, by rw [hsame.2]; exact ho⟩
    have hrows : x'.session.store.get id = x.session.store.get id := by
      rw [OrderStore.get, OrderStore.get, hsame.1]
    exact hrows.trans hget

theorem routed_orders_live_reconnected :
    ∃ x : SupervisedSession, x.routed.length = 1 ∧ ∀ p ∈ x.routed, p.1.isLive p.2 = true := by
  have hrun : (rentedRig.bind fun r =>
      runWhile (Supervised.step (Sv2.swappable wireDecoder plainLibrary)) steady (.fresh r 0)
        reconnected).any (fun x => decide (x.routed.length = 1)) = true := by decide +kernel
  obtain ⟨x, hx, hlength⟩ := (Option.any_eq_true ..).mp hrun
  obtain ⟨r₀, hstart, hsteps⟩ := Option.bind_eq_some_iff.mp hx
  have hone : OrderStore.OneActive { rows := [Sv2.buyerOrder] } := List.pairwise_singleton ..
  have hlasting : (SupervisedSession.sv2 x).ReachesLasting wireDecoder plainLibrary :=
    ⟨r₀, 0, ⟨_, _, _, _, _, _, _, hone, hstart⟩, .of_runWhile ordersLast_of_steady hsteps⟩
  exact ⟨.sv2 x, of_decide_eq_true hlength, routed_orders_live hlasting⟩

/-- The rental is cancelled, and then its pool drops the rig. -/
def endedOrder : List (SwapEvent Sv2.Event) :=
  .session (.upstreamFrame 0 (Sv2.openedFrame 1 10 0) 0) :: .session (.cancelOrder "o1" 5) ::
    .tick 10 :: reconnected.tail

/-- The supervisor connects the cancelled order again. -/
theorem ended_order_reconnected :
    ∃ x : Supervised Sv2.Rig, (SupervisedSession.sv2 x).Reaches wireDecoder plainLibrary ∧
      x.session.inner.routing = .rented "o1" ∧ x.session.inner.active.generation = 1 ∧
      ∃ p ∈ x.routed, p.1.status = .cancelled ∧ p.1.isLive p.2 = false := by
  have hrun : (rentedRig.bind fun r =>
      runWhile (Supervised.step (Sv2.swappable wireDecoder plainLibrary)) (fun _ _ => true)
        (.fresh r 0) endedOrder).any (fun x =>
          decide (x.session.inner.routing = .rented "o1") &&
          decide (x.session.inner.active.generation = 1) &&
          x.routed.any fun p => decide (p.1.status = .cancelled) && !p.1.isLive p.2) = true := by
    decide +kernel
  obtain ⟨x, hx, hp⟩ := (Option.any_eq_true ..).mp hrun
  obtain ⟨r₀, hstart, hsteps⟩ := Option.bind_eq_some_iff.mp hx
  have hone : OrderStore.OneActive { rows := [Sv2.buyerOrder] } := List.pairwise_singleton ..
  simp only [Bool.and_eq_true, decide_eq_true_eq, List.any_eq_true, Bool.not_eq_true'] at hp
  obtain ⟨⟨hrouting, hgeneration⟩, p, hp, hstatus, hdead⟩ := hp
  exact ⟨x, ⟨r₀, 0, ⟨_, _, _, _, _, _, _, hone, hstart⟩,
    .of_runWhile (fun _ _ _ => trivial) hsteps⟩, hrouting, hgeneration, p, hp, hstatus, hdead⟩

end SupervisedSession

end RentalProxy
