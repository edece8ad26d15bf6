import RentalProxy.CalmSessions

/-!
# No rental change is lost

A handler looks up the live order of the worker, and registers its session later.  A call that
changes the order signals the sessions that are registered when it looks.  A change that falls
between the two reaches the session in neither way (`cancel_is_lost`).

* `Finished` and `Lands` state the property.
* `KeepsUp` is the condition on the steps: a session is registered under an order that is still
  the live one, or a call that has changed it is still to read the registry.
* `Inv.sv1Step`, `Inv.sv2Step` and `Inv.callStep` say that the steps keep the invariant, and
  `no_change_lost` is the result.
-/

namespace RentalProxy

namespace Proxy

variable {env : Env} {s s' : Proxy} {c : Nat}

/-! ## The property and its condition -/

/-- All steps have finished. -/
structure Finished (env : Env) (s : Proxy) : Prop where
  handlers : ∀ c < s.accepted, (s.handler c).isDone = true
  marked : s.marked = 0
  todo : s.todo = []
  expiry : s.expiry = .sleeping
  /-- No row is left for the expiry task. -/
  rows : s.finishedRows env = []

/-- Every registered session that was not signalled has the routing of the live order. -/
def Lands (env : Env) (s : Proxy) : Prop :=
  ∀ c ∈ s.registry, c ∉ s.signaled →
    (s.session c).map AnySession.routing = some (s.desired env)

/-- The order that was looked up is the live one, or a change is under way. -/
def Current (env : Env) (s : Proxy) (order : Option Order) : Prop :=
  Quiet env s → routingOf order = s.desired env

/-- The order under which the step registers a session that is not registered yet. -/
def registering (s : Proxy) : Event → Option (Option Order)
  | .answer c =>
    match s.handler c with
    | .authorizing order _ => if c ∈ s.registry then none else some order
    | _ => none
  | .register c =>
    match s.handler c with
    | .installed o => some o.order
    | _ => none
  | _ => none

/-- The condition: what a handler has looked up is current when its session is registered. -/
def KeepsUp (env : Env) (s : Proxy) (e : Event) : Prop :=
  ∀ order ∈ s.registering e, Current env s order

instance (env : Env) (s : Proxy) : Decidable (Finished env s) :=
  decidable_of_iff ((∀ c < s.accepted, (s.handler c).isDone = true) ∧ s.marked = 0 ∧ s.todo = [] ∧
      s.expiry = .sleeping ∧ s.finishedRows env = [])
    ⟨fun ⟨hhandlers, hmarked, htodo, hexpiry, hrows⟩ =>
      ⟨hhandlers, hmarked, htodo, hexpiry, hrows⟩,
    fun h => ⟨h.handlers, h.marked, h.todo, h.expiry, h.rows⟩⟩

instance (env : Env) (s : Proxy) : Decidable (Lands env s) :=
  inferInstanceAs (Decidable (∀ c ∈ s.registry, c ∉ s.signaled →
    (s.session c).map AnySession.routing = some (s.desired env)))

instance (env : Env) (s : Proxy) (order : Option Order) : Decidable (Current env s order) :=
  inferInstanceAs (Decidable (Quiet env s → _))

instance (env : Env) (s : Proxy) : DecidablePred (KeepsUp env s) := fun e =>
  inferInstanceAs (Decidable (∀ order ∈ s.registering e, Current env s order))

/-! ## The steps of a connection -/

/-- A live switch that connects routes to the order it was asked for. -/
theorem switched_routing (hconnects : env.Connects) (order : Option Order) (want : UpstreamTarget)
    (i : Sv1.Inner) : (switched env order want i).routing = routingOf order := by
  have hswap : ∀ target routing (i : Sv1.Inner),
      (env.sv1.swapUpstream target routing i).1.routing = routing := by
    intro target routing i
    obtain ⟨raw, hraw⟩ := Option.isSome_iff_exists.mp
      (hconnects target i.configure (Sv1.upstreamWorker target.user i.label))
    simp only [Sv1.Reach.swapUpstream, hraw]
    cases raw <;> rfl
  cases order with
  | none => exact hswap want .idle _
  | some o => exact hswap o.target (.rented o.id) i

/-- A handler of the SV1 relay moves on, and its session stays as it was. -/
theorem Inv.goto_sv1 (h : Inv env s) {hd : Handler} (hsv1 : (s.handler c).isSv1 = true)
    (hd1 : hd.isSv1 = true) (hlisted : hd.isListed = true → (s.handler c).isListed = true)
    (hheads : ∀ x, s.session c = some x → (s.handler c).Heads x.routing (s.desired env) →
      hd.Heads x.routing (s.desired env)) : Inv env (s.goto c hd) := by
  have hopen : s.handler c ≠ .closed := by
    intro hclosed
    rw [hclosed] at hsv1
    cases hsv1
  refine h.goto (h.lt_accepted hopen) (fun _ => hsv1) hlisted ?_ ?_ ?_ hheads ?_
  · cases hd <;>
      first | (cases hd1; done) | exact fun hyes => absurd hyes (by simp [Handler.isFresh])
  all_goals
    cases hd <;> cases hd1 <;> simp [Handler.rig?]

/-- The own session of a registered handler of the SV1 relay changes, and it moves on. -/
theorem Inv.put_sv1 (h : Inv env s) {i j : Sv1.Inner} (hsession : s.session c = some (.sv1 i))
    (hsv1 : (s.handler c).isSv1 = true)
    (hrouting : (s.handler c).isListed = true ∨ j.routing = i.routing)
    (hheads : (s.handler c).Heads i.routing (s.desired env) →
      (s.handler c).Heads j.routing (s.desired env)) :
    Inv env (s.put c (.sv1 j)) := by
  refine h.put ?_ ?_ ?_
  · intro _
    refine ⟨j, rfl, ?_⟩
    intro hout
    rcases hrouting with hlisted | hsame
    · exact absurd (h.listed c hlisted) hout
    · obtain ⟨i', hi', hidle⟩ := h.sv1 c hsv1
      rw [hsession] at hi'
      cases hi'
      rw [hsame]
      exact hidle hout
  · intro o ho
    rw [ho] at hsv1
    cases hsv1
  · exact fun hcalm => hheads (h.heads hsession hcalm)

/-- The own session is given the routing that it heads for. -/
theorem Inv.route (h : Inv env s) {i j : Sv1.Inner} (hsession : s.session c = some (.sv1 i))
    (hlisted : (s.handler c).isListed = true)
    (hroute : ∀ routing, (s.handler c).Heads routing (s.desired env) →
      j.routing = s.desired env ∧ (s.handler c).Heads j.routing (s.desired env)) :
    Inv env ((s.put c (.sv1 j)).goto c .relaying) := by
  have hsv1 := Handler.isSv1_of_isListed hlisted
  have hput := h.put_sv1 hsession hsv1 (Or.inl hlisted) fun hold => (hroute _ hold).2
  refine hput.goto_sv1 hsv1 rfl (fun hyes => by cases hyes) ?_
  intro x hx hold
  simp only [put_session, Function.update_self, Option.some.injEq] at hx
  subst hx
  exact (hroute _ hold).1

theorem Inv.sv1Step {i : Sv1.Inner} {e : Event} (h : Inv env s) (hconnects : env.Connects)
    (hsession : s.session c = some (.sv1 i)) (hG : ∀ d, e = .answer d → ∀ order want,
      s.handler c = .authorizing order want → c ∉ s.registry → Current env s order)
    (hstep : sv1Step env s c (s.handler c) i e = some s') : Inv env s' := by
  cases e with
  | authorize _ pool =>
    simp only [Proxy.sv1Step] at hstep
    split at hstep
    · rename_i hhandler
      split at hstep <;> cases hstep
      · rename_i want hwant
        refine h.goto_sv1 (by rw [hhandler]; rfl) rfl (fun hyes => by cases hyes) ?_
        rw [hhandler]
        exact fun x _ hx => ⟨hx, rfl⟩
      · exact h.close (by rw [hhandler]; simp)
    · cases hstep
  | answer _ =>
    simp only [Proxy.sv1Step] at hstep
    split at hstep
    · rename_i order want hhandler
      cases hstep
      have hsv1 : (s.handler c).isSv1 = true := by rw [hhandler]; rfl
      have hput := h.put_sv1 (j := { i with label := env.worker }) hsession hsv1 (Or.inr rfl) id
      have hlt : c < s.accepted := h.lt_accepted (by rw [hhandler]; simp)
      refine hput.insert (x := .sv1 { i with label := env.worker }) hlt ?_ ?_ (fun _ => hsv1)
        rfl rfl ?_
      · simp only [put_session, Function.update_self]
      · exact fun hsettled => absurd hsettled.sv1 (by
          rw [show (s.put c (.sv1 { i with label := env.worker })).handler = s.handler from rfl,
            hsv1]
          simp)
      · intro hquiet hcalm
        by_cases hreg : c ∈ s.registry
        · -- the session is registered already, and the order was looked up while it was calm
          have hheads := h.heads hsession (hcalm hreg).of_put
          rw [hhandler] at hheads
          refine ⟨hheads.2, ?_⟩
          rintro rfl
          exact hheads.1.trans hheads.2.symm
        · obtain ⟨i', hi', hidle⟩ := h.sv1 c hsv1
          rw [hsession] at hi'
          cases hi'
          exact ⟨hG _ rfl order want hhandler hreg hquiet, fun _ => hidle hreg⟩
    · cases hstep
  | compare _ =>
    simp only [Proxy.sv1Step] at hstep
    split at hstep
    · rename_i order want hhandler
      have hsv1 : (s.handler c).isSv1 = true := by rw [hhandler]; rfl
      have hlisted : (s.handler c).isListed = true := by rw [hhandler]; rfl
      split_ifs at hstep
      · cases order with
        | some o =>
          cases hstep
          refine h.goto_sv1 hsv1 rfl (fun _ => hlisted) ?_
          rw [hhandler]
          exact fun x _ hx => hx.1
        | none =>
          cases hstep
          refine h.goto_sv1 hsv1 rfl (fun _ => hlisted) ?_
          rw [hhandler]
          exact fun x _ hx => (hx.2 rfl).trans hx.1
      · cases hstep
        refine h.goto_sv1 hsv1 rfl (fun _ => hlisted) ?_
        rw [hhandler]
        exact fun x _ hx => hx.1
    · cases hstep
  | attach _ =>
    simp only [Proxy.sv1Step] at hstep
    split at hstep
    · rename_i o hhandler
      cases hstep
      refine h.route hsession (by rw [hhandler]; rfl) ?_
      rw [hhandler]
      exact fun routing hx => ⟨hx, hx⟩
    · cases hstep
  | choose _ =>
    simp only [Proxy.sv1Step] at hstep
    split at hstep
    · rename_i order want hhandler
      split_ifs at hstep <;> cases hstep
      · refine h.goto_sv1 (by rw [hhandler]; rfl) rfl (fun _ => by rw [hhandler]; rfl) ?_
        rw [hhandler]
        exact fun x _ hx => hx
      · exact h.close (by rw [hhandler]; simp)
    · cases hstep
  | switch _ =>
    simp only [Proxy.sv1Step] at hstep
    split at hstep
    · rename_i order want hhandler
      cases hstep
      refine h.route hsession (by rw [hhandler]; rfl) ?_
      rw [hhandler, switched_routing hconnects]
      exact fun routing hx => ⟨hx, hx⟩
    · cases hstep
  | hangUp _ =>
    simp only [Proxy.sv1Step] at hstep
    split at hstep
    · rename_i hhandler
      cases hstep
      exact h.close (by rw [hhandler]; simp)
    · cases hstep
  | _ => cases hstep

/-- A rig that is on the order that was looked up is left alone. -/
theorem reconcileRouting_aligned {reach : Sv2.Reach} {store : OrderStore} {order : Option Order}
    {i : Sv2.Inner} (h : routingOf order = i.routing) :
    reach.reconcileRouting store order i = i := by
  cases order <;> simp [Sv2.Reach.reconcileRouting, ← h, routingOf]

/-- The fresh session has the routing of the order that was looked up. -/
theorem freshSession_routing {o : Opening} {j : Sv2.Inner} (h : freshSession env o = some j) :
    j.routing = routingOf o.order := by
  obtain ⟨⟨target, routing⟩, hinitial, hfresh⟩ := Option.bind_eq_some_iff.mp h
  have hrouting : routing = routingOf o.order := by
    unfold Sv2.initialTarget at hinitial
    cases horder : o.order with
    | some order =>
      rw [horder] at hinitial
      cases hinitial
      rfl
    | none =>
      rw [horder] at hinitial
      cases hpool : o.pool <;> rw [hpool] at hinitial <;> cases hinitial
      rfl
  exact (Sv2.Reach.connectFresh_routing (Sv2.Reach.openFresh_eq_some.mp hfresh)).trans hrouting

/-- The slot of the worker in `sv2_rigs` changes. -/
theorem Inv.setRig (h : Inv env s) {rig : Option Nat} (hrig : ∀ r, rig = some r → s.Settled r) :
    Inv env { s with rig } :=
  ⟨h.clock, h.funded, h.below, h.absent, h.sv1, h.listed, h.fresh, h.installed,
    fun r hr => (hrig r hr).of_same rfl rfl, fun c r hr => (h.rigs c r hr).of_same rfl rfl,
    fun c hc => h.aligned c (hc.of_same rfl rfl rfl id),
    fun c o r desired hc hr => h.reconciling c o r desired hc (hr.of_same rfl rfl rfl id)⟩

theorem Inv.setGate (h : Inv env s) (gate : Option Nat) : Inv env { s with gate } :=
  h.mono h.clock h.funded rfl rfl rfl rfl rfl fun _ hc => ⟨hc.of_same rfl rfl rfl id, rfl⟩

/-- The session of a rig changes, with its routing as long as it is calm. -/
theorem Inv.put_sv2 (h : Inv env s) {r : Nat} {i j : Sv2.Inner} (hr : s.Settled r)
    (hsession : s.session r = some (.sv2 i))
    (hrouting : Calm env s r → i.routing = s.desired env → j.routing = i.routing) :
    Inv env (s.put r (.sv2 j)) := by
  have hsv1 := hr.sv1
  have hfresh := hr.fresh
  refine h.put ?_ ?_ ?_
  · intro hyes
    rw [hsv1] at hyes
    cases hyes
  · intro o ho
    rw [ho] at hfresh
    cases hfresh
  · intro hcalm
    have hold := (Handler.heads_iff hsv1 _ _).mp (h.heads hsession hcalm)
    exact (Handler.heads_iff hsv1 _ _).mpr ((hrouting hcalm hold).trans hold)

/-- A handler of the SV2 relay moves on. -/
theorem Inv.goto_sv2 (h : Inv env s) {hd : Handler} (hopen : s.handler c ≠ .closed)
    (hsv1 : (s.handler c).isSv1 = false) (hd2 : hd.isSv1 = false)
    (hfresh : hd.isFresh = true → (s.handler c).isFresh = true)
    (hinstalled : ∀ o, hd = .installed o →
      ∃ j, s.session c = some (.sv2 j) ∧ j.routing = routingOf o.order)
    (hrig : ∀ r, hd.rig? = some r → s.Settled r ∨ (r = c ∧ hd.isFresh = false))
    (hreconciling : ∀ o r desired, hd = .reconciling o r desired →
      routingOf desired = s.desired env) : Inv env (s.goto c hd) := by
  refine h.goto (h.lt_accepted hopen) ?_ ?_ hfresh hinstalled ?_ ?_ hreconciling
  · intro hyes
    rw [hd2] at hyes
    cases hyes
  · intro hyes
    rw [Handler.isSv1_of_isListed hyes] at hd2
    cases hd2
  · intro r hr
    rcases hrig r hr with hold | ⟨rfl, hnot⟩
    · exact Or.inl hold
    · exact Or.inr ⟨rfl, hnot, hd2⟩
  · intro x _ hold
    exact (Handler.heads_iff hd2 _ _).mpr ((Handler.heads_iff hsv1 _ _).mp hold)

/-- A handler of the SV2 relay that has registered nothing moves on, and knows no new session. -/
theorem Inv.advance (h : Inv env s) {before hd : Handler} (hhandler : s.handler c = before)
    (hbefore : before.isFresh = true) (hd2 : hd.isSv1 = false) (hcarried : hd.carried = none)
    (hrig : ∀ r, hd.rig? = some r → s.Settled r) : Inv env (s.goto c hd) := by
  subst hhandler
  refine h.goto_sv2 ?_ ?_ hd2 (fun _ => hbefore) ?_ (fun r hr => Or.inl (hrig r hr)) ?_
  · intro hclosed
    rw [hclosed] at hbefore
    cases hbefore
  · generalize s.handler c = hd₀ at hbefore
    cases hd₀ <;> first | rfl | cases hbefore
  · rintro o rfl
    cases hcarried
  · rintro o r desired rfl
    cases hcarried

/-- The handler reconciles the rig that it found. -/
theorem Inv.reconcile (h : Inv env s) {o : Opening} {r : Nat} {order : Option Order}
    {i : Sv2.Inner} {signaled : List Nat} (hhandler : s.handler c = .reconciling o r order)
    (hsession : s.session r = some (.sv2 i)) (hsignaled : ∀ d ∈ s.signaled, d ∈ signaled) :
    Inv env (({ s with signaled }.put r
      (.sv2 (env.reach.reconcileRouting s.orders order i))).goto c (.bundling o r)) := by
  have hrig : s.Settled r := h.rigs c r (by rw [hhandler]; rfl)
  have hbegun : Inv env { s with signaled } := by
    refine h.mono h.clock h.funded rfl rfl rfl rfl rfl ?_
    intro d hd
    exact ⟨⟨hd.registered, fun hin => hd.signaled (hsignaled d hin), hd.todo, hd.quiet⟩, rfl⟩
  have hput : Inv env ({ s with signaled }.put r
      (.sv2 (env.reach.reconcileRouting s.orders order i))) := by
    refine hbegun.put_sv2 (hrig.of_same rfl rfl) hsession ?_
    intro hcalm hold
    have horder := hbegun.reconciling c o r order hhandler hcalm
    rw [reconcileRouting_aligned (horder.trans hold.symm)]
  refine hput.advance hhandler rfl rfl rfl ?_
  rintro _ ⟨⟩
  exact hrig.of_same rfl rfl

/-- The members of a session change, and its routing does not. -/
theorem Inv.put_member (h : Inv env s) {r : Nat} {i j : Sv2.Inner} (hr : s.Settled r)
    (hsession : s.session r = some (.sv2 i)) (hrouting : j.routing = i.routing) :
    Inv env (s.put r (.sv2 j)) :=
  h.put_sv2 hr hsession fun _ _ => hrouting

/-- A new session is built, and nobody knows it yet. -/
theorem Inv.connect (h : Inv env s) {o : Opening} {j : Sv2.Inner}
    (hhandler : s.handler c = .connecting o) (hfresh : freshSession env o = some j) :
    Inv env ((s.put c (.sv2 j)).goto c (.installed o)) := by
  have hput : Inv env (s.put c (.sv2 j)) := by
    refine h.put ?_ ?_ ?_
    · rw [hhandler]
      rintro ⟨⟩
    · rw [hhandler]
      rintro _ ⟨⟩
    · exact fun hcalm => absurd hcalm.registered (h.fresh c (by rw [hhandler]; rfl))
  have hhandler' : (s.put c (.sv2 j)).handler c = .connecting o := hhandler
  refine hput.goto_sv2 (by rw [hhandler']; simp) (by rw [hhandler']; rfl) rfl
    (fun _ => by rw [hhandler']; rfl) ?_ ?_ ?_
  · rintro _ ⟨⟩
    exact ⟨j, by simp only [put_session, Function.update_self], freshSession_routing hfresh⟩
  · rintro _ ⟨⟩
  · rintro _ _ _ ⟨⟩

/-- The session is the rig of the worker from now on, unless there is one. -/
theorem Inv.publish (h : Inv env s) {rig : Option Nat} (hhandler : s.handler c = .registered)
    (hrig : ∀ r, rig = some r → s.rig = some r ∨ r = c) :
    Inv env ({ s with gate := none, rig }.goto c (.serving c Sv2.firstMember)) := by
  have hserving : Inv env ({ s with gate := none }.goto c (.serving c Sv2.firstMember)) := by
    refine (h.setGate none).goto_sv2 (by simp [hhandler]) (by simp [hhandler, Handler.isSv1]) rfl
      ?_ ?_ ?_ ?_
    · rintro ⟨⟩
    · rintro _ ⟨⟩
    · rintro _ ⟨⟩
      exact Or.inr ⟨rfl, rfl⟩
    · rintro _ _ _ ⟨⟩
  have hown := hserving.rigs c c (by simp [Handler.rig?])
  refine hserving.setRig ?_
  intro r hr
  rcases hrig r hr with hold | rfl
  · exact hserving.slot r hold
  · exact hown

/-- A member leaves its rig. -/
theorem Inv.leave (h : Inv env s) {r member : Nat} {i : Sv2.Inner}
    (hhandler : s.handler c = .serving r member) (hsession : s.session r = some (.sv2 i)) :
    Inv env ((s.put r (.sv2 (Sv2.detachMember member i).1)).goto c .closed) := by
  have hput := h.put_member (j := (Sv2.detachMember member i).1)
    (h.rigs c r (by rw [hhandler]; rfl)) hsession rfl
  refine hput.goto_sv2 (by simp [Proxy.put, hhandler])
    (by simp [Proxy.put, hhandler, Handler.isSv1]) rfl ?_ ?_ ?_ ?_
  · rintro ⟨⟩
  · rintro _ ⟨⟩
  · rintro _ ⟨⟩
  · rintro _ _ _ ⟨⟩

theorem Inv.sv2Step {e : Event} (h : Inv env s)
    (hG : ∀ d, e = .register d → ∀ o, s.handler c = .installed o → Current env s o.order)
    (hstep : sv2Step env s c (s.handler c) e = some s') : Inv env s' := by
  cases e with
  | enter _ =>
    simp only [Proxy.sv2Step] at hstep
    split at hstep
    · rename_i o hhandler hgate
      cases hstep
      refine (h.setGate (some c)).advance hhandler rfl rfl rfl ?_
      rintro _ ⟨⟩
    · cases hstep
  | look _ =>
    simp only [Proxy.sv2Step] at hstep
    split at hstep
    · rename_i o hhandler
      split at hstep <;> cases hstep
      · rename_i r hrig
        refine h.advance hhandler rfl rfl rfl ?_
        rintro _ ⟨⟩
        exact h.slot r hrig
      · refine h.advance hhandler rfl rfl rfl ?_
        rintro _ ⟨⟩
    · cases hstep
  | resolve _ =>
    simp only [Proxy.sv2Step] at hstep
    split at hstep
    · rename_i o r hhandler
      cases hstep
      refine h.goto_sv2 (by rw [hhandler]; simp) (by rw [hhandler]; rfl) rfl
        (fun _ => by rw [hhandler]; rfl) ?_ ?_ ?_
      · rintro _ ⟨⟩
      · rintro _ ⟨⟩
        exact Or.inl (h.rigs c r (by rw [hhandler]; rfl))
      · rintro _ _ _ ⟨⟩
        rfl
    · cases hstep
  | reconcile _ =>
    simp only [Proxy.sv2Step] at hstep
    split at hstep
    · rename_i o r order hhandler
      split at hstep
      · rename_i i hsession
        cases hstep
        refine h.reconcile hhandler hsession ?_
        intro d hd
        split
        · exact List.mem_cons_of_mem _ hd
        · exact hd
      · cases hstep
    · cases hstep
  | bundle _ =>
    simp only [Proxy.sv2Step] at hstep
    split at hstep
    · rename_i o r hhandler
      have hrig : s.Settled r := h.rigs c r (by rw [hhandler]; rfl)
      split at hstep
      · rename_i i hsession
        split at hstep <;> cases hstep
        · rename_i j member hattach
          have hput := (h.setGate none).put_member (hrig.of_same rfl rfl) hsession
            (Sv2.attachMember_routing hattach)
          refine hput.advance hhandler rfl rfl rfl ?_
          rintro _ ⟨⟩
          exact hrig.of_same rfl rfl
        · refine h.advance hhandler rfl rfl rfl ?_
          rintro _ ⟨⟩
      · cases hstep
    · cases hstep
  | connect _ =>
    simp only [Proxy.sv2Step] at hstep
    split at hstep
    · rename_i o hhandler
      split at hstep <;> cases hstep
      · rename_i j hfresh
        exact h.connect hhandler hfresh
      · refine (h.setGate none).advance hhandler rfl rfl rfl ?_
        rintro _ ⟨⟩
    · cases hstep
  | register _ =>
    simp only [Proxy.sv2Step] at hstep
    split at hstep
    · rename_i o hhandler
      cases hstep
      obtain ⟨j, hj, hrouting⟩ := h.installed c o hhandler
      refine h.insert (h.lt_accepted (by rw [hhandler]; simp)) hj ?_ ?_ rfl rfl ?_
      · intro hsettled
        have hfresh := hsettled.fresh
        rw [hhandler] at hfresh
        cases hfresh
      · rintro ⟨⟩
      · exact fun hquiet _ => hrouting.trans (hG _ rfl o hhandler hquiet)
    · cases hstep
  | publish _ =>
    simp only [Proxy.sv2Step] at hstep
    split at hstep
    · rename_i i hhandler hsession
      cases hstep
      refine h.publish hhandler ?_
      intro r hr
      split at hr
      · exact Or.inl hr
      · refine (Option.or_eq_some_iff.mp hr).imp id ?_
        rintro ⟨_, ⟨⟩⟩
        rfl
    · cases hstep
  | leave _ =>
    simp only [Proxy.sv2Step] at hstep
    split at hstep
    · rename_i r member hhandler
      have hrig : s.Settled r := h.rigs c r (by rw [hhandler]; rfl)
      split at hstep
      · rename_i i hsession
        have hleft := h.leave hhandler hsession
        split at hstep <;> cases hstep
        · refine hleft.remove ?_
          by_cases hrc : r = c
          · subst hrc
            simp [Handler.isSv1]
          · simpa [Function.update_of_ne hrc, Proxy.put] using hrig.sv1
        · exact hleft
      · cases hstep
    · cases hstep
  | _ => cases hstep

/-! ## The steps of the calls -/

/-- A new row is funded. -/
theorem Funded.create {o : Order} {orders : OrderStore} (h : Funded env s)
    (hcreate : s.orders.create o = some orders) (marked : Nat) :
    Funded env { s with orders, marked } := by
  unfold OrderStore.create at hcreate
  split at hcreate <;> cases hcreate
  intro row hrow hworker hactive hexhausted
  rcases List.mem_append.mp hrow with hold | hnew
  · exact h row hold hworker hactive hexhausted
  · rw [List.mem_singleton.mp hnew] at hexhausted
    simp only [Order.fundingExhausted, Order.cost, Order.costOf, zero_mul, zero_div,
      Bool.and_eq_true, decide_eq_true_eq] at hexhausted
    linarith [hexhausted.1, hexhausted.2]

/-- An active row of the updated table was active before, and is not the one that was ended. -/
theorem mem_setStatus {orders : OrderStore} {id : String} {status : OrderStatus} {now : Int}
    {row : Order} (hstatus : status ≠ .active) (hrow : row ∈ (orders.setStatus id status now).rows)
    (hactive : row.status = .active) : row ∈ orders.rows ∧ row.id ≠ id := by
  obtain ⟨o, ho, rfl⟩ := List.mem_map.mp hrow
  split_ifs at hactive with hid
  · exact absurd hactive hstatus
  · rw [if_neg hid]
    exact ⟨ho, hid⟩

theorem Funded.setStatus (h : Funded env s) (id : String) {status : OrderStatus}
    (hstatus : status ≠ .active) (now : Int) (marked : Nat) :
    Funded env { s with orders := s.orders.setStatus id status now, marked } := by
  intro row hrow hworker hactive hexhausted
  obtain ⟨hold, _⟩ := mem_setStatus hstatus hrow hactive
  exact h row hold hworker hactive hexhausted

/-- A call that has changed a row is still to read the registry: no session is calm. -/
theorem Inv.mark (h : Inv env s) {orders : OrderStore} {expiry : Expiry}
    (hfunded : Funded env { s with orders, marked := s.marked + 1, expiry }) :
    Inv env { s with orders, marked := s.marked + 1, expiry } :=
  h.mono h.clock hfunded rfl rfl rfl rfl rfl fun _ hc => absurd hc.quiet.1 (Nat.succ_ne_zero _)

theorem Inv.callStep {e : Event} (h : Inv env s) (hstep : callStep env s e = some s') :
    Inv env s' := by
  cases e with
  | create o =>
    simp only [Proxy.callStep] at hstep
    split at hstep
    · obtain ⟨orders, hcreate, rfl⟩ := Option.map_eq_some_iff.mp hstep
      exact h.mark (h.funded.create hcreate _)
    · cases hstep
  | cancel id =>
    simp only [Proxy.callStep] at hstep
    split at hstep
    · rename_i o orders hcancel
      split at hstep <;> cases hstep
      simp only [OrderStore.cancel, Option.map_eq_some_iff, Prod.mk.injEq] at hcancel
      obtain ⟨_, _, _, rfl⟩ := hcancel
      exact h.mark (h.funded.setStatus id (by decide) s.now _)
    · cases hstep
  | flush =>
    simp only [Proxy.callStep] at hstep
    split at hstep
    · rename_i hexpiry
      cases hstep
      refine h.mono h.clock (fun _ _ _ _ _ => trivial) rfl rfl rfl rfl rfl ?_
      intro c hc
      obtain ⟨hrows, hdesired⟩ := desired_flush h.funded hexpiry hc.quiet.2
      exact ⟨hc.of_same rfl rfl rfl fun hquiet => ⟨hquiet.1, hrows⟩, hdesired⟩
    · cases hstep
  | select =>
    simp only [Proxy.callStep] at hstep
    split at hstep
    · rename_i hexpiry
      cases hstep
      refine h.mono h.clock ?_ rfl rfl rfl rfl rfl ?_
      · intro o ho hworker hactive hexhausted
        refine List.mem_map_of_mem (List.mem_filter.mpr ⟨ho, ?_⟩)
        simp [hworker, hactive, OrderStore.finished, hexhausted]
      · exact fun c hc => ⟨hc.of_same rfl rfl rfl id, rfl⟩
    · cases hstep
  | expire =>
    simp only [Proxy.callStep] at hstep
    split at hstep
    · rename_i now id ids hexpiry
      cases hstep
      refine h.mark ?_
      intro row hrow hworker hactive hexhausted
      obtain ⟨hold, hne⟩ := mem_setStatus (by decide) hrow hactive
      have hknown := h.funded row hold hworker hactive hexhausted
      rw [hexpiry] at hknown
      rcases List.mem_cons.mp hknown with hid | hrest
      · exact absurd hid hne
      · exact hrest
    · rename_i now hexpiry
      cases hstep
      refine h.mono h.clock ?_ rfl rfl rfl rfl rfl ?_
      · intro row hrow hworker hactive hexhausted
        have hknown := h.funded row hrow hworker hactive hexhausted
        rw [hexpiry] at hknown
        cases hknown
      · exact fun c hc => ⟨hc.of_same rfl rfl rfl id, rfl⟩
    · cases hstep
  | collect =>
    simp only [Proxy.callStep] at hstep
    split at hstep
    · cases hstep
      refine h.mono h.clock h.funded rfl rfl rfl rfl rfl ?_
      exact fun c hc => absurd (List.mem_append_right _ hc.registered) hc.todo
    · cases hstep
  | signal d =>
    simp only [Proxy.callStep] at hstep
    split at hstep
    · cases hstep
      refine h.mono h.clock h.funded rfl rfl rfl rfl rfl ?_
      intro c hc
      obtain ⟨hne, hsignaled⟩ := not_or.mp (fun hin => hc.signaled (List.mem_cons.mpr hin))
      refine ⟨⟨hc.registered, hsignaled, ?_, hc.quiet⟩, rfl⟩
      exact fun hin => hc.todo ((List.mem_erase_of_ne hne).mpr hin)
    · cases hstep
  | credit credit =>
    cases hstep
    exact h.mono h.clock h.funded rfl rfl rfl rfl rfl fun c hc =>
      ⟨hc.of_same rfl rfl rfl id, rfl⟩
  | tick now =>
    simp only [Proxy.callStep] at hstep
    split at hstep
    · rename_i hle
      cases hstep
      refine h.mono (h.clock.trans hle) h.funded rfl rfl rfl rfl rfl ?_
      intro c hc
      obtain ⟨hrows, hdesired⟩ := desired_tick h.clock hle hc.quiet.2
      exact ⟨hc.of_same rfl rfl rfl fun hquiet => ⟨hquiet.1, hrows⟩, hdesired⟩
    · cases hstep
  | _ => cases hstep

/-- Whatever else a session does keeps its upstream. -/
theorem Inv.traffic (h : Inv env s) {x y : AnySession} (hsession : s.session c = some y)
    (hsame : y.SameUpstream x) : Inv env (s.put c x) := by
  have hrouting : x.routing = y.routing := by
    cases x <;> cases y <;> first | exact hsame.2.1 | cases hsame
  refine h.put ?_ ?_ ?_
  · intro hsv1
    obtain ⟨i, hi, hidle⟩ := h.sv1 c hsv1
    rw [hsession] at hi
    cases hi
    cases x with
    | sv1 j => exact ⟨j, rfl, fun hout => hrouting.trans (hidle hout)⟩
    | sv2 j => cases hsame
  · intro o ho
    obtain ⟨i, hi, horder⟩ := h.installed c o ho
    rw [hsession] at hi
    cases hi
    cases x with
    | sv1 j => cases hsame
    | sv2 j => exact ⟨j, rfl, hrouting.trans horder⟩
  · intro hcalm
    rw [hrouting]
    exact h.heads hsession hcalm

/-! ## The result -/

theorem Inv.boot (env : Env) (orders : OrderStore) {now : Int} (hnow : 0 ≤ now) :
    Inv env (boot orders now) where
  clock := hnow
  funded _ _ _ _ _ := trivial
  below := by rintro c ⟨⟩
  absent _ _ := rfl
  sv1 := by rintro c ⟨⟩
  listed := by rintro c ⟨⟩
  fresh := by rintro c ⟨⟩
  installed := by rintro c o ⟨⟩
  slot := by rintro r ⟨⟩
  rigs := by rintro c r ⟨⟩
  aligned := by
    intro c hc
    cases hc.registered
  reconciling := by rintro c o r order ⟨⟩

theorem Inv.step {e : Event} (h : Inv env s) (hconnects : env.Connects) (hG : KeepsUp env s e)
    (hstep : step env s e = some s') : Inv env s' := by
  cases e with
  | handshake target peer =>
    obtain ⟨x, hx, rfl⟩ := Option.map_eq_some_iff.mp hstep
    obtain ⟨raw, _, rfl⟩ := Option.map_eq_some_iff.mp hx
    have hidle : (Sv1.installRaw raw Sv1.bootstrapGeneration target .idle
        (Sv1.bootstrap target peer)).1.routing = .idle := by
      cases raw <;> rfl
    exact h.accept (fun d hd => Function.update_of_ne hd ..)
      (Or.inr ⟨rfl, _, Function.update_self .., hidle⟩)
  | openChannel spec pool =>
    obtain ⟨_, _, rfl⟩ := Option.map_eq_some_iff.mp hstep
    exact h.accept (fun _ _ => rfl) (Or.inl ⟨_, rfl⟩)
  | answer c =>
    simp only [Proxy.step] at hstep
    split at hstep
    · rename_i i hsession
      refine h.sv1Step hconnects hsession ?_ hstep
      intro _ _ order want hhandler hout
      exact hG order (by simp [registering, hhandler, hout])
    · cases hstep
  | authorize c _ | compare c | attach c | choose c | switch c | hangUp c =>
    simp only [Proxy.step] at hstep
    split at hstep
    · rename_i i hsession
      refine h.sv1Step hconnects hsession ?_ hstep
      rintro _ ⟨⟩
    · cases hstep
  | register c =>
    simp only [Proxy.step] at hstep
    refine h.sv2Step ?_ hstep
    intro _ _ o hhandler
    exact hG o.order (by simp [registering, hhandler])
  | enter c | look c | resolve c | reconcile c | bundle c | connect c | publish c | leave c =>
    simp only [Proxy.step] at hstep
    refine h.sv2Step ?_ hstep
    rintro _ ⟨⟩
  | reap =>
    simp only [Proxy.step] at hstep
    split at hstep
    · rename_i r hrig hgate
      split at hstep
      · split at hstep <;> cases hstep
        refine (h.remove (h.slot r hrig).sv1).setRig ?_
        rintro _ ⟨⟩
      · cases hstep
    · cases hstep
  | traffic c x =>
    simp only [Proxy.step] at hstep
    split at hstep
    · rename_i y hsession
      split at hstep <;> cases hstep
      rename_i hsame
      exact h.traffic hsession hsame
    · cases hstep
  | _ =>
    simp only [Proxy.step] at hstep
    exact h.callStep hstep

/-- Once all steps have finished, a session that was not signalled has the routing of the live
order. -/
theorem no_change_lost (hconnects : env.Connects) (h : ReachesUnder env (KeepsUp env) s)
    (hfinished : Finished env s) : Lands env s := by
  obtain ⟨orders, now, hnow, hrun⟩ := h
  have hinv : Inv env s := hrun.invariant (Inv.boot env orders hnow)
    fun _ _ _ hold hG hstep => hold.step hconnects hG hstep
  intro c hin hsignaled
  have hcalm : Calm env s c :=
    ⟨hin, hsignaled, by simp [hfinished.todo], hfinished.marked, hfinished.rows⟩
  obtain ⟨x, hx, hheads⟩ := hinv.aligned c hcalm
  have hdone := hfinished.handlers c (hinv.below c hin)
  rw [hx, Option.map_some, Option.some.injEq]
  generalize s.handler c = handler at hheads hdone
  cases handler <;> first | exact hheads | cases hdone

/-! ## Concrete runs -/

/-- A worker whose pools all speak SV2. -/
def sv2Env : Env where
  worker := "bc1q.rig"
  sv1 _ := { sv2 := some ⟨1, "0a0b", 4, 1⟩ }
  sv2 _ := .native fun _ => Sv2.reopenedInfo 1

/-- A schedule executed after the boot is a run. -/
theorem exists_of_boot {G : Proxy → Event → Prop} [hG : ∀ s, DecidablePred (G s)]
    (orders : OrderStore) (es : List Event) {p : Proxy → Bool}
    (h : (StepSystem.runWhile (Proxy.step sv2Env) (fun s e => decide (G s e)) (boot orders 0)
      es).any p = true) :
    ∃ s, ReachesUnder sv2Env G s ∧ p s = true := by
  obtain ⟨s, hs, hp⟩ := (Option.any_eq_true ..).mp h
  exact ⟨s, ⟨orders, 0, le_refl 0, .of_runWhile (fun _ _ => of_decide_eq_true) hs⟩, hp⟩

theorem sv2Env_connects : sv2Env.Connects := fun _ _ _ => rfl

/-- The first pass of the expiry task, and a miner that connects to a fresh session. -/
def connectEvents : List Event :=
  [.select, .expire, .openChannel (Sv2.extendedOpen 7) (some Sv2.sellerPool), .enter 0, .look 0,
    .connect 0, .register 0, .publish 0]

/-- An SV1 miner comes back onto the pool of its order. -/
def resumeEvents : List Event :=
  [.handshake Sv2.buyerOrder.target "peer", .authorize 1 none, .answer 1, .compare 1, .attach 1]

/-- Two miners connect to a rented worker, one on each protocol. -/
theorem no_change_lost_rented :
    ∃ s, ReachesUnder sv2Env (KeepsUp sv2Env) s ∧ s.registry = [0, 1] ∧ s.signaled = [] ∧
      s.desired sv2Env = .rented "o1" ∧ Lands sv2Env s := by
  obtain ⟨s, hreach, hs⟩ := exists_of_boot (G := KeepsUp sv2Env) { rows := [Sv2.buyerOrder] }
    (connectEvents ++ resumeEvents)
    (p := fun s => decide (Finished sv2Env s) && decide (s.registry = [0, 1]) &&
      decide (s.signaled = []) && decide (s.desired sv2Env = .rented "o1")) (by decide +kernel)
  simp only [Bool.and_eq_true, decide_eq_true_eq] at hs
  obtain ⟨⟨⟨hfinished, hregistry⟩, hsignaled⟩, hdesired⟩ := hs
  exact ⟨s, hreach, hregistry, hsignaled, hdesired,
    no_change_lost sv2Env_connects hreach hfinished⟩

/-- A miner has looked up its order and waits for the pool of the buyer while the order is
cancelled: there is no session to signal yet. -/
def cancelledWhileConnecting : List Event :=
  [.select, .expire, .openChannel (Sv2.extendedOpen 7) (some Sv2.sellerPool), .enter 0, .look 0,
    .cancel "o1", .collect, .connect 0, .register 0, .publish 0]

/-- The session mines for a buyer whose order is over, and nothing tells it. -/
theorem cancel_is_lost :
    ∃ s, sv2Env.Connects ∧ ReachesUnder sv2Env (fun _ _ => True) s ∧ Finished sv2Env s ∧
      ¬Lands sv2Env s := by
  obtain ⟨s, hreach, hs⟩ := exists_of_boot (G := fun _ _ => True) { rows := [Sv2.buyerOrder] }
    cancelledWhileConnecting
    (p := fun s => decide (Finished sv2Env s) && decide (¬Lands sv2Env s)) (by decide +kernel)
  simp only [Bool.and_eq_true, decide_eq_true_eq] at hs
  exact ⟨s, sv2Env_connects, hreach, hs⟩

end Proxy

end RentalProxy
