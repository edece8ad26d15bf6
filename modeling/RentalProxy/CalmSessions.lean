import RentalProxy.Connections

/-!
# Calm sessions

The invariant of `Connections`, and the rules by which a step keeps it.

A change of the live order is under way from the moment that a row changes until the registry has
been read.  Then it is on its way to the sessions that were registered.  A session that no change
is on its way to is calm, and is meant to have the routing of the live order.

* `Quiet` says that no change is under way, and `Calm` that none is on its way to a session.
  `desired_tick` and `desired_flush` are the two steps that could change the live order without a
  call.
* `Handler.Heads` says where a handler takes a session.  `Inv` is the invariant: a calm session
  heads for the routing of the live order.
* `Inv.mono`, `Inv.move`, `Inv.put`, `Inv.remove` and `Inv.accept` are the rules, one for each way
  in which a step changes the state.  `Inv.goto`, `Inv.insert` and `Inv.close` are cases of
  `Inv.move`.
-/

namespace RentalProxy

namespace OrderStore

/-- `active_for_worker` is the first live row of the worker. -/
theorem activeForWorker_eq (s : OrderStore) (w : String) (now : Int) :
    s.activeForWorker w now = s.rows.find? fun o => decide (o.worker = w) && o.isLive now := by
  rw [activeForWorker, List.find?_filter]
  congr 1
  funext o
  rw [Bool.eq_iff_iff]
  simp [Order.isLive, and_assoc]

/-- Rows that keep id and liveness leave the live order. -/
theorem activeForWorker_congr {s s' : OrderStore} {w : String} {now now' : Int} (f : Order → Order)
    (hrows : s'.rows = s.rows.map f) (hid : ∀ o, (f o).id = o.id)
    (hlive : ∀ o ∈ s.rows, (decide ((f o).worker = w) && (f o).isLive now') =
      (decide (o.worker = w) && o.isLive now)) :
    (s'.activeForWorker w now').map Order.id = (s.activeForWorker w now).map Order.id := by
  rw [activeForWorker_eq, activeForWorker_eq, hrows, List.find?_map, Option.map_map]
  rw [show Order.id ∘ f = Order.id from funext hid]
  congr 1
  generalize s.rows = rows at hlive
  induction rows with
  | nil => rfl
  | cons o rows ih =>
    have hhead := hlive o List.mem_cons_self
    have htail := ih fun x hx => hlive x (List.mem_cons_of_mem _ hx)
    rw [List.find?_cons, List.find?_cons, htail, Function.comp_apply, hhead]

end OrderStore

namespace Proxy

variable {env : Env} {s s' : Proxy}

/-! ## The live order -/

/-- No call that has changed a row is still to read the registry, and no row is to be ended. -/
def Quiet (env : Env) (s : Proxy) : Prop := s.marked = 0 ∧ s.finishedRows env = []

instance (env : Env) (s : Proxy) : Decidable (Quiet env s) :=
  inferInstanceAs (Decidable (_ ∧ _))

theorem finishedRows_eq_nil :
    s.finishedRows env = [] ↔ ∀ o ∈ s.orders.rows, o.worker = env.worker → o.status = .active →
      OrderStore.finished o s.now = false := by
  simp only [finishedRows, List.filter_eq_nil_iff, Bool.and_eq_true, decide_eq_true_eq, not_and,
    Bool.not_eq_true, and_imp]

theorem desired_of_id (h : (s'.live env).map Order.id = (s.live env).map Order.id) :
    s'.desired env = s.desired env := by
  have hrouting : ∀ order : Option Order,
      routingOf order = (order.map Order.id).elim .idle .rented := by
    rintro (_ | o) <;> rfl
  rw [desired, desired, hrouting, hrouting, h]

/-- A row that is not to be ended later is live then if it is live now. -/
theorem isLive_tick {o : Order} {now later : Int} (hnow : 0 ≤ now) (hle : now ≤ later)
    (hfinished : o.status = .active → OrderStore.finished o later = false) :
    o.isLive later = o.isLive now := by
  rw [Bool.eq_iff_iff]
  refine ⟨Order.isLive_of_le hle, ?_⟩
  intro hlive
  have hstatus := Order.status_of_isLive hlive
  have hopen := hfinished hstatus
  simp only [OrderStore.finished, Bool.or_eq_false_iff, Bool.and_eq_false_iff,
    decide_eq_false_iff_not] at hopen
  simp only [Order.isLive, Bool.and_eq_true, Bool.or_eq_true, decide_eq_true_eq,
    Bool.not_eq_true'] at hlive ⊢
  refine ⟨⟨hstatus, ?_⟩, hlive.2⟩
  rcases hlive.1.2 with hzero | hdeadline
  · exact Or.inl hzero
  · exact Or.inr (by omega)

/-- Time passes, and no row is to be ended: the live order is the same. -/
theorem desired_tick {later : Int} (hnow : 0 ≤ s.now) (hle : s.now ≤ later)
    (hrows : ({ s with now := later } : Proxy).finishedRows env = []) :
    s.finishedRows env = [] ∧ ({ s with now := later } : Proxy).desired env = s.desired env := by
  rw [finishedRows_eq_nil] at hrows ⊢
  have hlive : ∀ o ∈ s.orders.rows, o.worker = env.worker → o.isLive later = o.isLive s.now :=
    fun o ho hworker => isLive_tick hnow hle (hrows o ho hworker)
  constructor
  · intro o ho hworker hactive
    have hlater := hrows o ho hworker hactive
    simp only [OrderStore.finished, Bool.or_eq_false_iff, Bool.and_eq_false_iff,
      decide_eq_false_iff_not] at hlater ⊢
    refine ⟨?_, hlater.2⟩
    rcases hlater.1 with hopen | hdeadline
    · exact Or.inl hopen
    · exact Or.inr (by omega)
  · refine desired_of_id
      (OrderStore.activeForWorker_congr id (List.map_id _).symm (fun _ => rfl) ?_)
    intro o ho
    by_cases hworker : o.worker = env.worker
    · simp only [id, hlive o ho hworker]
    · simp [hworker]

/-- The rows of the worker that a flush could take back are known to the expiry task. -/
def Funded (env : Env) (s : Proxy) : Prop :=
  ∀ o ∈ s.orders.rows, o.worker = env.worker → o.status = .active → o.fundingExhausted = true →
    match s.expiry with
    | .sleeping => False
    | .flushed => True
    | .ending _ ids => o.id ∈ ids

/-- Accounting is flushed, and no row is to be ended: the live order is the same. -/
theorem desired_flush (hfunded : Funded env s) (hsleeping : s.expiry = .sleeping)
    (hrows : ({ s with orders := s.orders.flush, expiry := .flushed } : Proxy).finishedRows env =
      []) :
    s.finishedRows env = [] ∧
      ({ s with orders := s.orders.flush, expiry := .flushed } : Proxy).desired env =
        s.desired env := by
  let flushed : Order → Order := fun o => { o with
    deliveredWork := o.deliveredWork + (s.orders.pending.delta o.id).work
    acceptedShares := o.acceptedShares + (s.orders.pending.delta o.id).accepted
    submittedShares := o.submittedShares + (s.orders.pending.delta o.id).submitted }
  rw [finishedRows_eq_nil] at hrows ⊢
  have hbefore : ∀ o ∈ s.orders.rows, o.worker = env.worker → o.status = .active →
      o.fundingExhausted = false := by
    intro o ho hworker hactive
    by_contra hexhausted
    have hknown := hfunded o ho hworker hactive (by simpa using hexhausted)
    rw [hsleeping] at hknown
    exact hknown
  have hafter : ∀ o ∈ s.orders.rows, o.worker = env.worker → o.status = .active →
      OrderStore.finished (flushed o) s.now = false :=
    fun o ho hworker hactive => hrows (flushed o) (List.mem_map_of_mem ho) hworker hactive
  constructor
  · intro o ho hworker hactive
    have hopen := hafter o ho hworker hactive
    simp only [OrderStore.finished, Bool.or_eq_false_iff] at hopen ⊢
    exact ⟨hopen.1, hbefore o ho hworker hactive⟩
  · refine desired_of_id (OrderStore.activeForWorker_congr flushed rfl (fun _ => rfl) ?_)
    intro o ho
    by_cases hworker : o.worker = env.worker
    · by_cases hactive : o.status = .active
      · have hopen := hafter o ho hworker hactive
        simp only [OrderStore.finished, Bool.or_eq_false_iff] at hopen
        have hexhausted := hbefore o ho hworker hactive
        simp only [Order.isLive, hopen.2, hexhausted]
        rfl
      · simp [Order.isLive, flushed, hactive]
    · simp [flushed, hworker]

/-! ## The invariant -/

/-- Nothing is on its way to the session. -/
structure Calm (env : Env) (s : Proxy) (c : Nat) : Prop where
  registered : c ∈ s.registry
  signaled : c ∉ s.signaled
  todo : c ∉ s.todo
  quiet : Quiet env s

end Proxy

/-- Where the handler takes a registered session, with the routing it has. -/
def Handler.Heads (h : Handler) (routing desired : Routing) : Prop :=
  match h with
  | .authorizing order _ => routing = desired ∧ Proxy.routingOf order = desired
  | .comparing order _ => Proxy.routingOf order = desired ∧ (order = none → routing = .idle)
  | .attaching o => .rented o.id = desired
  | .choosing order _ | .switching order _ => Proxy.routingOf order = desired
  | _ => routing = desired

/-- The order under which a session is about to be registered or aligned. -/
def Handler.carried : Handler → Option (Option Order)
  | .reconciling _ _ order => some order
  | .installed o => some o.order
  | _ => none

theorem Handler.isSv1_of_isListed {h : Handler} (hlisted : h.isListed = true) : h.isSv1 = true := by
  cases h <;> first | rfl | cases hlisted

/-- Away from the SV1 relay, the routing does not change. -/
theorem Handler.heads_iff {h : Handler} (hsv1 : h.isSv1 = false) (routing desired : Routing) :
    h.Heads routing desired ↔ routing = desired := by
  cases h <;> first | rfl | cases hsv1

namespace Proxy

/-- The connection has registered an SV2 session at some time, so that others may use it. -/
structure Settled (s : Proxy) (c : Nat) : Prop where
  lt : c < s.accepted
  fresh : (s.handler c).isFresh = false
  sv1 : (s.handler c).isSv1 = false

structure Inv (env : Env) (s : Proxy) : Prop where
  clock : 0 ≤ s.now
  funded : Funded env s
  below : ∀ c ∈ s.registry, c < s.accepted
  absent : ∀ c, s.accepted ≤ c → s.handler c = .closed
  sv1 : ∀ c, (s.handler c).isSv1 = true →
    ∃ i, s.session c = some (.sv1 i) ∧ (c ∉ s.registry → i.routing = .idle)
  listed : ∀ c, (s.handler c).isListed = true → c ∈ s.registry
  fresh : ∀ c, (s.handler c).isFresh = true → c ∉ s.registry
  installed : ∀ c o, s.handler c = .installed o →
    ∃ j, s.session c = some (.sv2 j) ∧ j.routing = routingOf o.order
  slot : ∀ r, s.rig = some r → s.Settled r
  rigs : ∀ c r, (s.handler c).rig? = some r → s.Settled r
  /-- A calm session heads for the routing of the live order. -/
  aligned : ∀ c, Calm env s c →
    ∃ x, s.session c = some x ∧ (s.handler c).Heads x.routing (s.desired env)
  reconciling : ∀ c o r desired, s.handler c = .reconciling o r desired → Calm env s r →
    routingOf desired = s.desired env

section Inv

variable {env : Env} {s s' : Proxy} {c : Nat}

/-- Calm is about the registry and the calls only. -/
theorem Calm.of_same (h : Calm env s' c) (hregistry : s'.registry = s.registry)
    (hsignaled : s'.signaled = s.signaled) (htodo : s'.todo = s.todo)
    (hquiet : Quiet env s' → Quiet env s) : Calm env s c :=
  ⟨hregistry ▸ h.registered, hsignaled ▸ h.signaled, htodo ▸ h.todo, hquiet h.quiet⟩

theorem Calm.of_put {d : Nat} {x : AnySession} (h : Calm env (s.put d x) c) : Calm env s c :=
  h.of_same rfl rfl rfl id

theorem Inv.lt_accepted (h : Inv env s) (hopen : s.handler c ≠ .closed) : c < s.accepted := by
  by_contra hle
  exact hopen (h.absent c (by omega))

theorem Settled.of_same {r : Nat} (h : s.Settled r) (haccepted : s'.accepted = s.accepted)
    (hhandler : s'.handler = s.handler) : s'.Settled r :=
  ⟨haccepted ▸ h.lt, hhandler ▸ h.fresh, hhandler ▸ h.sv1⟩

/-- Nothing comes closer to a session, and the live order stays. -/
theorem Inv.mono (h : Inv env s) (hclock : 0 ≤ s'.now) (hfunded : Funded env s')
    (haccepted : s'.accepted = s.accepted) (hhandler : s'.handler = s.handler)
    (hsession : s'.session = s.session) (hregistry : s'.registry = s.registry)
    (hrig : s'.rig = s.rig)
    (hcalm : ∀ c, Calm env s' c → Calm env s c ∧ s'.desired env = s.desired env) : Inv env s' where
  clock := hclock
  funded := hfunded
  below := by
    rw [hregistry, haccepted]
    exact h.below
  absent := by
    rw [haccepted, hhandler]
    exact h.absent
  sv1 := by
    rw [hhandler, hsession, hregistry]
    exact h.sv1
  listed := by
    rw [hhandler, hregistry]
    exact h.listed
  fresh := by
    rw [hhandler, hregistry]
    exact h.fresh
  installed := by
    rw [hhandler, hsession]
    exact h.installed
  slot r hr := (h.slot r (hrig ▸ hr)).of_same haccepted hhandler
  rigs c r hr := (h.rigs c r (hhandler ▸ hr)).of_same haccepted hhandler
  aligned := by
    intro c hc
    obtain ⟨hbefore, hdesired⟩ := hcalm c hc
    rw [hhandler, hsession, hdesired]
    exact h.aligned c hbefore
  reconciling := by
    intro c o r desired hc hr
    obtain ⟨hbefore, hdesired⟩ := hcalm r hr
    rw [hhandler] at hc
    rw [hdesired]
    exact h.reconciling c o r desired hc hbefore

/-- A handler moves on, and its own session may enter or leave the registry. -/
theorem Inv.move (h : Inv env s) {hd : Handler} {registry : List Nat} (hc : c < s.accepted)
    (hothers : ∀ d, d ≠ c → (d ∈ registry ↔ d ∈ s.registry))
    (hsettled : s.Settled c →
      hd.isFresh = false ∧ hd.isSv1 = false ∧ (c ∈ registry → c ∈ s.registry))
    (hsv1 : hd.isSv1 = true →
      ∃ i, s.session c = some (.sv1 i) ∧ (c ∉ registry → i.routing = .idle))
    (hlisted : hd.isListed = true → c ∈ registry) (hfresh : hd.isFresh = true → c ∉ registry)
    (hinstalled : ∀ o, hd = .installed o →
      ∃ j, s.session c = some (.sv2 j) ∧ j.routing = routingOf o.order)
    (hrig : ∀ r, hd.rig? = some r →
      s.Settled r ∨ (r = c ∧ hd.isFresh = false ∧ hd.isSv1 = false))
    (haligned : c ∈ registry → c ∉ s.signaled → c ∉ s.todo → Quiet env s →
      ∃ x, s.session c = some x ∧ hd.Heads x.routing (s.desired env))
    (hreconciling : ∀ o r desired, hd = .reconciling o r desired → Quiet env s →
      routingOf desired = s.desired env) :
    Inv env ({ s with registry }.goto c hd) := by
  have hkeep : ∀ r, s.Settled r → ({ s with registry }.goto c hd).Settled r := by
    intro r hr
    by_cases hrc : r = c
    · subst hrc
      obtain ⟨hnot, hsv2, _⟩ := hsettled hr
      exact ⟨hc, by simpa using hnot, by simpa using hsv2⟩
    · exact ⟨hr.lt, by simpa [Function.update_of_ne hrc] using hr.fresh,
        by simpa [Function.update_of_ne hrc] using hr.sv1⟩
  have hcalm : ∀ d, d ≠ c → Calm env ({ s with registry }.goto c hd) d → Calm env s d :=
    fun d hne hd' => ⟨(hothers d hne).mp hd'.registered, hd'.signaled, hd'.todo, hd'.quiet⟩
  refine ⟨h.clock, h.funded, ?_, ?_, ?_, ?_, ?_, ?_, fun r hr => hkeep r (h.slot r hr), ?_, ?_, ?_⟩
  case refine_2 =>
    intro d hd'
    rw [goto_handler, Function.update_of_ne (by have : s.accepted ≤ d := hd'; omega)]
    exact h.absent d hd'
  all_goals
    intro d
    by_cases hne : d = c
  · exact fun _ => hne ▸ hc
  · exact fun hin => h.below d ((hothers d hne).mp hin)
  · subst hne
    simp only [goto_handler, Function.update_self]
    exact hsv1
  · simp only [goto_handler, Function.update_of_ne hne]
    intro hd'
    obtain ⟨i, hi, hidle⟩ := h.sv1 d hd'
    exact ⟨i, hi, fun hout => hidle fun hin => hout ((hothers d hne).mpr hin)⟩
  · subst hne
    simp only [goto_handler, Function.update_self]
    exact hlisted
  · simp only [goto_handler, Function.update_of_ne hne]
    exact fun hd' => (hothers d hne).mpr (h.listed d hd')
  · subst hne
    simp only [goto_handler, Function.update_self]
    exact hfresh
  · simp only [goto_handler, Function.update_of_ne hne]
    exact fun hd' hin => h.fresh d hd' ((hothers d hne).mp hin)
  · subst hne
    simp only [goto_handler, Function.update_self]
    exact hinstalled
  · simp only [goto_handler, Function.update_of_ne hne]
    exact h.installed d
  · subst hne
    intro r hr
    simp only [goto_handler, Function.update_self] at hr
    rcases hrig r hr with hold | ⟨rfl, hnot, hsv2⟩
    · exact hkeep r hold
    · exact ⟨hc, by simpa using hnot, by simpa using hsv2⟩
  · simp only [goto_handler, Function.update_of_ne hne]
    exact fun r hr => hkeep r (h.rigs d r hr)
  · subst hne
    intro hd'
    simp only [goto_handler, Function.update_self]
    exact haligned hd'.registered hd'.signaled hd'.todo hd'.quiet
  · simp only [goto_handler, Function.update_of_ne hne]
    exact fun hd' => h.aligned d (hcalm d hne hd')
  · subst hne
    intro o r desired hr hd'
    simp only [goto_handler, Function.update_self] at hr
    exact hreconciling o r desired hr hd'.quiet
  · simp only [goto_handler, Function.update_of_ne hne]
    intro o r desired hr hd'
    refine h.reconciling d o r desired hr ?_
    by_cases hrc : r = c
    · subst hrc
      exact ⟨(hsettled (h.rigs d r (by rw [hr]; rfl))).2.2 hd'.registered, hd'.signaled, hd'.todo,
        hd'.quiet⟩
    · exact hcalm r hrc hd'

/-- A handler moves on within its part of the code. -/
theorem Inv.goto (h : Inv env s) {hd : Handler} (hc : c < s.accepted)
    (hsv1 : hd.isSv1 = true → (s.handler c).isSv1 = true)
    (hlisted : hd.isListed = true → (s.handler c).isListed = true)
    (hfresh : hd.isFresh = true → (s.handler c).isFresh = true)
    (hinstalled : ∀ o, hd = .installed o →
      ∃ j, s.session c = some (.sv2 j) ∧ j.routing = routingOf o.order)
    (hrig : ∀ r, hd.rig? = some r →
      s.Settled r ∨ (r = c ∧ hd.isFresh = false ∧ hd.isSv1 = false))
    (hheads : ∀ x, s.session c = some x → (s.handler c).Heads x.routing (s.desired env) →
      hd.Heads x.routing (s.desired env))
    (hreconciling : ∀ o r desired, hd = .reconciling o r desired →
      routingOf desired = s.desired env) : Inv env (s.goto c hd) := by
  refine h.move hc (fun _ _ => Iff.rfl) ?_ (fun hyes => h.sv1 c (hsv1 hyes))
    (fun hyes => h.listed c (hlisted hyes)) (fun hyes => h.fresh c (hfresh hyes)) hinstalled hrig ?_
    (fun o r desired hyes _ => hreconciling o r desired hyes)
  · intro hr
    refine ⟨?_, ?_, id⟩ <;> rw [Bool.eq_false_iff]
    · exact fun hyes => absurd (hfresh hyes) (by simp [hr.fresh])
    · exact fun hyes => absurd (hsv1 hyes) (by simp [hr.sv1])
  · intro hin hsignaled htodo hquiet
    obtain ⟨x, hx, hold⟩ := h.aligned c ⟨hin, hsignaled, htodo, hquiet⟩
    exact ⟨x, hx, hheads x hx hold⟩

/-- A session changes. -/
theorem Inv.put (h : Inv env s) {x : AnySession}
    (hsv1 : (s.handler c).isSv1 = true → ∃ i, x = .sv1 i ∧ (c ∉ s.registry → i.routing = .idle))
    (hinstalled : ∀ o, s.handler c = .installed o → ∃ j, x = .sv2 j ∧ j.routing = routingOf o.order)
    (hheads : Calm env s c → (s.handler c).Heads x.routing (s.desired env)) :
    Inv env (s.put c x) := by
  refine ⟨h.clock, h.funded, h.below, h.absent, ?_, h.listed, h.fresh, ?_,
    fun r hr => (h.slot r hr).of_same rfl rfl, fun d r hr => (h.rigs d r hr).of_same rfl rfl, ?_,
    fun d o r desired hd hr => h.reconciling d o r desired hd hr.of_put⟩
  all_goals
    intro d
    by_cases hd : d = c
  · subst hd
    intro hsv
    obtain ⟨i, rfl, hidle⟩ := hsv1 hsv
    exact ⟨i, by simp only [put_session, Function.update_self], hidle⟩
  · simp only [put_session, Function.update_of_ne hd]
    exact h.sv1 d
  · subst hd
    intro o ho
    obtain ⟨j, rfl, hrouting⟩ := hinstalled o ho
    exact ⟨j, by simp only [put_session, Function.update_self], hrouting⟩
  · simp only [put_session, Function.update_of_ne hd]
    exact h.installed d
  · subst hd
    intro hcalm
    exact ⟨x, by simp only [put_session, Function.update_self], hheads hcalm.of_put⟩
  · intro hcalm
    simp only [put_session, Function.update_of_ne hd]
    exact h.aligned d hcalm.of_put

/-- A session leaves the registry; its own handler is not of the SV1 relay any more. -/
theorem Inv.remove (h : Inv env s) (hsv1 : (s.handler c).isSv1 = false) :
    Inv env (s.remove c) := by
  have hsub : ∀ d ∈ (s.remove c).registry, d ∈ s.registry := fun d hd => (List.mem_filter.mp hd).1
  have hcalm : ∀ d, Calm env (s.remove c) d → Calm env s d :=
    fun d hd => ⟨hsub d hd.registered, hd.signaled, hd.todo, hd.quiet⟩
  have hne : ∀ d, (s.handler d).isSv1 = true → d ≠ c := by
    rintro d hd rfl
    rw [hsv1] at hd
    cases hd
  have hkept : ∀ d, d ∈ s.registry → d ≠ c → d ∈ (s.remove c).registry :=
    fun d hin hd => List.mem_filter.mpr ⟨hin, by simpa using hd⟩
  refine ⟨h.clock, h.funded, fun d hd => h.below d (hsub d hd), h.absent, ?_, ?_,
    fun d hd hreg => h.fresh d hd (hsub d hreg), h.installed,
    fun r hr => (h.slot r hr).of_same rfl rfl, fun d r hr => (h.rigs d r hr).of_same rfl rfl,
    fun d hd => h.aligned d (hcalm d hd),
    fun d o r desired hd hr => h.reconciling d o r desired hd (hcalm r hr)⟩
  · intro d hd
    obtain ⟨i, hi, hidle⟩ := h.sv1 d hd
    exact ⟨i, hi, fun hout => hidle fun hin => hout (hkept d hin (hne d hd))⟩
  · intro d hd
    exact hkept d (h.listed d hd) (hne d (Handler.isSv1_of_isListed hd))

/-- A session is registered, and heads for the routing of the live order unless a change is under
way. -/
theorem Inv.insert (h : Inv env s) {hd : Handler} {x : AnySession} (hc : c < s.accepted)
    (hx : s.session c = some x) (hown : ¬s.Settled c)
    (hsv1 : hd.isSv1 = true → (s.handler c).isSv1 = true)
    (hfresh : hd.isFresh = false) (hrig : hd.rig? = none)
    (hheads : Quiet env s → (c ∈ s.registry → Calm env s c) →
      hd.Heads x.routing (s.desired env)) :
    Inv env ({ s with registry := s.registry ++ [c] }.goto c hd) := by
  have hin : c ∈ s.registry ++ [c] := List.mem_append_right _ (List.mem_singleton_self c)
  refine h.move hc ?_ (fun hyes => absurd hyes hown) ?_ (fun _ => hin) ?_ ?_ ?_ ?_ ?_
  · intro d hne
    simp [hne]
  · intro hyes
    obtain ⟨i, hi, _⟩ := h.sv1 c (hsv1 hyes)
    exact ⟨i, hi, fun hout => absurd hin hout⟩
  · intro hyes
    rw [hfresh] at hyes
    cases hyes
  · rintro o rfl
    cases hfresh
  · intro r hr
    rw [hrig] at hr
    cases hr
  · intro _ hsignaled htodo hquiet
    exact ⟨x, hx, hheads hquiet fun hreg => ⟨hreg, hsignaled, htodo, hquiet⟩⟩
  · rintro o r desired rfl
    cases hrig

/-- A handler returns, and its session leaves the registry. -/
theorem Inv.close (h : Inv env s) (hopen : s.handler c ≠ .closed) :
    Inv env ((s.remove c).goto c .closed) := by
  refine h.move (h.lt_accepted hopen) ?_ ?_ ?_ ?_ ?_ ?_ ?_ ?_ ?_
  · intro d hne
    simp [hne]
  · exact fun _ => ⟨rfl, rfl, fun hin => (List.mem_filter.mp hin).1⟩
  · rintro ⟨⟩
  · rintro ⟨⟩
  · rintro ⟨⟩
  · rintro o ⟨⟩
  · rintro r ⟨⟩
  · intro hin
    simp at hin
  · rintro o r desired ⟨⟩

/-- A connection comes in: nobody knows its id yet. -/
theorem Inv.accept (h : Inv env s) {hd : Handler} {session : Nat → Option AnySession}
    (hsession : ∀ d, d ≠ s.accepted → session d = s.session d)
    (hnew : (∃ o, hd = .opening o) ∨
      (hd = .relaying ∧ ∃ i, session s.accepted = some (.sv1 i) ∧ i.routing = .idle)) :
    Inv env ({ s with accepted := s.accepted + 1, session }.goto s.accepted hd) := by
  have hout : s.accepted ∉ s.registry := fun hin => absurd (h.below _ hin) (Nat.lt_irrefl _)
  have hnone : hd.rig? = none ∧ ∀ o, hd ≠ .installed o := by
    rcases hnew with ⟨o, rfl⟩ | ⟨rfl, _⟩ <;> exact ⟨rfl, fun _ heq => by cases heq⟩
  have hcalm : ∀ d, Calm env ({ s with accepted := s.accepted + 1, session }.goto s.accepted hd) d →
      Calm env s d ∧ d ≠ s.accepted := by
    intro d hd'
    refine ⟨hd'.of_same rfl rfl rfl id, ?_⟩
    rintro rfl
    exact hout hd'.registered
  have hsettled : ∀ r, s.Settled r →
      ({ s with accepted := s.accepted + 1, session }.goto s.accepted hd).Settled r := by
    rintro r ⟨hlt, hfresh, hsv1⟩
    have hne : r ≠ s.accepted := Nat.ne_of_lt hlt
    refine ⟨Nat.lt_succ_of_lt hlt, ?_, ?_⟩ <;>
      simpa only [goto_handler, Function.update_of_ne hne]
  refine ⟨h.clock, h.funded, fun d hd' => Nat.lt_succ_of_lt (h.below d hd'), ?_, ?_, ?_, ?_, ?_,
    fun r hr => hsettled r (h.slot r hr), ?_, ?_, ?_⟩
  · intro d hd'
    have hlt : s.accepted + 1 ≤ d := hd'
    rw [goto_handler, Function.update_of_ne (by omega)]
    exact h.absent d (by omega)
  all_goals
    intro d
    by_cases hd' : d = s.accepted
  · subst hd'
    intro hsv
    simp only [goto_handler, Function.update_self] at hsv
    rcases hnew with ⟨o, rfl⟩ | ⟨_, i, hi, hidle⟩
    · cases hsv
    · exact ⟨i, hi, fun _ => hidle⟩
  · simp only [goto_handler, Function.update_of_ne hd']
    intro hsv
    have hold := h.sv1 d hsv
    rwa [← hsession d hd'] at hold
  · subst hd'
    intro hl
    simp only [goto_handler, Function.update_self] at hl
    rcases hnew with ⟨o, rfl⟩ | ⟨rfl, _⟩ <;> cases hl
  · simp only [goto_handler, Function.update_of_ne hd']
    exact h.listed d
  · subst hd'
    exact fun _ => hout
  · simp only [goto_handler, Function.update_of_ne hd']
    exact h.fresh d
  · subst hd'
    intro o ho
    simp only [goto_handler, Function.update_self] at ho
    exact absurd ho (hnone.2 o)
  · simp only [goto_handler, Function.update_of_ne hd']
    intro o ho
    have hold := h.installed d o ho
    rwa [← hsession d hd'] at hold
  · subst hd'
    intro r hr
    simp only [goto_handler, Function.update_self, hnone.1, reduceCtorEq] at hr
  · simp only [goto_handler, Function.update_of_ne hd']
    exact fun r hr => hsettled r (h.rigs d r hr)
  · subst hd'
    exact fun hc => absurd rfl (hcalm _ hc).2
  · intro hc
    simp only [goto_handler, Function.update_of_ne hd']
    have hold := h.aligned d (hcalm d hc).1
    rwa [← hsession d hd'] at hold
  · subst hd'
    intro o r desired ho
    simp only [goto_handler, Function.update_self] at ho
    rw [ho] at hnone
    exact absurd hnone.1 (by simp [Handler.rig?])
  · simp only [goto_handler, Function.update_of_ne hd']
    exact fun o r desired ho hr => h.reconciling d o r desired ho (hcalm r hr).1

theorem Inv.heads (h : Inv env s) {x : AnySession} (hx : s.session c = some x)
    (hcalm : Calm env s c) : (s.handler c).Heads x.routing (s.desired env) := by
  obtain ⟨y, hy, hheads⟩ := h.aligned c hcalm
  rw [hx] at hy
  cases hy
  exact hheads

end Inv

end Proxy

end RentalProxy
