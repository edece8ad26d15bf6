import RentalProxy.DroppedUpstreams

/-!
# A found rental is pursued

A connection that attaches looks the live order of its worker up, and switches the rig to it.  When
that fails, `spawn_switch_retry` goes on in the background, unless a retry is running already.

* `Phase.Chases` says that a task is on its way to an order, and `Supervised.Pursued` that the
  connection or the retry is.
* `Aiming` is what a session has to keep for that, beside `Supervision`.
* `found_rental_pursued` is the result: as long as the order is live, neither of them gives up
  before the rig has been switched.
-/

namespace RentalProxy

open StepSystem

/-! ## On the way to an order -/

theorem Attempt.next_orderId? {a b : Attempt} (h : a.next = some b) :
    b.orderId? = a.orderId? := by
  cases a with
  | order o readAt fallback =>
    cases fallback with
    | true => cases h
    | false =>
      simp only [Attempt.next] at h
      split at h <;> cases h
      rfl
  | default target => cases h

/-- The task looks the live order up, or is on its way to this one. -/
def Phase.Chases (id : String) : Phase → Prop
  | .resolve => True
  | .compare desired => desired.map Order.id = some id
  | .call c => c.orderId? = some id
  | .done | .check => False

instance (id : String) : DecidablePred (Phase.Chases id)
  | .resolve => isTrue trivial
  | .compare desired => inferInstanceAs (Decidable (desired.map Order.id = some id))
  | .call c => inferInstanceAs (Decidable (c.orderId? = some id))
  | .done | .check => inferInstanceAs (Decidable False)

namespace Supervised

variable {σ ε : Type}

/-! ## What a session keeps -/

/-- Where the swaps of a session lead.  `aims` holds of a swap that is under way to an order, until
it has ended. -/
structure Aiming {s : Swappable σ ε} {Start : σ → Prop} (l : Supervision s Start) where
  aims : σ → String → Prop
  begun : ∀ r t a e r' id, s.begin r t a = some e → s.step r e = some r' →
    a.orderId? = some id → aims r' id
  kept : ∀ r e r' id, l.Inv r → s.step r e = some r' → aims r id →
    s.unlocked r' = true ∨ aims r' id
  landed : ∀ r id, aims r id → l.past r → s.routing r = .rented id

/-- What holds of the tasks of a session that has come about. -/
structure Prepared {s : Swappable σ ε} {Start : σ → Prop} {l : Supervision s Start}
    (k : Aiming l) (x : Supervised σ) : Prop where
  session : l.Inv x.session
  locked : Locked s x
  resolves : ∀ t, x.task t = .resolve → t = .retry
  ready : ∀ t a, x.task t = .call (.wait a) ∨ x.task t = .call (.hold a) → l.ready x.session a
  aims : ∀ t a id, x.task t = .call (.hold a) → a.orderId? = some id → k.aims x.session id

namespace Prepared

variable {s : Swappable σ ε} {Start : σ → Prop} {l : Supervision s Start} {k : Aiming l}
  {x x' : Supervised σ} {e : SwapEvent ε} {t : SwapTaskId} {id : String}

theorem fresh {session : σ} (hinv : l.Inv session) (now : Int) :
    Prepared k (fresh session now) where
  session := hinv
  locked := .fresh session now
  resolves _ hphase := by cases hphase
  ready _ _ hphase := by rcases hphase with hphase | hphase <;> cases hphase
  aims _ _ _ hphase := by cases hphase

theorem resolves_step (h : Prepared k x) (hstep : x.step s e = some x') :
    ∀ t, x'.task t = .resolve → t = .retry := by
  intro t hphase
  have hmoves := moves_of_step hstep t
  rw [hphase] at hmoves
  generalize hp : Phase.resolve = p at hmoves
  cases hmoves with
  | same => exact h.resolves t hp.symm
  | resolve htask => exact htask
  | failover _ _ _ _ _ hcall => rcases hcall with ⟨_, rfl⟩ | ⟨_, _, rfl⟩ <;> cases hp
  | reconcile _ hcall => rcases hcall with rfl | ⟨_, _, rfl⟩ <;> cases hp
  | _ => cases hp

theorem aims_step (h : Prepared k x) (hstep : x.step s e = some x') :
    ∀ t a id, x'.task t = .call (.hold a) → a.orderId? = some id → k.aims x'.session id := by
  intro t a id hhold horder
  have hlocked := (h.locked.step l.locks hstep t a hhold).2
  rcases (moves_of_step hstep t).hold hhold with hold | ⟨hbegin, hwait⟩
  · have haims := h.aims t a id hold horder
    rcases session_of_step hstep with hsame | ⟨f, hf⟩
    · rwa [hsame]
    · rcases k.kept _ _ _ id h.session hf haims with hunlocked | hkept
      · cases hlocked.symm.trans hunlocked
      · exact hkept
  · cases kind_of_step hstep with
    | begin he hphase _ hbegins hsession =>
      rw [hbegin] at he
      cases he
      rw [hwait] at hphase
      cases hphase
      exact k.begun _ _ _ _ _ id hbegins hsession horder
    | quiet hnot => exact absurd hbegin (hnot t)
    | session he | tick he | receive he =>
      rw [hbegin] at he
      cases he

theorem step (h : Prepared k x) (hstep : x.step s e = some x') : Prepared k x' where
  session := by
    rcases session_of_step hstep with hsame | ⟨f, hf⟩
    · rw [hsame]
      exact h.session
    · exact l.inv _ _ _ h.session hf
  locked := h.locked.step l.locks hstep
  resolves := h.resolves_step hstep
  ready t _ hphase := l.ready_of_step h.session (h.ready t) hstep hphase
  aims := h.aims_step hstep

theorem of_reaches {G : Supervised σ → SwapEvent ε → Prop} (k : Aiming l)
    (h : ReachesUnder s Start G x) : Prepared k x :=
  h.invariant (fun session now hstart => .fresh (l.start session hstart) now)
    fun _ _ _ hy _ hstep => hy.step hstep

/-- As long as the order is live, a task that is on its way to it stays there, unless the rig has
been switched, or the call of a connection has failed. -/
theorem chases_step (h : Prepared k x) (ht : t ≠ .supervisor)
    (hlive : (x.liveOrder s).map Order.id = some id) (hchases : (x.task t).Chases id)
    (hstep : x.step s e = some x') :
    (x'.task t).Chases id ∨ s.routing x.session = .rented id ∨
      t ≠ .retry ∧ x'.task = (x.failed t true).task := by
  cases turn_of_step hstep (t := t) with
  | kept hkept =>
    rw [hkept]
    exact Or.inl hchases
  | received htask | supervised htask => exact absurd htask ht
  | found _ _ hfound =>
    rw [hfound]
    exact Or.inl hlive
  | @compared desired hphase hcompared =>
    rw [hphase] at hchases
    obtain ⟨o, rfl, rfl⟩ := Option.map_eq_some_iff.mp hchases
    simp only [reconcile] at hcompared
    split at hcompared
    · rw [hcompared]
      exact Or.inl rfl
    · -- another task has switched the rig
      rename_i hcurrent
      refine Or.inr (Or.inl ?_)
      rw [not_not] at hcurrent
      revert hcurrent
      cases s.routing x.session with
      | idle => rintro ⟨⟩
      | rented current =>
        rintro ⟨⟩
        rfl
  | readOrder hphase hget hread =>
    rw [hphase] at hchases
    cases hchases
    rw [hread]
    exact Or.inl (congrArg some (OrderStore.mem_of_get hget).2)
  | readDefault hphase | noDefault hphase =>
    rw [hphase] at hchases
    cases hchases
  | begun hphase hbegun =>
    rw [hphase] at hchases
    rw [hbegun]
    exact Or.inl hchases
  | next hphase hnext hwait =>
    rw [hphase] at hchases
    rw [hwait]
    exact Or.inl ((Attempt.next_orderId? hnext).trans hchases)
  | returned hphase hreturning =>
    rw [hphase] at hchases
    have haims := h.aims t _ id hphase hchases
    exact Or.inr (Or.inl (k.landed _ id haims (l.returned _ hreturning)))
  | failed hphase hfailed =>
    rw [hphase] at hchases
    have horder : ∀ c : Call, c.orderId? = some id → c.orderId?.isSome = true := by
      intro c hc
      rw [hc]
      rfl
    rw [horder _ hchases] at hfailed
    by_cases hretry : t = .retry
    · subst hretry
      left
      rw [hfailed, failed, goto_same]
      trivial
    · exact Or.inr (Or.inr ⟨hretry, hfailed⟩)
  | spawned htask _ hresolve =>
    rw [htask, hresolve]
    exact Or.inl trivial

end Prepared

/-! ## The pursuit -/

/-- The connection or the retry is on its way to the order, and the retry is not busy with
anything else. -/
structure Pursued (x : Supervised σ) (n : Nat) (id : String) : Prop where
  retry : x.task .retry = .done ∨ (x.task .retry).Chases id
  either : (x.task (.attach n)).Chases id ∨ (x.task .retry).Chases id

/-- The live order of the worker is this one. -/
def OrderLives (s : Swappable σ ε) (id : String) (x : Supervised σ) (_ : SwapEvent ε) : Prop :=
  (x.liveOrder s).map Order.id = some id

/-- The task has a step to make, or waits for the switch lock. -/
def TaskGoes (s : Swappable σ ε) (x : Supervised σ) (t : SwapTaskId) : Prop :=
  (∃ e ∈ [.resolve, .compare t, .read t, .begin t], (x.step s e).isSome = true) ∨
    s.unlocked x.session = false

section Pursuit

variable {s : Swappable σ ε} {Start : σ → Prop} {l : Supervision s Start} {k : Aiming l}
  {x x' : Supervised σ} {e : SwapEvent ε} {t : SwapTaskId} {n : Nat} {id : String}

/-- A retry that has nothing to do stays so, or looks the live order up. -/
theorem retry_of_done (hlive : (x.liveOrder s).map Order.id = some id)
    (hdone : x.task .retry = .done) (hstep : x.step s e = some x') :
    x'.task .retry = .done ∨ (x'.task .retry).Chases id := by
  cases turn_of_step hstep (t := .retry) with
  | kept hkept => exact Or.inl (hkept.trans hdone)
  | received htask | supervised htask => cases htask
  | found _ _ hfound =>
    rw [hfound]
    exact Or.inr hlive
  | spawned _ _ hresolve =>
    rw [hresolve]
    exact Or.inr trivial
  | compared hphase | readOrder hphase | readDefault hphase | noDefault hphase | begun hphase
  | next hphase | returned hphase | failed hphase => cases hdone.symm.trans hphase

theorem Pursued.step (h : x.Pursued n id) (hprepared : Prepared k x)
    (hlive : (x.liveOrder s).map Order.id = some id) (hstep : x.step s e = some x') :
    x'.Pursued n id ∨ s.routing x.session = .rented id := by
  by_cases hrouted : s.routing x.session = .rented id
  · exact Or.inr hrouted
  · left
    have hretry : (x.task .retry).Chases id → (x'.task .retry).Chases id := by
      intro hchases
      rcases hprepared.chases_step (by rintro ⟨⟩) hlive hchases hstep with
        hstill | hlanded | ⟨hnot, _⟩
      · exact hstill
      · exact absurd hlanded hrouted
      · exact absurd rfl hnot
    have hidle : x'.task .retry = .done ∨ (x'.task .retry).Chases id := by
      rcases h.retry with hdone | hchases
      · exact retry_of_done hlive hdone hstep
      · exact Or.inr (hretry hchases)
    refine ⟨hidle, ?_⟩
    rcases h.either with hattach | hchases
    · rcases hprepared.chases_step (by rintro ⟨⟩) hlive hattach hstep with
        hstill | hlanded | ⟨_, hfailed⟩
      · exact Or.inl hstill
      · exact absurd hlanded hrouted
      · -- the retry that is to go on may run already, and is on its way to the order then
        right
        rcases h.retry with hdone | hchases
        · rw [hfailed, failed, if_pos ⟨rfl, hdone⟩, goto_same]
          trivial
        · exact hretry hchases
    · exact Or.inr (hretry hchases)

/-- A task that is on its way is not stuck. -/
theorem Prepared.taskGoes (h : Prepared k x) (hchases : (x.task t).Chases id) :
    x.TaskGoes s t := by
  unfold TaskGoes
  cases hphase : x.task t with
  | done | check =>
    rw [hphase] at hchases
    cases hchases
  | resolve =>
    rw [h.resolves t hphase] at hphase
    refine Or.inl ⟨.resolve, by simp, ?_⟩
    simp only [Supervised.step, hphase, Option.isSome_some]
  | compare desired =>
    refine Or.inl ⟨.compare t, by simp, ?_⟩
    simp only [Supervised.step, hphase, Option.isSome_some]
  | call c =>
    rcases l.call_goes h.locked (fun a ha => h.ready t a (Or.inl ha)) hphase with
      hread | hbegin | hlocked
    · exact Or.inl ⟨.read t, by simp, hread⟩
    · exact Or.inl ⟨.begin t, by simp, hbegin⟩
    · exact Or.inr hlocked

/-- The pursuit of a live order ends with the switch. -/
theorem Pursued.until_routed {y : Supervised σ} (hprepared : Prepared k x)
    (h : x.Pursued n id) (hrun : Run (Supervised.step s) (OrderLives s id) x y) :
    (Prepared k y ∧ y.Pursued n id) ∨ ∃ z, Run (Supervised.step s) (OrderLives s id) x z ∧
      Run (Supervised.step s) (OrderLives s id) z y ∧ s.routing z.session = .rented id := by
  refine hrun.invariant_until (I := fun z => Prepared k z ∧ z.Pursued n id)
    (Q := fun z => s.routing z.session = .rented id) ⟨hprepared, h⟩ ?_
  intro z e w ⟨hz, hpursued⟩ hlive hstep
  rcases hpursued.step hz hlive hstep with hstill | hrouted
  · exact Or.inl ⟨hz.step hstep, hstill⟩
  · exact Or.inr hrouted

end Pursuit

end Supervised

/-! ## Rigs -/

namespace Sv2

variable {decode : Decoder} {lib : Sv1Library} {r r' : Rig} {e : Event} {id : String}

/-- The swap that is under way leads to this order, or has led the rig there. -/
structure Rig.Aims (r : Rig) (id : String) : Prop where
  connecting : ∀ plan, r.swap.Connecting plan → plan.routing = .rented id
  past : r.swap.past = true → r.inner.routing = .rented id
  locked : r.swap.isIdle = false

theorem Rig.Aims.step (h : r.Aims id) (hgen : Generations r) (ht : Transition decode lib r e r')
    (hlocked : r'.swap.isIdle = false) : r'.Aims id where
  connecting plan hplan := h.connecting plan (connecting_of_transition ht h.locked hplan).1
  past hpast := by
    rcases route_of_transition ht with hsame | ⟨plan, hplan, hroute⟩
    · rw [hsame.routing]
      rcases past_of_transition hgen ht hpast with hbefore | hnew
      · exact h.past hbefore
      · have hsame := hsame.generation
        omega
    · rw [hroute.routing]
      exact h.connecting plan hplan
  locked := hlocked

theorem Rig.aims_beginSwap (r : Rig) (caller : SwapCaller) (target : UpstreamTarget) (id : String) :
    (r.beginSwap caller target (.rented id)).Aims id where
  connecting plan hplan := by
    rcases hplan with hplan | ⟨_, _, hplan⟩ <;> cases hplan
    rfl
  past hpast := by cases hpast
  locked := rfl

def aiming (decode : Decoder) (lib : Sv1Library) : Supervised.Aiming (supervision decode lib) where
  aims := Rig.Aims
  begun r t a e r' id hbegin hstep horder := by
    cases a with
    | order o readAt fallback =>
      cases horder
      cases hbegin
      simp only [swappable, step] at hstep
      split at hstep
      · obtain ⟨target, _, rfl⟩ := Option.map_eq_some_iff.mp hstep
        exact r.aims_beginSwap _ target o.id
      · cases hstep
    | default => cases horder
  kept r e r' id hinv hstep haims := by
    cases hlocked : r'.swap.isIdle with
    | true => exact Or.inl hlocked
    | false => exact Or.inr (haims.step hinv.1 (transition_of_step hstep) hlocked)
  landed _ _ haims hpast := haims.past hpast

/-- A live order that a connection has found, while the retry was not busy with another one.  In
every run in which it stays the live order, the connection or the retry is on its way to it and is
not stuck, until the rig is switched to it. -/
theorem found_rental_pursued {x y : Supervised Rig} {n : Nat}
    (h : Supervised.ReachesUnder (swappable decode lib) (Established lib) (fun _ _ => True) x)
    (hretry : x.task .retry = .done ∨ (x.task .retry).Chases id)
    (hfound : (x.task (.attach n)).Chases id)
    (hrun : Run (Supervised.step (swappable decode lib))
      (Supervised.OrderLives (swappable decode lib) id) x y) :
    (∃ t, (t = .attach n ∨ t = .retry) ∧ (y.task t).Chases id ∧
        y.TaskGoes (swappable decode lib) t) ∨
      ∃ z, Run (Supervised.step (swappable decode lib))
          (Supervised.OrderLives (swappable decode lib) id) x z ∧
        Run (Supervised.step (swappable decode lib))
          (Supervised.OrderLives (swappable decode lib) id) z y ∧
        z.session.inner.routing = .rented id := by
  have hprepared : Supervised.Prepared (aiming decode lib) x := .of_reaches _ h
  have hpursued : x.Pursued n id := ⟨hretry, Or.inl hfound⟩
  rcases hpursued.until_routed hprepared hrun with ⟨hy, hstill⟩ | hrouted
  · left
    rcases hstill.either with hattach | hretry
    · exact ⟨_, Or.inl rfl, hattach, hy.taskGoes hattach⟩
    · exact ⟨_, Or.inr rfl, hretry, hy.taskGoes hretry⟩
  · exact Or.inr hrouted

/-- A rig on its idle pool, and a connection that finds the order. -/
def findsOrder : List (SwapEvent Event) :=
  [.session (.createOrder buyerOrder), .attach 0]

/-- The connection goes on with the order, whose pool does not answer. -/
def switchFails (n : Nat) : List (SwapEvent Event) :=
  [.compare (.attach n), .read (.attach n), .begin (.attach n), .session .swapFailed]

/-- A rig that starts on its idle pool. -/
def unrentedRig : Option Rig :=
  start plainLibrary "bc1q.rig" (extendedOpen 7) {} (some sellerPool) 0 none .native

instance (x : Supervised Rig) (e : SwapEvent Event) :
    Decidable (Supervised.OrderLives (swappable wireDecoder plainLibrary) id x e) :=
  inferInstanceAs (Decidable (_ = _))

/-- The switch of the connection fails, and the retry is at it. -/
theorem found_rental_pursued_retry :
    ∃ y : Supervised Rig, y.task (.attach 0) = .done ∧ y.session.inner.routing = .idle ∧
      ((∃ t, (t = .attach 0 ∨ t = .retry) ∧ (y.task t).Chases "o1" ∧
          y.TaskGoes (swappable wireDecoder plainLibrary) t) ∨
        ∃ x z : Supervised Rig, Run (Supervised.step (swappable wireDecoder plainLibrary))
            (Supervised.OrderLives (swappable wireDecoder plainLibrary) "o1") x z ∧
          z.session.inner.routing = .rented "o1") := by
  have hrun : (unrentedRig.bind fun r =>
      (run (Supervised.step (swappable wireDecoder plainLibrary)) (.fresh r 0) findsOrder).bind
        fun x => (runWhile (Supervised.step (swappable wireDecoder plainLibrary))
          (fun z e => decide (Supervised.OrderLives (swappable wireDecoder plainLibrary) "o1" z e))
          x (switchFails 0)).map fun y => (x, y)).any (fun p =>
            decide (p.1.task .retry = .done) && decide ((p.1.task (.attach 0)).Chases "o1") &&
            decide (p.2.task (.attach 0) = .done) &&
            decide (p.2.session.inner.routing = .idle)) = true := by
    decide +kernel
  obtain ⟨⟨x, y⟩, hruns, htest⟩ := (Option.any_eq_true ..).mp hrun
  obtain ⟨r, hstart, hruns⟩ := Option.bind_eq_some_iff.mp hruns
  obtain ⟨x', hx, hruns⟩ := Option.bind_eq_some_iff.mp hruns
  obtain ⟨y', hy, heq⟩ := Option.map_eq_some_iff.mp hruns
  cases heq
  simp only [Bool.and_eq_true, decide_eq_true_eq] at htest
  obtain ⟨⟨⟨hretry, hfound⟩, hdone⟩, hidle⟩ := htest
  have hone : OrderStore.OneActive {} := List.Pairwise.nil
  have hreach : Supervised.ReachesUnder (swappable wireDecoder plainLibrary)
      (Established plainLibrary) (fun _ _ => True) x :=
    ⟨r, 0, ⟨_, _, _, _, _, _, _, hone, hstart⟩, .of_run hx⟩
  have hlives := Run.of_runWhile
    (G := Supervised.OrderLives (swappable wireDecoder plainLibrary) "o1")
    (fun _ _ => of_decide_eq_true) hy
  refine ⟨y, hdone, hidle, ?_⟩
  rcases found_rental_pursued hreach (Or.inl hretry) hfound hlives with hstill | ⟨z, hz, _, hrented⟩
  · exact Or.inl hstill
  · exact Or.inr ⟨x, z, hz, hrented⟩

end Sv2

end RentalProxy
