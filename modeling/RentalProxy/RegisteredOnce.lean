import RentalProxy.RigPhases

/-!
# Every live session is registered once

The registry is filled by every authorize that an SV1 miner sends, and a session is taken out of it
once, under the label of that moment.  So a miner that authorizes again is listed twice, or stays
behind under its first name.

* `RegisteredOnce` states the property: a session that is registered and not torn down is listed
  once, a torn one nowhere, and the status of a rig sums each session once.
* `AuthorizesOnce` is the condition: each session is registered by one authorize.
* `Listed` is the invariant, and `registered_once` the result.
-/

namespace RentalProxy

open Sv2 (detachMember firstMember)

namespace Registration

namespace State

variable {s s' : State} {c d r : Nat} {e : Event}

/-! ## How often a session is listed -/

/-- Each SV1 session is registered by one authorize. -/
def AuthorizesOnce (s : State) : Event → Prop
  | .authorize c _ true => c ∉ s.authorized
  | _ => True

instance (s : State) : DecidablePred (AuthorizesOnce s) := fun e => by
  unfold AuthorizesOnce
  split <;> infer_instance

/-- The label of a session. -/
def label (s : State) (c : Nat) : Option String := (s.session c).map AnySession.label

theorem label_eq (s : State) (c : Nat) : s.label c = (s.view c).map Prod.snd := by
  unfold label view
  rw [Option.map_map]
  rfl

/-- A session that is registered and not torn down is listed once, under its label, and no other
session is listed. -/
structure Listed (s : State) : Prop where
  waiting : ∀ c worker, s.handler c = .registering worker → c ∉ s.authorized
  once : ∀ c worker, s.registry.occurrences c worker =
    if (c ∈ s.authorized ∧ c ∉ s.torn) ∧ s.label c = some worker then 1 else 0

theorem Listed.keep (h : Listed s) (hregistry : s'.registry = s.registry)
    (hauthorized : s'.authorized = s.authorized) (htorn : s'.torn = s.torn)
    (hview : ∀ c ∈ s.authorized, s'.view c = s.view c)
    (hwaiting : ∀ c worker, s'.handler c = .registering worker →
      s.handler c = .registering worker ∨ c ∉ s.authorized) : Listed s' where
  waiting c worker hc := by
    rw [hauthorized]
    exact (hwaiting c worker hc).elim (h.waiting c worker) id
  once c worker := by
    rw [hregistry, hauthorized, htorn, h.once c worker]
    by_cases hc : c ∈ s.authorized
    · rw [label_eq, label_eq, hview c hc]
    · simp only [hc, false_and, if_false]

/-- A handler moves on, and does not come to register its session. -/
theorem Listed.goto (h : Listed s) (hd : Handler)
    (hnot : ∀ worker, hd = .registering worker → c ∉ s.authorized) : Listed (s.goto c hd) := by
  refine h.keep rfl rfl rfl (fun _ _ => rfl) fun d worker hd' => ?_
  rw [goto_handler, Function.update_apply] at hd'
  split at hd'
  · rename_i hdc
    exact Or.inr (hdc ▸ hnot worker hd')
  · exact Or.inl hd'

theorem Listed.put (h : Listed s) {x y : AnySession} (hsession : s.session c = some x)
    (hsv2 : y.isSv2 = x.isSv2) (hlabel : y.label = x.label) : Listed (s.put c y) :=
  h.keep rfl rfl rfl (fun d _ => congrFun (view_put_same hsession hsv2 hlabel) d)
    fun _ _ hd => Or.inl hd

/-- A session that is not registered gets a label. -/
theorem Listed.rename (h : Listed s) (hnot : c ∉ s.authorized) (x : AnySession) :
    Listed (s.put c x) := by
  refine h.keep rfl rfl rfl (fun d hd => ?_) fun _ _ hd => Or.inl hd
  have hne : d ≠ c := fun hdc => hnot (hdc ▸ hd)
  rw [view_put, if_neg hne]

theorem Listed.enlist (h : Listed s) {worker : String} {hd : Handler} (hnot : c ∉ s.authorized)
    (htorn : c ∉ s.torn) (hlabel : s.label c = some worker)
    (hmoved : ∀ worker, hd ≠ .registering worker) :
    Listed ((s.enlist c worker).goto c hd) where
  waiting d w hd := by
    rw [goto_handler, Function.update_apply] at hd
    split at hd
    · exact absurd hd (hmoved w)
    · rename_i hne
      exact fun hin => h.waiting d w hd ((List.mem_cons.mp hin).resolve_left hne)
  once d w := by
    change (s.registry.insert worker c).occurrences d w =
      if (d ∈ c :: s.authorized ∧ d ∉ s.torn) ∧ s.label d = some w then 1 else 0
    rw [Registry.occurrences_insert, h.once]
    by_cases hd : d = c
    · subst hd
      simp only [hnot, hlabel, htorn, false_and, if_false, true_and, List.mem_cons_self,
        not_false_eq_true, Option.some.injEq, Nat.zero_add, eq_comm (a := w)]
    · simp only [List.mem_cons, hd, false_or, false_and, if_false, Nat.add_zero]

theorem Listed.delist (h : Listed s) {worker : String} (hlabel : s.label c = some worker) :
    Listed (s.delist c worker) where
  waiting := h.waiting
  once d w := by
    change (s.registry.removeIf worker c).occurrences d w =
      if (d ∈ s.authorized ∧ d ∉ c :: s.torn) ∧ s.label d = some w then 1 else 0
    rw [Registry.occurrences_removeIf, h.once]
    by_cases hd : d = c
    · subst hd
      simp only [hlabel, List.mem_cons_self, not_true, and_false, false_and, if_false, true_and,
        Option.some.injEq, ite_eq_left_iff, ite_eq_right_iff, eq_comm (a := worker)]
      exact fun hw hold => absurd hold.2 hw
    · simp only [List.mem_cons, hd, false_or, false_and, if_false]

/-- A guarded step keeps the sessions listed once. -/
theorem Listed.step (h : Listed s) (hsound : Sound s) (hG : AuthorizesOnce s e)
    (ht : Transition s e s') : Listed s' := by
  cases ht with
  | handshake i =>
    obtain ⟨_, _, hauthorized, _⟩ := hsound.fresh s.accepted (le_refl _)
    exact ((h.goto (c := s.accepted) .relaying (by nofun)).rename hauthorized (.sv1 i)).keep
      rfl rfl rfl (fun _ _ => rfl) fun _ _ => Or.inl
  | @authorize c worker i hhandler hsession =>
    exact (h.rename (c := c) hG _).goto _ fun _ _ => hG
  | @refuse c worker hhandler => exact h.goto _ (by nofun)
  | @insert c worker hhandler =>
    obtain ⟨hview, htorn⟩ := hsound.stands_of hhandler
    exact h.enlist (h.waiting c worker hhandler) htorn
      (by rw [label_eq, hview]; rfl) (by nofun)
  | @hangUp c hhandler => exact h.goto _ (by nofun)
  | @deregister c i hhandler hsession =>
    exact (h.delist (by rw [label, hsession]; rfl)).goto _ (by nofun)
  | openChannel =>
    exact (h.goto (c := s.accepted) _ (by nofun)).keep rfl rfl rfl (fun _ _ => rfl)
      fun _ _ => Or.inl
  | @connect c worker o reach j hhandler hfresh =>
    exact (h.rename (hsound.stands_of hhandler).2.1 _).goto _ (by nofun)
  | @abandon c worker o reach j hhandler hfresh hhalf =>
    have hput := h.rename (hsound.stands_of hhandler).2.1 (.sv2 j)
    exact (hput.goto (c := c) .closed (by nofun)).keep rfl rfl rfl (fun _ _ => rfl)
      fun _ _ => Or.inl
  | @register c worker hhandler =>
    obtain ⟨hview, hauthorized, htorn⟩ := hsound.stands_of hhandler
    exact h.enlist hauthorized htorn (by rw [label_eq, hview]; rfl) (by nofun)
  | @bundle c r member worker o i j hhandler hsession hattach =>
    have hkept := h.put (y := .sv2 j) hsession rfl (Sv2.attachMember_eq hattach).1
    exact (hkept.goto (c := c) (.serving r member) (by nofun)).keep rfl rfl rfl
      (fun _ _ => rfl) fun _ _ => Or.inl
  | @publish c worker s₁ hhandler hrig =>
    have hnext := h.goto (c := c) (.serving c firstMember) (by nofun)
    rcases hrig with rfl | rfl <;>
      exact hnext.keep rfl rfl rfl (fun _ _ => rfl) fun _ _ => Or.inl
  | @leave c r member i hhandler hsession =>
    refine (h.put (y := .sv2 (detachMember member i).1) hsession rfl rfl).goto _ fun worker hw => ?_
    split at hw <;> cases hw
  | @remove c r worker hhandler =>
    have hr := (hsound.stands_of hhandler).1
    exact (h.delist (by rw [label_eq, hr]; rfl)).goto _ (by nofun)
  | @reap k p hreaper hstage =>
    have hr := (hsound.reapers k p hreaper).1
    exact (h.delist (by rw [label_eq, hr]; rfl)).keep rfl rfl rfl (fun _ _ => rfl) fun _ _ => Or.inl
  | @traffic c x y hsession hkeeps => exact h.put hsession hkeeps.isSv2 hkeeps.label
  | enter hhandler | look hhandler | lookNone hhandler | standalone hhandler
  | connectFailed hhandler | checkTarget hhandler | checkOther hhandler | rest hhandler =>
    exact (h.goto _ (by nofun)).keep rfl rfl rfl (fun _ _ => rfl) fun _ _ => Or.inl
  | wake | giveUp | inspect | unlist =>
    exact h.keep rfl rfl rfl (fun _ _ => rfl) fun _ _ => Or.inl

/-! ## The property -/

end State

/-- A handler that keeps a session of its own: of an SV1 connection, or of one that builds a rig. -/
def Handler.keeps : Handler → Bool
  | .relaying | .registering _ | .leaving | .registered _ => true
  | _ => false

namespace State

/-- The session has a handler, serves a member, or waits for one. -/
def Live (s : State) (c : Nat) : Prop :=
  (s.handler c).keeps = true ∨ (∃ d m, s.handler d = .serving c m) ∨
    ∃ worker, s.rigs worker = some c

/-- The sessions of a worker: they are registered, have its label, and are not torn down. -/
def sessionsOf (s : State) (worker : String) : Finset Nat :=
  (Finset.range s.accepted).filter fun c =>
    (c ∈ s.authorized ∧ c ∉ s.torn) ∧ s.label c = some worker

/-- Each live session that has authorized is registered once. -/
structure RegisteredOnce (s : State) : Prop where
  once : ∀ c ∈ s.authorized, c ∉ s.torn → ∀ worker, s.registry.occurrences c worker =
    if s.label c = some worker then 1 else 0
  torn : ∀ c ∈ s.torn, ∀ worker, s.registry.occurrences c worker = 0
  live : ∀ c, s.Live c → c ∉ s.torn
  /-- A rig sums each of its sessions once, whatever they answer. -/
  sums : ∀ status worker, match s.registry.aggregatedStatus status worker with
    | none => s.sessionsOf worker = ∅
    | some rig => rig.SumsOver status (s.sessionsOf worker)

theorem Manned.not_torn (h : Manned s) (hsound : Sound s) (hlive : s.Live c) : c ∉ s.torn := by
  intro htorn
  rcases hlive with hkeeps | ⟨d, m, hserving⟩ | ⟨worker, hrigs⟩
  · cases hhandler : s.handler c with
    | relaying | leaving | registering => exact (hsound.stands_of hhandler).2 htorn
    | registered worker =>
      have hoff := h.torn c worker (hsound.stands_of hhandler) htorn
      cases hoff.members.symm.trans (h.first c worker (Or.inr hhandler)).1
    | _ =>
      rw [hhandler] at hkeeps
      cases hkeeps
  · obtain ⟨worker, hrig⟩ := hsound.stands_of hserving
    have hoff := h.torn c worker hrig htorn
    have hin := (h.serving d c m hserving).1
    rw [hoff.members] at hin
    cases hin
  · exact (h.torn c worker (hsound.rigs worker c hrigs) htorn).rigs hrigs

/-- What holds in a state makes the sessions registered once. -/
theorem RegisteredOnce.of_inv (hsound : Sound s) (hmanned : Manned s) (hlisted : Listed s) :
    RegisteredOnce s where
  once c hc htorn worker := by
    simp only [hlisted.once, hc, htorn, not_false_eq_true, and_self, true_and]
  torn c hc worker := by
    rw [hlisted.once, if_neg fun h => h.1.2 hc]
  live c := hmanned.not_torn hsound
  sums status worker := by
    refine Registry.aggregatedStatus_sumsOver (fun c => ?_) status
    rw [hlisted.once]
    unfold sessionsOf
    simp only [Finset.mem_filter, Finset.mem_range]
    by_cases hc : (c ∈ s.authorized ∧ c ∉ s.torn) ∧ s.label c = some worker
    · have hlt : c < s.accepted := by
        by_contra hge
        exact (hsound.fresh c (by omega)).2.2.1 hc.1.1
      rw [if_pos hc, if_pos ⟨hlt, hc⟩]
    · rw [if_neg hc, if_neg fun h => hc h.2]

theorem Sound.boot : Sound boot where
  fresh _ _ := ⟨rfl, rfl, List.not_mem_nil, List.not_mem_nil⟩
  stands _ := trivial
  rigs _ _ h := by cases h
  reapers _ _ h := by cases h

theorem Gated.boot : Gated boot where
  handlers _ _ h := by cases h
  reapers _ _ h := by cases h

theorem Manned.boot : Manned boot where
  serving _ _ _ h := by cases h
  unique _ _ _ _ h := by cases h
  first _ _ h := by rcases h with h | h <;> cases h
  found _ _ _ _ h := by cases h
  phase _ _ h := by cases h.2
  torn _ _ h := by cases h.2
  removing _ _ _ h := by cases h
  expired _ _ h := by cases h
  unlisted _ _ h := by cases h

theorem Listed.boot : Listed boot where
  waiting _ _ h := by cases h
  once _ _ := rfl

/-- What every state satisfies along guarded steps. -/
structure Inv (s : State) : Prop where
  sound : Sound s
  gated : Gated s
  manned : Manned s
  listed : Listed s

theorem ReachesUnder.inv (h : ReachesUnder AuthorizesOnce s) : Inv s :=
  StepSystem.Run.invariant h ⟨.boot, .boot, .boot, .boot⟩ fun _ _ _ hold hG hstep =>
    let ht := Transition.of_step hstep
    ⟨hold.sound.step ht, hold.gated.step ht, hold.manned.step hold.sound hold.gated ht,
      hold.listed.step hold.sound hG ht⟩

/-- A second authorize registers the session once more. -/
theorem not_registeredOnce_of_again {t : State} {worker : String} (h : Inv s)
    (hin : c ∈ s.authorized) (hstep : s.step (.authorize c worker true) = some t) :
    ∃ u, t.step (.insert c) = some u ∧ ¬RegisteredOnce u := by
  cases Transition.of_step hstep with
  | @authorize _ _ i hhandler hsession =>
    refine ⟨((((s.put c (.sv1 { i with label := worker })).goto c (.registering worker)).enlist c
      worker).goto c .relaying), ?_, fun hu => ?_⟩
    · simp only [step, sv1Step, State.goto, State.put, Function.update_self]
    · have htorn : c ∉ s.torn := (h.sound.stands_of hhandler).2
      have hlabel : s.label c = some i.label := by
        rw [label, hsession]
        rfl
      -- the entry of the first authorize
      have hold : s.registry.occurrences c i.label = 1 := by
        rw [h.listed.once, if_pos ⟨⟨hin, htorn⟩, hlabel⟩]
      have hnew := hu.once c List.mem_cons_self htorn i.label
      change (s.registry.insert worker c).occurrences c i.label = _ at hnew
      rw [Registry.occurrences_insert, hold] at hnew
      split at hnew <;> split at hnew
      · omega
      · omega
      · rename_i hne hsame
        have hlabel' : worker = i.label := by
          simpa [label, State.goto, State.put, State.enlist, AnySession.label] using hsame
        exact hne ⟨rfl, hlabel'.symm⟩
      · omega

/-- As long as no SV1 session is registered by a second authorize, every live session is registered
once, and the status of a rig sums each of its sessions once.  The first authorize that misses the
condition ends it. -/
theorem registered_once {s : State} (h : ReachesUnder AuthorizesOnce s) :
    RegisteredOnce s ∧ ∀ c worker t, s.step (.authorize c worker true) = some t →
      ¬AuthorizesOnce s (.authorize c worker true) →
        ∃ u, t.step (.insert c) = some u ∧ ¬RegisteredOnce u :=
  ⟨.of_inv h.inv.sound h.inv.manned h.inv.listed,
    fun _ _ _ hstep hnot => not_registeredOnce_of_again h.inv (not_not.mp hnot) hstep⟩

/-! ## Concrete runs -/

/-- A schedule executed after the boot is a run. -/
theorem exists_of_boot {G : State → Event → Prop} [hG : ∀ s, DecidablePred (G s)]
    (es : List Event) {p : State → Bool}
    (h : (StepSystem.runWhile step (fun s e => decide (G s e)) boot es).any p = true) :
    ∃ s, ReachesUnder G s ∧ p s = true := by
  obtain ⟨s, hs, hp⟩ := (Option.any_eq_true ..).mp h
  exact ⟨s, .of_runWhile (fun _ _ => of_decide_eq_true) hs, hp⟩

/-- An SV1 miner connects and authorizes. -/
def authorizeEvents : List Event :=
  [.handshake Sv2.sellerPool { sv2 := some ⟨1, "0a0b", 4, 1⟩ } "peer",
    .authorize 0 "bc1q.rig" true, .insert 0]

/-- The first open of a connection. -/
def firstOpen : Event :=
  .openChannel "bc1q.rig" ⟨Sv2.extendedOpen 7, none, some Sv2.sellerPool⟩

/-- An SV1 miner, and two SV2 miners that share a rig. -/
def bundleEvents : List Event :=
  authorizeEvents ++
    [firstOpen, .enter 1, .look 1, .connect 1 fun _ => some (.native fun _ => Sv2.reopenedInfo 1),
      .register 1, .publish 1, firstOpen, .enter 2, .look 2, .bundle 2]

theorem registered_once_bundled :
    ∃ s, ReachesUnder AuthorizesOnce s ∧ s.registry.getAll "bc1q.rig" = [0, 1] ∧
      RegisteredOnce s := by
  obtain ⟨s, hreach, hs⟩ := exists_of_boot (G := AuthorizesOnce) bundleEvents
    (p := fun s => decide (s.registry.getAll "bc1q.rig" = [0, 1])) (by decide +kernel)
  exact ⟨s, hreach, of_decide_eq_true hs, (registered_once hreach).1⟩

/-- A miner that authorizes twice is listed twice; one that authorizes under another name is still
listed under the first one when it is gone. -/
theorem authorized_again :
    (∃ s, ReachesUnder (fun _ _ => True) s ∧ s.registry.getAll "bc1q.rig" = [0, 0] ∧
      ¬RegisteredOnce s) ∧
    ∃ s, ReachesUnder (fun _ _ => True) s ∧ 0 ∈ s.torn ∧ s.registry.getAll "bc1q.rig" = [0] ∧
      ¬RegisteredOnce s := by
  constructor
  · obtain ⟨s, hreach, hs⟩ := exists_of_boot (G := fun _ _ => True)
      (authorizeEvents ++ [.authorize 0 "bc1q.rig" true, .insert 0])
      (p := fun s => decide (0 ∈ s.authorized ∧ 0 ∉ s.torn ∧
        s.registry.getAll "bc1q.rig" = [0, 0])) (by decide +kernel)
    obtain ⟨hin, htorn, hall⟩ := of_decide_eq_true hs
    refine ⟨s, hreach, hall, fun h => ?_⟩
    have honce := h.once 0 hin htorn "bc1q.rig"
    rw [Registry.occurrences, hall] at honce
    split at honce <;> cases honce
  · obtain ⟨s, hreach, hs⟩ := exists_of_boot (G := fun _ _ => True)
      (authorizeEvents ++ [.authorize 0 "bc1q.other" true, .insert 0, .hangUp 0, .deregister 0])
      (p := fun s => decide (0 ∈ s.torn ∧ s.registry.getAll "bc1q.rig" = [0])) (by decide +kernel)
    obtain ⟨htorn, hall⟩ := of_decide_eq_true hs
    refine ⟨s, hreach, htorn, hall, fun h => ?_⟩
    have hnone := h.torn 0 htorn "bc1q.rig"
    rw [Registry.occurrences, hall] at hnone
    cases hnone

end State

end Registration

end RentalProxy
