import RentalProxy.RegisteredOnce

/-!
# One rig per worker

The gate of a worker is held from the look into `sv2_rigs` until the connection has joined the rig
there, or has published one of its own; and by a reaper, from its look at the rig until the rig is
out of both tables.  A detach does not take the gate.

* `NativeSv2` says that a run has native upstreams only: a translated rig is not published.
* `OpensFit` is the condition on a connect: when the open fits none of the pools that are there, a
  session is left behind (`connect_leaves_session`).
* `Solo` is the invariant: a registered session is on its way into `sv2_rigs`, is the rig there, or
  is on its way out, with the gate held on both ways.
* `one_rig_per_worker` is the result.
-/

namespace RentalProxy

open Sv1 (upstreamWorker)
open Sv2 (placeholder attachMember detachMember firstMember)

/-! ## Native upstreams -/

namespace Sv2

variable {reach : Reach} {spec : OpenSpec} {target : UpstreamTarget} {routing : Routing}
  {i j : Inner} {member : Nat}

theorem forwardOpen_translating (member : Nat) (spec : OpenSpec) (i : Inner) :
    (forwardOpen member spec i).translating = i.translating := by
  unfold forwardOpen
  dsimp only
  split <;> rfl

theorem attachMember_translating (h : attachMember spec i = some (j, member)) :
    j.translating = i.translating := by
  unfold attachMember at h
  split at h
  · cases h
  · cases h
    exact forwardOpen_translating ..

theorem attachMember_eq_none (h : attachMember spec i = none) : i.translating = true := by
  unfold attachMember at h
  split at h
  · assumption
  · cases h

/-- Every pool answers as a native one. -/
def Reach.Native (reach : Reach) : Prop := ∀ target conn, reach target ≠ some (.sv1 conn)

/-- The open of a connection can be built for this pool. -/
def OpenSpec.fits (spec : OpenSpec) (worker : String) (target : UpstreamTarget) : Bool :=
  (openChannelUpstream spec (upstreamWorker target.user worker) 1).isSome

/-- Whether an open can be built is not for its request id to say. -/
theorem openChannelUpstream_isSome (spec : OpenSpec) (worker : String) (target : UpstreamTarget)
    (requestId : Nat) : (openChannelUpstream spec (upstreamWorker target.user worker)
      requestId).isSome = spec.fits worker target := by
  unfold OpenSpec.fits openChannelUpstream
  cases str0255 (upstreamWorker target.user worker) with
  | none => rfl
  | some user =>
    cases spec with
    | extended id rate max minSize => cases hmax : u256 max <;> simp [hmax]
    | standard id rate max => cases hmax : u256 max <;> simp [hmax]

/-- What a first connect to native pools does: it opens exactly on a pool that is there and takes
the open, and it leaves an open pending on a pool that is there and does not. -/
structure Reach.ConnectsTo (reach : Reach) (spec : OpenSpec) (i : Inner)
    (pools : List UpstreamTarget) (after : Inner × Bool) : Prop where
  native : after.1.translating = false
  ok : after.2 = true ↔ ∃ t ∈ pools, (reach t).isSome = true ∧ spec.fits i.label t = true
  half : after.2 = false → (after.1.halfOpen = true ↔ ∃ t ∈ pools, (reach t).isSome = true)

theorem Reach.connectAndInstallInitial_native (h : reach.Native) (hi : i.translating = false)
    (spec : OpenSpec) (target : UpstreamTarget) (routing : Routing) :
    (reach.connectAndInstallInitial spec target routing i).1.translating = false ∧
      ((reach.connectAndInstallInitial spec target routing i).2 = true ↔
        (reach target).isSome = true ∧ spec.fits i.label target = true) ∧
      ((reach.connectAndInstallInitial spec target routing i).2 = false →
        ((reach.connectAndInstallInitial spec target routing i).1.halfOpen = true ↔
          i.halfOpen = true ∨ (reach target).isSome = true)) := by
  unfold connectAndInstallInitial
  cases hanswer : reach target with
  | none => exact ⟨hi, by simp, by simp⟩
  | some answer =>
    cases answer with
    | sv1 conn => exact absurd hanswer (h target conn)
    | native info =>
      unfold Inner.installSv2Initial
      rw [← openChannelUpstream_isSome spec i.label target i.nextUpReq]
      cases openChannelUpstream spec (upstreamWorker target.user i.label) i.nextUpReq with
      | some frame => exact ⟨rfl, by simp, by simp⟩
      | none =>
        refine ⟨rfl, by simp, fun _ => ?_⟩
        simp [Inner.halfOpen, AList.insert]

/-- The connection of a fresh session tries the first pool and then the fallback. -/
theorem Reach.connectFresh_native (h : reach.Native) (hi : i.translating = false)
    (hfresh : i.halfOpen = false) (spec : OpenSpec) (order : Option Order)
    (target : UpstreamTarget) (routing : Routing) :
    reach.ConnectsTo spec i (target :: (order.bind Order.fallback).toList)
      (reach.connectFresh spec order target routing i) := by
  obtain ⟨hnative, hok, hhalf⟩ := connectAndInstallInitial_native h hi spec target routing
  have hlabel := (@connectAndInstallInitial_keeps reach spec target routing i).label
  unfold connectFresh
  rcases hfirst : reach.connectAndInstallInitial spec target routing i with ⟨left, ok⟩
  rw [hfirst] at hnative hok hhalf hlabel
  cases ok with
  | true => exact ⟨hnative, iff_of_true rfl ⟨target, List.mem_cons_self, hok.mp rfl⟩, nofun⟩
  | false =>
    have hnot : ¬((reach target).isSome = true ∧ spec.fits i.label target = true) :=
      fun hfits => absurd (hok.mpr hfits) (by simp)
    have hleft : left.halfOpen = true ↔ (reach target).isSome = true := by
      rw [hhalf rfl, hfresh]
      simp
    cases order.bind Order.fallback with
    | none =>
      refine ⟨hnative, ?_, fun _ => ?_⟩
      · simpa using hnot
      · simpa using hleft
    | some fb =>
      obtain ⟨hnative', hok', hhalf'⟩ :=
        connectAndInstallInitial_native h hnative spec fb routing
      have hsame : left.label = i.label := hlabel
      rw [hsame] at hok'
      refine ⟨hnative', ?_, fun hfailed => ?_⟩
      · dsimp only
        rw [hok']
        simp [hnot]
      · dsimp only at hfailed ⊢
        rw [hhalf' hfailed, hleft]
        simp

end Sv2

namespace Registration

/-- The handler builds a session of its own, under the gate of its worker. -/
def Handler.builds? : Handler → Option String
  | .connecting worker _ | .installed worker | .registered worker => some worker
  | _ => none

theorem Handler.gate_of_builds {hd : Handler} {worker : String} (h : hd.builds? = some worker) :
    hd.gate? = some worker := by
  cases hd <;> first | exact h | cases h

/-- The handler has built a session, and not published it yet. -/
def Handler.owns : Handler → Bool
  | .installed _ | .registered _ => true
  | _ => false

namespace State

variable {s s' : State} {c d r : Nat} {worker : String} {e : Event}

/-- Every upstream is native SV2.  There may be SV1 miners too, each authorized once. -/
def NativeSv2 (s : State) (e : Event) : Prop :=
  AuthorizesOnce s e ∧ (∀ c reach, e = .connect c reach → reach.Native) ∧
    ∀ c i, e = .traffic c (.sv2 i) → i.translating = false

/-- The pools that a connection may open on: those of its order, or the idle pool. -/
def openPools (o : Opening) : List UpstreamTarget :=
  match o.order with
  | some order => order.pools
  | none => o.pool.toList

/-- A fresh session that connects reaches none of its pools, or one that takes its open. -/
def OpensFit (s : State) : Event → Prop
  | .connect c reach =>
    match s.handler c with
    | .connecting worker o => (∀ t ∈ openPools o, (reach t).isSome = false) ∨
        ∃ t ∈ openPools o, (reach t).isSome = true ∧ o.spec.fits worker t = true
    | _ => True
  | _ => True

instance (s : State) : DecidablePred (OpensFit s) := fun e => by
  cases e with
  | connect c reach =>
    dsimp only [OpensFit]
    split <;> infer_instance
  | _ => exact isTrue trivial

/-- What the connect of a fresh session to native pools does. -/
theorem freshSession_native {reach : Sv2.Reach} {o : Opening} {after : Sv2.Inner × Bool}
    (hreach : reach.Native) (h : freshSession reach worker o = some after) :
    ∃ i : Sv2.Inner, i.label = worker ∧ reach.ConnectsTo o.spec i (openPools o) after := by
  obtain ⟨⟨target, routing⟩, hinitial, hfresh⟩ := Option.map_eq_some_iff.mp h
  refine ⟨placeholder target routing o.pool worker, rfl, ?_⟩
  have hpools : openPools o = target :: (o.order.bind Order.fallback).toList := by
    unfold openPools
    unfold Sv2.initialTarget at hinitial
    cases horder : o.order with
    | some order =>
      rw [horder] at hinitial
      cases hinitial
      rfl
    | none =>
      rw [horder] at hinitial
      cases hpool : o.pool with
      | none =>
        rw [hpool] at hinitial
        cases hinitial
      | some idle =>
        rw [hpool] at hinitial
        cases hinitial
        rfl
  rw [hpools, ← show _ = after from hfresh]
  exact Sv2.Reach.connectFresh_native hreach rfl rfl o.spec o.order target routing

/-- No session is left behind by a connect that meets the condition. -/
theorem not_abandoned {reach : Sv2.Reach} {o : Opening} {j : Sv2.Inner} (hreach : reach.Native)
    (hhandler : s.handler c = .connecting worker o) (hfit : s.OpensFit (.connect c reach))
    (hfresh : freshSession reach worker o = some (j, false)) : j.halfOpen = false := by
  obtain ⟨i, rfl, hconnects⟩ := freshSession_native hreach hfresh
  simp only [OpensFit, hhandler] at hfit
  rcases hfit with hnone | hfits
  · rw [Bool.eq_false_iff]
    intro hhalf
    obtain ⟨t, ht, hsome⟩ := (hconnects.half rfl).mp hhalf
    rw [hnone t ht] at hsome
    cases hsome
  · exact absurd (hconnects.ok.mpr hfits) (by simp)

/-- Every session is on a native upstream. -/
def Native (s : State) : Prop := ∀ r i, s.session r = some (.sv2 i) → i.translating = false

theorem Native.put (h : Native s) {x : AnySession}
    (hx : ∀ i, x = .sv2 i → i.translating = false) : Native (s.put c x) := by
  intro r i hr
  rw [put_session, Function.update_apply] at hr
  split at hr
  · cases hr
    exact hx i rfl
  · exact h r i hr

theorem Native.step (h : Native s) (hguard : NativeSv2 s e) (ht : Transition s e s') :
    Native s' := by
  cases ht with
  | handshake i | authorize => exact h.put fun _ hx => by cases hx
  | @bundle c r m worker o i j hhandler hsession hattach =>
    refine h.put fun k hk => ?_
    cases hk
    exact (Sv2.attachMember_translating hattach).trans (h r i hsession)
  | @connect c worker o reach j hhandler hfresh =>
    obtain ⟨_, _, hconnects⟩ := freshSession_native (hguard.2.1 c reach rfl) hfresh
    refine h.put fun k hk => ?_
    cases hk
    exact hconnects.native
  | @abandon c worker o reach j hhandler hfresh =>
    obtain ⟨_, _, hconnects⟩ := freshSession_native (hguard.2.1 c reach rfl) hfresh
    refine h.put fun k hk => ?_
    cases hk
    exact hconnects.native
  | @leave c r m i hhandler hsession =>
    refine h.put fun k hk => ?_
    cases hk
    exact h r i hsession
  | @traffic c x y hsession hkeeps =>
    refine h.put fun k hk => ?_
    cases hk
    exact hguard.2.2 c k rfl
  | @publish c worker s₁ hhandler hrig => rcases hrig with rfl | rfl <;> exact h
  | _ => exact h

/-! ## The rig of a worker -/

/-- No reaper is there that has not been scheduled. -/
def Fresh (s : State) : Prop := ∀ k, s.spawned ≤ k → s.reaper k = none

theorem Fresh.lt_spawned (h : Fresh s) {k : Nat} {p : Reaper} (hreaper : s.reaper k = some p) :
    k < s.spawned := by
  by_contra hge
  have hnone := h k (by omega)
  rw [hreaper] at hnone
  cases hnone

theorem Fresh.setReaper (h : Fresh s) {k : Nat} (hlt : k < s'.spawned) (reaper : Option Reaper)
    (hspawned : s.spawned ≤ s'.spawned) (hreaper : s'.reaper = Function.update s.reaper k reaper) :
    Fresh s' := by
  intro j hj
  rw [hreaper, Function.update_of_ne (by omega)]
  exact h j (hspawned.trans hj)

theorem Fresh.step (h : Fresh s) (ht : Transition s e s') : Fresh s' := by
  cases ht with
  | rest => exact h.setReaper (Nat.lt_succ_self _) _ (Nat.le_succ _) rfl
  | wake hreaper | giveUp hreaper | inspect hreaper | unlist hreaper | reap hreaper =>
    exact h.setReaper (h.lt_spawned hreaper) _ (le_refl _) rfl
  | publish hhandler hrig => rcases hrig with rfl | rfl <;> exact h
  | _ => exact h

/-- A registered session is on its way into `sv2_rigs`, is the rig there, or is on its way out. -/
structure Solo (s : State) : Prop where
  building : ∀ c worker, (s.handler c).builds? = some worker → s.rigs worker = none
  unlisted : ∀ k p, s.reaper k = some p → p.stage = .unlisted → p.rig ∉ s.torn →
    s.rigs p.worker = none
  known : ∀ r worker, s.Rig r worker → r ∉ s.torn → s.handler r = .registered worker ∨
    s.rigs worker = some r ∨
      ∃ k p, s.reaper k = some p ∧ p.stage = .unlisted ∧ p.rig = r ∧ p.worker = worker
  built : ∀ r worker, s.view r = some (true, worker) →
    r ∈ s.authorized ∨ s.handler r = .installed worker

/-- A handler that has built no session moves on, and builds one only for a worker without a
rig. -/
def MovedOn (s s' : State) (d : Nat) : Prop :=
  (s.handler d).owns = false ∧
    ∀ worker, (s'.handler d).builds? = some worker → s.rigs worker = none

/-- A step of the other handlers. -/
theorem Solo.keep (h : Solo s) (hrigs : s'.rigs = s.rigs)
    (hreaper : s'.reaper = s.reaper) (htorn : ∀ r ∈ s.torn, r ∈ s'.torn)
    (hlisted : ∀ r ∈ s.authorized, r ∈ s'.authorized)
    (hrig : ∀ r worker, s'.Rig r worker → s.Rig r worker)
    (hview : ∀ r worker, s'.view r = some (true, worker) →
      s.view r = some (true, worker) ∨ s'.handler r = .installed worker)
    (hmoved : ∀ d, s'.handler d = s.handler d ∨ s.MovedOn s' d) : Solo s' where
  building d worker hd := by
    rw [hrigs]
    rcases hmoved d with hsame | ⟨_, hbuilds⟩
    · exact h.building d worker (hsame ▸ hd)
    · exact hbuilds worker hd
  unlisted k p hk hstage hp := by
    rw [hrigs]
    exact h.unlisted k p (hreaper ▸ hk) hstage fun hin => hp (htorn _ hin)
  known r worker hr hnot := by
    rcases h.known r worker (hrig r worker hr) fun hin => hnot (htorn r hin) with
      hregistered | hpublished | hleaving
    · rcases hmoved r with hsame | ⟨howns, _⟩
      · exact Or.inl (hsame.trans hregistered)
      · rw [hregistered] at howns
        cases howns
    · exact Or.inr (Or.inl (hrigs ▸ hpublished))
    · exact Or.inr (Or.inr (hreaper ▸ hleaving))
  built r worker hr := by
    rcases hview r worker hr with hbefore | hnew
    · rcases h.built r worker hbefore with hin | hinstalled
      · exact Or.inl (hlisted r hin)
      · rcases hmoved r with hsame | ⟨howns, _⟩
        · exact Or.inr (hsame.trans hinstalled)
        · rw [hinstalled] at howns
          cases howns
    · exact Or.inr hnew

/-- What the handlers are after one has moved on. -/
theorem moved_of_update {before hd : Handler} (hbefore : s.handler c = before)
    (hhandler : s'.handler = Function.update s.handler c hd) (howns : before.owns = false)
    (hbuilds : ∀ worker, hd.builds? = some worker → s.rigs worker = none) (d : Nat) :
    s'.handler d = s.handler d ∨ s.MovedOn s' d := by
  rw [MovedOn, hhandler, Function.update_apply]
  split
  · rename_i hdc
    rw [hdc, hbefore]
    exact Or.inr ⟨howns, hbuilds⟩
  · exact Or.inl rfl

/-- A handler moves on, and nothing that is at stake changes. -/
theorem Solo.moved (h : Solo s) {before hd : Handler} (hbefore : s.handler c = before)
    (hhandler : s'.handler = Function.update s.handler c hd) (howns : before.owns = false)
    (hbuilds : ∀ worker, hd.builds? = some worker → s.rigs worker = none)
    (hrigs : s'.rigs = s.rigs) (hreaper : s'.reaper = s.reaper) (hview : s'.view = s.view)
    (hauthorized : s'.authorized = s.authorized) (htorn : ∀ r ∈ s.torn, r ∈ s'.torn) : Solo s' :=
  h.keep hrigs hreaper htorn (fun _ hr => hauthorized ▸ hr)
    (fun r _ hr => ⟨(congrFun hview r).symm.trans hr.1, hauthorized ▸ hr.2⟩)
    (fun r _ hr => Or.inl ((congrFun hview r).symm.trans hr))
    (moved_of_update hbefore hhandler howns hbuilds)

/-- The session of an SV1 connection is not at stake. -/
theorem Solo.moved_sv1 (h : Solo s) {before hd : Handler} (hbefore : s.handler c = before)
    (hhandler : s'.handler = Function.update s.handler c hd) (howns : before.owns = false)
    (hbuilds : hd.builds? = none) (hrigs : s'.rigs = s.rigs) (hreaper : s'.reaper = s.reaper)
    (hsv1 : ∀ worker, s'.view c ≠ some (true, worker))
    (hview : ∀ d, d ≠ c → s'.view d = s.view d)
    (hlisted : ∀ r ∈ s.authorized, r ∈ s'.authorized)
    (hauthorized : ∀ r, r ≠ c → r ∈ s'.authorized → r ∈ s.authorized)
    (htorn : ∀ r ∈ s.torn, r ∈ s'.torn) : Solo s' := by
  have hne : ∀ r worker, s'.view r = some (true, worker) → r ≠ c := by
    rintro r worker hr rfl
    exact hsv1 worker hr
  refine h.keep hrigs hreaper htorn hlisted (fun r worker hr => ?_)
    (fun r worker hr => ?_) (moved_of_update hbefore hhandler howns fun worker hw => ?_)
  · have hrc := hne r worker hr.1
    exact ⟨(hview r hrc).symm.trans hr.1, hauthorized r hrc hr.2⟩
  · exact Or.inl ((hview r (hne r worker hr)).symm.trans hr)
  · rw [hbuilds] at hw
    cases hw

/-- A handler that goes on without a rig has found none. -/
theorem rigs_of_look {o : Opening} (hhandler : s.handler c = .gated worker o)
    (hstep : s.step (.look c) = some (s.goto c (.connecting worker o))) :
    s.rigs worker = none := by
  simp only [State.step, openStep, hhandler] at hstep
  split at hstep
  · have hsame := congrFun (congrArg handler (Option.some.inj hstep)) c
    simp only [goto_handler, Function.update_self] at hsame
    cases hsame
  · assumption

/-- A rig that does not take the connection is on a translated upstream. -/
theorem attachMember_of_standalone {o : Opening} (hhandler : s.handler c = .found worker o r)
    (hstep : s.step (.bundle c) = some (s.goto c (.connecting worker o))) :
    ∃ i, s.session r = some (.sv2 i) ∧ attachMember o.spec i = none := by
  simp only [step, openStep, hhandler] at hstep
  split at hstep
  · rename_i i hsession
    split at hstep
    · have hsame := congrFun (congrArg handler (Option.some.inj hstep)) c
      simp only [goto_handler, Function.update_self] at hsame
      cases hsame
    · exact ⟨i, hsession, ‹_›⟩
  · cases hstep

/-- A rig on a native upstream takes everybody. -/
theorem Native.bundled (h : Native s) {o : Opening} (hhandler : s.handler c = .found worker o r)
    (hstep : s.step (.bundle c) = some (s.goto c (.connecting worker o))) : False := by
  obtain ⟨i, hsession, hattach⟩ := attachMember_of_standalone hhandler hstep
  cases (Sv2.attachMember_eq_none hattach).symm.trans (h r i hsession)

/-- A session on a native upstream is published. -/
theorem Native.published (h : Native s) {s₁ : State} (hhandler : s.handler c = .registered worker)
    (hrig : s₁ = s ∨ s₁ = s.insertIfAbsent worker c)
    (hstep : s.step (.publish c) =
      some ((s₁.setGate worker none).goto c (.serving c firstMember))) :
    s₁ = s.insertIfAbsent worker c := by
  rcases hrig with rfl | rfl
  · simp only [State.step, openStep, hhandler] at hstep
    split at hstep
    · rename_i i hsession
      have hnative := h c i hsession
      simp only [hnative, Bool.false_eq_true, if_false] at hstep
      have hsame := congrArg rigs (Option.some.inj hstep)
      change (s₁.insertIfAbsent worker c).rigs = s₁.rigs at hsame
      unfold State.insertIfAbsent at hsame ⊢
      dsimp only at hsame ⊢
      rw [hsame]
    · cases hstep
  · rfl

/-! ## The steps that build, publish and take down -/

theorem Solo.register (h : Solo s) (hhandler : s.handler c = .installed worker)
    (hview : s.view c = some (true, worker)) :
    Solo ((s.enlist c worker).goto c (.registered worker)) where
  building d w hd := by
    refine h.building d w ?_
    rcases @goto_cases (s.enlist c worker) c d (.registered worker) _ rfl with
      ⟨rfl, hnew⟩ | ⟨_, hold⟩
    · rw [hhandler]
      rw [← hnew] at hd
      exact hd
    · exact hold ▸ hd
  unlisted := h.unlisted
  known r w hr hnot := by
    by_cases hrc : r = c
    · subst hrc
      have hw : w = worker := by
        have hsame := hr.1.symm.trans hview
        cases hsame
        rfl
      left
      rw [hw, goto_handler, Function.update_self]
    · rcases h.known r w ⟨hr.1, (List.mem_cons.mp hr.2).resolve_left hrc⟩ hnot with
        hregistered | hrest
      · exact Or.inl ((Function.update_of_ne hrc _ _).trans hregistered)
      · exact Or.inr hrest
  built r w hr := by
    by_cases hrc : r = c
    · exact Or.inl (hrc ▸ List.mem_cons_self)
    · refine (h.built r w hr).imp (List.mem_cons_of_mem c) fun hinstalled => ?_
      exact (Function.update_of_ne hrc _ _).trans hinstalled

theorem Solo.publish (h : Solo s) (hsound : Sound s) (hgated : Gated s)
    (hhandler : s.handler c = .registered worker) :
    Solo (((s.insertIfAbsent worker c).setGate worker none).goto c (.serving c firstMember)) := by
  have hgate : s.gate worker = some (.handler c) := hgated.handlers c worker (hhandler ▸ rfl)
  have hnone : s.rigs worker = none := h.building c worker (hhandler ▸ rfl)
  have hrigs : ∀ w, (s.insertIfAbsent worker c).rigs w =
      if w = worker then some c else s.rigs w := by
    intro w
    unfold State.insertIfAbsent
    simp only [hnone, if_true]
    exact Function.update_apply ..
  have hkept : ∀ w, s.rigs w = none → w ≠ worker →
      (s.insertIfAbsent worker c).rigs w = none := by
    intro w hw hne
    rw [hrigs, if_neg hne, hw]
  refine ⟨fun d w hd => ?_, fun k p hk hstage hp => ?_, fun r w hr hnot => ?_,
    fun r w hr => ?_⟩
  · rcases @goto_cases s c d (.serving c firstMember) _ rfl with ⟨rfl, hnew⟩ | ⟨hne, hold⟩
    · rw [goto_handler, Function.update_self] at hd
      cases hd
    · have hbuilds : (s.handler d).builds? = some w := hold ▸ hd
      refine hkept w (h.building d w hbuilds) fun hw => ?_
      have hother := hgated.handlers d w (Handler.gate_of_builds hbuilds)
      rw [hw, hgate] at hother
      cases hother
      exact hne rfl
  · refine hkept p.worker (h.unlisted k p hk hstage hp) fun hw => ?_
    have hother := hgated.reapers k p hk (by rw [hstage]; nofun)
    rw [hw, hgate] at hother
    cases hother
  · by_cases hrc : r = c
    · subst hrc
      have hw : w = worker := by
        have hsame := hr.1.symm.trans (hsound.stands_of hhandler).1
        cases hsame
        rfl
      exact Or.inr (Or.inl ((hrigs w).trans (if_pos hw)))
    · rcases h.known r w hr hnot with hregistered | hpublished | hleaving
      · exact Or.inl ((Function.update_of_ne hrc _ _).trans hregistered)
      · refine Or.inr (Or.inl ?_)
        refine (hrigs w).trans ((if_neg fun hw => ?_).trans hpublished)
        rw [hw, hnone] at hpublished
        cases hpublished
      · exact Or.inr (Or.inr hleaving)
  · by_cases hrc : r = c
    · subst hrc
      exact Or.inl (hsound.stands_of hhandler).2
    · exact (h.built r w hr).imp id fun hinstalled =>
        (Function.update_of_ne hrc _ _).trans hinstalled

/-- A reaper that takes nothing down comes, goes on or goes. -/
theorem Solo.reaper (h : Solo s) {k : Nat} {reaper : Option Reaper}
    (hreaper : s'.reaper = Function.update s.reaper k reaper)
    (hbefore : ∀ p, s.reaper k = some p → p.stage ≠ .unlisted)
    (hafter : ∀ p, reaper = some p → p.stage ≠ .unlisted) (hhandler : s'.handler = s.handler)
    (hrigs : s'.rigs = s.rigs) (hview : s'.view = s.view)
    (hauthorized : s'.authorized = s.authorized) (htorn : s'.torn = s.torn) : Solo s' where
  building d w hd := by
    rw [hrigs]
    exact h.building d w (hhandler ▸ hd)
  unlisted j p hj hstage hp := by
    rw [hreaper, Function.update_apply] at hj
    rw [hrigs]
    split at hj
    · exact absurd hstage (hafter p hj)
    · exact h.unlisted j p hj hstage (htorn ▸ hp)
  known r w hr hnot := by
    rcases h.known r w ⟨(congrFun hview r).symm.trans hr.1, hauthorized ▸ hr.2⟩ (htorn ▸ hnot) with
      hregistered | hpublished | ⟨j, p, hj, hstage, hp⟩
    · exact Or.inl (hhandler ▸ hregistered)
    · exact Or.inr (Or.inl (hrigs ▸ hpublished))
    · refine Or.inr (Or.inr ⟨j, p, ?_, hstage, hp⟩)
      rw [hreaper, Function.update_apply, if_neg]
      · exact hj
      · rintro rfl
        exact hbefore p hj hstage
  built r w hr := by
    rw [hauthorized, hhandler]
    exact h.built r w ((congrFun hview r).symm.trans hr)

theorem Solo.unlist (h : Solo s) (hsound : Sound s) (hgated : Gated s) {k : Nat} {p : Reaper}
    (hreaper : s.reaper k = some p) (hstage : p.stage = .expired) :
    Solo ((s.removeRig p.worker p.rig).setReaper k (some { p with stage := .unlisted })) := by
  have hgate := hgated.reapers k p hreaper (by rw [hstage]; nofun)
  have hnone : ∀ w, s.rigs w = none → (s.removeRig p.worker p.rig).rigs w = none := by
    intro w hw
    by_contra hsome
    obtain ⟨q, hq⟩ := Option.ne_none_iff_exists'.mp hsome
    cases hw.symm.trans (removeRig_rigs hq).2
  refine ⟨fun d w hd => hnone w (h.building d w hd), fun j q hj hq hnot => ?_,
    fun r w hr hnot => ?_, h.built⟩
  · rw [setReaper_reaper, Function.update_apply] at hj
    split at hj
    · cases hj
      -- its own rig: nobody else holds the gate
      rcases h.known p.rig p.worker (hsound.reapers k p hreaper) hnot with
        hregistered | hpublished | ⟨j', q, hj', hq', _, hworker⟩
      · have hother := hgated.handlers p.rig p.worker (hregistered ▸ rfl)
        rw [hgate] at hother
        cases hother
      · by_contra hsome
        obtain ⟨q, hq⟩ := Option.ne_none_iff_exists'.mp hsome
        obtain ⟨hne, hsame⟩ := removeRig_rigs hq
        rw [hpublished] at hsame
        cases hsame
        simp at hne
      · have hother := hgated.reapers j' q hj' (by rw [hq']; nofun)
        rw [hworker, hgate] at hother
        cases hother
        rw [hreaper] at hj'
        cases hj'
        rw [hstage] at hq'
        cases hq'
    · exact hnone q.worker (h.unlisted j q hj hq hnot)
  · rcases h.known r w hr hnot with hregistered | hpublished | ⟨j, q, hj, hq, hrest⟩
    · exact Or.inl hregistered
    · by_cases hown : w = p.worker ∧ r = p.rig
      · refine Or.inr (Or.inr ⟨k, { p with stage := .unlisted }, ?_, rfl, hown.2.symm,
          hown.1.symm⟩)
        rw [setReaper_reaper, Function.update_self]
      · exact Or.inr (Or.inl (removeRig_rigs_of_ne (by tauto) hpublished))
    · refine Or.inr (Or.inr ⟨j, q, ?_, hq, hrest⟩)
      rw [setReaper_reaper, Function.update_of_ne]
      · exact hj
      · rintro rfl
        rw [hreaper] at hj
        cases hj
        rw [hstage] at hq
        cases hq

theorem Solo.reap (h : Solo s) {k : Nat} {p : Reaper} (hreaper : s.reaper k = some p) :
    Solo (((s.delist p.rig p.worker).setGate p.worker none).setReaper k none) := by
  refine ⟨h.building, fun j q hj hq hnot => ?_, fun r w hr hnot => ?_, h.built⟩
  · rw [setReaper_reaper, Function.update_apply] at hj
    split at hj
    · cases hj
    · exact h.unlisted j q hj hq fun hin => hnot (List.mem_cons_of_mem _ hin)
  · have hne : r ≠ p.rig := fun heq => hnot (heq ▸ List.mem_cons_self)
    rcases h.known r w hr fun hin => hnot (List.mem_cons_of_mem _ hin) with
      hregistered | hpublished | ⟨j, q, hj, hq, hrig, hworker⟩
    · exact Or.inl hregistered
    · exact Or.inr (Or.inl hpublished)
    · refine Or.inr (Or.inr ⟨j, q, ?_, hq, hrig, hworker⟩)
      rw [setReaper_reaper, Function.update_of_ne]
      · exact hj
      · rintro rfl
        change s.reaper j = some q at hj
        rw [hreaper] at hj
        cases hj
        exact hne hrig.symm

theorem Solo.step (h : Solo s) (hnative : Native s) (hsound : Sound s) (hgated : Gated s)
    (hfresh : Fresh s) (hguard : NativeSv2 s e) (hfit : OpensFit s e)
    (hstep : s.step e = some s') : Solo s' := by
  have ht := Transition.of_step hstep
  have none_of : ∀ {hd : Handler}, hd.builds? = none →
      ∀ w, hd.builds? = some w → s.rigs w = none := by
    intro hd hnone w hw
    rw [hnone] at hw
    cases hw
  cases ht with
  | handshake i =>
    obtain ⟨hclosed, _, hnot, _⟩ := hsound.fresh s.accepted (le_refl _)
    refine h.moved_sv1 (c := s.accepted) hclosed rfl rfl rfl rfl rfl (fun w hw => ?_)
      (fun d hd => ?_) (fun _ hr => hr) (fun _ _ hr => hr) fun _ hr => hr
    · rw [view_put, if_pos rfl] at hw
      cases hw
    · rw [view_put, if_neg hd]
      rfl
  | @authorize c worker i hhandler hsession =>
    refine h.moved_sv1 hhandler rfl rfl rfl rfl rfl (fun w hw => ?_) (fun d hd => ?_)
      (fun _ hr => hr) (fun _ _ hr => hr) fun _ hr => hr
    · change (s.put c _).view c = some (true, w) at hw
      rw [view_put, if_pos rfl] at hw
      cases hw
    · change (s.put c _).view d = s.view d
      rw [view_put, if_neg hd]
  | @insert c worker hhandler =>
    have hview := (hsound.stands_of hhandler).1
    refine h.moved_sv1 hhandler rfl rfl rfl rfl rfl (fun w hw => ?_) (fun _ _ => rfl)
      (fun _ hr => List.mem_cons_of_mem _ hr)
      (fun _ hrc hr => (List.mem_cons.mp hr).resolve_left hrc) fun _ hr => hr
    cases hview.symm.trans hw
  | refuse hhandler | hangUp hhandler | enter hhandler | look hhandler | checkTarget hhandler
  | checkOther hhandler | connectFailed hhandler =>
    exact h.moved hhandler rfl rfl (none_of rfl) rfl rfl rfl rfl fun _ hr => hr
  | deregister hhandler | remove hhandler =>
    exact h.moved hhandler rfl rfl (none_of rfl) rfl rfl rfl rfl fun _ hr =>
      List.mem_cons_of_mem _ hr
  | openChannel =>
    obtain ⟨hclosed, _⟩ := hsound.fresh s.accepted (le_refl _)
    exact h.moved (c := s.accepted) hclosed rfl rfl (none_of rfl) rfl rfl rfl rfl fun _ hr => hr
  | @lookNone c worker o hhandler =>
    refine h.moved hhandler rfl rfl (fun w hw => ?_) rfl rfl rfl rfl fun _ hr => hr
    cases hw
    exact rigs_of_look hhandler hstep
  | standalone hhandler => exact (hnative.bundled hhandler hstep).elim
  | @bundle c r m worker o i j hhandler hsession hattach =>
    exact h.moved hhandler rfl rfl (none_of rfl) rfl rfl
      (view_put_same hsession rfl (Sv2.attachMember_eq hattach).1) rfl fun _ hr => hr
  | @connect c worker o reach j hhandler hfresh =>
    obtain ⟨hview, hnot, _⟩ := hsound.stands_of hhandler
    have hbuilds (w : String) (hw : (Handler.installed worker).builds? = some w) :
        s.rigs w = none := h.building c w (hhandler ▸ hw)
    have hmoved (d : Nat) : ((s.put c (.sv2 j)).goto c (.installed worker)).handler d =
        s.handler d ∨ s.MovedOn ((s.put c (.sv2 j)).goto c (.installed worker)) d :=
      moved_of_update hhandler rfl rfl hbuilds d
    refine h.keep rfl rfl (fun _ hr => hr) (fun _ hr => hr) (fun r w hr => ?_)
      (fun r w hr => ?_) hmoved
    · have hrc : r ≠ c := fun heq => hnot (heq ▸ hr.2)
      exact ⟨((view_put s c r _).trans (if_neg hrc)).symm.trans hr.1, hr.2⟩
    · by_cases hrc : r = c
      · subst hrc
        right
        have hw : (s.put r (.sv2 j)).view r = some (true, w) := hr
        rw [view_put, if_pos rfl, (freshSession_keeps hfresh).1] at hw
        cases hw
        rw [goto_handler, Function.update_self]
      · exact Or.inl (((view_put s c r _).trans (if_neg hrc)).symm.trans hr)
  | @abandon c worker o reach j hhandler hfresh hhalf =>
    rw [not_abandoned (hguard.2.1 c reach rfl) hhandler hfit hfresh] at hhalf
    cases hhalf
  | register hhandler => exact h.register hhandler (hsound.stands_of hhandler).1
  | @publish c worker s₁ hhandler hrig =>
    rw [hnative.published hhandler hrig hstep]
    exact h.publish hsound hgated hhandler
  | @leave c r m i hhandler hsession =>
    refine h.moved hhandler rfl rfl (none_of ?_) rfl rfl (view_put_same hsession rfl rfl) rfl
      fun _ hr => hr
    split <;> rfl
  | @rest c r worker hhandler =>
    have hspawned : Solo ({ s with
        idleToken := Function.update s.idleToken r (s.idleToken r + 1)
        spawned := s.spawned + 1 }.setReaper s.spawned
          (some ⟨r, worker, s.idleToken r + 1, .asleep⟩)) :=
      h.reaper rfl (fun p hp => by rw [hfresh _ (le_refl _)] at hp; cases hp)
        (fun p hp => by cases hp; nofun) rfl rfl rfl rfl rfl
    exact hspawned.moved hhandler rfl rfl (none_of rfl) rfl rfl rfl rfl fun _ hr => hr
  | wake hreaper hstage | inspect hreaper hstage =>
    exact h.reaper rfl (fun p hp => by rw [hreaper] at hp; cases hp; rw [hstage]; nofun)
      (fun p hp => by cases hp; nofun) rfl rfl rfl rfl rfl
  | giveUp hreaper hstage =>
    exact h.reaper rfl (fun p hp => by rw [hreaper] at hp; cases hp; rw [hstage]; nofun)
      (fun p hp => by cases hp) rfl rfl rfl rfl rfl
  | unlist hreaper hstage => exact h.unlist hsound hgated hreaper hstage
  | reap hreaper => exact h.reap hreaper
  | @traffic c x y hsession hkeeps =>
    have hview := view_put_same hsession hkeeps.isSv2 hkeeps.label
    exact h.keep rfl rfl (fun _ hr => hr) (fun _ hr => hr)
      (fun r _ hr => ⟨(congrFun hview r).symm.trans hr.1, hr.2⟩)
      (fun r _ hr => Or.inl ((congrFun hview r).symm.trans hr)) fun _ => Or.inl rfl

theorem Native.boot : Native boot := fun _ _ h => by cases h

theorem Fresh.boot : Fresh boot := fun _ _ => rfl

theorem Solo.boot : Solo boot where
  building _ _ h := by cases h
  unlisted _ _ h := by cases h
  known _ _ h := by cases h.2
  built _ _ h := by cases h

/-! ## The result -/

/-- The SV2 sessions that are registered under a worker. -/
def sv2Sessions (s : State) (worker : String) : List Nat :=
  (s.registry.getAll worker).filter fun r => (s.session r).any AnySession.isSv2

/-- There is one rig of the worker, in both tables, and its members are on it. -/
structure OneRig (s : State) (worker : String) : Prop where
  registry : (s.sv2Sessions worker).length ≤ 1
  rigs : ∀ r, s.rigs worker = some r → s.sv2Sessions worker = [r]
  members : ∀ r i, s.session r = some (.sv2 i) → i.label = worker → i.members ≠ [] →
    s.sv2Sessions worker = [r] ∨ s.handler r = .installed worker

/-- The session that the holder of a gate builds or takes down. -/
def heldBy (s : State) : Holder → Option Nat
  | .handler c => some c
  | .reaper k => (s.reaper k).map Reaper.rig

/-- A registered session is the rig of its worker, or the one that the holder of the gate builds or
takes down. -/
theorem Solo.published_or_held (h : Solo s) (hgated : Gated s) (hrig : s.Rig r worker)
    (hnot : r ∉ s.torn) : s.rigs worker = some r ∨
      s.rigs worker = none ∧ (s.gate worker).bind s.heldBy = some r := by
  rcases h.known r worker hrig hnot with
    hregistered | hpublished | ⟨k, p, hk, hstage, rfl, rfl⟩
  · refine Or.inr ⟨h.building r worker (hregistered ▸ rfl), ?_⟩
    rw [hgated.handlers r worker (hregistered ▸ rfl)]
    rfl
  · exact Or.inl hpublished
  · refine Or.inr ⟨h.unlisted k p hk hstage hnot, ?_⟩
    rw [hgated.reapers k p hk (by rw [hstage]; nofun), Option.bind_some, heldBy, hk]
    rfl

/-- Two sessions of a worker are not registered at the same time. -/
theorem Solo.unique (h : Solo s) (hgated : Gated s) {q : Nat} (hr : s.Rig r worker)
    (hr' : r ∉ s.torn) (hq : s.Rig q worker) (hq' : q ∉ s.torn) : r = q := by
  rcases h.published_or_held hgated hr hr' with hpublished | ⟨hnone, hheld⟩ <;>
    rcases h.published_or_held hgated hq hq' with hpublished' | ⟨hnone', hheld'⟩
  · exact Option.some.inj (hpublished.symm.trans hpublished')
  · cases hpublished.symm.trans hnone'
  · cases hpublished'.symm.trans hnone
  · exact Option.some.inj (hheld.symm.trans hheld')

/-- The sessions that are registered and not torn down are those of the registry. -/
theorem mem_sv2Sessions (hlisted : Listed s) :
    r ∈ s.sv2Sessions worker ↔ s.Rig r worker ∧ r ∉ s.torn := by
  have hview : s.view r = some (true, worker) ↔
      (s.session r).any AnySession.isSv2 = true ∧ s.label r = some worker := by
    unfold view label
    cases s.session r with
    | none => simp
    | some x => simp
  rw [sv2Sessions, List.mem_filter, ← List.count_pos_iff]
  change 0 < s.registry.occurrences r worker ∧ _ ↔ _
  rw [hlisted.once, Rig, hview]
  split <;> rename_i h
  · exact ⟨fun hr => ⟨⟨⟨hr.2, h.2⟩, h.1.1⟩, h.1.2⟩, fun hr => ⟨Nat.one_pos, hr.1.1.1⟩⟩
  · exact ⟨fun hr => absurd hr.1 (lt_irrefl 0),
      fun hr => absurd ⟨⟨hr.1.2, hr.2⟩, hr.1.1.2⟩ h⟩

theorem sv2Sessions_nodup (hlisted : Listed s) : (s.sv2Sessions worker).Nodup := by
  refine List.Nodup.filter _ (List.nodup_iff_count_le_one.mpr fun c => ?_)
  have hc := hlisted.once c worker
  unfold Registry.occurrences at hc
  split at hc <;> omega

/-- The one session of a worker. -/
theorem Solo.sv2Sessions_eq (h : Solo s) (hgated : Gated s) (hlisted : Listed s)
    (hr : s.Rig r worker) (hnot : r ∉ s.torn) : s.sv2Sessions worker = [r] := by
  refine List.perm_singleton.mp ((List.perm_ext_iff_of_nodup (sv2Sessions_nodup hlisted)
    (List.nodup_singleton r)).mpr fun q => ?_)
  rw [mem_sv2Sessions hlisted, List.mem_singleton]
  constructor
  · rintro ⟨hq, hq'⟩
    exact (h.unique hgated hr hnot hq hq').symm
  · rintro rfl
    exact ⟨hr, hnot⟩

/-- What holds in a state leaves one rig. -/
theorem OneRig.of_inv (hinv : Inv s) (hsolo : Solo s) (worker : String) : OneRig s worker where
  registry := by
    cases hall : s.sv2Sessions worker with
    | nil => exact Nat.zero_le 1
    | cons r rest =>
      obtain ⟨hr, hnot⟩ := (mem_sv2Sessions hinv.listed).mp (hall ▸ List.mem_cons_self)
      rw [← hall, hsolo.sv2Sessions_eq hinv.gated hinv.listed hr hnot]
      exact le_refl 1
  rigs r hr := by
    have hrig := hinv.sound.rigs worker r hr
    exact hsolo.sv2Sessions_eq hinv.gated hinv.listed hrig fun htorn =>
      (hinv.manned.torn r worker hrig htorn).rigs hr
  members r i hsession hlabel hmembers := by
    have hview : s.view r = some (true, worker) := by
      rw [view, hsession, ← hlabel]
      rfl
    rcases hsolo.built r worker hview with hin | hinstalled
    · refine Or.inl (hsolo.sv2Sessions_eq hinv.gated hinv.listed ⟨hview, hin⟩ fun htorn => ?_)
      have hempty := (hinv.manned.torn r worker ⟨hview, hin⟩ htorn).members
      rw [State.members, hsession] at hempty
      exact hmembers hempty
    · exact Or.inr hinstalled

/-- The steps of SV2 handlers on native upstreams whose opens fit. -/
def FitsNativeSv2 (s : State) (e : Event) : Prop := NativeSv2 s e ∧ OpensFit s e

/-- What the runs keep. -/
structure Kept (s : State) : Prop where
  native : Native s
  solo : Solo s
  fresh : Fresh s
  inv : Inv s

theorem Kept.of_reaches (h : ReachesUnder FitsNativeSv2 s) : Kept s :=
  StepSystem.Run.invariant h ⟨.boot, .boot, .boot, ⟨.boot, .boot, .boot, .boot⟩⟩
    fun _ _ _ hx hguard hstep =>
      have ht := Transition.of_step hstep
      have hinv := hx.inv
      ⟨hx.native.step hguard.1 ht,
        hx.solo.step hx.native hinv.sound hinv.gated hx.fresh hguard.1 hguard.2 hstep,
        hx.fresh.step ht, ⟨hinv.sound.step ht, hinv.gated.step ht,
          hinv.manned.step hinv.sound hinv.gated ht, hinv.listed.step hinv.sound hguard.1.1 ht⟩⟩

/-- A session that a connect has left behind is no rig, and has a member. -/
theorem not_oneRig_of_abandoned (h : Kept s) {reach : Sv2.Reach} {o : Opening} {j : Sv2.Inner}
    (hhandler : s.handler c = .connecting worker o)
    (hfresh : freshSession reach worker o = some (j, false)) :
    ¬OneRig (((s.put c (.sv2 j)).setGate worker none).goto c .closed) worker := by
  intro hone
  obtain ⟨hlabel, hmembers, _⟩ := freshSession_keeps hfresh
  have hnot := (h.inv.sound.stands_of hhandler).2.1
  rcases hone.members c j (Function.update_self ..) hlabel
    (by rw [hmembers]; exact List.cons_ne_nil _ _) with hregistered | hinstalled
  · -- the registry is as it was, and the session was not in it
    have hmem : c ∈ s.registry.getAll worker := (List.mem_filter.mp
      (hregistered.symm ▸ List.mem_singleton_self c)).1
    have honce := h.inv.listed.once c worker
    rw [if_neg fun hin => hnot hin.1.1] at honce
    exact List.count_eq_zero.mp honce hmem
  · rw [goto_handler, Function.update_self] at hinstalled
    cases hinstalled

/-- While every upstream is native SV2 and every fresh session that reaches a pool has one that
takes its open, a worker has one rig: at most one SV2 session is in the registry, `sv2_rigs` holds
that one or none, and every member is on it or on a session that its handler has not registered
yet.  The first connect that breaks the condition leaves a member on another session. -/
theorem one_rig_per_worker (h : ReachesUnder FitsNativeSv2 s) :
    (∀ worker, OneRig s worker) ∧ ∀ e s', NativeSv2 s e → s.step e = some s' →
      ((∀ worker, OneRig s' worker) ↔ OpensFit s e) := by
  have holds : ∀ {s}, ReachesUnder FitsNativeSv2 s → ∀ worker, OneRig s worker := fun h =>
    OneRig.of_inv (Kept.of_reaches h).inv (Kept.of_reaches h).solo
  refine ⟨holds h, fun e s' hguard hstep => ⟨fun hone => ?_, fun hfit =>
    holds (.tail h hstep ⟨hguard, hfit⟩)⟩⟩
  cases e with
  | connect c reach =>
    cases hhandler : s.handler c with
    | connecting worker o =>
      simp only [OpensFit, hhandler]
      by_contra hunfit
      obtain ⟨hsome, hnone⟩ := not_or.mp hunfit
      have hreach := hguard.2.1 c reach rfl
      simp only [step, openStep, hhandler] at hstep
      split at hstep
      · rename_i j hfresh
        obtain ⟨i, rfl, hconnects⟩ := freshSession_native hreach hfresh
        exact hnone (hconnects.ok.mp rfl)
      · rename_i j hfresh
        obtain ⟨i, rfl, hconnects⟩ := freshSession_native hreach hfresh
        have hreached : ∃ t ∈ openPools o, (reach t).isSome = true := by
          simpa [Option.ne_none_iff_isSome] using hsome
        have hhalf : j.halfOpen = true := (hconnects.half rfl).mpr hreached
        rw [if_pos hhalf] at hstep
        cases hstep
        exact not_oneRig_of_abandoned (Kept.of_reaches h) hhandler hfresh (hone _)
      · cases hstep
    | _ => simp only [OpensFit, hhandler]
  | _ => trivial

/-- Two SV2 miners share a rig.  Both leave, and the reaper takes it out of `sv2_rigs`. -/
def rigEvents : List Event :=
  [firstOpen, firstOpen, .enter 0, .look 0,
    .connect 0 fun _ => some (.native fun _ => Sv2.reopenedInfo 1), .register 0, .publish 0,
    .enter 1, .look 1, .bundle 1, .leave 0, .leave 1, .check 1, .rest 1, .wake 0, .inspect 0,
    .unlist 0]

theorem rigEvents_native : ∀ e ∈ rigEvents, ∀ s, NativeSv2 s e := by
  simp only [rigEvents, firstOpen, List.forall_mem_cons]
  refine ⟨?_, ?_, ?_, ?_, fun s => ⟨trivial, fun c reach h => ?_, fun _ _ h => (by cases h)⟩, ?_,
    ?_, ?_, ?_, ?_, ?_, ?_, ?_, ?_, ?_, ?_, ?_, List.forall_mem_nil _⟩
  case refine_5 =>
    cases h
    intro target conn h
    cases h
  all_goals exact fun s => ⟨trivial, fun _ _ h => (by cases h), fun _ _ h => (by cases h)⟩

/-- The rig is still registered when the next connection may come. -/
theorem one_rig_unlisted :
    ∃ s, ReachesUnder FitsNativeSv2 s ∧ s.sv2Sessions "bc1q.rig" = [0] ∧
      s.rigs "bc1q.rig" = none ∧ ∀ worker, OneRig s worker := by
  have hrun : (StepSystem.runWhile step (fun s e => decide (OpensFit s e)) boot rigEvents).any
      (fun s => decide (s.sv2Sessions "bc1q.rig" = [0] ∧ s.rigs "bc1q.rig" = none)) = true := by
    decide +kernel
  obtain ⟨s, hs, htest⟩ := (Option.any_eq_true ..).mp hrun
  obtain ⟨hsessions, hrigs⟩ := of_decide_eq_true htest
  have hreach : ReachesUnder FitsNativeSv2 s := .of_runWhile_forall
    (fun e he x hfit => ⟨rigEvents_native e he x, of_decide_eq_true hfit⟩) hs
  exact ⟨s, hreach, hsessions, hrigs, (one_rig_per_worker hreach).1⟩

/-- An account that is too long for an open. -/
def longPool : UpstreamTarget := ⟨"seller:34254", "".pushn 'a' 300, "", none⟩

/-- The first open of a connection, with that account. -/
def longOpenEvents : List Event :=
  [.openChannel "bc1q.rig" ⟨Sv2.extendedOpen 7, none, some longPool⟩, .enter 0, .look 0,
    .connect 0 fun _ => some (.native fun _ => Sv2.reopenedInfo 1)]

theorem longOpenEvents_native : ∀ e ∈ longOpenEvents, ∀ s, NativeSv2 s e := by
  simp only [longOpenEvents, List.forall_mem_cons]
  refine ⟨?_, ?_, ?_, fun s => ⟨trivial, fun c reach h => ?_, fun _ _ h => (by cases h)⟩,
    List.forall_mem_nil _⟩
  case refine_4 =>
    cases h
    intro target conn h
    cases h
  all_goals exact fun s => ⟨trivial, fun _ _ h => (by cases h), fun _ _ h => (by cases h)⟩

/-- The open does not fit.  The handler is gone, and its member is on a session that is nowhere
registered. -/
theorem connect_leaves_session :
    ∃ s, ReachesUnder NativeSv2 s ∧ s.handler 0 = .closed ∧ s.members 0 = [firstMember] ∧
      s.sv2Sessions "bc1q.rig" = [] ∧ ¬OneRig s "bc1q.rig" := by
  have hrun : (StepSystem.run step boot longOpenEvents).any (fun s =>
      (match s.handler 0 with | .closed => true | _ => false) &&
        decide (s.members 0 = [firstMember] ∧ s.sv2Sessions "bc1q.rig" = [] ∧
          s.view 0 = some (true, "bc1q.rig"))) = true := by
    decide +kernel
  obtain ⟨s, hs, htest⟩ := (Option.any_eq_true ..).mp hrun
  obtain ⟨hhandler, htest⟩ := Bool.and_eq_true_iff.mp htest
  obtain ⟨hmembers, hsessions, hview⟩ := of_decide_eq_true htest
  have hclosed : s.handler 0 = .closed := by
    cases h : s.handler 0 with
    | closed => rfl
    | _ => rw [h] at hhandler; cases hhandler
  refine ⟨s, .of_run_forall longOpenEvents_native hs, hclosed, hmembers, hsessions, fun hone => ?_⟩
  obtain ⟨i, hsession, hlabel⟩ : ∃ i, s.session 0 = some (.sv2 i) ∧ i.label = "bc1q.rig" := by
    unfold view at hview
    cases hx : s.session 0 with
    | none => rw [hx] at hview; cases hview
    | some x =>
      rw [hx] at hview
      cases x with
      | sv1 i => cases hview
      | sv2 i => exact ⟨i, rfl, congrArg Prod.snd (Option.some.inj hview)⟩
  rw [State.members, hsession] at hmembers
  have hmembers : i.members = [firstMember] := hmembers
  rcases hone.members 0 i hsession hlabel (hmembers ▸ List.cons_ne_nil _ _) with h | h
  · rw [hsessions] at h
    cases h
  · rw [hclosed] at h
    cases h

end State

end Registration

end RentalProxy
