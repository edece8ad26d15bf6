import RentalProxy.Failover
import RentalProxy.Sv2.Attach
import RentalProxy.Sv2.Repoint

/-!
# The swaps of a rig are one after another

Every swap of a rig is a call of one of its tasks, and runs under the switch lock.  So
target and routing change together, with a higher generation, and what a superseded
reader still brings is ignored.

The supervisor compares the generation of a signal before it calls, and not again when
it gets the lock.  A swap that installs in between makes the signal stale
(`stale_signal_swaps`).

* `swappable` is the rig as its tasks see it.
* `Undisturbed` is the condition, `Watched` the invariant of the supervisor.
-/

namespace RentalProxy.Sv2

open StepSystem
open Supervised (Locked)

/-! ## The tasks of a rig -/

/-- The task as the swaps record it. -/
def SwapCaller.ofTask : SwapTaskId → SwapCaller
  | .supervisor => .supervisor
  | .retry => .retry
  | .attach _ => .attach

/-- The begin of a swap. -/
def Event.beginsSwap : Event → Bool
  | .swapOrder .. | .swapRevert _ => true
  | _ => false

/-- All frames of the swap are sent. -/
def SwapTask.returning : SwapTask → Bool
  | .repointing _ [] [] _ => true
  | _ => false

/-- A rig as its tasks see it.  A connection that attaches finds a rig that others
use. -/
def swappable (decode : Decoder) (lib : Sv1Library) : Swappable Rig Event where
  step := step decode lib
  generation r := r.inner.active.generation
  routing r := r.inner.routing
  worker r := r.inner.label
  defaultTarget r := r.inner.defaultTarget
  store r := r.store
  unlocked r := r.swap.isIdle
  returning r := r.swap.returning
  begin _ t a := some (match a with
    | .order o _ fallback => .swapOrder (.ofTask t) o.id fallback
    | .default _ => .swapRevert (.ofTask t))
  inCall := Event.beginsSwap
  bundles := true

/-- A rig on its first upstream. -/
def Established (lib : Sv1Library) (r : Rig) : Prop :=
  ∃ worker spec store idlePool now failed answer,
    store.OneActive ∧ start lib worker spec store idlePool now failed answer = some r

theorem swappable_takesLock (decode : Decoder) (lib : Sv1Library) :
    Supervised.TakesLock (swappable decode lib) := by
  intro r t a f r' hbegin hstep
  cases hbegin
  cases a with
  | order o readAt fallback =>
    simp only [swappable, step] at hstep
    split at hstep
    · obtain ⟨target, _, rfl⟩ := Option.map_eq_some_iff.mp hstep
      rfl
    · cases hstep
  | default target =>
    simp only [swappable, step] at hstep
    split at hstep <;> cases hstep
    rfl

/-- The rig of a supervised one is a rig that its tasks reach. -/
theorem reaches_of_supervised {decode : Decoder} {lib : Sv1Library}
    {G : Supervised Rig → SwapEvent Event → Prop} {x : Supervised Rig}
    (h : Supervised.ReachesUnder (swappable decode lib) (Established lib) G x) :
    Reaches decode lib x.session := by
  obtain ⟨r₀, ⟨worker, spec, store, idlePool, now, failed, answer, hone, hstart⟩, hrun⟩ :=
    h.session
  exact ⟨worker, spec, store, idlePool, now, failed, answer, r₀, hone, hstart, hrun⟩

/-! ## How a swap ends -/

/-- A swap that ends has returned, or has installed nothing, or had a re-point frame
that could not be built. -/
theorem ends_of_transition {decode : Decoder} {lib : Sv1Library} {r r' : Rig} {e : Event}
    (ht : Transition decode lib r e r') (hlocked : r.swap.isIdle = false)
    (hended : r'.swap.isIdle = true) :
    r.swap.returning = true ∨
      (∃ plan, r.swap.Connecting plan ∧ r'.inner = r.inner) ∨
      (e = .swapSend ∧ ∃ s ∈ r.swap.todo, s.frame = none) := by
  cases ht with
  | swapFailed hswap => exact Or.inr (Or.inl ⟨_, hswap, rfl⟩)
  | repointFailed hswap hframe =>
    refine Or.inr (Or.inr ⟨rfl, _, ?_, hframe⟩)
    rw [hswap]
    exact List.mem_cons_self
  | swapDone hswap =>
    left
    rw [hswap]
    rfl
  | swapOrder hswap | swapRevert hswap =>
    rw [hswap] at hlocked
    cases hlocked
  | minerFrame =>
    rw [(SameTasks.submitted ..).swap] at hended
    cases hlocked.symm.trans hended
  | translateCall =>
    rw [(translateCall_sameTasks ..).swap] at hended
    cases hlocked.symm.trans hended
  | swapReopened | swapTranslated | swapNotSv2 | repoint | notice => cases hended
  | _ => cases hlocked.symm.trans hended

/-- A swap that still connects has installed nothing, and connected before. -/
theorem connecting_of_transition {decode : Decoder} {lib : Sv1Library} {r r' : Rig} {e : Event}
    (ht : Transition decode lib r e r') (hlocked : r.swap.isIdle = false) {plan : SwapPlan}
    (hplan : r'.swap.Connecting plan) : r.swap.Connecting plan ∧
      r'.inner.active.generation = r.inner.active.generation := by
  have hroute := route_of_transition ht
  cases ht with
  | swapOrder hswap | swapRevert hswap =>
    rw [hswap] at hlocked
    cases hlocked
  | swapNotSv2 hswap =>
    rcases hplan with hplan | ⟨_, _, hplan⟩ <;> cases hplan
    exact ⟨Or.inl hswap, rfl⟩
  | minerFrame =>
    rw [(SameTasks.submitted ..).swap] at hplan
    refine ⟨hplan, ?_⟩
    rw [Rig.submitted_inner]
    exact (minerFrame_upstream ..).generation
  | translateCall =>
    rw [(translateCall_sameTasks ..).swap] at hplan
    exact ⟨hplan, (translateCall_sameRig ..).upstream.generation⟩
  | attach => exact ⟨hplan, (forwardOpen_upstream ..).generation⟩
  | openChannel => exact ⟨hplan, (openChannel_upstream ..).generation⟩
  | upstreamFrame => exact ⟨hplan, (onUpstreamFrame_upstream ..).generation⟩
  | swapReopened | swapTranslated | swapFailed | repoint | repointFailed | notice | swapDone =>
    rcases hplan with hplan | ⟨_, _, hplan⟩ <;> cases hplan
  | _ => exact ⟨hplan, rfl⟩

/-- The event installs an upstream, when it is possible. -/
def Event.installs (lib : Sv1Library) : Event → Bool
  | .swapReopened _ => true
  | .swapTranslated lines => (connectSv1Upstream lib lines).isSome
  | _ => false

theorem generation_of_transition {decode : Decoder} {lib : Sv1Library} {r r' : Rig} {e : Event}
    (ht : Transition decode lib r e r') (he : e.installs lib = false) :
    r'.inner.active.generation = r.inner.active.generation := by
  cases ht with
  | minerFrame =>
    rw [Rig.submitted_inner]
    exact (minerFrame_upstream ..).generation
  | translateCall => exact (translateCall_sameRig ..).upstream.generation
  | attach => exact (forwardOpen_upstream ..).generation
  | openChannel => exact (openChannel_upstream ..).generation
  | upstreamFrame => exact (onUpstreamFrame_upstream ..).generation
  | swapReopened => cases he
  | swapTranslated _ hconn =>
    rw [Event.installs, hconn] at he
    cases he
  | _ => rfl

/-! ## The supervisor -/

/-- The supervisor has looked at the session, and has not got the lock. -/
def failoverPending (x : Supervised Rig) : Bool :=
  match x.task .supervisor with
  | .call c => c.pending
  | _ => false

/-- No swap installs between the look of the supervisor and its hold of the lock, and
the re-point frames of a swap of the supervisor can be built. -/
def Undisturbed (lib : Sv1Library) (x : Supervised Rig) : SwapEvent Event → Prop
  | .session .swapSend =>
    x.holder = some .supervisor → ∀ s ∈ x.session.swap.todo, s.frame.isSome = true
  | .session e => e.installs lib = true → failoverPending x = false
  | _ => True

theorem Undisturbed.installs {lib : Sv1Library} {x : Supervised Rig} {f : Event}
    (h : Undisturbed lib x (.session f)) (hinstalls : f.installs lib = true) :
    failoverPending x = false := by
  cases f with
  | swapSend => cases hinstalls
  | _ => exact h hinstalls

/-- The signal that an event of the supervisor is about. -/
def signalOf (x : Supervised Rig) : SwapEvent Event → Option Nat
  | .receive => x.died.head?
  | .check | .read .supervisor | .begin .supervisor => some x.signal
  | _ => none

/-- The signal that the supervisor acts on is about the active upstream. -/
structure Watched (x : Supervised Rig) : Prop where
  pending : failoverPending x = true → x.session.inner.active.generation = x.signal
  connecting : ∀ a plan, x.task .supervisor = .call (.hold a) →
    x.session.swap.Connecting plan → x.session.inner.active.generation = x.signal
  never : ∀ desired, x.task .supervisor ≠ .compare desired

section Supervisor

variable {decode : Decoder} {lib : Sv1Library} {x x' : Supervised Rig} {e : SwapEvent Event}

open Supervised (kind_of_step moves_of_step signal_of_step)

/-- While a call is pending, the upstream stays as it is. -/
theorem generation_of_pending (hguard : Undisturbed lib x e) (hpending : failoverPending x = true)
    (hstep : x.step (swappable decode lib) e = some x') :
    x'.session.inner.active.generation = x.session.inner.active.generation := by
  cases kind_of_step hstep with
  | @session f session he _ hsession hadvance =>
    subst he
    rw [← hadvance, Supervised.advance_session]
    refine generation_of_transition (transition_of_step hsession) ?_
    by_contra hinstalls
    rw [Bool.not_eq_false] at hinstalls
    rw [hguard.installs hinstalls] at hpending
    cases hpending
  | begin _ _ _ hbegin hbegins =>
    refine generation_of_transition (transition_of_step hbegins) ?_
    cases hbegin
    split <;> rfl
  | tick _ _ htick =>
    rw [← htick]
  | receive _ _ hsession =>
    rw [hsession.1]
  | quiet _ hsame =>
    rw [hsame.session]

/-- A swap of the supervisor that fails has installed nothing. -/
theorem Watched.failed (h : Watched x) (hlocked : Locked (swappable decode lib) x)
    (hguard : Undisturbed lib x e) (hstep : x.step (swappable decode lib) e = some x')
    {a : Attempt} {f : Event} (hphase : x.task .supervisor = .call (.hold a))
    (he : e = .session f) (hholder : x.holder = some .supervisor)
    (hended : x'.session.swap.isIdle = true) (hfailed : x.session.swap.returning = false) :
    x'.session.inner.active.generation = x'.signal := by
  subst he
  rw [signal_of_step hstep (by rw [hphase]; rintro ⟨⟩)]
  obtain ⟨_, hunlocked⟩ := hlocked _ _ hphase
  cases kind_of_step hstep with
  | session he _ hsession hadvance =>
    cases he
    rw [← hadvance, Supervised.advance_session] at hended ⊢
    rcases ends_of_transition (transition_of_step hsession) hunlocked hended with
      hreturning | ⟨plan, hplan, hsame⟩ | ⟨he, st, hst, hframe⟩
    · cases hfailed.symm.trans hreturning
    · rw [hsame]
      exact h.connecting a plan hphase hplan
    · subst he
      have hbuilt := hguard hholder st hst
      rw [hframe] at hbuilt
      cases hbuilt
  | begin he => cases he
  | tick he => cases he
  | receive he => cases he
  | quiet _ hsame =>
    rw [hsame.session] at hended
    cases hunlocked.symm.trans hended

/-- Where the supervisor stands after a step. -/
theorem Watched.step (h : Watched x) (hlocked : Locked (swappable decode lib) x)
    (hguard : Undisturbed lib x e) (hstep : x.step (swappable decode lib) e = some x') :
    Watched x' := by
  have hmoves := moves_of_step hstep .supervisor
  have hkept : ∀ c, x.task .supervisor = .call c → c.pending = true →
      x'.session.inner.active.generation = x'.signal := by
    intro c hphase hcall
    have hpending : failoverPending x = true := by rwa [failoverPending, hphase]
    rw [generation_of_pending hguard hpending hstep,
      signal_of_step hstep (by rw [hphase]; rintro ⟨⟩)]
    exact h.pending hpending
  refine ⟨?_, ?_, ?_⟩
  · intro hpending
    unfold failoverPending at hpending
    split at hpending
    · rename_i c hc
      rw [hc] at hmoves
      generalize hp : Phase.call c = p at hmoves
      cases hmoves with
      | same => exact hkept c hp.symm hpending
      | failover _ _ _ hsame hgeneration =>
        rw [hsame.session, hsame.signal]
        exact hgeneration
      | reconcile hphase => exact absurd hphase (h.never _)
      | readOrder _ hphase => exact hkept _ hphase rfl
      | readDefault _ hphase => exact hkept _ hphase rfl
      | begin hphase =>
        cases hp
        cases hpending
      | next hphase _ he hholder hended hfailed =>
        exact h.failed hlocked hguard hstep hphase he hholder hended hfailed
      | _ => cases hp
    · cases hpending
  · intro a plan hhold hplan
    rcases hmoves.hold hhold with hold | ⟨_, hwait⟩
    · obtain ⟨_, hunlocked⟩ := hlocked _ _ hold
      rw [signal_of_step hstep (by rw [hold]; rintro ⟨⟩)]
      cases kind_of_step hstep with
      | session _ _ hsession hadvance =>
        rw [← hadvance, Supervised.advance_session] at hplan ⊢
        obtain ⟨hbefore, hgeneration⟩ :=
          connecting_of_transition (transition_of_step hsession) hunlocked hplan
        rw [hgeneration]
        exact h.connecting a plan hold hbefore
      | begin _ _ hfree => cases hunlocked.symm.trans hfree
      | tick _ _ htick =>
        rw [← htick] at hplan ⊢
        exact h.connecting a plan hold hplan
      | receive _ hidle => cases hold.symm.trans hidle
      | quiet _ hsame =>
        rw [hsame.session] at hplan ⊢
        exact h.connecting a plan hold hplan
    · exact hkept _ hwait rfl
  · exact Supervised.never_compares_of_step h.never hstep

end Supervisor

theorem Watched.of_reaches {decode : Decoder} {lib : Sv1Library} {x : Supervised Rig}
    (h : Supervised.ReachesUnder (swappable decode lib) (Established lib) (Undisturbed lib) x) :
    Watched x := by
  have hinv : Locked (swappable decode lib) x ∧ Watched x := by
    refine h.invariant (I := fun y => Locked (swappable decode lib) y ∧ Watched y) ?_ ?_
    · intro r now _
      exact ⟨.fresh r now, (fun hpending => by cases hpending),
        (fun _ _ hhold => by cases hhold), fun _ hcompare => by cases hcompare⟩
    · intro y e z ⟨hlocked, hwatched⟩ hguard hstep
      exact ⟨hlocked.step (swappable_takesLock decode lib) hstep,
        hwatched.step hlocked hguard hstep⟩
  exact hinv.2

/-! ## The result -/

/-- A frame of a superseded reader leaves the rig as it is. -/
theorem step_stale {decode : Decoder} {lib : Sv1Library} {r r' : Rig} {g : Nat} {frame : Sv2Frame}
    {now : Rat} (hg : g ≠ r.inner.active.generation)
    (h : step decode lib r (.upstreamFrame g frame now) = some r') : r' = r := by
  simp only [step, onUpstreamFrame_stale hg] at h
  split at h <;> cases h
  simp [Rig.queue, Rig.credit]

/-- Every install has a higher generation, the upstream serves the routing that was
installed with it, and a superseded reader changes nothing and reaches nobody.  When
the supervisor is not disturbed, a stale signal changes nothing either. -/
theorem swaps_serialize {decode : Decoder} {lib : Sv1Library} {x : Supervised Rig}
    (h : Supervised.ReachesUnder (swappable decode lib) (Established lib) (fun _ _ => True) x) :
    (∀ e x', x.step (swappable decode lib) e = some x' →
      SameRoute x.session.inner x'.session.inner ∨
        (x.session.inner.active.generation < x'.session.inner.active.generation ∧
          ∃ plan, x.session.swap.Connecting plan ∧ RouteOf plan x'.session.inner)) ∧
    Serves x.session.store x.session.inner.defaultTarget x.session.inner.active.target
      x.session.inner.routing ∧
    (∀ g, g ≠ x.session.inner.active.generation →
      (∀ frame now x', x.step (swappable decode lib) (.session (.upstreamFrame g frame now)) =
        some x' → x'.session = x.session) ∧
      (∀ cid now, creditTranslate now g cid x.session.inner = (x.session.inner, none)) ∧
      (∀ cid diff, setTranslateDiff g cid diff x.session.inner = x.session.inner) ∧
      ∀ member frame, sendTranslateFrame g member frame x.session.inner = []) ∧
    (Supervised.ReachesUnder (swappable decode lib) (Established lib) (Undisturbed lib) x →
      ∀ e x' g, x.step (swappable decode lib) e = some x' → signalOf x e = some g →
        g ≠ x.session.inner.active.generation → x'.session = x.session) := by
  have hreach := reaches_of_supervised h
  have hgenerations : Generations x.session := by
    refine ReachesUnder.invariant hreach ?_ fun _ _ _ hold _ hstep =>
      hold.step (transition_of_step hstep)
    intro worker spec store idlePool now failed answer r₀ _ hstart
    obtain ⟨_, _, _, _, _, hstarted⟩ := start_started hstart
    exact .of_started hstarted
  refine ⟨?_, (Serving.of_reaches hreach).active, ?_, ?_⟩
  · intro e x' hstep
    rcases Supervised.session_of_step hstep with hsame | ⟨f, hf⟩
    · rw [hsame]
      exact Or.inl ⟨rfl, rfl, rfl⟩
    · rcases route_of_transition (transition_of_step hf) with hsame | ⟨plan, hplan, hroute⟩
      · exact Or.inl hsame
      · refine Or.inr ⟨?_, plan, hplan, hroute⟩
        rw [hroute.generation]
        exact (hgenerations.plan plan hplan).1
  · intro g hg
    obtain ⟨_, hcredit, hdiff, hsend⟩ := @superseded_changes_nothing decode _ _ hg
    refine ⟨?_, hcredit, hdiff, hsend⟩
    intro frame now x' hstep
    cases Supervised.kind_of_step hstep with
    | session he _ hsession hadvance =>
      cases he
      rw [← hadvance, Supervised.advance_session]
      have hf : step decode lib x.session (.upstreamFrame g frame now) = some _ := hsession
      exact step_stale hg hf
    | begin he => cases he
    | tick he => cases he
    | receive he => cases he
    | quiet _ hsame => exact hsame.session
  · intro hundisturbed e x' g hstep hsignal hg
    have hwatched := Watched.of_reaches hundisturbed
    cases Supervised.kind_of_step hstep with
    | session he =>
      subst he
      cases hsignal
    | @begin t a f he hphase =>
      subst he
      cases t with
      | retry | attach => cases hsignal
      | supervisor =>
        cases hsignal
        exact absurd (hwatched.pending (by rw [failoverPending, hphase]; rfl)).symm hg
    | tick he =>
      subst he
      cases hsignal
    | receive _ _ hsession => exact hsession.1
    | quiet _ hsame => exact hsame.session

instance (lib : Sv1Library) (x : Supervised Rig) : DecidablePred (Undisturbed lib x) := fun e => by
  rcases e with e | _
  · rcases e with _ | _ <;> dsimp only [Undisturbed] <;> infer_instance
  all_goals exact .isTrue trivial

/-- A test on the state that a schedule of the tasks ends in. -/
theorem exists_of_supervised {G : Supervised Rig → SwapEvent Event → Prop}
    [hG : ∀ x, DecidablePred (G x)] (es : List (SwapEvent Event)) {p : Supervised Rig → Bool}
    (h : (idleRig.bind fun r => runWhile (Supervised.step (swappable wireDecoder plainLibrary))
      (fun x e => decide (G x e)) (.fresh r 0) es).any p = true) :
    ∃ x, Supervised.ReachesUnder (swappable wireDecoder plainLibrary) (Established plainLibrary)
      G x ∧ p x = true := by
  obtain ⟨x, hx, hp⟩ := (Option.any_eq_true ..).mp h
  obtain ⟨r₀, hstart, hrun⟩ := Option.bind_eq_some_iff.mp hx
  exact ⟨x, ⟨r₀, 0, ⟨_, _, {}, _, _, _, _, List.Pairwise.nil, hstart⟩,
    .of_runWhile (fun _ _ => of_decide_eq_true) hrun⟩, hp⟩

/-- The idle pool drops the rig, which comes back to it, and signals twice. -/
def failover : List (SwapEvent Event) :=
  [.session (.upstreamFrame 0 (openedFrame 1 10 0) 0), .died 0, .died 0, .receive, .check,
    .read .supervisor, .begin .supervisor, .session (.swapReopened [reopenedInfo 30]),
    .session .swapSend, .session .swapSend, .session .swapSend]

theorem swaps_serialize_failover :
    ∃ x x', x.session.inner.active.generation = 1 ∧ signalOf x .receive = some 0 ∧
      x.step (swappable wireDecoder plainLibrary) .receive = some x' ∧
      x'.session = x.session := by
  obtain ⟨x, hx, hp⟩ := exists_of_supervised (G := Undisturbed plainLibrary) failover
    (p := fun x => decide (x.session.inner.active.generation = 1) &&
      decide (signalOf x .receive = some 0) &&
        (x.step (swappable wireDecoder plainLibrary) .receive).isSome) (by decide +kernel)
  simp only [Bool.and_eq_true, decide_eq_true_eq, Option.isSome_iff_exists] at hp
  obtain ⟨⟨hgeneration, hsignal⟩, x', hstep⟩ := hp
  refine ⟨x, x', hgeneration, hsignal, hstep, ?_⟩
  exact (swaps_serialize (hx.mono fun _ _ _ => trivial)).2.2.2 hx .receive x' 0 hstep hsignal
    (by rw [hgeneration]; exact Nat.zero_ne_one)

/-- The idle pool drops the rig.  While the supervisor is on its way to the lock, a
connection that attaches moves the rig to the buyer's pool. -/
def staleSignal : List (SwapEvent Event) :=
  [.session (.upstreamFrame 0 (openedFrame 1 10 0) 0), .session (.createOrder buyerOrder),
    .died 0, .receive, .check, .read .supervisor, .attach 0, .compare (.attach 0),
    .read (.attach 0), .begin (.attach 0), .session (.swapReopened [reopenedInfo 30]),
    .session .swapSend, .session .swapSend, .session .swapSend]

/-- The signal about the idle pool takes the rig off the buyer's pool. -/
theorem stale_signal_swaps :
    ∃ x x' y, Supervised.ReachesUnder (swappable wireDecoder plainLibrary)
        (Established plainLibrary) (fun _ _ => True) x ∧
      signalOf x (.begin .supervisor) = some 0 ∧ x.session.inner.active.generation = 1 ∧
      x.session.inner.routing = .rented "o1" ∧
      x.step (swappable wireDecoder plainLibrary) (.begin .supervisor) = some x' ∧
      x'.session ≠ x.session ∧
      x'.step (swappable wireDecoder plainLibrary)
        (.session (.swapReopened [reopenedInfo 31])) = some y ∧
      y.session.inner.active.generation = 2 ∧ y.session.inner.routing = .idle := by
  obtain ⟨x, hx, hp⟩ := exists_of_supervised (G := fun _ _ => True) staleSignal
    (p := fun x => decide (signalOf x (.begin .supervisor) = some 0) &&
      decide (x.session.inner.active.generation = 1) &&
      decide (x.session.inner.routing = .rented "o1") && x.session.swap.isIdle &&
      (x.step (swappable wireDecoder plainLibrary) (.begin .supervisor)).any fun x' =>
        !x'.session.swap.isIdle && (x'.step (swappable wireDecoder plainLibrary)
          (.session (.swapReopened [reopenedInfo 31]))).any fun y =>
            decide (y.session.inner.active.generation = 2) &&
              decide (y.session.inner.routing = .idle)) (by decide +kernel)
  simp only [Bool.and_eq_true, decide_eq_true_eq, Option.any_eq_true] at hp
  obtain ⟨⟨⟨⟨hsignal, hgeneration⟩, hrouting⟩, hidle⟩, x', hx', hbusy, y, hy, hafter⟩ := hp
  refine ⟨x, x', y, hx, hsignal, hgeneration, hrouting, hx', ?_, hy, hafter⟩
  intro hsame
  rw [hsame, hidle] at hbusy
  cases hbusy

end RentalProxy.Sv2
