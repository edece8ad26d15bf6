import RentalProxy.OneRig

/-!
# The idle rounds of a rig

The last member that leaves a rig begins an idle round.  Its handler detaches it, asks whether the
session is the rig of the worker, raises the idle token and schedules a reaper with it; these are
separate critical sections.  So another miner can join and leave before an old reaper looks at the
rig, and that reaper finds it empty under its own token until the new round has raised it.

* `IdleLog` numbers the rounds of a rig, and counts the members that joined it.
* `LastRound` says that a reaper that goes on is the one of the last round.
* `reaper_of_last_round` is the result: nobody has joined the rig that it takes down.
-/

namespace RentalProxy

open StepSystem
open Sv2 (attachMember detachMember firstMember)

namespace Registration

/-! ## Rounds -/

/-- The number of a round of a rig, and how many members had joined before. -/
structure IdleRound where
  number : Nat
  joined : Nat
deriving DecidableEq

structure IdleLog where
  /-- By rig, the members that joined. -/
  joined : Nat → Nat
  /-- By rig, the rounds that have begun. -/
  rounds : Nat → Nat
  /-- By connection, the round that its detach began. -/
  began : Nat → IdleRound
  /-- By reaper, the round that it was scheduled in. -/
  scheduled : Nat → IdleRound

namespace IdleLog

def join (log : IdleLog) (r : Nat) : IdleLog :=
  { log with joined := Function.update log.joined r (log.joined r + 1) }

def begin (log : IdleLog) (r c : Nat) : IdleLog :=
  { log with
    rounds := Function.update log.rounds r (log.rounds r + 1)
    began := Function.update log.began c ⟨log.rounds r + 1, log.joined r⟩ }

def schedule (log : IdleLog) (k c : Nat) : IdleLog :=
  { log with scheduled := Function.update log.scheduled k (log.began c) }

end IdleLog

/-- The session whose idle round a handler has begun and not scheduled a reaper for. -/
def Handler.idles? : Handler → Option Nat
  | .detached r | .resting r _ => some r
  | _ => none

theorem Handler.works_of_idles {hd : Handler} {r : Nat} (h : hd.idles? = some r) :
    hd.works? = some r := by
  cases hd <;> first | exact h | cases h

namespace State

/-- The bookkeeping of one step. -/
def noteRounds (s : State) (e : Event) (log : IdleLog) : IdleLog :=
  match e with
  | .bundle c =>
    match s.handler c with
    | .found _ o r =>
      match s.session r with
      | some (.sv2 i) => if (attachMember o.spec i).isSome then log.join r else log
      | _ => log
    | _ => log
  | .leave c =>
    match s.handler c with
    | .serving r member =>
      match s.session r with
      | some (.sv2 i) => if (detachMember member i).2 then log.begin r c else log
      | _ => log
    | _ => log
  | .rest c => log.schedule s.spawned c
  | _ => log

/-- A reaper that finds its rig empty under its token is the one of the last round of the rig. -/
def LastRound (x : State × IdleLog) : Event → Prop
  | .inspect k => ∀ p ∈ x.1.reaper k, x.1.members p.rig = [] → x.1.idleToken p.rig = p.token →
      (x.2.scheduled k).number = x.2.rounds p.rig
  | _ => True

/-- Nobody has joined the rig of a reaper since its round began. -/
def Undisturbed (x : State × IdleLog) (k : Nat) (p : Reaper) : Prop :=
  (x.2.scheduled k).joined = x.2.joined p.rig

/-! ## What a round knows -/

variable {s s' : State} {log log' : IdleLog} {c d r : Nat} {worker : String} {e : Event}

/-- The round is the last one of the rig, and nobody has joined while it is empty; or somebody has
joined since. -/
def Marks (s : State) (log : IdleLog) (r : Nat) (m : IdleRound) : Prop :=
  (m.number = log.rounds r ∧ (s.members r = [] → m.joined = log.joined r) ∧
      (s.members r ≠ [] → m.joined < log.joined r)) ∨
    m.number < log.rounds r ∧ m.joined < log.joined r

/-- A round is the last one of an empty rig, exactly when nobody has joined since. -/
theorem Marks.joined_iff {m : IdleRound} (h : Marks s log r m) (hempty : s.members r = []) :
    m.joined = log.joined r ↔ m.number = log.rounds r := by
  rcases h with ⟨hnumber, hjoined, _⟩ | ⟨hnumber, hjoined⟩
  · exact iff_of_true (hjoined hempty) hnumber
  · exact iff_of_false (by omega) (by omega)

theorem Marks.congr {m : IdleRound} (h : Marks s log r m) (hmembers : s'.members r = s.members r)
    (hjoined : log'.joined r = log.joined r) (hrounds : log'.rounds r = log.rounds r) :
    Marks s' log' r m := by
  rw [Marks, hmembers, hjoined, hrounds]
  exact h

/-- A member joins. -/
theorem Marks.join {m : IdleRound} (h : Marks s log r m) (hmembers : s'.members r ≠ []) :
    Marks s' (log.join r) r m := by
  have hjoined : (log.join r).joined r = log.joined r + 1 := Function.update_self ..
  rw [Marks, hjoined]
  rcases h with ⟨hnumber, hempty, hbusy⟩ | ⟨hnumber, hlt⟩
  · refine Or.inl ⟨hnumber, fun h => absurd h hmembers, fun _ => ?_⟩
    by_cases hbefore : s.members r = []
    · rw [hempty hbefore]
      exact Nat.lt_succ_self _
    · exact Nat.lt_succ_of_lt (hbusy hbefore)
  · exact Or.inr ⟨hnumber, Nat.lt_succ_of_lt hlt⟩

/-- A member leaves that is not the last one. -/
theorem Marks.leave {m : IdleRound} (h : Marks s log r m) (hbefore : s.members r ≠ [])
    (hafter : s'.members r ≠ []) : Marks s' log r m := by
  rcases h with ⟨hnumber, _, hbusy⟩ | hold
  · exact Or.inl ⟨hnumber, fun h => absurd h hafter, fun _ => hbusy hbefore⟩
  · exact Or.inr hold

/-- The next round begins. -/
theorem Marks.begin {m : IdleRound} (h : Marks s log r m) (hbefore : s.members r ≠ []) :
    Marks s' (log.begin r c) r m := by
  have hrounds : (log.begin r c).rounds r = log.rounds r + 1 := Function.update_self ..
  right
  rw [hrounds]
  rcases h with ⟨hnumber, _, hbusy⟩ | ⟨hnumber, hlt⟩
  · exact ⟨by omega, hbusy hbefore⟩
  · exact ⟨by omega, hlt⟩

/-- Every round that may still reap a rig. -/
structure Rounds (s : State) (log : IdleLog) : Prop where
  began : ∀ c r, (s.handler c).idles? = some r → Marks s log r (log.began c)
  scheduled : ∀ k p, s.reaper k = some p → Marks s log p.rig (log.scheduled k)

/-- A step that neither lets a member join nor leave. -/
theorem Rounds.keep (h : Rounds s log) (hsound : Sound s)
    (hmembers : ∀ r worker, s.Rig r worker → s'.members r = s.members r)
    (hhandler : ∀ c r, (s'.handler c).idles? = some r → (s.handler c).idles? = some r)
    (hreaper : ∀ k p, s'.reaper k = some p → ∃ q, s.reaper k = some q ∧ q.rig = p.rig) :
    Rounds s' log where
  began c r hc := by
    have hbefore := hhandler c r hc
    obtain ⟨worker, hrig⟩ := hsound.rig_of_works (Handler.works_of_idles hbefore)
    exact (h.began c r hbefore).congr (hmembers r worker hrig) rfl rfl
  scheduled k p hk := by
    obtain ⟨q, hq, hrig⟩ := hreaper k p hk
    rw [← hrig]
    exact (h.scheduled k q hq).congr (hmembers _ _ (hsound.reapers k q hq)) rfl rfl

/-- A handler moves on that begins no round. -/
theorem Rounds.goto (h : Rounds s log) (hsound : Sound s) {before hd : Handler}
    (hbefore : s.handler c = before) (hhandler : s'.handler = Function.update s.handler c hd)
    (hidles : ∀ r, hd.idles? = some r → before.idles? = some r)
    (hmembers : ∀ r worker, s.Rig r worker → s'.members r = s.members r)
    (hreaper : s'.reaper = s.reaper) : Rounds s' log := by
  refine h.keep hsound hmembers (fun d r hd' => ?_) fun k p hk => ⟨p, hreaper ▸ hk, rfl⟩
  rw [hhandler, Function.update_apply] at hd'
  split at hd'
  · rename_i hdc
    rw [hdc, hbefore]
    exact hidles r hd'
  · exact hd'

/-- A miner joins a rig. -/
theorem Rounds.bundle (h : Rounds s log) {member : Nat} {j : Sv2.Inner}
    (hmembers : j.members ≠ []) :
    Rounds (((s.put r (.sv2 j)).setGate worker none).goto c (.serving r member)) (log.join r) := by
  have hmark : ∀ q m, Marks s log q m →
      Marks (((s.put r (.sv2 j)).setGate worker none).goto c (.serving r member)) (log.join r) q
        m := by
    intro q m hm
    by_cases hq : q = r
    · subst hq
      refine hm.join ?_
      change (s.put q (.sv2 j)).members q ≠ []
      rw [members_put, if_pos rfl]
      exact hmembers
    · refine hm.congr ?_ (Function.update_of_ne hq _ _) rfl
      change (s.put r (.sv2 j)).members q = s.members q
      rw [members_put, if_neg hq]
  refine ⟨fun d q hd => hmark q _ (h.began d q ?_), fun k p hk => hmark _ _ (h.scheduled k p hk)⟩
  rcases @goto_cases s c d (.serving r member) _ rfl with ⟨rfl, hnew⟩ | ⟨_, hold⟩
  · rw [goto_handler, Function.update_self] at hd
    cases hd
  · exact hold ▸ hd

/-- A miner leaves a rig. -/
theorem Rounds.leave (h : Rounds s log) {j : Sv2.Inner} (hbefore : s.members r ≠ []) :
    Rounds ((s.put r (.sv2 j)).goto c (if j.members.isEmpty then .detached r else .closed))
      (if j.members.isEmpty then log.begin r c else log) := by
  have hmembers : ∀ hd q, ((s.put r (.sv2 j)).goto c hd).members q =
      if q = r then j.members else s.members q := fun hd q => members_put s r q _
  cases hlast : j.members.isEmpty with
  | true =>
    have hempty : j.members = [] := List.isEmpty_iff.mp hlast
    simp only [if_true]
    have hmark : ∀ q m, Marks s log q m →
        Marks ((s.put r (.sv2 j)).goto c (.detached r)) (log.begin r c) q m := by
      intro q m hm
      by_cases hq : q = r
      · subst hq
        exact hm.begin hbefore
      · exact hm.congr ((hmembers _ q).trans (if_neg hq)) rfl (Function.update_of_ne hq _ _)
    refine ⟨fun d q hd => ?_, fun k p hk => hmark _ _ (h.scheduled k p hk)⟩
    by_cases hdc : d = c
    · -- its own round
      subst hdc
      rw [goto_handler, Function.update_self] at hd
      cases hd
      have hnew : (log.begin r d).began d = ⟨log.rounds r + 1, log.joined r⟩ :=
        Function.update_self ..
      rw [hnew]
      have hrounds : (log.begin r d).rounds r = log.rounds r + 1 := Function.update_self ..
      refine Or.inl ⟨hrounds.symm, fun _ => rfl, fun hbusy => ?_⟩
      rw [hmembers, if_pos rfl] at hbusy
      exact absurd hempty hbusy
    · have hold : (log.begin r c).began d = log.began d := Function.update_of_ne hdc _ _
      rw [goto_handler, Function.update_of_ne hdc] at hd
      rw [hold]
      exact hmark q _ (h.began d q hd)
  | false =>
    simp only [Bool.false_eq_true, if_false]
    have hmark : ∀ q m, Marks s log q m → Marks ((s.put r (.sv2 j)).goto c .closed) log q m := by
      intro q m hm
      by_cases hq : q = r
      · subst hq
        refine hm.leave hbefore ?_
        rw [hmembers, if_pos rfl]
        exact fun hnil => by simp [hnil] at hlast
      · exact hm.congr ((hmembers _ q).trans (if_neg hq)) rfl rfl
    refine ⟨fun d q hd => hmark q _ (h.began d q ?_), fun k p hk => hmark _ _ (h.scheduled k p hk)⟩
    by_cases hdc : d = c
    · subst hdc
      rw [goto_handler, Function.update_self] at hd
      cases hd
    · rw [goto_handler, Function.update_of_ne hdc] at hd
      exact hd

/-- A handler schedules a reaper for the round that it has begun. -/
theorem Rounds.rest (h : Rounds s log) (hhandler : s.handler c = .resting r worker)
    (token : Nat) : Rounds (({ s with
        idleToken := Function.update s.idleToken r token
        spawned := s.spawned + 1 }.setReaper s.spawned
          (some ⟨r, worker, token, .asleep⟩)).goto c .closed) (log.schedule s.spawned c) where
  began d q hd := by
    refine (h.began d q ?_).congr rfl rfl rfl
    by_cases hdc : d = c
    · subst hdc
      rw [goto_handler, Function.update_self] at hd
      cases hd
    · rw [goto_handler, Function.update_of_ne hdc] at hd
      exact hd
  scheduled k p hk := by
    change Function.update s.reaper s.spawned _ k = some p at hk
    change Marks _ _ p.rig (Function.update log.scheduled s.spawned _ k)
    rw [Function.update_apply] at hk ⊢
    split at hk <;> rename_i hks
    · cases hk
      rw [if_pos hks]
      exact (h.began c r (hhandler ▸ rfl)).congr rfl rfl rfl
    · rw [if_neg hks]
      exact (h.scheduled k p hk).congr rfl rfl rfl

/-- A reaper goes on or goes. -/
theorem Rounds.reaper (h : Rounds s log) (hsound : Sound s) {k : Nat} {p : Reaper}
    {reaper : Option Reaper} (hreaper : s.reaper k = some p)
    (hafter : s'.reaper = Function.update s.reaper k reaper)
    (hrig : ∀ q, reaper = some q → q.rig = p.rig) (hhandler : s'.handler = s.handler)
    (hmembers : s'.members = s.members) : Rounds s' log := by
  refine h.keep hsound (fun r _ _ => congrFun hmembers r) (fun c r hc => hhandler ▸ hc)
    fun j q hj => ?_
  rw [hafter, Function.update_apply] at hj
  split at hj
  · rename_i hjk
    exact ⟨p, hjk ▸ hreaper, (hrig q hj).symm⟩
  · exact ⟨q, hj, rfl⟩

theorem Rounds.step (h : Rounds s log) (hsound : Sound s) (hmanned : Manned s)
    (hstep : s.step e = some s') : Rounds s' (noteRounds s e log) := by
  have ht := Transition.of_step hstep
  cases ht with
  | handshake i =>
    obtain ⟨hclosed, _, hnot, _⟩ := hsound.fresh s.accepted (le_refl _)
    refine h.goto hsound hclosed rfl (fun _ h => by cases h) (fun r w hr => ?_) rfl
    have hne : r ≠ s.accepted := fun heq => hnot (heq ▸ hr.2)
    exact (members_put (s.accept .relaying) _ r _).trans (if_neg hne)
  | @authorize c worker i hhandler hsession =>
    obtain ⟨⟨label, hview⟩, _⟩ := hsound.stands_of hhandler
    refine h.goto hsound hhandler rfl (fun _ h => by cases h) (fun r w hr => ?_) rfl
    have hne : r ≠ c := by
      rintro rfl
      exact not_rig_of_sv1 hview w hr
    exact (members_put s c r _).trans (if_neg hne)
  | openChannel =>
    obtain ⟨hclosed, _⟩ := hsound.fresh s.accepted (le_refl _)
    exact h.goto hsound hclosed rfl (fun _ h => by cases h) (fun _ _ _ => rfl) rfl
  | refuse hhandler | insert hhandler | hangUp hhandler | deregister hhandler | enter hhandler
  | look hhandler | lookNone hhandler | connectFailed hhandler | register hhandler
  | checkOther hhandler | remove hhandler =>
    exact h.goto hsound hhandler rfl (fun _ h => by cases h) (fun _ _ _ => rfl) rfl
  | checkTarget hhandler =>
    exact h.goto hsound hhandler rfl (fun _ h => h) (fun _ _ _ => rfl) rfl
  | @publish c worker s₁ hhandler hrig =>
    rcases hrig with rfl | rfl <;>
      exact h.goto hsound hhandler rfl (fun _ h => by cases h) (fun _ _ _ => rfl) rfl
  | @standalone c r worker o hhandler =>
    obtain ⟨i, hsession, hattach⟩ := attachMember_of_standalone hhandler hstep
    simp only [noteRounds, hhandler, hsession, hattach, Option.isSome_none, Bool.false_eq_true,
      if_false]
    exact h.goto hsound hhandler rfl (fun _ h => by cases h) (fun _ _ _ => rfl) rfl
  | @bundle c r member worker o i j hhandler hsession hattach =>
    simp only [noteRounds, hhandler, hsession, hattach, Option.isSome_some, if_true]
    refine h.bundle ?_
    rw [(Sv2.attachMember_eq hattach).2.2.1]
    exact List.append_ne_nil_of_right_ne_nil _ (List.cons_ne_nil _ _)
  | @connect c worker o reach j hhandler | @abandon c worker o reach j hhandler =>
    obtain ⟨_, hnot, _⟩ := hsound.stands_of hhandler
    refine h.goto hsound hhandler rfl (fun _ h => by cases h) (fun r w hr => ?_) rfl
    have hne : r ≠ c := fun heq => hnot (heq ▸ hr.2)
    exact (members_put s c r _).trans (if_neg hne)
  | @leave c r member i hhandler hsession =>
    simp only [noteRounds, hhandler, hsession]
    exact h.leave (List.ne_nil_of_mem (hmanned.serving c r member hhandler).1)
  | @rest c r worker hhandler => exact h.rest hhandler _
  | wake hreaper | inspect hreaper | unlist hreaper =>
    refine h.reaper hsound hreaper rfl (fun q hq => ?_) rfl rfl
    cases hq
    rfl
  | giveUp hreaper | reap hreaper =>
    exact h.reaper hsound hreaper rfl (fun q hq => by cases hq) rfl rfl
  | @traffic c x y hsession hkeeps =>
    refine h.keep hsound (fun r _ _ => ?_) (fun _ _ hc => hc) fun k p hk => ⟨p, hk, rfl⟩
    rw [members_put]
    split
    · rename_i hrc
      rw [hrc, members, hsession, hkeeps.members]
      rfl
    · rfl

/-! ## The result -/

/-- The runs of the proxy whose steps meet `G`, with the rounds. -/
def RoundsReach (G : State × IdleLog → Event → Prop) (x : State × IdleLog) : Prop :=
  Run (observed step noteRounds) G
    (boot, ⟨fun _ => 0, fun _ => 0, fun _ => ⟨0, 0⟩, fun _ => ⟨0, 0⟩⟩) x

/-- What every state satisfies. -/
structure Tracked (x : State × IdleLog) : Prop where
  sound : Sound x.1
  gated : Gated x.1
  manned : Manned x.1
  fresh : Fresh x.1
  rounds : Rounds x.1 x.2

theorem Tracked.step {x y : State × IdleLog} (h : Tracked x)
    (hstep : observed State.step noteRounds x e = some y) : Tracked y := by
  obtain ⟨hnext, hlog⟩ := observed_eq_some.mp hstep
  have ht := Transition.of_step hnext
  exact ⟨h.sound.step ht, h.gated.step ht, h.manned.step h.sound h.gated ht, h.fresh.step ht,
    hlog ▸ h.rounds.step h.sound h.manned hnext⟩

theorem RoundsReach.tracked {G : State × IdleLog → Event → Prop} {x : State × IdleLog}
    (h : RoundsReach G x) : Tracked x :=
  Run.invariant h ⟨.boot, .boot, .boot, .boot, fun _ _ h => (by cases h),
    fun _ _ h => (by cases h)⟩
    fun _ _ _ hx _ => hx.step

/-- A reaper that has found its rig idle, until it is gone. -/
def Reaps (s : State) (k : Nat) (p : Reaper) : Prop :=
  s.reaper k = some p ∧ (p.stage = .expired ∨ p.stage = .unlisted)

/-- A reaper that takes its rig down did so before, or has just found it idle. -/
theorem cases_of_reaps (hfresh : Fresh s) (ht : Transition s e s') {k : Nat} {q : Reaper}
    (h : Reaps s' k q) : (∃ p, Reaps s k p ∧ p.rig = q.rig) ∨
      e = .inspect k ∧ ∃ p, s.reaper k = some p ∧ p.rig = q.rig ∧ s.members p.rig = [] ∧
        s.idleToken p.rig = p.token := by
  obtain ⟨hreaper', hstage'⟩ := h
  have hsame : s'.reaper = s.reaper → ∃ p, Reaps s k p ∧ p.rig = q.rig :=
    fun heq => ⟨q, ⟨heq ▸ hreaper', hstage'⟩, rfl⟩
  cases ht with
  | @rest c r worker hhandler =>
    change Function.update s.reaper s.spawned _ k = some q at hreaper'
    rw [Function.update_apply] at hreaper'
    split at hreaper'
    · cases hreaper'
      rcases hstage' with hstage' | hstage' <;> cases hstage'
    · exact Or.inl ⟨q, ⟨hreaper', hstage'⟩, rfl⟩
  | @wake j p hreaper hstage hfree =>
    rw [setReaper_reaper, Function.update_apply] at hreaper'
    split at hreaper'
    · cases hreaper'
      rcases hstage' with hstage' | hstage' <;> cases hstage'
    · exact Or.inl ⟨q, ⟨hreaper', hstage'⟩, rfl⟩
  | @inspect j p i hreaper hstage hsession hmembers htoken =>
    rw [setReaper_reaper, Function.update_apply] at hreaper'
    split at hreaper'
    · rename_i hkj
      cases hreaper'
      exact Or.inr ⟨hkj ▸ rfl, p, hkj ▸ hreaper, rfl,
        (members_of_session hsession).trans hmembers, htoken⟩
    · exact Or.inl ⟨q, ⟨hreaper', hstage'⟩, rfl⟩
  | @unlist j p hreaper hstage =>
    rw [setReaper_reaper, Function.update_apply] at hreaper'
    split at hreaper'
    · rename_i hkj
      cases hreaper'
      exact Or.inl ⟨p, ⟨hkj ▸ hreaper, Or.inl hstage⟩, rfl⟩
    · exact Or.inl ⟨q, ⟨hreaper', hstage'⟩, rfl⟩
  | giveUp | reap =>
    rw [setReaper_reaper, Function.update_apply] at hreaper'
    split at hreaper'
    · cases hreaper'
    · exact Or.inl ⟨q, ⟨hreaper', hstage'⟩, rfl⟩
  | publish hhandler hrig => rcases hrig with rfl | rfl <;> exact Or.inl (hsame rfl)
  | _ => exact Or.inl (hsame rfl)

/-- Nobody joins a rig that a reaper takes down, and no other round becomes its own. -/
theorem Tracked.log_kept {x y : State × IdleLog} (h : Tracked x)
    (hstep : observed State.step noteRounds x e = some y) {k : Nat} {p : Reaper}
    (hreaps : Reaps x.1 k p) :
    y.2.scheduled k = x.2.scheduled k ∧ y.2.joined p.rig = x.2.joined p.rig := by
  obtain ⟨y, log'⟩ := y
  obtain ⟨hnext, rfl⟩ := observed_eq_some.mp hstep
  obtain ⟨hreaper, hstage⟩ := hreaps
  have hgate := h.gated.reapers k p hreaper (by rcases hstage with h | h <;> rw [h] <;> nofun)
  have hrig := h.sound.reapers k p hreaper
  cases Transition.of_step hnext with
  | @bundle c r member worker o i j hhandler hsession hattach =>
    simp only [noteRounds, hhandler, hsession, hattach, Option.isSome_some, if_true]
    refine ⟨rfl, Function.update_of_ne (fun heq => ?_) _ _⟩
    -- the one that joins holds the gate
    have hfound := h.sound.rigs worker r (h.manned.found c worker o r hhandler)
    obtain rfl : p.worker = worker := (heq ▸ hfound).inj hrig
    have hother := h.gated.handlers c p.worker (hhandler ▸ rfl)
    rw [hgate] at hother
    cases hother
  | @standalone c r worker o hhandler =>
    obtain ⟨i, hsession, hattach⟩ := attachMember_of_standalone hhandler hnext
    simp only [noteRounds, hhandler, hsession, hattach, Option.isSome_none, Bool.false_eq_true,
      if_false, and_self]
  | @leave c r member i hhandler hsession =>
    simp only [noteRounds, hhandler, hsession]
    split <;> exact ⟨rfl, rfl⟩
  | @rest c r worker hhandler =>
    exact ⟨Function.update_of_ne (Nat.ne_of_lt (h.fresh.lt_spawned hreaper)) _ _, rfl⟩
  | _ => exact ⟨rfl, rfl⟩

/-- A reaper that has just found its rig idle. -/
theorem Tracked.undisturbed_iff {x y : State × IdleLog} {k : Nat} (h : Tracked x)
    (hstep : observed State.step noteRounds x (.inspect k) = some y) {p q : Reaper}
    (hreaper : x.1.reaper k = some p) (hrig : p.rig = q.rig) (hempty : x.1.members p.rig = []) :
    Undisturbed y k q ↔ (x.2.scheduled k).number = x.2.rounds p.rig := by
  obtain ⟨_, hlog⟩ := observed_eq_some.mp hstep
  rw [Undisturbed, hlog, ← hrig]
  exact (h.rounds.scheduled k p hreaper).joined_iff hempty

/-- While every reaper that finds its rig idle is the one of the last round, nobody has joined a
rig since the round began whose reaper takes it down.  The first reaper that misses the condition
takes down a rig that somebody has joined. -/
theorem reaper_of_last_round {x : State × IdleLog} (h : RoundsReach LastRound x) :
    (∀ k p, Reaps x.1 k p → Undisturbed x k p) ∧
      ∀ k y, observed State.step noteRounds x (.inspect k) = some y →
        ¬LastRound x (.inspect k) → ∃ p, Reaps y.1 k p ∧ ¬Undisturbed y k p := by
  refine ⟨?_, fun k y hstep hmissed => ?_⟩
  · have hboth : Tracked x ∧ ∀ k p, Reaps x.1 k p → Undisturbed x k p := by
      refine Run.invariant (I := fun x => Tracked x ∧ ∀ k p, Reaps x.1 k p → Undisturbed x k p) h
        ⟨RoundsReach.tracked (G := LastRound) .refl, fun _ _ hreaps => by cases hreaps.1⟩ ?_
      rintro x e y ⟨hx, hbefore⟩ hguard hstep
      refine ⟨hx.step hstep, fun k q hreaps => ?_⟩
      have ht := Transition.of_step (observed_eq_some.mp hstep).1
      rcases cases_of_reaps hx.fresh ht hreaps with
        ⟨p, hp, hrig⟩ | ⟨rfl, p, hreaper, hrig, hempty, htoken⟩
      · obtain ⟨hscheduled, hjoined⟩ := hx.log_kept hstep hp
        rw [Undisturbed, hscheduled, ← hrig, hjoined]
        exact hbefore k p hp
      · exact (hx.undisturbed_iff hstep hreaper hrig hempty).mpr (hguard p hreaper hempty htoken)
    exact hboth.2
  · simp only [LastRound, not_forall] at hmissed
    obtain ⟨p, hreaper, hempty, htoken, hold⟩ := hmissed
    have hiff := fun q => h.tracked.undisturbed_iff (q := q) hstep hreaper
    obtain ⟨y, log'⟩ := y
    obtain ⟨hnext, rfl⟩ := observed_eq_some.mp hstep
    cases Transition.of_step hnext with
    | @giveUp _ p' i hreaper' _ hsession hbusy =>
      cases hreaper.symm.trans hreaper'
      rw [members_of_session hsession] at hempty
      rcases hbusy with hbusy | hbusy
      · exact absurd hempty hbusy
      · exact absurd htoken hbusy
    | @inspect _ p' i hreaper' _ _ _ _ =>
      cases hreaper.symm.trans hreaper'
      exact ⟨{ p with stage := .expired }, ⟨Function.update_self .., Or.inl rfl⟩,
        fun hstill => hold ((hiff _ rfl hempty).mp hstill)⟩

/-! ## Runs of one rig -/

instance (x : State × IdleLog) : DecidablePred (LastRound x)
  | .inspect k => inferInstanceAs (Decidable (∀ p ∈ x.1.reaper k, _ → _ → _ = _))
  | .handshake .. | .authorize .. | .insert _ | .hangUp _ | .deregister _ | .openChannel ..
  | .enter _ | .look _ | .bundle _ | .connect .. | .register _ | .publish _ | .leave _ | .check _
  | .rest _ | .remove _ | .wake _ | .unlist _ | .reap _ | .traffic .. => isTrue trivial

/-- A miner builds a rig and leaves. -/
def firstRound : List Event :=
  [firstOpen, .enter 0, .look 0,
    .connect 0 fun _ => some (.native fun _ => Sv2.reopenedInfo 1), .register 0, .publish 0,
    .leave 0, .check 0, .rest 0]

/-- Another miner joins the rig and leaves. -/
def secondRound : List Event :=
  [firstOpen, .enter 1, .look 1, .bundle 1, .leave 1]

theorem RoundsReach.exists_of_run {G : State × IdleLog → Event → Prop}
    [hG : ∀ x, DecidablePred (G x)] (es : List Event) {p : State × IdleLog → Bool}
    (h : (runWhile (observed step noteRounds) (fun x e => decide (G x e))
      (boot, ⟨fun _ => 0, fun _ => 0, fun _ => ⟨0, 0⟩, fun _ => ⟨0, 0⟩⟩) es).any p = true) :
    ∃ x, RoundsReach G x ∧ p x = true := by
  obtain ⟨x, hx, hp⟩ := (Option.any_eq_true ..).mp h
  exact ⟨x, .of_runWhile (fun _ _ => of_decide_eq_true) hx, hp⟩

/-- The old reaper comes when the new round has its token: it gives up, and the rig is left to the
reaper of the new round. -/
theorem reaper_of_last_round_spared :
    ∃ x p, RoundsReach LastRound x ∧ Reaps x.1 1 p ∧ x.1.reaper 0 = none ∧ Undisturbed x 1 p := by
  obtain ⟨x, hreach, hx⟩ := @RoundsReach.exists_of_run LastRound inferInstance
    (firstRound ++ secondRound ++ [.check 1, .rest 1, .wake 0, .inspect 0, .wake 1, .inspect 1])
    (fun x => (x.1.reaper 1).any (fun p : Reaper => decide (p.stage = .expired)) &&
      (x.1.reaper 0).isNone) (by decide +kernel)
  obtain ⟨hone, hzero⟩ := Bool.and_eq_true_iff.mp hx
  obtain ⟨p, hp, hstage⟩ := (Option.any_eq_true ..).mp hone
  have hreaps : Reaps x.1 1 p := ⟨hp, Or.inl (of_decide_eq_true hstage)⟩
  exact ⟨x, p, hreach, hreaps, Option.isNone_iff_eq_none.mp hzero,
    (reaper_of_last_round hreach).1 1 p hreaps⟩

/-- The old reaper comes before the new round has its token, and takes the rig down. -/
theorem stale_reaper_fires :
    ∃ x p, RoundsReach (fun _ _ => True) x ∧ Reaps x.1 0 p ∧ p.stage = .unlisted ∧
      (x.2.scheduled 0).number = 1 ∧ x.2.rounds p.rig = 2 ∧ ¬Undisturbed x 0 p := by
  obtain ⟨x, hreach, hx⟩ := @RoundsReach.exists_of_run (fun _ _ => True) inferInstance
    (firstRound ++ secondRound ++ [.wake 0, .inspect 0, .unlist 0])
    (fun x => (x.1.reaper 0).any fun p : Reaper => decide (p.stage = .unlisted) &&
      decide ((x.2.scheduled 0).number = 1 ∧ x.2.rounds p.rig = 2 ∧
        (x.2.scheduled 0).joined ≠ x.2.joined p.rig)) (by decide +kernel)
  obtain ⟨p, hp, hboth⟩ := (Option.any_eq_true ..).mp hx
  obtain ⟨hstage, hrest⟩ := Bool.and_eq_true_iff.mp hboth
  obtain ⟨hnumber, hrounds, hjoined⟩ := of_decide_eq_true hrest
  exact ⟨x, p, hreach, ⟨hp, Or.inr (of_decide_eq_true hstage)⟩, of_decide_eq_true hstage, hnumber,
    hrounds, hjoined⟩

end State

end Registration

end RentalProxy
