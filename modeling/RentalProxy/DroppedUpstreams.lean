import RentalProxy.Lib.History
import RentalProxy.LiveRouting
import RentalProxy.Sv1.Transitions

/-!
# A dropped upstream is followed up

The reader of an upstream signals the supervisor when the pool hangs up.  The supervisor drops a
signal whose generation is not the active one, and gives a call up as soon as it finds that the
generation has changed, while connections that attach and the retry swap the upstream as well.

* `Pursues` says that the end of the active reader is not lost: its signal is queued, or the
  supervisor is busy with it.  `CanGoOn` says that the supervisor has a step to make, or waits for
  a swap to end.
* `Signals` and `Turn` are what a step does to the signals, and what it makes of a task.
* `Supervision` lists what a session has to keep for that, and `Watchful` is the invariant.
* `dropped_upstream_pursued` is the result, for the sessions of both protocols.
-/

namespace RentalProxy

open StepSystem
open Supervised (SameBut moves_of_step signal_of_step)

/-! ## The order of a call -/

/-- The order that is switched to. -/
def Attempt.orderId? : Attempt → Option String
  | .order o _ _ => some o.id
  | .default _ => none

theorem Attempt.isSome_read (a : Attempt) : a.read.isSome = a.orderId?.isSome := by
  cases a <;> rfl

/-- The order that a call switches to. -/
def Call.orderId? : Call → Option String
  | .readOrder id => some id
  | .readDefault => none
  | .wait a | .hold a => a.orderId?

/-! ## Readers that have ended -/

/-- The generations whose readers have ended. -/
def noteEnded {σ ε : Type} (_ : Supervised σ) (e : SwapEvent ε) (ended : List Nat) : List Nat :=
  match e with
  | .died g => ended ++ [g]
  | _ => ended

namespace Supervised

variable {σ ε : Type}

/-- Only an upstream that has been installed has a reader. -/
def ReadersInstalled (s : Swappable σ ε) (x : Supervised σ) : SwapEvent ε → Prop
  | .died g => g ≤ s.generation x.session
  | _ => True

instance (s : Swappable σ ε) (x : Supervised σ) : DecidablePred (ReadersInstalled s x)
  | .died g => inferInstanceAs (Decidable (g ≤ s.generation x.session))
  | .session _ | .tick _ | .receive | .check | .attach _ | .resolve | .compare _ | .read _
  | .begin _ => isTrue trivial

/-- The supervisor will come to the signal of the active upstream, or is busy with it. -/
def Pursues (s : Swappable σ ε) (x : Supervised σ) : Prop :=
  s.generation x.session ∈ x.died ∨
    (x.signal = s.generation x.session ∧ x.task .supervisor ≠ .done)

/-- The steps of the supervisor. -/
def supervisorSteps : List (SwapEvent ε) :=
  [.receive, .check, .read .supervisor, .begin .supervisor]

/-- The supervisor has a step to make, or waits for the switch lock. -/
def CanGoOn (s : Swappable σ ε) (x : Supervised σ) : Prop :=
  (∃ e ∈ supervisorSteps, (x.step s e).isSome = true) ∨ s.unlocked x.session = false

/-- A run that keeps the generations whose readers have ended. -/
def ReachesEnded (s : Swappable σ ε) (Start : σ → Prop) (x : Supervised σ) (ended : List Nat) :
    Prop :=
  ∃ session now, Start session ∧
    Run (observed (step s) noteEnded) (fun z e => ReadersInstalled s z.1 e)
      (fresh session now, []) (x, ended)

/-! ## What a session keeps -/

/-- What the supervisor relies on.  `Inv` holds of every session, `past` once the swap that is
under way has installed, and `ready` of a swap that can begin as soon as the lock is free. -/
structure Supervision (s : Swappable σ ε) (Start : σ → Prop) where
  Inv : σ → Prop
  past : σ → Prop
  ready : σ → Attempt → Prop
  locks : TakesLock s
  start : ∀ r, Start r → Inv r
  inv : ∀ r e r', Inv r → s.step r e = some r' → Inv r'
  rises : ∀ r e r', Inv r → s.step r e = some r' → s.generation r ≤ s.generation r'
  installs : ∀ r e r', Inv r → s.step r e = some r' → past r' →
    past r ∨ s.generation r < s.generation r'
  returned : ∀ r, s.returning r = true → past r
  begun : ∀ r t a e r', s.begin r t a = some e → s.step r e = some r' → ¬past r'
  idle : ∀ r, Inv r → s.routing r = .idle → (s.defaultTarget r).isSome = true
  default : ∀ r e r', Inv r → s.step r e = some r' → (s.defaultTarget r).isSome = true →
    (s.defaultTarget r').isSome = true
  kept : ∀ r e r' a, Inv r → s.step r e = some r' → ready r a → ready r' a
  readOrder : ∀ r id o now, Inv r → (s.store r).get id = some o → ready r (.order o now false)
  readDefault : ∀ r target, s.defaultTarget r = some target → ready r (.default target)
  next : ∀ r a b, ready r a → a.next = some b → ready r b
  begins : ∀ r t a, ready r a → s.unlocked r = true →
    ∃ e r', s.begin r t a = some e ∧ s.step r e = some r'

/-! ## What a step can do -/

section Inversion

variable {s : Swappable σ ε} {x x' y : Supervised σ} {e : SwapEvent ε} {t u : SwapTaskId}

theorem failed_died (x : Supervised σ) (t : SwapTaskId) (toOrder : Bool) :
    (x.failed t toOrder).died = x.died := by
  unfold failed
  split
  · rfl
  · rfl
  · split <;> rfl

theorem returned_died (x : Supervised σ) (t : SwapTaskId) (a : Attempt) (ok : Bool) :
    (x.returned t a ok).died = x.died := by
  unfold returned
  split
  · rfl
  · split
    · rfl
    · exact failed_died ..

theorem advance_died (s : Swappable σ ε) (x : Supervised σ) (session : σ) :
    (x.advance s session).died = x.died := by
  unfold advance
  split
  · rfl
  · split
    · dsimp only
      split
      · rw [returned_died]
        split <;> rfl
      · split <;> rfl
    · rfl

/-- What a step does to the signals. -/
inductive Signals (s : Swappable σ ε) (x : Supervised σ) (e : SwapEvent ε) (x' : Supervised σ) :
    Prop where
  | ended {g : Nat} (he : e = .died g) (hdied : x'.died = x.died ++ [g]) (hsame : SameBut x x')
      (htask : x'.task = x.task)
  | stale {g : Nat} (he : e = .receive) (hdied : x.died = g :: x'.died)
      (hsession : x'.session = x.session) (hsignal : x'.signal = g)
      (hidle : x.task .supervisor = .done) (hstale : s.generation x.session ≠ g)
  | taken {g : Nat} (he : e = .receive) (hdied : x.died = g :: x'.died)
      (hsession : x'.session = x.session) (hsignal : x'.signal = g)
      (hactive : s.generation x.session = g) (hphase : x'.task .supervisor = .check)
  | kept (hended : ∀ g, e ≠ .died g) (he : e ≠ .receive) (hdied : x'.died = x.died)

theorem signals_of_step (h : step s x e = some x') : Signals s x e x' := by
  cases e with
  | died g =>
    cases h
    exact .ended rfl rfl ⟨rfl, rfl, rfl, rfl, rfl⟩ rfl
  | receive =>
    simp only [step] at h
    split at h
    · rename_i g died hdied hidle
      cases h
      by_cases hstale : s.generation x.session ≠ g
      · rw [if_pos hstale]
        exact .stale rfl hdied rfl rfl hidle hstale
      · rw [if_neg hstale]
        exact .taken rfl hdied rfl rfl (not_not.mp hstale) (goto_same ..)
    · cases h
  | session f =>
    simp only [step] at h
    split at h
    · cases h
    · obtain ⟨session, _, rfl⟩ := Option.map_eq_some_iff.mp h
      exact .kept (by rintro _ ⟨⟩) (by rintro ⟨⟩) (advance_died ..)
  | begin t =>
    simp only [step] at h
    split at h
    · split at h
      · obtain ⟨session, _, rfl⟩ := Option.map_eq_some_iff.mp h
        exact .kept (by rintro _ ⟨⟩) (by rintro ⟨⟩) rfl
      · cases h
    · cases h
  | read t =>
    simp only [step] at h
    split at h
    · cases h
      refine .kept (by rintro _ ⟨⟩) (by rintro ⟨⟩) ?_
      split
      · rfl
      · exact failed_died ..
    · cases h
      refine .kept (by rintro _ ⟨⟩) (by rintro ⟨⟩) ?_
      split <;> rfl
    · cases h
  | tick now =>
    simp only [step] at h
    split at h <;> cases h
    exact .kept (by rintro _ ⟨⟩) (by rintro ⟨⟩) rfl
  | _ =>
    simp only [step] at h
    split at h <;> cases h
    exact .kept (by rintro _ ⟨⟩) (by rintro ⟨⟩) rfl

/-- Only the supervisor that takes a signal has another one. -/
theorem signal_kept (h : step s x e = some x') (he : e ≠ .receive) : x'.signal = x.signal := by
  cases kind_of_step h with
  | session _ _ _ hadvance =>
    rw [← hadvance]
    exact (advance_frame ..).2.2
  | begin _ _ _ _ _ _ hsame => exact hsame.2
  | tick _ _ htick => rw [← htick]
  | receive hreceive => exact absurd hreceive he
  | quiet _ hsame => exact hsame.signal

/-- What a step makes of a task. -/
inductive Turn (s : Swappable σ ε) (x x' : Supervised σ) (t : SwapTaskId) : Prop where
  | kept (h : x'.task t = x.task t)
  | received (htask : t = .supervisor) (h : x'.task t = .check)
  | supervised (htask : t = .supervisor) (h : x'.task t = x.supervise s)
  | found (htask : t ≠ .supervisor) (hphase : x.task t = .done ∨ x.task t = .resolve)
      (h : x'.task t = .compare (x.liveOrder s))
  | compared {desired : Option Order} (hphase : x.task t = .compare desired)
      (h : x'.task t = x.reconcile s t desired)
  | readOrder {id : String} {o : Order} (hphase : x.task t = .call (.readOrder id))
      (hget : (s.store x.session).get id = some o)
      (h : x'.task t = .call (.wait (.order o x.now false)))
  | readDefault {target : UpstreamTarget} (hphase : x.task t = .call .readDefault)
      (hdefault : s.defaultTarget x.session = some target)
      (h : x'.task t = .call (.wait (.default target)))
  | noDefault (hphase : x.task t = .call .readDefault)
      (hdefault : s.defaultTarget x.session = none) (h : x'.task t = .done)
  | begun {a : Attempt} (hphase : x.task t = .call (.wait a)) (h : x'.task t = .call (.hold a))
  | next {a b : Attempt} (hphase : x.task t = .call (.hold a)) (hnext : a.next = some b)
      (h : x'.task t = .call (.wait b))
  | returned {a : Attempt} (hphase : x.task t = .call (.hold a))
      (hreturning : s.returning x.session = true)
  | failed {c : Call} (hphase : x.task t = .call c)
      (h : x'.task = (x.failed t c.orderId?.isSome).task)
  /-- A connection has failed, and the retry begins. -/
  | spawned (htask : t = .retry) (hphase : x.task .retry = .done)
      (h : x'.task .retry = .resolve)

/-- A task that goes on, while the others stay where they are. -/
theorem Turn.goto (hy : y.task = x.task) {p : Phase}
    (hown : t = u → (y.goto u p).task t = p → Turn s x (y.goto u p) t) :
    Turn s x (y.goto u p) t := by
  by_cases h : t = u
  · subst h
    exact hown rfl (goto_same ..)
  · exact .kept (by rw [goto_ne h, hy])

theorem failed_task (hy : y.task = x.task) (u : SwapTaskId) (toOrder : Bool) :
    (y.failed u toOrder).task = (x.failed u toOrder).task := by
  unfold failed
  rw [hy]
  split
  · rw [goto, goto, hy]
  · rw [goto, goto, hy]
  · split
    · rw [goto, goto, goto, goto, hy]
    · rw [goto, goto, hy]

/-- The call of a task has failed. -/
theorem Turn.of_failed (hy : y.task = x.task) {c : Call} (hphase : x.task u = .call c)
    {toOrder : Bool} (horder : toOrder = c.orderId?.isSome) :
    Turn s x (y.failed u toOrder) t := by
  subst horder
  by_cases h : t = u
  · subst h
    exact .failed hphase (failed_task hy ..)
  · unfold Supervised.failed
    split
    · exact .goto hy fun htask _ => absurd htask h
    · exact .goto hy fun htask _ => absurd htask h
    · rename_i n
      split
      · rename_i hidle
        by_cases hretry : t = .retry
        · subst hretry
          rw [hy] at hidle
          exact .spawned rfl hidle.2 (goto_same ..)
        · apply Turn.kept
          rw [goto_ne hretry, goto_ne h, hy]
      · exact .goto hy fun htask _ => absurd htask h

theorem Turn.of_returned (hy : y.task = x.task) {a : Attempt}
    (hphase : x.task u = .call (.hold a)) {ok : Bool} (hok : ok = s.returning x.session) :
    Turn s x (y.returned u a ok) t := by
  unfold Supervised.returned
  split
  · rename_i hreturning
    exact .goto hy fun htask _ => .returned (htask ▸ hphase) (hok ▸ hreturning)
  · split
    · rename_i b hnext
      exact .goto hy fun htask hp => .next (htask ▸ hphase) hnext hp
    · exact .of_failed hy hphase (Attempt.isSome_read a)

theorem turn_of_step (h : step s x e = some x') : Turn s x x' t := by
  cases e with
  | session f =>
    simp only [step] at h
    split at h
    · cases h
    · obtain ⟨session, _, rfl⟩ := Option.map_eq_some_iff.mp h
      unfold advance
      split
      · exact .kept rfl
      · split
        · rename_i a hphase
          dsimp only
          split
          · refine .of_returned ?_ hphase rfl
            split <;> rfl
          · split <;> exact .kept rfl
        · exact .kept rfl
  | tick now =>
    simp only [step] at h
    split at h <;> cases h
    exact .kept rfl
  | died g =>
    cases h
    exact .kept rfl
  | receive =>
    simp only [step] at h
    split at h
    · rename_i g died _ _
      cases h
      split
      · exact .kept rfl
      · let y : Supervised σ := { x with died, signal := g }
        exact Turn.goto (show y.task = x.task from rfl) .received
    · cases h
  | check =>
    simp only [step] at h
    split at h <;> cases h
    exact .goto rfl .supervised
  | attach n =>
    simp only [step] at h
    split at h <;> cases h
    rename_i hstart
    refine .goto rfl fun htask hp => ?_
    subst htask
    exact .found (by rintro ⟨⟩) (Or.inl hstart.2) hp
  | resolve =>
    simp only [step] at h
    split at h <;> cases h
    rename_i hphase
    refine .goto rfl fun htask hp => ?_
    subst htask
    exact .found (by rintro ⟨⟩) (Or.inr hphase) hp
  | compare u =>
    simp only [step] at h
    split at h <;> cases h
    rename_i hphase
    refine .goto rfl fun htask hp => ?_
    subst htask
    exact .compared hphase hp
  | read u =>
    simp only [step] at h
    split at h
    · rename_i id hphase
      cases h
      split
      · rename_i o hget
        exact .goto rfl fun htask hp => .readOrder (htask ▸ hphase) hget hp
      · exact .of_failed rfl hphase rfl
    · rename_i hphase
      cases h
      split
      · exact .goto rfl fun htask hp => .readDefault (htask ▸ hphase) ‹_› hp
      · exact .goto rfl fun htask hp => .noDefault (htask ▸ hphase) ‹_› hp
    · cases h
  | begin u =>
    simp only [step] at h
    split at h
    · rename_i a hphase
      split at h
      · obtain ⟨session, _, rfl⟩ := Option.map_eq_some_iff.mp h
        let y : Supervised σ := { x with session, holder := some u }
        exact Turn.goto (show y.task = x.task from rfl) fun htask hp => .begun (htask ▸ hphase) hp
      · cases h
    · cases h

/-- Why the supervisor waits for the next signal. -/
inductive Quits (s : Swappable σ ε) (x : Supervised σ) : Prop where
  | superseded (hgeneration : s.generation x.session ≠ x.signal)
  | nothing (hphase : x.task .supervisor = .call .readDefault)
      (hdefault : s.defaultTarget x.session = none)
  | returned {a : Attempt} (hphase : x.task .supervisor = .call (.hold a))
      (hreturning : s.returning x.session = true)

theorem quits_of_step (hnever : ∀ desired, x.task .supervisor ≠ .compare desired)
    (h : step s x e = some x') (hbusy : x.task .supervisor ≠ .done)
    (hdone : x'.task .supervisor = .done) : Quits s x := by
  cases turn_of_step h (t := .supervisor) with
  | kept hkept => exact absurd (hkept.symm.trans hdone) hbusy
  | supervised _ hlook =>
    rw [hlook, supervise] at hdone
    split at hdone
    · exact .superseded ‹_›
    · split at hdone <;> cases hdone
  | compared hphase => exact absurd hphase (hnever _)
  | noDefault hphase hdefault => exact .nothing hphase hdefault
  | returned hphase hreturning => exact .returned hphase hreturning
  | failed _ hfailed =>
    -- a call that fails sends the supervisor back to its check
    rw [hfailed, failed, goto_same] at hdone
    cases hdone
  | found htask => exact absurd rfl htask
  | spawned htask => cases htask
  | received _ hphase | readOrder _ _ hphase | readDefault _ _ hphase | begun _ hphase
  | next _ _ hphase => cases hphase.symm.trans hdone

end Inversion

/-! ## Swaps that can begin -/

/-- A call that waits for the lock, or holds it, has a swap that can begin. -/
theorem Supervision.ready_of_step {s : Swappable σ ε} {Start : σ → Prop} (l : Supervision s Start)
    {x x' : Supervised σ} {e : SwapEvent ε} {t : SwapTaskId} (hinv : l.Inv x.session)
    (hready : ∀ a, x.task t = .call (.wait a) ∨ x.task t = .call (.hold a) → l.ready x.session a)
    (hstep : x.step s e = some x') {a : Attempt}
    (hphase : x'.task t = .call (.wait a) ∨ x'.task t = .call (.hold a)) :
    l.ready x'.session a := by
  have hkept : l.ready x.session a → l.ready x'.session a := by
    intro ha
    rcases session_of_step hstep with hsame | ⟨f, hf⟩
    · rwa [hsame]
    · exact l.kept _ _ _ _ hinv hf ha
  apply hkept
  have hmoves := moves_of_step hstep t
  generalize x'.task t = p at hmoves hphase
  cases hmoves with
  | same => exact hready a hphase
  | failover _ _ _ _ _ hcall =>
    rcases hcall with ⟨_, rfl⟩ | ⟨_, _, rfl⟩ <;> rcases hphase with hphase | hphase <;> cases hphase
  | reconcile _ hcall =>
    rcases hcall with rfl | ⟨_, _, rfl⟩ <;> rcases hphase with hphase | hphase <;> cases hphase
  | readOrder _ _ hget =>
    rcases hphase with hphase | hphase <;> cases hphase
    exact l.readOrder _ _ _ _ hinv hget
  | readDefault _ _ hdefault =>
    rcases hphase with hphase | hphase <;> cases hphase
    exact l.readDefault _ _ hdefault
  | begin hbefore =>
    rcases hphase with hphase | hphase <;> cases hphase
    exact hready a (Or.inl hbefore)
  | next hbefore hnext =>
    rcases hphase with hphase | hphase <;> cases hphase
    exact l.next _ _ _ (hready _ (Or.inr hbefore)) hnext
  | _ => rcases hphase with hphase | hphase <;> cases hphase

/-- A task that is in a call has a step to make, or waits for a swap to end. -/
theorem Supervision.call_goes {s : Swappable σ ε} {Start : σ → Prop} (l : Supervision s Start)
    {x : Supervised σ} {t : SwapTaskId} {c : Call} (hlocked : Locked s x)
    (hready : ∀ a, x.task t = .call (.wait a) → l.ready x.session a)
    (hphase : x.task t = .call c) :
    (x.step s (.read t)).isSome = true ∨ (x.step s (.begin t)).isSome = true ∨
      s.unlocked x.session = false := by
  cases c with
  | readOrder | readDefault =>
    left
    simp only [Supervised.step, hphase, Option.isSome_some]
  | wait a =>
    right
    cases hunlocked : s.unlocked x.session with
    | false => exact Or.inr rfl
    | true =>
      left
      obtain ⟨f, r', hbegin, hbegins⟩ := l.begins x.session t a (hready a hphase) hunlocked
      simp only [Supervised.step, hphase, hunlocked, if_true, hbegin, Option.bind_some, hbegins,
        Option.map_some, Option.isSome_some]
  | hold a => exact Or.inr (Or.inr (hlocked _ a hphase).2)

/-! ## The invariant -/

/-- What holds of the supervisor, whose signals are about upstreams that have been installed.  A
call that is past the install of its swap has superseded its signal. -/
structure Watchful {s : Swappable σ ε} {Start : σ → Prop} (l : Supervision s Start)
    (x : Supervised σ) (ended : List Nat) : Prop where
  session : l.Inv x.session
  locked : Locked s x
  bounded : ∀ g ∈ ended, g ≤ s.generation x.session
  died : ∀ g ∈ x.died, g ≤ s.generation x.session
  signal : x.signal ≤ s.generation x.session
  installed : ∀ a, x.task .supervisor = .call (.hold a) → l.past x.session →
    x.signal < s.generation x.session
  resolves : x.task .supervisor ≠ .resolve
  compares : ∀ desired, x.task .supervisor ≠ .compare desired
  default : x.task .supervisor = .call .readDefault → (s.defaultTarget x.session).isSome = true
  ready : ∀ a, x.task .supervisor = .call (.wait a) ∨ x.task .supervisor = .call (.hold a) →
    l.ready x.session a
  pursued : s.generation x.session ∈ ended → Pursues s x

namespace Watchful

variable {s : Swappable σ ε} {Start : σ → Prop} {l : Supervision s Start} {x x' : Supervised σ}
  {e : SwapEvent ε} {ended : List Nat}

/-- A property that every step of the session keeps. -/
theorem keeps {P : σ → Prop} (h : Watchful l x ended) (hstep : x.step s e = some x')
    (hP : ∀ r f r', l.Inv r → s.step r f = some r' → P r → P r') (hx : P x.session) :
    P x'.session := by
  rcases session_of_step hstep with hsame | ⟨f, hf⟩
  · rwa [hsame]
  · exact hP _ _ _ h.session hf hx

theorem rises (h : Watchful l x ended) (hstep : x.step s e = some x') :
    s.generation x.session ≤ s.generation x'.session :=
  h.keeps (P := fun r => s.generation x.session ≤ s.generation r) hstep
    (fun r f r' hinv hf hle => le_trans hle (l.rises r f r' hinv hf)) (le_refl _)

theorem bounded_step (h : Watchful l x ended) (hguard : ReadersInstalled s x e) :
    ∀ g ∈ noteEnded x e ended, g ≤ s.generation x.session := by
  intro g hg
  cases e with
  | died g' =>
    rcases List.mem_append.mp hg with hold | hnew
    · exact h.bounded g hold
    · rw [List.mem_singleton.mp hnew]
      exact hguard
  | _ => exact h.bounded g hg

theorem died_step (h : Watchful l x ended) (hguard : ReadersInstalled s x e)
    (hstep : x.step s e = some x') : ∀ g ∈ x'.died, g ≤ s.generation x.session := by
  intro g hg
  cases signals_of_step hstep with
  | ended he hdied =>
    subst he
    rw [hdied] at hg
    rcases List.mem_append.mp hg with hold | hnew
    · exact h.died g hold
    · rw [List.mem_singleton.mp hnew]
      exact hguard
  | stale _ hdied | taken _ hdied =>
    exact h.died g (by rw [hdied]; exact List.mem_cons_of_mem _ hg)
  | kept _ _ hdied =>
    rw [hdied] at hg
    exact h.died g hg

theorem signal_step (h : Watchful l x ended) (hstep : x.step s e = some x') :
    x'.signal ≤ s.generation x.session := by
  cases signals_of_step hstep with
  | ended he =>
    rw [signal_kept hstep (by rw [he]; rintro ⟨⟩)]
    exact h.signal
  | stale _ hdied _ hsignal | taken _ hdied _ hsignal =>
    rw [hsignal]
    apply h.died
    rw [hdied]
    exact List.mem_cons_self
  | kept _ he =>
    rw [signal_kept hstep he]
    exact h.signal

theorem installed_step (h : Watchful l x ended) (hstep : x.step s e = some x') {a : Attempt}
    (hhold : x'.task .supervisor = .call (.hold a)) (hpast : l.past x'.session) :
    x'.signal < s.generation x'.session := by
  have hrises := h.rises hstep
  have hsignal := h.signal_step hstep
  rcases (moves_of_step hstep .supervisor).hold hhold with hold | ⟨hbegin, hwait⟩
  · have hkept : x'.signal = x.signal := signal_of_step hstep (by rw [hold]; rintro ⟨⟩)
    have hbefore : l.past x.session → x'.signal < s.generation x'.session := by
      intro hx
      have hinstalled := h.installed a hold hx
      omega
    rcases session_of_step hstep with hsame | ⟨f, hf⟩
    · rw [hsame] at hpast
      exact hbefore hpast
    · rcases l.installs _ _ _ h.session hf hpast with hx | hnew
      · exact hbefore hx
      · omega
  · subst hbegin
    cases kind_of_step hstep with
    | begin _ _ _ hbegin hbegins => exact absurd hpast (l.begun _ _ _ _ _ hbegin hbegins)
    | session he => cases he
    | tick he => cases he
    | receive he => cases he
    | quiet hnot => exact absurd rfl (hnot _)

theorem resolves_step (h : Watchful l x ended) (hstep : x.step s e = some x') :
    x'.task .supervisor ≠ .resolve := by
  intro hresolve
  have hmoves := moves_of_step hstep .supervisor
  rw [hresolve] at hmoves
  generalize hp : Phase.resolve = p at hmoves
  cases hmoves with
  | same => exact h.resolves hp.symm
  | resolve htask => cases htask
  | failover _ _ _ _ _ hcall => rcases hcall with ⟨_, rfl⟩ | ⟨_, _, rfl⟩ <;> cases hp
  | reconcile _ hcall => rcases hcall with rfl | ⟨_, _, rfl⟩ <;> cases hp
  | _ => cases hp

theorem default_step (h : Watchful l x ended) (hstep : x.step s e = some x')
    (hread : x'.task .supervisor = .call .readDefault) :
    (s.defaultTarget x'.session).isSome = true := by
  refine h.keeps (P := fun r => (s.defaultTarget r).isSome = true) hstep
    (fun r f r' hinv hf => l.default r f r' hinv hf) ?_
  have hmoves := moves_of_step hstep .supervisor
  rw [hread] at hmoves
  generalize hp : Phase.call .readDefault = p at hmoves
  cases hmoves with
  | same => exact h.default hp.symm
  | failover _ _ _ _ _ hcall =>
    rcases hcall with ⟨hidle, _⟩ | ⟨_, _, rfl⟩
    · exact l.idle _ h.session hidle
    · cases hp
  | reconcile hphase => exact absurd hphase (h.compares _)
  | _ => cases hp

theorem ready_step (h : Watchful l x ended) (hstep : x.step s e = some x') {a : Attempt}
    (hphase : x'.task .supervisor = .call (.wait a) ∨ x'.task .supervisor = .call (.hold a)) :
    l.ready x'.session a :=
  l.ready_of_step h.session h.ready hstep hphase

/-- The supervisor gives no signal up whose upstream is still the active one. -/
theorem not_quits (h : Watchful l x ended) (hsignal : x.signal = s.generation x.session) :
    ¬Quits s x := by
  intro hquits
  cases hquits with
  | superseded hgeneration => exact hgeneration hsignal.symm
  | nothing hphase hdefault =>
    have hsome := h.default hphase
    rw [hdefault] at hsome
    cases hsome
  | returned hphase hreturning =>
    have hinstalled := h.installed _ hphase (l.returned _ hreturning)
    omega

theorem pursued_step (h : Watchful l x ended) (hguard : ReadersInstalled s x e)
    (hstep : x.step s e = some x')
    (hended : s.generation x'.session ∈ noteEnded x e ended) : Pursues s x' := by
  -- the reader of an upstream that this step installs cannot have ended
  have hsame : s.generation x'.session = s.generation x.session := by
    have hle := h.bounded_step hguard _ hended
    have hrises := h.rises hstep
    omega
  rw [hsame] at hended
  unfold Pursues
  rw [hsame]
  cases signals_of_step hstep with
  | ended he hdied hframe htask =>
    subst he
    rw [hdied, hframe.signal, htask]
    rcases List.mem_append.mp hended with hold | hnew
    · rcases h.pursued hold with hqueued | hbusy
      · exact Or.inl (List.mem_append_left _ hqueued)
      · exact Or.inr hbusy
    · exact Or.inl (List.mem_append_right _ hnew)
  | stale he hdied _ _ hidle hstale =>
    subst he
    left
    rcases h.pursued hended with hqueued | ⟨_, hbusy⟩
    · rw [hdied] at hqueued
      rcases List.mem_cons.mp hqueued with heq | hrest
      · exact absurd heq hstale
      · exact hrest
    · exact absurd hidle hbusy
  | taken _ _ _ hsignal hactive hphase =>
    refine Or.inr ⟨hsignal.trans hactive.symm, ?_⟩
    rw [hphase]
    rintro ⟨⟩
  | kept hnone he hdied =>
    have hkept : noteEnded x e ended = ended := by
      cases e with
      | died g => exact absurd rfl (hnone g)
      | _ => rfl
    rw [hkept] at hended
    rw [hdied, signal_kept hstep he]
    rcases h.pursued hended with hqueued | ⟨hsignal, hbusy⟩
    · exact Or.inl hqueued
    · refine Or.inr ⟨hsignal, fun hdone => ?_⟩
      exact h.not_quits hsignal (quits_of_step h.compares hstep hbusy hdone)

theorem step (h : Watchful l x ended) (hguard : ReadersInstalled s x e)
    (hstep : x.step s e = some x') : Watchful l x' (noteEnded x e ended) where
  session := h.keeps (P := l.Inv) hstep (fun r f r' _ hf hinv => l.inv r f r' hinv hf) h.session
  locked := h.locked.step l.locks hstep
  bounded g hg := le_trans (h.bounded_step hguard g hg) (h.rises hstep)
  died g hg := le_trans (h.died_step hguard hstep g hg) (h.rises hstep)
  signal := le_trans (h.signal_step hstep) (h.rises hstep)
  installed _ hhold hpast := h.installed_step hstep hhold hpast
  resolves := h.resolves_step hstep
  compares := never_compares_of_step h.compares hstep
  default := h.default_step hstep
  ready _ hphase := h.ready_step hstep hphase
  pursued := h.pursued_step hguard hstep

theorem fresh {session : σ} (hinv : l.Inv session) (now : Int) :
    Watchful l (fresh session now) [] where
  session := hinv
  locked := .fresh session now
  bounded _ hg := absurd hg List.not_mem_nil
  died _ hg := absurd hg List.not_mem_nil
  signal := Nat.zero_le _
  installed _ hhold := by cases hhold
  resolves := by rintro ⟨⟩
  compares _ := by rintro ⟨⟩
  default := by rintro ⟨⟩
  ready _ hphase := by rcases hphase with hphase | hphase <;> cases hphase
  pursued hended := absurd hended List.not_mem_nil

theorem of_reaches (l : Supervision s Start) (h : ReachesEnded s Start x ended) :
    Watchful l x ended := by
  obtain ⟨session, now, hstart, hrun⟩ := h
  refine hrun.invariant (I := fun z => Watchful l z.1 z.2) (.fresh (l.start session hstart) now) ?_
  intro z e z' hz hguard hstep
  obtain ⟨hsteps, hnote⟩ := observed_eq_some.mp hstep
  rw [hnote]
  exact hz.step hguard hsteps

/-- A supervisor that pursues a signal is not stuck. -/
theorem canGoOn (h : Watchful l x ended) (hpursues : Pursues s x) : CanGoOn s x := by
  unfold CanGoOn supervisorSteps
  cases hphase : x.task .supervisor with
  | done =>
    have hqueued : s.generation x.session ∈ x.died := by
      rcases hpursues with hqueued | ⟨_, hbusy⟩
      · exact hqueued
      · exact absurd hphase hbusy
    obtain ⟨g, died, hdied⟩ := List.exists_cons_of_ne_nil (List.ne_nil_of_mem hqueued)
    refine Or.inl ⟨.receive, by simp, ?_⟩
    simp only [Supervised.step, hdied, hphase, Option.isSome_some]
  | check =>
    refine Or.inl ⟨.check, by simp, ?_⟩
    simp only [Supervised.step, hphase, Option.isSome_some]
  | resolve => exact absurd hphase h.resolves
  | compare desired => exact absurd hphase (h.compares desired)
  | call c =>
    rcases l.call_goes h.locked (fun a ha => h.ready a (Or.inl ha)) hphase with
      hread | hbegin | hlocked
    · exact Or.inl ⟨.read .supervisor, by simp, hread⟩
    · exact Or.inl ⟨.begin .supervisor, by simp, hbegin⟩
    · exact Or.inr hlocked

end Watchful

end Supervised

/-! ## Sessions of either protocol -/

/-- The swap has a pool to begin with. -/
def Attempt.hasPool : Attempt → Bool
  | .order o _ true => o.fallback.isSome
  | .order _ _ false | .default _ => true

theorem Attempt.hasPool_next {a b : Attempt} (h : a.next = some b) : b.hasPool = true := by
  cases a with
  | order o readAt fallback =>
    cases fallback with
    | true => cases h
    | false =>
      simp only [Attempt.next] at h
      split at h <;> cases h
      assumption
  | default target => cases h

theorem Attempt.hasPool_eq {o : Order} {readAt : Int} {fallback : Bool}
    (h : (Attempt.order o readAt fallback).hasPool = true) :
    ∃ target, (if fallback then o.fallback else some o.target) = some target := by
  cases fallback with
  | true => exact Option.isSome_iff_exists.mp h
  | false => exact ⟨o.target, rfl⟩

theorem Order.fallback_of_pools {o o' : Order} (h : o'.pools = o.pools) :
    o'.fallback = o.fallback := by
  have htail : o'.fallback.toList = o.fallback.toList := (List.cons.inj h).2
  rw [← Option.head?_toList (o := o'.fallback), htail, Option.head?_toList]

namespace Sv1

/-- The swap has installed. -/
def SwapTask.past : SwapTask → Bool
  | .installed .. | .repointed _ | .flushing _ => true
  | .idle | .connecting _ => false

theorem past_of_transition {r r' : Relay} {e : Event} (hgen : Generations r)
    (ht : Transition r e r') (hpast : r'.swap.past = true) :
    r.swap.past = true ∨ r.inner.active.generation < r'.inner.active.generation := by
  cases ht with
  | quiet hq =>
    rw [hq.swap] at hpast
    exact Or.inl hpast
  | @install _ snap _ hswap hraw =>
    right
    have hnew := hgen.connecting snap.generation (by simp [hswap])
    simpa [Relay.install] using hnew.1
  | repointLive hswap | repointDrop hswap | takePrelude hswap | swapFlush hswap =>
    left
    rw [hswap]
    rfl
  | swapBegin | swapFailed | swapFlushed => cases hpast
  | _ => exact Or.inl hpast

/-- A step of the store leaves the session alone. -/
theorem Hosted.relay_of_step {h h' : Hosted} {e : HostedEvent} (hstep : h.step e = some h') :
    (∃ f, e = .relay f ∧ Sv1.step h.relay f = some h'.relay) ∨
      ∃ orders, h'.relay = { h.relay with orders } := by
  cases e with
  | relay f =>
    obtain ⟨relay, hrelay, rfl⟩ := Option.map_eq_some_iff.mp hstep
    exact Or.inl ⟨f, rfl, hrelay⟩
  | createOrder order =>
    obtain ⟨s, _, rfl⟩ := Option.map_eq_some_iff.mp hstep
    exact Or.inr ⟨s.pending, rfl⟩
  | cancelOrder orderId now =>
    obtain ⟨⟨o, s⟩, _, rfl⟩ := Option.map_eq_some_iff.mp hstep
    exact Or.inr ⟨s.pending, rfl⟩
  | expireOrders now =>
    cases hstep
    exact Or.inr ⟨_, rfl⟩
  | flushOrders =>
    cases hstep
    exact Or.inr ⟨_, rfl⟩

theorem Generations.withOrders {r : Relay} (h : Generations r) (orders : WorkBuffer) :
    Generations { r with orders } :=
  ⟨h.held, h.tagged, h.counter, h.connecting, h.installed⟩

/-- An SV1 session always has a default pool. -/
def supervision : Supervised.Supervision swappable Established where
  Inv h := Generations h.relay
  past h := h.relay.swap.past = true
  ready _ a := a.hasPool = true
  locks := swappable_takesLock
  start h hstart := by
    obtain ⟨_, target, peer, orders, answer, hstart⟩ := hstart
    exact .start hstart
  inv h e h' hinv hstep := by
    rcases Hosted.relay_of_step hstep with ⟨f, _, hf⟩ | ⟨orders, heq⟩
    · exact hinv.step hf
    · rw [heq]
      exact hinv.withOrders orders
  rises h e h' hinv hstep := by
    show h.relay.inner.active.generation ≤ h'.relay.inner.active.generation
    rcases Hosted.relay_of_step hstep with ⟨f, _, hf⟩ | ⟨orders, heq⟩
    · exact (transition_of_step hf).generation_le hinv
    · rw [heq]
  installs h e h' hinv hstep hpast := by
    rcases Hosted.relay_of_step hstep with ⟨f, _, hf⟩ | ⟨orders, heq⟩
    · exact past_of_transition hinv (transition_of_step hf) hpast
    · rw [heq] at hpast
      exact Or.inl hpast
  returned h hreturning := by
    have hswap : h.relay.swap.returning = true := hreturning
    revert hswap
    cases h.relay.swap with
    | flushing lines => exact fun _ => rfl
    | _ => rintro ⟨⟩
  begun h t a e h' hbegin hstep := by
    have hlocked := swappable_takesLock _ _ _ _ _ hbegin hstep
    have hbegins : ∃ target routing, e = .relay (.swapBegin target routing) := by
      cases a with
      | order o readAt fallback =>
        obtain ⟨target, _, rfl⟩ := Option.map_eq_some_iff.mp hbegin
        exact ⟨_, _, rfl⟩
      | default target =>
        cases hbegin
        exact ⟨_, _, rfl⟩
    obtain ⟨target, routing, rfl⟩ := hbegins
    obtain ⟨relay, hrelay, rfl⟩ := Option.map_eq_some_iff.mp hstep
    simp only [step] at hrelay
    split at hrelay <;> cases hrelay
    rintro ⟨⟩
  idle _ _ _ := rfl
  default _ _ _ _ _ _ := rfl
  kept _ _ _ _ _ _ hready := hready
  readOrder _ _ _ _ _ _ := rfl
  readDefault _ _ _ := rfl
  next _ _ _ _ hnext := Attempt.hasPool_next hnext
  begins h t a hready hunlocked := by
    have hidle : h.relay.swap = .idle := by
      have hfree : h.relay.swap.isIdle = true := hunlocked
      revert hfree
      cases h.relay.swap with
      | idle => exact fun _ => rfl
      | _ => rintro ⟨⟩
    have hstep : ∀ target routing, ∃ h',
        Hosted.step h (.relay (.swapBegin target routing)) = some h' := by
      intro target routing
      simp only [Hosted.step, step, hidle, Option.map_some]
      exact ⟨_, rfl⟩
    cases a with
    | order o readAt fallback =>
      obtain ⟨target, htarget⟩ := Attempt.hasPool_eq hready
      obtain ⟨h', hh'⟩ := hstep target (.rented o.id)
      refine ⟨.relay (.swapBegin target (.rented o.id)), h', ?_, hh'⟩
      show Option.map _ _ = _
      rw [htarget]
      rfl
    | default target =>
      obtain ⟨h', hh'⟩ := hstep target .idle
      exact ⟨_, h', rfl, hh'⟩

end Sv1

namespace Sv2

variable {decode : Decoder} {lib : Sv1Library} {r r' : Rig} {e : Event}

/-- The swap has installed. -/
def SwapTask.past : SwapTask → Bool
  | .repointing .. => true
  | .idle | .connecting _ | .translating .. => false

theorem past_of_transition (hgen : Generations r) (ht : Transition decode lib r e r')
    (hpast : r'.swap.past = true) :
    r.swap.past = true ∨ r.inner.active.generation < r'.inner.active.generation := by
  cases ht with
  | minerFrame =>
    rw [(SameTasks.submitted ..).swap] at hpast
    exact Or.inl hpast
  | translateCall =>
    rw [(translateCall_sameTasks ..).swap] at hpast
    exact Or.inl hpast
  | @swapReopened infos plan hswap hlength =>
    exact Or.inr (hgen.plan plan (Or.inl hswap)).1
  | @swapTranslated lines plan channel members conn hswap hconn =>
    exact Or.inr (hgen.plan plan (Or.inr ⟨_, _, hswap⟩)).1
  | repoint hswap | notice hswap =>
    left
    rw [hswap]
    rfl
  | swapOrder | swapRevert | swapFailed | swapNotSv2 | repointFailed | swapDone => cases hpast
  | _ => exact Or.inl hpast

/-- The idle pool of a rig is the one that it has started with. -/
theorem defaultTarget_of_transition (ht : Transition decode lib r e r') :
    r'.inner.defaultTarget = r.inner.defaultTarget := by
  cases ht with
  | attach => exact (forwardOpen_upstream ..).defaultTarget
  | openChannel => exact (openChannel_upstream ..).defaultTarget
  | minerFrame =>
    rw [Rig.submitted_inner]
    exact (minerFrame_upstream ..).defaultTarget
  | upstreamFrame => exact (onUpstreamFrame_upstream ..).defaultTarget
  | translateCall => exact (translateCall_sameRig ..).upstream.defaultTarget
  | _ => rfl

/-- No step changes the pools of an order. -/
theorem samePools_of_transition (ht : Transition decode lib r e r') :
    OrderStore.SamePools r.store r'.store := by
  have hrows : r'.store.rows = r.store.rows → OrderStore.SamePools r.store r'.store := by
    intro h
    exact .of_map id (by rw [h, List.map_id]) (fun _ => rfl) fun _ => rfl
  cases ht with
  | store hstep => exact hstep.samePools
  | @minerFrame member frame =>
    apply hrows
    cases (minerFrame frame r.inner).2 <;> rfl
  | @translateCall member cid written now state call =>
    apply hrows
    cases call <;> rfl
  | _ => exact hrows rfl

/-- The order is in the store with these pools, or there is an idle pool. -/
def Rig.CanBegin (r : Rig) (a : Attempt) : Prop :=
  a.hasPool = true ∧ match a with
    | .order o _ _ => ∃ o', r.store.get o.id = some o' ∧ o'.pools = o.pools
    | .default _ => r.inner.defaultTarget.isSome = true

theorem Rig.CanBegin.step {a : Attempt} (h : r.CanBegin a) (ht : Transition decode lib r e r') :
    r'.CanBegin a := by
  refine ⟨h.1, ?_⟩
  have hrest := h.2
  cases a with
  | order o readAt fallback =>
    obtain ⟨o', hget, hpools⟩ := hrest
    obtain ⟨o'', hget', hpools'⟩ := samePools_of_transition ht _ _ hget
    exact ⟨o'', hget', hpools'.trans hpools⟩
  | default target =>
    show r'.inner.defaultTarget.isSome = true
    rw [defaultTarget_of_transition ht]
    exact hrest

/-- An idle rig has an idle pool. -/
def supervision (decode : Decoder) (lib : Sv1Library) :
    Supervised.Supervision (swappable decode lib) (Established lib) where
  Inv r := Generations r ∧ Serving r
  past r := r.swap.past = true
  ready := Rig.CanBegin
  locks := swappable_takesLock decode lib
  start r hstart := by
    obtain ⟨worker, spec, store, idlePool, now, failed, answer, hone, hstart⟩ := hstart
    obtain ⟨_, _, _, _, _, hstarted⟩ := start_started hstart
    exact ⟨.of_started hstarted, .start hone hstart⟩
  inv r e r' hinv hstep :=
    ⟨hinv.1.step (transition_of_step hstep), hinv.2.step (transition_of_step hstep)⟩
  rises r e r' hinv hstep := by
    show r.inner.active.generation ≤ r'.inner.active.generation
    rcases hinv.1.route (transition_of_step hstep) with hsame | hnew
    · exact hsame.generation.ge
    · exact le_of_lt hnew
  installs r e r' hinv hstep := past_of_transition hinv.1 (transition_of_step hstep)
  returned r hreturning := by
    have hswap : r.swap.returning = true := hreturning
    revert hswap
    cases r.swap with
    | repointing => exact fun _ => rfl
    | _ => rintro ⟨⟩
  begun r t a e r' hbegin hstep := by
    cases hbegin
    cases a with
    | order o readAt fallback =>
      simp only [swappable, step] at hstep
      split at hstep
      · obtain ⟨target, _, rfl⟩ := Option.map_eq_some_iff.mp hstep
        rintro ⟨⟩
      · cases hstep
    | default target =>
      simp only [swappable, step] at hstep
      split at hstep <;> cases hstep
      rintro ⟨⟩
  idle r hinv hidle := by
    have hactive := hinv.2.active
    have hrouting : r.inner.routing = .idle := hidle
    rw [hrouting] at hactive
    show r.inner.defaultTarget.isSome = true
    rw [show r.inner.defaultTarget = some r.inner.active.target from hactive]
    rfl
  default r e r' _ hstep hsome := by
    show r'.inner.defaultTarget.isSome = true
    rw [defaultTarget_of_transition (transition_of_step hstep)]
    exact hsome
  kept r e r' a _ hstep hready := hready.step (transition_of_step hstep)
  readOrder r id o now _ hget := by
    have hid : o.id = id := (OrderStore.mem_of_get hget).2
    exact ⟨rfl, o, hid ▸ hget, rfl⟩
  readDefault r target hdefault := by
    refine ⟨rfl, ?_⟩
    show r.inner.defaultTarget.isSome = true
    rw [show r.inner.defaultTarget = some target from hdefault]
    rfl
  next r a b hready hnext := by
    refine ⟨Attempt.hasPool_next hnext, ?_⟩
    cases a with
    | order o readAt fallback =>
      cases fallback with
      | true => cases hnext
      | false =>
        simp only [Attempt.next] at hnext
        split at hnext <;> cases hnext
        exact hready.2
    | default target => cases hnext
  begins r t a hready hunlocked := by
    have hidle : r.swap = .idle := by
      have hfree : r.swap.isIdle = true := hunlocked
      revert hfree
      cases r.swap with
      | idle => exact fun _ => rfl
      | _ => rintro ⟨⟩
    obtain ⟨hpool, hrest⟩ := hready
    cases a with
    | order o readAt fallback =>
      obtain ⟨o', hget, hpools⟩ := hrest
      have hpool' : (Attempt.order o' readAt fallback).hasPool = true := by
        cases fallback with
        | true =>
          show o'.fallback.isSome = true
          rw [Order.fallback_of_pools hpools]
          exact hpool
        | false => rfl
      obtain ⟨target, htarget⟩ := Attempt.hasPool_eq hpool'
      refine ⟨_, r.beginSwap (.ofTask t) target (.rented o.id), rfl, ?_⟩
      simp only [swappable, step, hidle, hget, htarget, Option.map_some]
    | default pool =>
      obtain ⟨target, htarget⟩ := Option.isSome_iff_exists.mp hrest
      refine ⟨_, r.beginSwap (.ofTask t) target .idle, rfl, ?_⟩
      simp only [swappable, step, hidle, htarget]

end Sv2

namespace SupervisedSession

open Sv2 (Decoder Sv1Library wireDecoder plainLibrary)

/-- `active.generation`. -/
def generation : SupervisedSession → Nat
  | .sv1 x => x.session.relay.inner.active.generation
  | .sv2 x => x.session.inner.active.generation

/-- The states that are reached while the readers of these generations have ended. -/
def ReachesEnded (decode : Decoder) (lib : Sv1Library) (ended : List Nat) :
    SupervisedSession → Prop
  | .sv1 x => Supervised.ReachesEnded Sv1.swappable Sv1.Established x ended
  | .sv2 x => Supervised.ReachesEnded (Sv2.swappable decode lib) (Sv2.Established lib) x ended

/-- The supervisor will come to the signal of the active upstream, or is busy with it. -/
def Pursues (decode : Decoder) (lib : Sv1Library) : SupervisedSession → Prop
  | .sv1 x => x.Pursues Sv1.swappable
  | .sv2 x => x.Pursues (Sv2.swappable decode lib)

/-- The supervisor has a step to make, or waits for the switch lock. -/
def CanGoOn (decode : Decoder) (lib : Sv1Library) : SupervisedSession → Prop
  | .sv1 x => x.CanGoOn Sv1.swappable
  | .sv2 x => x.CanGoOn (Sv2.swappable decode lib)

/-- Once the reader of the active upstream has ended, and until another upstream is installed, the
supervisor has its signal before it or is busy with it, and is not stuck. -/
theorem dropped_upstream_pursued {decode : Decoder} {lib : Sv1Library} {x : SupervisedSession}
    {ended : List Nat} (h : x.ReachesEnded decode lib ended) (hended : x.generation ∈ ended) :
    x.Pursues decode lib ∧ x.CanGoOn decode lib := by
  cases x with
  | sv1 x =>
    have hwatchful := Supervised.Watchful.of_reaches Sv1.supervision h
    have hpursues := hwatchful.pursued hended
    exact ⟨hpursues, hwatchful.canGoOn hpursues⟩
  | sv2 x =>
    have hwatchful := Supervised.Watchful.of_reaches (Sv2.supervision decode lib) h
    have hpursues := hwatchful.pursued hended
    exact ⟨hpursues, hwatchful.canGoOn hpursues⟩

/-- The pool of the order drops the rig again, while the supervisor still re-points it. -/
theorem dropped_upstream_pursued_again :
    ∃ x : SupervisedSession, x.generation = 1 ∧ x.Pursues wireDecoder plainLibrary ∧
      x.CanGoOn wireDecoder plainLibrary := by
  have hrun : (rentedRig.bind fun r =>
      runWhile (observed (Supervised.step (Sv2.swappable wireDecoder plainLibrary)) noteEnded)
        (fun z e => decide (Supervised.ReadersInstalled
          (Sv2.swappable wireDecoder plainLibrary) z.1 e))
        (.fresh r 0, []) (reconnected ++ [.died 1])).any (fun z =>
          decide (z.1.session.inner.active.generation = 1) && decide (z.2 = [0, 1])) = true := by
    decide +kernel
  obtain ⟨⟨x, ended⟩, hx, hlast⟩ := (Option.any_eq_true ..).mp hrun
  obtain ⟨r₀, hstart, hsteps⟩ := Option.bind_eq_some_iff.mp hx
  simp only [Bool.and_eq_true, decide_eq_true_eq] at hlast
  obtain ⟨hgeneration, rfl⟩ := hlast
  have hone : OrderStore.OneActive { rows := [Sv2.buyerOrder] } := List.pairwise_singleton ..
  have hreach : (SupervisedSession.sv2 x).ReachesEnded wireDecoder plainLibrary [0, 1] :=
    ⟨r₀, 0, ⟨_, _, _, _, _, _, _, hone, hstart⟩,
      .of_runWhile (fun _ _ => of_decide_eq_true) hsteps⟩
  refine ⟨.sv2 x, hgeneration, dropped_upstream_pursued hreach ?_⟩
  show x.session.inner.active.generation ∈ [0, 1]
  rw [hgeneration]
  exact List.mem_cons_of_mem _ List.mem_cons_self

end SupervisedSession

end RentalProxy
