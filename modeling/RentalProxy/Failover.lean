import RentalProxy.Orders
import RentalProxy.Lib.Runs

/-!
# The tasks that swap the upstream of a session

The supervisor of `proto/relay.rs` and `proto/sv2/relay.rs`, the reconcile of a
connection that attaches and the background retry of a failed switch.  All of them
look at the session, decide on a switch, and then wait for its switch lock, so what
they have looked at may be gone by then.

* `Swappable` is what these tasks use of a session.  The sessions of both protocols
  are instances.
* `Call` is a call of `switch_to_order` or `revert`, with the places where it waits.
* `Supervised` is a session with its tasks, and `Supervised.step` one step of a task,
  or of the session.
-/

namespace RentalProxy

open StepSystem

/-! ## Calls -/

/-- One swap that a call wants. -/
inductive Attempt where
  /-- To the target of an order that was read at this time, or to its fallback. -/
  | order (o : Order) (readAt : Int) (fallback : Bool)
  /-- To the default upstream that was read. -/
  | default (target : UpstreamTarget)
deriving DecidableEq

/-- What is tried when the swap fails. -/
def Attempt.next : Attempt → Option Attempt
  | .order o readAt false => if o.fallback.isSome then some (.order o readAt true) else none
  | .order _ _ true | .default _ => none

/-- The order that was read, and when. -/
def Attempt.read : Attempt → Option (Order × Int)
  | .order o readAt _ => some (o, readAt)
  | .default _ => none

/-- Where a call of `switch_to_order` or `revert` stands. -/
inductive Call where
  /-- `switch_to_order` is about to read the order. -/
  | readOrder (orderId : String)
  /-- `revert` is about to read the default upstream. -/
  | readDefault
  /-- `swap_upstream` waits for the switch lock. -/
  | wait (a : Attempt)
  /-- `swap_upstream` holds it. -/
  | hold (a : Attempt)
deriving DecidableEq

/-- The call has not got the lock yet. -/
def Call.pending : Call → Bool
  | .readOrder _ | .readDefault | .wait _ => true
  | .hold _ => false

/-! ## Tasks -/

/-- A task that may swap the upstream. -/
inductive SwapTaskId where
  | supervisor
  /-- The background retry of a failed switch. -/
  | retry
  /-- A connection that is being attached. -/
  | attach (connection : Nat)
deriving DecidableEq

/-- Where a task stands. -/
inductive Phase where
  /-- Nothing to do.  The supervisor waits for a signal. -/
  | done
  /-- The supervisor is about to compare the generation and to read the routing. -/
  | check
  /-- The retry is about to look the live order up. -/
  | resolve
  /-- About to compare the live order with the routing. -/
  | compare (desired : Option Order)
  | call (c : Call)
deriving DecidableEq

/-- What the tasks use of a session. -/
structure Swappable (σ ε : Type) where
  step : σ → ε → Option σ
  /-- `active.generation`. -/
  generation : σ → Nat
  routing : σ → Routing
  /-- The worker that orders are looked up for. -/
  worker : σ → String
  defaultTarget : σ → Option UpstreamTarget
  store : σ → OrderStore
  /-- Nobody holds the switch lock. -/
  unlocked : σ → Bool
  /-- All that is left of the swap is to return. -/
  returning : σ → Bool
  /-- How a task begins a swap. -/
  begin : σ → SwapTaskId → Attempt → Option ε
  /-- Steps that tasks only take in a call. -/
  inCall : ε → Bool
  /-- Connections are attached to a session that others use. -/
  bundles : Bool

/-- A session with its tasks. -/
structure Supervised (σ : Type) where
  session : σ
  now : Int
  /-- The generations whose readers have ended, for the supervisor. -/
  died : List Nat
  /-- The signal that the supervisor has taken. -/
  signal : Nat
  task : SwapTaskId → Phase
  /-- The task that holds the switch lock. -/
  holder : Option SwapTaskId
  /-- The orders that calls have read before they installed, with the time of the
  read. -/
  routed : List (Order × Int)

/-- A step of a task, or of the session. -/
inductive SwapEvent (ε : Type) where
  /-- A step of the session, which may be the next step of a swap. -/
  | session (e : ε)
  | tick (now : Int)
  /-- The reader of a generation ends. -/
  | died (generation : Nat)
  /-- The supervisor takes a signal. -/
  | receive
  /-- The supervisor looks whether there is still something to do. -/
  | check
  /-- A connection resolves the live order. -/
  | attach (connection : Nat)
  /-- The retry resolves the live order. -/
  | resolve
  /-- The live order is compared with the routing. -/
  | compare (t : SwapTaskId)
  /-- A call reads the order or the default upstream. -/
  | read (t : SwapTaskId)
  /-- A call takes the switch lock. -/
  | begin (t : SwapTaskId)

namespace Supervised

variable {σ ε : Type}

/-- The task goes on at this phase. -/
def goto (x : Supervised σ) (t : SwapTaskId) (p : Phase) : Supervised σ :=
  { x with task := Function.update x.task t p }

/-- The call has returned an error. -/
def failed (x : Supervised σ) (t : SwapTaskId) (toOrder : Bool) : Supervised σ :=
  match t with
  | .supervisor => x.goto t .check
  | .retry => x.goto t .resolve
  | .attach _ =>
    -- `spawn_switch_retry` starts one retry at a time
    if toOrder ∧ x.task .retry = .done then (x.goto t .done).goto .retry .resolve
    else x.goto t .done

/-- The swap has returned. -/
def returned (x : Supervised σ) (t : SwapTaskId) (a : Attempt) (ok : Bool) : Supervised σ :=
  if ok then x.goto t .done
  else match a.next with
    | some b => x.goto t (.call (.wait b))
    | none => x.failed t a.read.isSome

/-- The swap of the task has installed. -/
def installed (x : Supervised σ) (a : Attempt) : Supervised σ :=
  { x with routed := x.routed ++ a.read.toList }

/-- The session has made a step, which may have installed the swap of the task that
holds the lock, or ended it. -/
def advance (s : Swappable σ ε) (x : Supervised σ) (session : σ) : Supervised σ :=
  let y : Supervised σ := { x with session }
  match x.holder with
  | none => y
  | some t =>
    match x.task t with
    | .call (.hold a) =>
      let y := if s.generation session ≠ s.generation x.session then y.installed a else y
      if s.unlocked session then { y with holder := none }.returned t a (s.returning x.session)
      else y
    | _ => y

/-- The look of the supervisor at generation and routing. -/
def supervise (s : Swappable σ ε) (x : Supervised σ) : Phase :=
  if s.generation x.session ≠ x.signal then .done
  else match s.routing x.session with
    | .rented id => .call (.readOrder id)
    | .idle => .call .readDefault

/-- `reconcile_routing`, and the round of the retry: what is to be done about the
live order. -/
def reconcile (s : Swappable σ ε) (x : Supervised σ) (t : SwapTaskId) (desired : Option Order) :
    Phase :=
  match desired, (s.routing x.session).orderId? with
  | some o, current => if current ≠ some o.id then .call (.readOrder o.id) else .done
  | none, some _ => if t = .retry then .done else .call .readDefault
  | none, none => .done

/-- The live order of the worker. -/
def liveOrder (s : Swappable σ ε) (x : Supervised σ) : Option Order :=
  (s.store x.session).activeForWorker (s.worker x.session) x.now

/-- One step. -/
def step (s : Swappable σ ε) (x : Supervised σ) : SwapEvent ε → Option (Supervised σ)
  | .session e => if s.inCall e then none else (s.step x.session e).map (x.advance s)
  | .tick now => if x.now ≤ now then some { x with now } else none
  | .died g => some { x with died := x.died ++ [g] }
  | .receive =>
    match x.died, x.task .supervisor with
    | g :: died, .done =>
      let y := { x with died, signal := g }
      some (if s.generation x.session ≠ g then y else y.goto .supervisor .check)
    | _, _ => none
  | .check =>
    match x.task .supervisor with
    | .check => some (x.goto .supervisor (x.supervise s))
    | _ => none
  | .attach n =>
    if s.bundles ∧ x.task (.attach n) = .done then
      some (x.goto (.attach n) (.compare (x.liveOrder s)))
    else none
  | .resolve =>
    match x.task .retry with
    | .resolve => some (x.goto .retry (.compare (x.liveOrder s)))
    | _ => none
  | .compare t =>
    match x.task t with
    | .compare desired => some (x.goto t (x.reconcile s t desired))
    | _ => none
  | .read t =>
    match x.task t with
    | .call (.readOrder id) =>
      some (match (s.store x.session).get id with
        | some o => x.goto t (.call (.wait (.order o x.now false)))
        | none => x.failed t true)
    | .call .readDefault =>
      some (match s.defaultTarget x.session with
        | some target => x.goto t (.call (.wait (.default target)))
        | none => x.goto t .done)
    | _ => none
  | .begin t =>
    match x.task t with
    | .call (.wait a) =>
      if s.unlocked x.session then
        ((s.begin x.session t a).bind (s.step x.session)).map fun session =>
          { x with session, holder := some t }.goto t (.call (.hold a))
      else none
    | _ => none

/-- The session when its supervisor starts. -/
def fresh (session : σ) (now : Int) : Supervised σ where
  session
  now
  died := []
  signal := 0
  task _ := .done
  holder := none
  routed := []

/-- The states that a session with its tasks can reach, along steps that meet `G`. -/
def ReachesUnder (s : Swappable σ ε) (Start : σ → Prop)
    (G : Supervised σ → SwapEvent ε → Prop) (x : Supervised σ) : Prop :=
  ∃ session now, Start session ∧ Run (step s) G (fresh session now) x

/-! ## What a step can do -/

section Inversion

variable {s : Swappable σ ε} {x x' : Supervised σ} {e : SwapEvent ε}

@[simp] theorem goto_session (t : SwapTaskId) (p : Phase) : (x.goto t p).session = x.session := rfl
@[simp] theorem goto_now (t : SwapTaskId) (p : Phase) : (x.goto t p).now = x.now := rfl
@[simp] theorem goto_holder (t : SwapTaskId) (p : Phase) : (x.goto t p).holder = x.holder := rfl
@[simp] theorem goto_signal (t : SwapTaskId) (p : Phase) : (x.goto t p).signal = x.signal := rfl
@[simp] theorem goto_routed (t : SwapTaskId) (p : Phase) : (x.goto t p).routed = x.routed := rfl
@[simp] theorem goto_same (t : SwapTaskId) (p : Phase) : (x.goto t p).task t = p :=
  Function.update_self ..
theorem goto_ne {t u : SwapTaskId} (h : u ≠ t) (p : Phase) : (x.goto t p).task u = x.task u :=
  Function.update_of_ne h ..

/-- Everything but the phases is the same. -/
structure SameBut (x x' : Supervised σ) : Prop where
  session : x'.session = x.session
  now : x'.now = x.now
  holder : x'.holder = x.holder
  signal : x'.signal = x.signal
  routed : x'.routed = x.routed

theorem failed_same (x : Supervised σ) (t : SwapTaskId) (toOrder : Bool) :
    SameBut x (x.failed t toOrder) := by
  unfold failed
  split
  · exact ⟨rfl, rfl, rfl, rfl, rfl⟩
  · exact ⟨rfl, rfl, rfl, rfl, rfl⟩
  · split <;> exact ⟨rfl, rfl, rfl, rfl, rfl⟩

theorem returned_same (x : Supervised σ) (t : SwapTaskId) (a : Attempt) (ok : Bool) :
    SameBut x (x.returned t a ok) := by
  unfold returned
  split
  · exact ⟨rfl, rfl, rfl, rfl, rfl⟩
  · split
    · exact ⟨rfl, rfl, rfl, rfl, rfl⟩
    · exact failed_same ..

/-- Clock and signal are not the session's. -/
theorem advance_frame (s : Swappable σ ε) (x : Supervised σ) (session : σ) :
    (x.advance s session).session = session ∧ (x.advance s session).now = x.now ∧
      (x.advance s session).signal = x.signal := by
  unfold advance
  split
  · exact ⟨rfl, rfl, rfl⟩
  · split
    · dsimp only
      split
      · rw [(returned_same ..).session, (returned_same ..).now, (returned_same ..).signal]
        split <;> exact ⟨rfl, rfl, rfl⟩
      · split <;> exact ⟨rfl, rfl, rfl⟩
    · exact ⟨rfl, rfl, rfl⟩

@[simp] theorem advance_session (s : Swappable σ ε) (x : Supervised σ) (session : σ) :
    (x.advance s session).session = session := (advance_frame s x session).1

/-- What a step makes of the phase of a task. -/
inductive Moves (s : Swappable σ ε) (x : Supervised σ) (e : SwapEvent ε) (x' : Supervised σ)
    (t : SwapTaskId) : Phase → Prop where
  | same : Moves s x e x' t (x.task t)
  | done : Moves s x e x' t .done
  | check (htask : t = .supervisor) : Moves s x e x' t .check
  | resolve (htask : t = .retry)
      (hbusy : x.task t ≠ .done ∨ ∃ n, x.task (.attach n) ≠ .done) : Moves s x e x' t .resolve
  | compare (htask : t ≠ .supervisor) (hsame : SameBut x x')
      (hstart : s.bundles = true ∨ x.task t = .resolve) :
      Moves s x e x' t (.compare (x.liveOrder s))
  | failover {p : Phase} (htask : t = .supervisor) (hphase : x.task t = .check)
      (he : e = .check) (hsame : SameBut x x') (hgeneration : s.generation x.session = x.signal)
      (hcall : (s.routing x.session = .idle ∧ p = .call .readDefault) ∨
        ∃ id, s.routing x.session = .rented id ∧ p = .call (.readOrder id)) : Moves s x e x' t p
  | reconcile {p : Phase} {desired : Option Order} (hphase : x.task t = .compare desired)
      (hcall : p = .call .readDefault ∨ ∃ o, desired = some o ∧ p = .call (.readOrder o.id)) :
      Moves s x e x' t p
  | readOrder {id : String} {o : Order} (he : e = .read t)
      (hphase : x.task t = .call (.readOrder id)) (hget : (s.store x.session).get id = some o) :
      Moves s x e x' t (.call (.wait (.order o x.now false)))
  | readDefault {target : UpstreamTarget} (he : e = .read t)
      (hphase : x.task t = .call .readDefault)
      (hdefault : s.defaultTarget x.session = some target) :
      Moves s x e x' t (.call (.wait (.default target)))
  | begin {a : Attempt} (hphase : x.task t = .call (.wait a)) (he : e = .begin t) :
      Moves s x e x' t (.call (.hold a))
  | next {a b : Attempt} {f : ε} (hphase : x.task t = .call (.hold a)) (hnext : a.next = some b)
      (he : e = .session f) (hholder : x.holder = some t)
      (hended : s.unlocked x'.session = true) (hfailed : s.returning x.session = false) :
      Moves s x e x' t (.call (.wait b))

/-- A task that goes on, while the others stay where they are. -/
theorem Moves.goto {y : Supervised σ} (hy : y.task = x.task) {u : SwapTaskId} {p : Phase}
    (hp : Moves s x e x' u p) (t : SwapTaskId) : Moves s x e x' t ((y.goto u p).task t) := by
  by_cases h : t = u
  · subst h
    rwa [goto_same]
  · rw [goto_ne h, hy]
    exact .same

theorem Moves.failed {y : Supervised σ} (hy : y.task = x.task) {u : SwapTaskId}
    (hu : x.task u ≠ .done) (toOrder : Bool) (t : SwapTaskId) :
    Moves s x e x' t ((y.failed u toOrder).task t) := by
  unfold Supervised.failed
  split
  · exact .goto hy (.check rfl) t
  · exact .goto hy (.resolve rfl (Or.inl hu)) t
  · split
    · by_cases h : t = .retry
      · subst h
        rw [goto_same]
        exact .resolve rfl (Or.inr ⟨_, hu⟩)
      · rw [goto_ne h]
        exact .goto hy .done t
    · exact .goto hy .done t

/-- What a step does, up to the phases of the tasks. -/
inductive StepKind (s : Swappable σ ε) (x : Supervised σ) (e : SwapEvent ε) (x' : Supervised σ) :
    Prop where
  | session {f : ε} {session : σ} (he : e = .session f) (hcall : s.inCall f = false)
      (hstep : s.step x.session f = some session) (hadvance : x.advance s session = x')
  | begin {t : SwapTaskId} {a : Attempt} {f : ε} (he : e = .begin t)
      (hphase : x.task t = .call (.wait a)) (hunlocked : s.unlocked x.session = true)
      (hbegin : s.begin x.session t a = some f) (hstep : s.step x.session f = some x'.session)
      (hholder : x'.holder = some t) (hsame : x'.now = x.now ∧ x'.signal = x.signal)
      (hrouted : x'.routed = x.routed)
  | tick {now : Int} (he : e = .tick now) (hle : x.now ≤ now) (htick : { x with now } = x')
  | receive (he : e = .receive) (hidle : x.task .supervisor = .done)
      (hsession : x'.session = x.session ∧ x'.now = x.now)
      (hholder : x'.holder = x.holder) (hrouted : x'.routed = x.routed)
  | quiet (he : ∀ t, e ≠ .begin t) (hsame : SameBut x x')

theorem kind_of_step (h : step s x e = some x') : StepKind s x e x' := by
  cases e with
  | session f =>
    simp only [step] at h
    split at h
    · cases h
    · rename_i hcall
      obtain ⟨session, hsession, heq⟩ := Option.map_eq_some_iff.mp h
      exact .session rfl (by simpa using hcall) hsession heq
  | begin t =>
    simp only [step] at h
    split at h
    · rename_i a hphase
      split at h
      · obtain ⟨session, hsession, rfl⟩ := Option.map_eq_some_iff.mp h
        obtain ⟨f, hf, hstep⟩ := Option.bind_eq_some_iff.mp hsession
        exact .begin rfl hphase ‹_› hf hstep rfl ⟨rfl, rfl⟩ rfl
      · cases h
    · cases h
  | tick now =>
    simp only [step] at h
    split at h <;> cases h
    exact .tick rfl ‹_› rfl
  | receive =>
    simp only [step] at h
    split at h
    · rename_i hphase
      cases h
      split <;> exact .receive rfl hphase ⟨rfl, rfl⟩ rfl rfl
    · cases h
  | read t =>
    simp only [step] at h
    split at h
    · cases h
      split
      · exact .quiet (by rintro _ ⟨⟩) ⟨rfl, rfl, rfl, rfl, rfl⟩
      · exact .quiet (by rintro _ ⟨⟩) (failed_same ..)
    · cases h
      split <;> exact .quiet (by rintro _ ⟨⟩) ⟨rfl, rfl, rfl, rfl, rfl⟩
    · cases h
  | died g =>
    cases h
    exact .quiet (by rintro _ ⟨⟩) ⟨rfl, rfl, rfl, rfl, rfl⟩
  | _ =>
    simp only [step] at h
    split at h <;> cases h
    exact .quiet (by rintro _ ⟨⟩) ⟨rfl, rfl, rfl, rfl, rfl⟩

/-- The session makes one step of its own, or stays as it is. -/
theorem session_of_step (h : step s x e = some x') :
    x'.session = x.session ∨ ∃ f, s.step x.session f = some x'.session := by
  cases kind_of_step h with
  | session _ _ hstep hadvance =>
    rw [← hadvance, advance_session]
    exact Or.inr ⟨_, hstep⟩
  | begin _ _ _ _ hstep => exact Or.inr ⟨_, hstep⟩
  | tick _ _ htick =>
    rw [← htick]
    exact Or.inl rfl
  | receive _ _ hsession => exact Or.inl hsession.1
  | quiet _ hsame => exact Or.inl hsame.session

theorem Moves.returned {y : Supervised σ} {f : ε} {a : Attempt} {u : SwapTaskId} {ok : Bool}
    (hy : y.task = x.task) (he : e = .session f) (hphase : x.task u = .call (.hold a))
    (hholder : x.holder = some u) (hended : s.unlocked x'.session = true)
    (hok : ok = s.returning x.session) (t : SwapTaskId) :
    Moves s x e x' t ((y.returned u a ok).task t) := by
  unfold Supervised.returned
  split
  · exact .goto hy .done t
  · rename_i hfailed
    rw [hok, Bool.not_eq_true] at hfailed
    split
    · rename_i b hnext
      exact .goto hy (.next hphase hnext he hholder hended hfailed) t
    · exact .failed hy (by rw [hphase]; rintro ⟨⟩) _ t

theorem Moves.advance {session : σ} {f : ε} (hsession : x'.session = session) (t : SwapTaskId) :
    Moves s x (.session f) x' t ((x.advance s session).task t) := by
  unfold Supervised.advance
  split
  · exact .same
  · rename_i u hholder
    split
    · rename_i a hphase
      dsimp only
      split
      · rename_i hended
        refine .returned ?_ rfl hphase hholder (by rwa [hsession]) rfl t
        split <;> rfl
      · split <;> exact .same
    · exact .same

/-- What a step makes of every task. -/
theorem moves_of_step (h : step s x e = some x') (t : SwapTaskId) :
    Moves s x e x' t (x'.task t) := by
  cases e with
  | session f =>
    simp only [step] at h
    split at h
    · cases h
    · obtain ⟨session, _, heq⟩ := Option.map_eq_some_iff.mp h
      have hmoves := Moves.advance (s := s) (x := x) (f := f)
        (show x'.session = session by rw [← heq, advance_session]) t
      rwa [heq] at hmoves
  | tick now =>
    simp only [step] at h
    split at h <;> cases h
    exact .same
  | died g =>
    cases h
    exact .same
  | receive =>
    simp only [step] at h
    split at h
    · cases h
      split
      · exact .same
      · exact .goto rfl (.check rfl) t
    · cases h
  | check =>
    simp only [step] at h
    split at h <;> cases h
    rename_i hphase
    refine .goto rfl ?_ t
    unfold supervise
    split
    · exact .done
    · rename_i hgeneration
      refine .failover rfl hphase rfl ⟨rfl, rfl, rfl, rfl, rfl⟩ (not_not.mp hgeneration) ?_
      split
      · exact Or.inr ⟨_, ‹_›, rfl⟩
      · exact Or.inl ⟨‹_›, rfl⟩
  | attach n =>
    simp only [step] at h
    split at h <;> cases h
    rename_i hstart
    refine .goto rfl (.compare ?_ ?_ (Or.inl hstart.1)) t
    · rintro ⟨⟩
    · exact ⟨rfl, rfl, rfl, rfl, rfl⟩
  | resolve =>
    simp only [step] at h
    split at h <;> cases h
    rename_i hstart
    refine .goto rfl (.compare ?_ ?_ (Or.inr hstart)) t
    · rintro ⟨⟩
    · exact ⟨rfl, rfl, rfl, rfl, rfl⟩
  | compare u =>
    simp only [step] at h
    split at h <;> cases h
    rename_i desired hphase
    refine .goto rfl ?_ t
    unfold reconcile
    split
    · split
      · exact .reconcile hphase (Or.inr ⟨_, rfl, rfl⟩)
      · exact .done
    · split
      · exact .done
      · exact .reconcile hphase (Or.inl rfl)
    · exact .done
  | read u =>
    simp only [step] at h
    split at h
    · rename_i id hphase
      cases h
      split
      · rename_i o hget
        exact .goto rfl (.readOrder rfl hphase hget) t
      · exact .failed rfl (by rw [hphase]; rintro ⟨⟩) true t
    · rename_i hphase
      cases h
      split
      · rename_i target hdefault
        exact .goto rfl (.readDefault rfl hphase hdefault) t
      · exact .goto rfl .done t
    · cases h
  | begin u =>
    simp only [step] at h
    split at h
    · rename_i a hphase
      split at h
      · obtain ⟨session, hsession, rfl⟩ := Option.map_eq_some_iff.mp h
        exact .goto rfl (.begin hphase rfl) t
      · cases h
    · cases h

/-- The supervisor keeps its signal until it is done. -/
theorem signal_of_step (h : step s x e = some x') (hbusy : x.task .supervisor ≠ .done) :
    x'.signal = x.signal := by
  cases kind_of_step h with
  | session _ _ _ hadvance =>
    rw [← hadvance]
    exact (advance_frame ..).2.2
  | begin _ _ _ _ _ _ hsame => exact hsame.2
  | tick _ _ htick => rw [← htick]
  | receive _ hidle => exact absurd hidle hbusy
  | quiet _ hsame => exact hsame.signal

/-- What a step does to the orders that were routed to. -/
theorem routed_of_step (h : step s x e = some x') : x'.routed = x.routed ∨
    ∃ t a, x.task t = .call (.hold a) ∧ x'.routed = x.routed ++ a.read.toList := by
  cases kind_of_step h with
  | @session f session _ _ _ hadvance =>
    rw [← hadvance]
    unfold advance
    split
    · exact Or.inl rfl
    · rename_i t _
      split
      · rename_i a hphase
        dsimp only
        by_cases hinstall : s.generation session ≠ s.generation x.session
        · refine Or.inr ⟨t, a, hphase, ?_⟩
          rw [if_pos hinstall]
          split
          · rw [(returned_same ..).routed]
            rfl
          · rfl
        · left
          rw [if_neg hinstall]
          split
          · rw [(returned_same ..).routed]
          · rfl
      · exact Or.inl rfl
  | begin _ _ _ _ _ _ _ hrouted => exact Or.inl hrouted
  | tick _ _ htick =>
    rw [← htick]
    exact Or.inl rfl
  | receive _ _ _ _ hrouted => exact Or.inl hrouted
  | quiet _ hsame => exact Or.inl hsame.routed

/-- Where no connection is attached, only the supervisor has something to do. -/
theorem alone_of_step (hbundles : s.bundles = false)
    (halone : ∀ t, t ≠ .supervisor → x.task t = .done) (h : step s x e = some x')
    {t : SwapTaskId} (ht : t ≠ .supervisor) : x'.task t = .done := by
  have hidle := halone t ht
  have hmoves := moves_of_step h t
  generalize x'.task t = p at hmoves
  cases hmoves with
  | same => exact hidle
  | done => rfl
  | check htask => exact absurd htask ht
  | resolve _ hbusy =>
    rcases hbusy with hbusy | ⟨n, hbusy⟩
    · exact absurd hidle hbusy
    · exact absurd (halone (.attach n) (by rintro ⟨⟩)) hbusy
  | compare _ _ hstart =>
    rcases hstart with hstart | hstart
    · rw [hbundles] at hstart
      cases hstart
    · cases hidle.symm.trans hstart
  | failover htask => exact absurd htask ht
  | reconcile hphase => cases hidle.symm.trans hphase
  | readOrder _ hphase => cases hidle.symm.trans hphase
  | readDefault _ hphase => cases hidle.symm.trans hphase
  | begin hphase => cases hidle.symm.trans hphase
  | next hphase => cases hidle.symm.trans hphase

/-- The supervisor compares no order with the routing. -/
theorem never_compares_of_step (hnever : ∀ desired, x.task .supervisor ≠ .compare desired)
    (h : step s x e = some x') (desired : Option Order) :
    x'.task .supervisor ≠ .compare desired := by
  intro hcompare
  have hmoves := moves_of_step h .supervisor
  rw [hcompare] at hmoves
  generalize hp : Phase.compare desired = p at hmoves
  cases hmoves with
  | same => exact hnever desired hp.symm
  | compare hother => exact hother rfl
  | failover _ _ _ _ _ hcall => rcases hcall with ⟨_, rfl⟩ | ⟨_, _, rfl⟩ <;> cases hp
  | reconcile hphase => exact hnever _ hphase
  | _ => cases hp

end Inversion

/-! ## The switch lock -/

/-- A task that begins a swap takes the lock. -/
def TakesLock (s : Swappable σ ε) : Prop :=
  ∀ r t a f r', s.begin r t a = some f → s.step r f = some r' → s.unlocked r' = false

/-- The call that is in the swap holds the lock. -/
def Locked (s : Swappable σ ε) (x : Supervised σ) : Prop :=
  ∀ t a, x.task t = .call (.hold a) → x.holder = some t ∧ s.unlocked x.session = false

section Locks

variable {s : Swappable σ ε} {x x' : Supervised σ} {e : SwapEvent ε}

theorem Moves.hold {t : SwapTaskId} {a : Attempt} {p : Phase} (h : Moves s x e x' t p)
    (hp : p = .call (.hold a)) :
    x.task t = .call (.hold a) ∨ (e = .begin t ∧ x.task t = .call (.wait a)) := by
  cases h with
  | same => exact Or.inl hp
  | failover _ _ _ _ _ hcall => rcases hcall with ⟨_, rfl⟩ | ⟨_, _, rfl⟩ <;> cases hp
  | reconcile _ hcall => rcases hcall with rfl | ⟨_, _, rfl⟩ <;> cases hp
  | begin hphase he =>
    cases hp
    exact Or.inr ⟨he, hphase⟩
  | _ => cases hp

/-- A call that has returned is in no swap. -/
theorem returned_not_hold (y : Supervised σ) (t : SwapTaskId) (a b : Attempt) (ok : Bool) :
    (y.returned t a ok).task t ≠ .call (.hold b) := by
  unfold returned
  split
  · simp
  · split
    · simp
    · unfold failed
      split
      · simp
      · simp
      · split
        · rw [goto_ne (by rintro ⟨⟩), goto_same]
          rintro ⟨⟩
        · simp

theorem Locked.step (htakes : TakesLock s) (h : Locked s x) (hstep : step s x e = some x') :
    Locked s x' := by
  intro t a hhold
  have hmoves := (moves_of_step hstep t).hold hhold
  cases kind_of_step hstep with
  | @session f session he _ _ hadvance =>
    rcases hmoves with hold | ⟨hbegin, _⟩
    · obtain ⟨hholder, _⟩ := h t a hold
      rw [← hadvance] at hhold ⊢
      revert hhold
      unfold advance
      rw [hholder]
      simp only [hold]
      split
      · exact fun hhold => (returned_not_hold _ _ _ _ _ hhold).elim
      · rename_i hunlocked
        intro _
        rw [Bool.not_eq_true] at hunlocked
        refine ⟨?_, ?_⟩
        · split <;> rfl
        · split <;> exact hunlocked
    · rw [he] at hbegin
      cases hbegin
  | begin he _ hunlocked hbegin hbegins hholder =>
    refine ⟨?_, htakes _ _ _ _ _ hbegin hbegins⟩
    rcases hmoves with hold | ⟨ht, _⟩
    · rw [(h t a hold).2] at hunlocked
      cases hunlocked
    · rw [he] at ht
      cases ht
      exact hholder
  | tick he _ htick =>
    rw [← htick]
    rcases hmoves with hold | ⟨hbegin, _⟩
    · exact h t a hold
    · rw [he] at hbegin
      cases hbegin
  | receive he _ hsession hholder =>
    rw [hsession.1, hholder]
    rcases hmoves with hold | ⟨hbegin, _⟩
    · exact h t a hold
    · rw [he] at hbegin
      cases hbegin
  | quiet he hsame =>
    rw [hsame.session, hsame.holder]
    rcases hmoves with hold | ⟨hbegin, _⟩
    · exact h t a hold
    · exact absurd hbegin (he t)

theorem Locked.fresh (session : σ) (now : Int) : Locked s (fresh session now) := by
  intro t a hhold
  cases hhold

end Locks

/-! ## Runs -/

section Runs

variable {s : Swappable σ ε} {Start : σ → Prop} {G : Supervised σ → SwapEvent ε → Prop}
  {x : Supervised σ}

/-- The induction rule for sessions with their tasks. -/
theorem ReachesUnder.invariant {I : Supervised σ → Prop} (h : ReachesUnder s Start G x)
    (hstart : ∀ session now, Start session → I (fresh session now))
    (hstep : ∀ y e z, I y → G y e → step s y e = some z → I z) : I x := by
  obtain ⟨session, now, hsession, hrun⟩ := h
  exact hrun.invariant (hstart session now hsession) hstep

/-- A weaker guard admits more runs. -/
theorem ReachesUnder.mono {H : Supervised σ → SwapEvent ε → Prop} (h : ReachesUnder s Start G x)
    (hGH : ∀ y e, G y e → H y e) : ReachesUnder s Start H x := by
  obtain ⟨session, now, hsession, hrun⟩ := h
  exact ⟨session, now, hsession, hrun.mono hGH⟩

/-- The session makes a run of its own. -/
theorem ReachesUnder.session (h : ReachesUnder s Start G x) :
    ∃ session, Start session ∧ Reachable s.step session x.session := by
  obtain ⟨session, now, hsession, hrun⟩ := h
  refine ⟨session, hsession, ?_⟩
  refine hrun.invariant (I := fun y => Reachable s.step session y.session) .refl ?_
  intro y e z hy _ hstep
  rcases session_of_step hstep with hsame | ⟨f, hf⟩
  · rwa [hsame]
  · exact .tail hy hf trivial

end Runs

end Supervised

end RentalProxy
