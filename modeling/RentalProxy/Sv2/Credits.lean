import RentalProxy.Sv2.Accounting
import RentalProxy.Sv2.Repoint

/-!
# Credits go to the order that earned them

A rig credits accepted shares to the order of its routing, and a swap changes the
routing.  What is credited is read under the lock of the session, and added to the
store after the lock was given back.

* `Crediting` is a rig with the shares that it has forwarded, the credits that it
  has still to add, and those that it has added.
* `PoolAcknowledges` is what a pool is assumed to do: what it acknowledges on a
  connection was sent on that connection.
* `Attributed` is the invariant: one connection, one routing.
* `no_cross_credit` is the result.
-/

namespace RentalProxy.Sv2

open StepSystem

variable (decode : Decoder) (lib : Sv1Library)

/-! ## Shares and credits -/

/-- A share on its way to a pool: the connection it was handed to, and the routing
at that moment. -/
structure ForwardedShare where
  generation : Nat
  routing : Routing
deriving DecidableEq

/-- Accepted shares that were credited to an order. -/
structure ShareCredit where
  /-- The connection on which the pool has acknowledged them. -/
  generation : Nat
  order : String
  work : Rat
  count : Nat
  /-- The shares, by their number. -/
  shares : List Nat

/-- A rig whose credits are on their way to the store. -/
structure Crediting where
  rig : Rig
  /-- Every share that was forwarded, oldest first. -/
  forwarded : List ForwardedShare
  /-- What was credited, and is not in the store yet. -/
  due : List ShareCredit
  /-- What was added to the store. -/
  added : List ShareCredit

/-- The share that a frame of a member is. -/
def forwardedShare (r : Rig) : Event → List ForwardedShare
  | .minerFrame _ frame =>
    if (minerFrame frame r.inner).1.submittedShares = r.inner.submittedShares then []
    else [⟨r.inner.active.generation, r.inner.routing⟩]
  | _ => []

/-- What a step credits. -/
def creditOf (r : Rig) : Event → Credit
  | .upstreamFrame g frame now => (onUpstreamFrame decode now g frame r.inner).2.1
  | .translateCall _ now => match r.translator with
    | some ⟨cid, _, .creditTranslate :: _, _⟩ =>
      (creditTranslate now r.inner.active.generation cid r.inner).2
    | _ => none
  | _ => none

/-- The connection that a step is about. -/
def connectionOf (r : Rig) : Event → Nat
  | .upstreamFrame g .. => g
  | _ => r.inner.active.generation

/-- A step of a rig whose credits are added later. -/
inductive CreditEvent where
  /-- A step of a task.  Where it credits shares, these are the ones. -/
  | task (e : Event) (shares : List Nat)
  /-- `switch_to`, with any order and any pool. -/
  | switchTo (caller : SwapCaller) (orderId : String) (target : UpstreamTarget)
  /-- `add_work` for one of the credits that are due. -/
  | addWork (k : Nat)

/-- The rig with another buffer. -/
def Rig.withBuffer (r : Rig) (b : WorkBuffer) : Rig :=
  { r with store := { r.store with pending := b } }

def creditStep (x : Crediting) : CreditEvent → Option Crediting
  | .task e shares => (step decode lib x.rig e).map fun r =>
    let forwarded := x.forwarded ++ forwardedShare x.rig e
    match creditOf decode x.rig e with
    | some (order, work, count) => { x with
        rig := r.withBuffer x.rig.store.pending
        forwarded
        due := x.due ++ [⟨connectionOf x.rig e, order, work, count, shares⟩] }
    | none => { x with rig := r, forwarded }
  | .switchTo caller orderId target =>
    match x.rig.swap with
    | .idle => some { x with rig := x.rig.beginSwap caller target (.rented orderId) }
    | _ => none
  | .addWork k => x.due[k]?.map fun c => { x with
      rig := x.rig.withBuffer (x.rig.store.pending.addWork c.order c.work c.count)
      due := x.due.eraseIdx k
      added := x.added ++ [c] }

/-- The pool acknowledges as many shares as it says, and has got them on this
connection. -/
def PoolAcknowledges (x : Crediting) : CreditEvent → Prop
  | .task e shares => ∀ c ∈ creditOf decode x.rig e, shares.length = c.2.2 ∧
      ∀ k ∈ shares, ∃ s ∈ x.forwarded[k]?, s.generation = connectionOf x.rig e
  | _ => True

instance (x : Crediting) : DecidablePred (PoolAcknowledges decode x) := fun e => by
  rcases e with _ | _ <;> dsimp only [PoolAcknowledges] <;> infer_instance

/-- The states that a rig whose credits are added later can reach. -/
def CreditReaches (x : Crediting) : Prop :=
  ∃ worker spec store idlePool now failed answer r₀,
    store.OneActive ∧
      start lib worker spec store idlePool now failed answer = some r₀ ∧
      Run (creditStep decode lib) (PoolAcknowledges decode) ⟨r₀, [], [], []⟩ x

/-- One connection has one routing, and every credit goes to the order under which
its shares were forwarded. -/
structure Attributed (x : Crediting) : Prop where
  generations : Generations x.rig
  forwarded : ∀ s ∈ x.forwarded, s.generation ≤ x.rig.inner.active.generation ∧
    (s.generation = x.rig.inner.active.generation → s.routing = x.rig.inner.routing)
  credits : ∀ c ∈ x.due ++ x.added, c.shares.length = c.count ∧
    ∀ k ∈ c.shares, ∃ s ∈ x.forwarded[k]?, s.generation = c.generation ∧
      s.routing = .rented c.order

variable {decode lib}

/-! ## What is credited -/

theorem creditAccepted_credit {i : Inner} {now work : Rat} {count : Nat}
    {c : String × Rat × Nat} (h : (i.creditAccepted now work count).2 = some c) :
    i.routing = .rented c.1 := by
  unfold Inner.creditAccepted at h
  split at h
  · obtain ⟨o, ho, rfl⟩ := Option.map_eq_some_iff.mp h
    cases hrouting : i.routing with
    | idle =>
      rw [hrouting] at ho
      cases ho
    | rented id =>
      rw [hrouting] at ho
      cases ho
      rfl
  · cases h

/-- Only the active connection credits, to the order of the routing. -/
theorem creditOf_route {r : Rig} {e : Event} {c : String × Rat × Nat}
    (h : creditOf decode r e = some c) :
    connectionOf r e = r.inner.active.generation ∧ r.inner.routing = .rented c.1 := by
  unfold creditOf at h
  split at h
  · rename_i g frame now
    rcases onUpstreamFrame_cases decode now g frame r.inner with
      heq | ⟨_, heq⟩ | ⟨_, _, heq⟩ | ⟨upCid, hg, _, heq⟩ <;> rw [heq] at h
    · cases h
    · cases h
    · cases h
    · refine ⟨hg, ?_⟩
      rw [← (@retarget_sameRig decode frame upCid r.inner).upstream.routing]
      simp only [creditFrame] at h
      split at h
      · exact creditAccepted_credit h
      · cases h
  · refine ⟨rfl, ?_⟩
    split at h
    · rw [creditTranslate, if_neg (by simp)] at h
      exact creditAccepted_credit h
    · cases h
  · cases h

/-- What a step does to the buffer of the store. -/
theorem buffer_of_step {r r' : Rig} {e : Event} (h : step decode lib r e = some r') :
    r'.store.pending = r.store.pending.credit (creditOf decode r e) ∨
      (∃ o n, creditOf decode r e = none ∧
        r'.store.pending = r.store.pending.addSubmitted o n) ∨
      e = .flushOrders := by
  cases e with
  | flushOrders => exact Or.inr (Or.inr rfl)
  | upstreamFrame g frame now =>
    simp only [step] at h
    split at h <;> cases h
    exact Or.inl rfl
  | minerFrame member frame =>
    simp only [step] at h
    split at h <;> cases h
    cases (minerFrame frame r.inner).2 with
    | none => exact Or.inl rfl
    | some o => exact Or.inr (Or.inl ⟨o, 1, rfl, rfl⟩)
  | translateCall member now =>
    simp only [step] at h
    split at h
    · rename_i cid state call calls written htranslator
      split at h <;> cases h
      left
      simp only [creditOf, htranslator]
      cases call <;> rfl
    · cases h
  | createOrder order =>
    obtain ⟨store, hstore, rfl⟩ := Option.map_eq_some_iff.mp h
    unfold OrderStore.create at hstore
    split at hstore <;> cases hstore
    exact Or.inl rfl
  | cancelOrder id now =>
    obtain ⟨⟨order, store⟩, hstore, rfl⟩ := Option.map_eq_some_iff.mp h
    obtain ⟨existing, _, heq⟩ := Option.map_eq_some_iff.mp hstore
    cases heq
    exact Or.inl rfl
  | expireOrders now =>
    cases h
    exact Or.inl (takeExpired_pending r.store now)
  | _ =>
    left
    simp only [step] at h
    first
      | (cases h; rfl)
      | (obtain ⟨_, _, rfl⟩ := Option.map_eq_some_iff.mp h; rfl)
      | (split at h <;> (try split at h) <;>
          first
            | (cases h; rfl)
            | (obtain ⟨_, _, rfl⟩ := Option.map_eq_some_iff.mp h; rfl)
            | cases h)

theorem accepted_addWork (b : WorkBuffer) (id o : String) (w : Rat) (n : Nat) :
    ((b.addWork id w n).delta o).accepted = (b.delta o).accepted + if o = id then n else 0 := by
  by_cases h : o = id
  · subst h
    simp [WorkBuffer.addWork, WorkBuffer.delta]
  · simp [WorkBuffer.addWork, WorkBuffer.delta, AList.lookup_insert_ne h, h]

theorem accepted_addSubmitted (b : WorkBuffer) (id o : String) (n : Nat) :
    ((b.addSubmitted id n).delta o).accepted = (b.delta o).accepted := by
  by_cases h : o = id
  · subst h
    simp [WorkBuffer.addSubmitted, WorkBuffer.delta]
  · simp [WorkBuffer.addSubmitted, WorkBuffer.delta, AList.lookup_insert_ne h]

/-! ## The invariant -/

theorem Generations.withBuffer {r : Rig} (h : Generations r) (b : WorkBuffer) :
    Generations (r.withBuffer b) :=
  ⟨h.counter, h.plan, h.current, h.installs, h.readers⟩

/-- A step of a task, whatever becomes of the buffer. -/
theorem Attributed.task {x : Crediting} {r : Rig} {e : Event} (h : Attributed x)
    (hstep : step decode lib x.rig e = some r) :
    Generations r ∧ ∀ s ∈ x.forwarded ++ forwardedShare x.rig e,
      s.generation ≤ r.inner.active.generation ∧
        (s.generation = r.inner.active.generation → s.routing = r.inner.routing) := by
  have ht := transition_of_step hstep
  refine ⟨h.generations.step ht, ?_⟩
  have hold : ∀ s ∈ x.forwarded ++ forwardedShare x.rig e,
      s.generation ≤ x.rig.inner.active.generation ∧
        (s.generation = x.rig.inner.active.generation → s.routing = x.rig.inner.routing) := by
    intro s hs
    rcases List.mem_append.mp hs with hs | hs
    · exact h.forwarded s hs
    · unfold forwardedShare at hs
      split at hs
      · split at hs
        · cases hs
        · rw [List.mem_singleton.mp hs]
          exact ⟨le_rfl, fun _ => rfl⟩
      · cases hs
  intro s hs
  obtain ⟨hle, hrouting⟩ := hold s hs
  rcases h.generations.route ht with hsame | hlt
  · rw [hsame.generation, hsame.routing]
    exact ⟨hle, hrouting⟩
  · exact ⟨hle.trans hlt.le, fun heq => absurd heq (ne_of_lt (hle.trans_lt hlt))⟩

/-- A share that was forwarded is on the list for good. -/
theorem Attributed.credits_append {x : Crediting} (h : Attributed x)
    (new : List ForwardedShare) {c : ShareCredit} (hc : c ∈ x.due ++ x.added) :
    c.shares.length = c.count ∧ ∀ k ∈ c.shares, ∃ s ∈ (x.forwarded ++ new)[k]?,
      s.generation = c.generation ∧ s.routing = .rented c.order := by
  obtain ⟨hcount, hshares⟩ := h.credits c hc
  refine ⟨hcount, ?_⟩
  intro k hk
  obtain ⟨s, hs, hrest⟩ := hshares k hk
  obtain ⟨hlt, _⟩ := List.getElem?_eq_some_iff.mp hs
  exact ⟨s, by rw [List.getElem?_append_left hlt]; exact hs, hrest⟩

theorem Attributed.step {x y : Crediting} {e : CreditEvent} (h : Attributed x)
    (hpool : PoolAcknowledges decode x e) (hstep : creditStep decode lib x e = some y) :
    Attributed y := by
  cases e with
  | task e shares =>
    obtain ⟨r, hr, rfl⟩ := Option.map_eq_some_iff.mp hstep
    obtain ⟨hgenerations, hforwarded⟩ := h.task hr
    cases hcredit : creditOf decode x.rig e with
    | none =>
      exact ⟨hgenerations, hforwarded, fun c hc => h.credits_append _ hc⟩
    | some credit =>
      obtain ⟨order, work, count⟩ := credit
      obtain ⟨hactive, hrouting⟩ := creditOf_route hcredit
      refine ⟨hgenerations.withBuffer _, hforwarded, ?_⟩
      intro c hc
      rcases List.mem_append.mp hc with hdue | hadded
      · rcases List.mem_append.mp hdue with hdue | hnew
        · exact h.credits_append _ (List.mem_append_left _ hdue)
        · rw [List.mem_singleton.mp hnew]
          obtain ⟨hcount, hshares⟩ := hpool _ hcredit
          refine ⟨hcount, ?_⟩
          intro k hk
          obtain ⟨s, hs, hconnection⟩ := hshares k hk
          obtain ⟨hlt, hget⟩ := List.getElem?_eq_some_iff.mp hs
          refine ⟨s, by rw [List.getElem?_append_left hlt]; exact hs, hconnection, ?_⟩
          -- the connection is the active one, and has the routing of now
          rw [(h.forwarded s (hget ▸ List.getElem_mem hlt)).2 (hconnection.trans hactive)]
          exact hrouting
      · exact h.credits_append _ (List.mem_append_right _ hadded)
  | switchTo caller orderId target =>
    simp only [creditStep] at hstep
    split at hstep <;> cases hstep
    exact ⟨h.generations.begin .., h.forwarded, h.credits⟩
  | addWork k =>
    obtain ⟨c, hc, rfl⟩ := Option.map_eq_some_iff.mp hstep
    refine ⟨h.generations.withBuffer _, h.forwarded, ?_⟩
    intro c' hc'
    refine h.credits c' ?_
    rcases List.mem_append.mp hc' with hdue | hadded
    · exact List.mem_append_left _ ((List.eraseIdx_sublist _ _).subset hdue)
    · rcases List.mem_append.mp hadded with hadded | hnew
      · exact List.mem_append_right _ hadded
      · rw [List.mem_singleton.mp hnew]
        exact List.mem_append_left _ (List.mem_of_getElem? hc)

/-! ## The result -/

/-- What a step does to the work and the accepted shares that the store buffers for
an order: `add_work` adds one credit to its order, and a flush empties the buffer. -/
theorem buffer_of_creditStep {x y : Crediting} {e : CreditEvent}
    (hstep : creditStep decode lib x e = some y) (o : String) :
    ((y.rig.store.pending.delta o).work = (x.rig.store.pending.delta o).work ∧
      (y.rig.store.pending.delta o).accepted = (x.rig.store.pending.delta o).accepted) ∨
    (∃ c ∈ x.due, c.order = o ∧ y.added = x.added ++ [c] ∧
      (y.rig.store.pending.delta o).work = (x.rig.store.pending.delta o).work + c.work ∧
      (y.rig.store.pending.delta o).accepted =
        (x.rig.store.pending.delta o).accepted + c.count) ∨
    ∃ shares, e = .task .flushOrders shares := by
  cases e with
  | task e shares =>
    obtain ⟨r, hr, rfl⟩ := Option.map_eq_some_iff.mp hstep
    rcases buffer_of_step hr with hbuffer | ⟨o', n, hnone, hbuffer⟩ | hflush
    · left
      cases hcredit : creditOf decode x.rig e with
      | none =>
        rw [hcredit, WorkBuffer.credit_none] at hbuffer
        simp only [hbuffer, and_self]
      | some credit => exact ⟨rfl, rfl⟩
    · left
      simp only [hnone, hbuffer, WorkBuffer.work_addSubmitted, accepted_addSubmitted, and_self]
    · exact Or.inr (Or.inr ⟨shares, by rw [hflush]⟩)
  | switchTo caller orderId target =>
    simp only [creditStep] at hstep
    split at hstep <;> cases hstep
    exact Or.inl ⟨rfl, rfl⟩
  | addWork k =>
    obtain ⟨c, hc, rfl⟩ := Option.map_eq_some_iff.mp hstep
    by_cases horder : c.order = o
    · refine Or.inr (Or.inl ⟨c, List.mem_of_getElem? hc, horder, rfl, ?_, ?_⟩)
      · exact (WorkBuffer.work_addWork ..).trans (by rw [if_pos horder.symm])
      · exact (accepted_addWork ..).trans (by rw [if_pos horder.symm])
    · refine Or.inl ⟨?_, ?_⟩
      · exact (WorkBuffer.work_addWork ..).trans
          (by rw [if_neg (Ne.symm horder), add_zero])
      · exact (accepted_addWork ..).trans (by rw [if_neg (Ne.symm horder), Nat.add_zero])

/-- Every credit, added or due, is for shares that were forwarded under the order it
goes to, one share each.  Only `add_work` adds work or accepted shares to an order,
and what is superseded credits nothing. -/
theorem no_cross_credit {x : Crediting} (h : CreditReaches decode lib x) :
    (∀ c ∈ x.due ++ x.added, c.shares.length = c.count ∧
      ∀ k ∈ c.shares, ∃ s ∈ x.forwarded[k]?, s.routing = .rented c.order) ∧
    (∀ e y, creditStep decode lib x e = some y → ∀ o,
      ((y.rig.store.pending.delta o).work = (x.rig.store.pending.delta o).work ∧
        (y.rig.store.pending.delta o).accepted = (x.rig.store.pending.delta o).accepted) ∨
      (∃ c ∈ x.due, c.order = o ∧ y.added = x.added ++ [c] ∧
        (y.rig.store.pending.delta o).work = (x.rig.store.pending.delta o).work + c.work ∧
        (y.rig.store.pending.delta o).accepted =
          (x.rig.store.pending.delta o).accepted + c.count) ∨
      ∃ shares, e = .task .flushOrders shares) ∧
    ∀ g, g ≠ x.rig.inner.active.generation →
      (∀ frame now, onUpstreamFrame decode now g frame x.rig.inner = (x.rig.inner, none, [])) ∧
        (∀ cid now, creditTranslate now g cid x.rig.inner = (x.rig.inner, none)) ∧
        (∀ cid diff, setTranslateDiff g cid diff x.rig.inner = x.rig.inner) ∧
        ∀ member frame, sendTranslateFrame g member frame x.rig.inner = [] := by
  obtain ⟨worker, spec, store, idlePool, now, failed, answer, r₀, _, hstart, hrun⟩ := h
  have hattributed : Attributed x := by
    refine hrun.invariant (I := Attributed) ?_ fun _ _ _ hold hpool hstep => hold.step hpool hstep
    obtain ⟨_, _, _, _, _, hstarted⟩ := start_started hstart
    exact ⟨.of_started hstarted, (fun s hs => by cases hs), (fun c hc => by cases hc)⟩
  refine ⟨?_, fun e y hstep o => buffer_of_creditStep hstep o,
    fun g hg => superseded_changes_nothing hg⟩
  intro c hc
  obtain ⟨hcount, hshares⟩ := hattributed.credits c hc
  refine ⟨hcount, ?_⟩
  intro k hk
  obtain ⟨s, hs, _, hrouting⟩ := hshares k hk
  exact ⟨s, hs, hrouting⟩

/-- A share of the miner for its channel. -/
def shareFrame (channelId : Nat) : Sv2Frame where
  msgType := .submitSharesExtended
  payload := leBytes 4 channelId

/-- A share for the idle pool, a switch to the buyer's pool, and a share that is
accepted there and added later. -/
def creditedShare : List CreditEvent :=
  [.task (.upstreamFrame 0 (openedFrame 1 10 0) 0) [], .task (.minerFrame 1 (shareFrame 1)) [],
    .task (.createOrder buyerOrder) [], .switchTo .attach "o1" buyerOrder.target,
    .task (.swapReopened [reopenedInfo 30]) [], .task (.minerFrame 1 (shareFrame 1)) [],
    .task (.upstreamFrame 1 ((wireFrames 30).success 0 1) 0) [1], .addWork 0]

theorem no_cross_credit_switch :
    ∃ x, CreditReaches wireDecoder plainLibrary x ∧ x.added.length = 1 ∧
      ∀ c ∈ x.due ++ x.added, c.shares.length = c.count ∧
        ∀ k ∈ c.shares, ∃ s ∈ x.forwarded[k]?, s.routing = .rented c.order := by
  have hsome : (idleRig.bind fun r₀ => runWhile (creditStep wireDecoder plainLibrary)
      (fun x e => decide (PoolAcknowledges wireDecoder x e)) ⟨r₀, [], [], []⟩ creditedShare).any
        (fun x => decide (x.added.length = 1)) = true := by
    decide +kernel
  obtain ⟨x, hx, hlength⟩ := (Option.any_eq_true ..).mp hsome
  obtain ⟨r₀, hstart, hrun⟩ := Option.bind_eq_some_iff.mp hx
  have hreach : CreditReaches wireDecoder plainLibrary x :=
    ⟨_, _, {}, _, _, _, _, r₀, List.Pairwise.nil, hstart,
      .of_runWhile (fun _ _ => of_decide_eq_true) hrun⟩
  exact ⟨x, hreach, of_decide_eq_true hlength, (no_cross_credit hreach).1⟩

end RentalProxy.Sv2
