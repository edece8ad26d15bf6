import RentalProxy.Session
import Mathlib.Data.List.AList
import Mathlib.Tactic.Linarith
import Mathlib.Tactic.Ring

/-!
# Rental orders

The order store of `orders.rs`: the `orders` table and the accounting that is
buffered between two flushes.  Work is measured in difficulty-1 share units
and is an exact rational, as are price, budget and cost.

* `Order.isLive`, `Order.cost` and `Order.fundingExhausted` are the pure
  predicates of one row.
* `WorkBuffer` is `OrderStore::pending`, the per-order deltas.
* `OrderStore` is the table with the buffer.  `create`, `cancel` and
  `takeExpired` are the statements that insert and end rows.

The unique index of migration `0004` is `OneActive`.  `create_oneActive`,
`cancel_oneActive` and `takeExpired_oneActive` show that every statement keeps
it.
-/

namespace RentalProxy

inductive OrderStatus where
  | active
  | ended
  | cancelled
deriving DecidableEq

/-- One row of the `orders` table. -/
structure Order where
  id : String
  worker : String
  target : UpstreamTarget
  /-- Where to route when `target` cannot be reached. -/
  fallback : Option UpstreamTarget := none
  createdMs : Int := 0
  /-- Deadline in epoch milliseconds, `0` when open-ended. -/
  untilMs : Int := 0
  status : OrderStatus := .active
  endedMs : Int := 0
  deliveredWork : Rat := 0
  acceptedShares : Nat := 0
  submittedShares : Nat := 0
  pricePerThDay : Rat := 0
  /-- Prepaid amount, `0` when unlimited. -/
  budget : Rat := 0
deriving DecidableEq

/-- Hashes in one TH·day. -/
def hashesPerThDay : Rat := 1000000000000 * 86400

/-- Hashes per difficulty-1 share. -/
def diff1Hashes : Rat := 4294967296

namespace Order

/-- Billable cost of `work` at a price per TH·day. -/
def costOf (price work : Rat) : Rat :=
  work * diff1Hashes / hashesPerThDay * price

/-- Billable cost so far. -/
def cost (o : Order) : Rat := costOf o.pricePerThDay o.deliveredWork

/-- A budgeted rental has consumed its prepaid credit. -/
def fundingExhausted (o : Order) : Bool :=
  decide (0 < o.budget) && decide (o.budget ≤ o.cost)

/-- In effect: active, not past its deadline, and funded. -/
def isLive (o : Order) (now : Int) : Bool :=
  decide (o.status = .active) && (decide (o.untilMs = 0) || decide (now < o.untilMs)) &&
    !o.fundingExhausted

/-- The pools an order may be routed to. -/
def pools (o : Order) : List UpstreamTarget := o.target :: o.fallback.toList

/-- More work never costs less at a price that is not negative. -/
theorem costOf_le {price w w' : Rat} (hprice : 0 ≤ price) (hw : w ≤ w') :
    costOf price w ≤ costOf price w' := by
  have hscale : (0 : Rat) ≤ diff1Hashes / hashesPerThDay := by
    norm_num [diff1Hashes, hashesPerThDay]
  have hcost : ∀ x : Rat,
      costOf price x = x * (diff1Hashes / hashesPerThDay * price) := by
    intro x
    unfold costOf
    ring
  rw [hcost, hcost]
  exact mul_le_mul_of_nonneg_right hw (mul_nonneg hscale hprice)

/-- A live order is active. -/
theorem status_of_isLive {o : Order} {now : Int} (h : o.isLive now = true) :
    o.status = .active := by
  simp only [isLive, Bool.and_eq_true, decide_eq_true_eq] at h
  exact h.1.1

/-- An order that is live later was live before: only the clock moved. -/
theorem isLive_of_le {o : Order} {now later : Int} (hle : now ≤ later)
    (h : o.isLive later = true) : o.isLive now = true := by
  simp only [isLive, Bool.and_eq_true, Bool.or_eq_true, decide_eq_true_eq] at h ⊢
  refine ⟨⟨h.1.1, ?_⟩, h.2⟩
  rcases h.1.2 with hopen | hdeadline
  · exact Or.inl hopen
  · exact Or.inr (by omega)

end Order

/-! ## Buffered accounting -/

/-- Accounting of one order between two flushes. -/
structure WorkDelta where
  work : Rat := 0
  accepted : Nat := 0
  submitted : Nat := 0
deriving DecidableEq

/-- The order, work and shares that an accepted share is credited with, `none`
when the session is not rented. -/
abbrev Credit := Option (String × Rat × Nat)

/-- `OrderStore::pending`. -/
abbrev WorkBuffer := AList fun _ : String => WorkDelta

namespace WorkBuffer

/-- What is buffered for one order. -/
def delta (b : WorkBuffer) (id : String) : WorkDelta := (b.lookup id).getD {}

/-- `OrderStore::add_work`. -/
def addWork (b : WorkBuffer) (id : String) (work : Rat) (accepted : Nat) :
    WorkBuffer :=
  b.insert id { b.delta id with
    work := (b.delta id).work + work
    accepted := (b.delta id).accepted + accepted }

/-- `OrderStore::add_submitted`. -/
def addSubmitted (b : WorkBuffer) (id : String) (submitted : Nat) : WorkBuffer :=
  b.insert id { b.delta id with submitted := (b.delta id).submitted + submitted }

/-- Buffer the credit of an accepted share. -/
def credit (b : WorkBuffer) (c : Credit) : WorkBuffer :=
  match c with
  | some (id, work, accepted) => b.addWork id work accepted
  | none => b

theorem work_addWork (b : WorkBuffer) (id o : String) (w : Rat) (n : Nat) :
    ((b.addWork id w n).delta o).work =
      (b.delta o).work + if o = id then w else 0 := by
  by_cases h : o = id
  · subst h
    simp [addWork, delta]
  · simp [addWork, delta, AList.lookup_insert_ne h, h]

@[simp] theorem work_addSubmitted (b : WorkBuffer) (id o : String) (n : Nat) :
    ((b.addSubmitted id n).delta o).work = (b.delta o).work := by
  by_cases h : o = id
  · subst h
    simp [addSubmitted, delta]
  · simp [addSubmitted, delta, AList.lookup_insert_ne h]

@[simp] theorem credit_none (b : WorkBuffer) : b.credit none = b := rfl

@[simp] theorem credit_some (b : WorkBuffer) (id : String) (w : Rat) (n : Nat) :
    b.credit (some (id, w, n)) = b.addWork id w n := rfl

end WorkBuffer

/-- Measured work does not decrease: that of the session, that of every order,
and with it the cost of every order at a price that is not negative. -/
structure WorkKept (work work' : Rat) (b b' : WorkBuffer) : Prop where
  session : work ≤ work'
  buffered : ∀ o, (b.delta o).work ≤ (b'.delta o).work
  cost : ∀ o price flushed, 0 ≤ price →
    Order.costOf price (flushed + (b.delta o).work) ≤
      Order.costOf price (flushed + (b'.delta o).work)

/-- A step that adds `w` to the session and to some orders keeps the work
exactly when `w` is not negative. -/
theorem workKept_iff {work work' w : Rat} {b b' : WorkBuffer} (toOrder : String → Prop)
    [DecidablePred toOrder] (hsession : work' = work + w)
    (horder : ∀ o, (b'.delta o).work = (b.delta o).work + if toOrder o then w else 0) :
    WorkKept work work' b b' ↔ 0 ≤ w := by
  constructor
  · intro hkept
    have hle := hkept.session
    linarith
  · intro hw
    have hbuffered : ∀ o, (b.delta o).work ≤ (b'.delta o).work := by
      intro o
      rw [horder]
      split <;> linarith
    refine ⟨by linarith, hbuffered, ?_⟩
    intro o price flushed hprice
    exact Order.costOf_le hprice (by linarith [hbuffered o])

/-! ## The table -/

/-- The `orders` table and the buffered accounting. -/
structure OrderStore where
  rows : List Order := []
  pending : WorkBuffer := ∅

namespace OrderStore

/-- The unique index `idx_orders_one_active_per_worker`, with the primary
key. -/
def OneActive (s : OrderStore) : Prop :=
  s.rows.Pairwise fun a b =>
    a.id ≠ b.id ∧ ¬(a.worker = b.worker ∧ a.status = .active ∧ b.status = .active)

/-- `OrderStore::get`. -/
def get (s : OrderStore) (id : String) : Option Order :=
  s.rows.find? fun o => decide (o.id = id)

/-- `OrderStore::active_for_worker`: the live order of a worker. -/
def activeForWorker (s : OrderStore) (worker : String) (now : Int) : Option Order :=
  (s.rows.filter fun o =>
    decide (o.worker = worker) && decide (o.status = .active) &&
      (decide (o.untilMs = 0) || decide (now < o.untilMs))).find?
    fun o => !o.fundingExhausted

/-- `OrderStore::create`.  A violated key or index refuses the row. -/
def create (s : OrderStore) (o : Order) : Option OrderStore :=
  if s.rows.any fun r => decide (r.id = o.id) ||
      (decide (r.worker = o.worker) && decide (r.status = .active)) then none
  else some { s with rows := s.rows ++ [{ o with
    status := .active, endedMs := 0, deliveredWork := 0, acceptedShares := 0,
    submittedShares := 0 }] }

/-- The `UPDATE` that takes one row out of `active`. -/
def setStatus (s : OrderStore) (id : String) (status : OrderStatus) (now : Int) :
    OrderStore :=
  { s with rows := s.rows.map fun o =>
      if o.id = id then { o with status := status, endedMs := now } else o }

/-- `OrderStore::cancel`, whatever the status of the row. -/
def cancel (s : OrderStore) (id : String) (now : Int) : Option (Order × OrderStore) :=
  (s.get id).map fun existing =>
    ({ existing with status := .cancelled, endedMs := now },
      s.setStatus id .cancelled now)

/-- The test of `OrderStore::take_expired` on an active row. -/
def finished (o : Order) (now : Int) : Bool :=
  (decide (0 < o.untilMs) && decide (o.untilMs ≤ now)) || o.fundingExhausted

/-- `OrderStore::take_expired`: end the finished rows and hand them out. -/
def takeExpired (s : OrderStore) (now : Int) : List Order × OrderStore :=
  let done := s.rows.filter fun o => decide (o.status = .active) && finished o now
  (done.map fun o => { o with status := .ended, endedMs := now },
    done.foldl (fun st o => st.setStatus o.id .ended now) s)

/-- `OrderStore::flush`: the buffered accounting moves into the rows. -/
def flush (s : OrderStore) : OrderStore where
  rows := s.rows.map fun o => { o with
    deliveredWork := o.deliveredWork + (s.pending.delta o.id).work
    acceptedShares := o.acceptedShares + (s.pending.delta o.id).accepted
    submittedShares := o.submittedShares + (s.pending.delta o.id).submitted }
  pending := ∅

theorem mem_of_get {s : OrderStore} {id : String} {o : Order}
    (h : s.get id = some o) : o ∈ s.rows ∧ o.id = id := by
  refine ⟨List.mem_of_find?_eq_some h, ?_⟩
  simpa using List.find?_some h

/-- What `active_for_worker` returns is a live row of the worker. -/
theorem mem_of_activeForWorker {s : OrderStore} {w : String} {now : Int} {o : Order}
    (h : s.activeForWorker w now = some o) :
    o ∈ s.rows ∧ o.worker = w ∧ o.isLive now = true := by
  have hmem := List.mem_of_find?_eq_some h
  have hfund := List.find?_some h
  simp only [List.mem_filter, Bool.and_eq_true, Bool.or_eq_true,
    decide_eq_true_eq] at hmem
  obtain ⟨hrow, ⟨hworker, hactive⟩, hdeadline⟩ := hmem
  refine ⟨hrow, hworker, ?_⟩
  simp [Order.isLive, hactive, hdeadline]
  simpa using hfund

/-- A worker with a live row has a live order. -/
theorem activeForWorker_isSome {s : OrderStore} {w : String} {now : Int} {o : Order}
    (hrow : o ∈ s.rows) (hworker : o.worker = w) (hlive : o.isLive now = true) :
    (s.activeForWorker w now).isSome = true := by
  simp only [Order.isLive, Bool.and_eq_true, Bool.or_eq_true, decide_eq_true_eq,
    Bool.not_eq_true'] at hlive
  rw [activeForWorker, List.find?_isSome]
  refine ⟨o, ?_, by simp [hlive.2]⟩
  simp only [List.mem_filter, Bool.and_eq_true, Bool.or_eq_true, decide_eq_true_eq]
  exact ⟨hrow, ⟨hworker, hlive.1.1⟩, hlive.1.2⟩

/-- The index leaves one active row per worker. -/
theorem OneActive.unique {s : OrderStore} (h : s.OneActive) {a b : Order}
    (ha : a ∈ s.rows) (hb : b ∈ s.rows) (hworker : a.worker = b.worker)
    (hactive : a.status = .active) (hactive' : b.status = .active) : a = b := by
  by_contra hne
  have hsym : Std.Symm fun x y : Order => x.id ≠ y.id ∧
      ¬(x.worker = y.worker ∧ x.status = .active ∧ y.status = .active) :=
    ⟨fun x y hxy => ⟨hxy.1.symm, fun hc => hxy.2 ⟨hc.1.symm, hc.2.2, hc.2.1⟩⟩⟩
  exact (h.forall ha hb hne).2 ⟨hworker, hactive, hactive'⟩

/-- The primary key. -/
theorem OneActive.eq_of_id {s : OrderStore} (h : s.OneActive) {a b : Order}
    (ha : a ∈ s.rows) (hb : b ∈ s.rows) (hid : a.id = b.id) : a = b := by
  by_contra hne
  have hsym : Std.Symm fun x y : Order => x.id ≠ y.id ∧
      ¬(x.worker = y.worker ∧ x.status = .active ∧ y.status = .active) :=
    ⟨fun x y hxy => ⟨hxy.1.symm, fun hc => hxy.2 ⟨hc.1.symm, hc.2.2, hc.2.1⟩⟩⟩
  exact (h.forall ha hb hne).1 hid

/-- An inserted row keeps the index: `create` refuses it otherwise. -/
theorem create_oneActive {s s' : OrderStore} {o : Order} (h : s.OneActive)
    (hcreate : s.create o = some s') : s'.OneActive := by
  unfold create at hcreate
  split at hcreate
  · cases hcreate
  · rename_i hfree
    cases hcreate
    simp only [List.any_eq_true, Bool.or_eq_true, Bool.and_eq_true, decide_eq_true_eq,
      not_exists, not_and, not_or] at hfree
    simp only [OneActive, List.pairwise_append]
    refine ⟨h, by simp, ?_⟩
    intro a ha b hb
    rw [List.mem_singleton] at hb
    subst hb
    refine ⟨(hfree a ha).1, ?_⟩
    rintro ⟨hworker, hactive, _⟩
    exact (hfree a ha).2 hworker hactive

/-- Ending a row keeps the index. -/
theorem setStatus_oneActive {s : OrderStore} (h : s.OneActive) (id : String)
    {status : OrderStatus} (hstatus : status ≠ .active) (now : Int) :
    (s.setStatus id status now).OneActive := by
  simp only [OneActive, setStatus, List.pairwise_map]
  refine h.imp ?_
  intro a b hab
  split_ifs <;> simp_all

theorem cancel_oneActive {s s' : OrderStore} {id : String} {now : Int} {o : Order}
    (h : s.OneActive) (hcancel : s.cancel id now = some (o, s')) : s'.OneActive := by
  simp only [cancel, Option.map_eq_some_iff, Prod.mk.injEq] at hcancel
  obtain ⟨_, _, _, rfl⟩ := hcancel
  exact setStatus_oneActive h id (by decide) now

theorem takeExpired_oneActive {s : OrderStore} (h : s.OneActive) (now : Int) :
    (s.takeExpired now).2.OneActive := by
  simp only [takeExpired]
  generalize s.rows.filter _ = done
  induction done generalizing s with
  | nil => exact h
  | cons o done ih => exact ih (setStatus_oneActive h o.id (by decide) now)

theorem flush_oneActive {s : OrderStore} (h : s.OneActive) : s.flush.OneActive := by
  simpa only [OneActive, flush, List.pairwise_map] using h

/-! ## The statements of the store -/

/-- One statement changes the store. -/
inductive Step (s : OrderStore) : OrderStore → Prop where
  | create {o : Order} {s' : OrderStore} (h : s.create o = some s') : Step s s'
  | cancel {id : String} {now : Int} {o : Order} {s' : OrderStore}
      (h : s.cancel id now = some (o, s')) : Step s s'
  | expire (now : Int) : Step s (s.takeExpired now).2
  | flush : Step s s.flush

theorem Step.oneActive {s s' : OrderStore} (h : Step s s') (hone : s.OneActive) :
    s'.OneActive := by
  cases h with
  | create h => exact create_oneActive hone h
  | cancel h => exact cancel_oneActive hone h
  | expire now => exact takeExpired_oneActive hone now
  | flush => exact flush_oneActive hone

/-- The row of an order keeps its pools: only status and accounting change. -/
def SamePools (s s' : OrderStore) : Prop :=
  ∀ id o, s.get id = some o → ∃ o', s'.get id = some o' ∧ o'.pools = o.pools

theorem SamePools.refl (s : OrderStore) : SamePools s s := fun _ o h => ⟨o, h, rfl⟩

theorem SamePools.trans {s t u : OrderStore} (hst : SamePools s t) (htu : SamePools t u) :
    SamePools s u := by
  intro id o h
  obtain ⟨o', h', hpools⟩ := hst id o h
  obtain ⟨o'', h'', hpools'⟩ := htu id o' h'
  exact ⟨o'', h'', hpools'.trans hpools⟩

/-- A rewrite of the rows that keeps ids and pools. -/
theorem SamePools.of_map {s s' : OrderStore} (f : Order → Order) (hrows : s'.rows = s.rows.map f)
    (hid : ∀ o, (f o).id = o.id) (hpools : ∀ o, (f o).pools = o.pools) : SamePools s s' := by
  intro id o h
  refine ⟨f o, ?_, hpools o⟩
  have hfind : (s.rows.find? fun o => decide ((f o).id = id)) = some o := by
    simpa only [hid, get] using h
  rw [get, hrows, List.find?_map]
  simpa using ⟨o, hfind, rfl⟩

theorem setStatus_samePools (s : OrderStore) (id : String) (status : OrderStatus) (now : Int) :
    SamePools s (s.setStatus id status now) := by
  refine .of_map _ rfl ?_ ?_ <;> intro o <;> split <;> rfl

theorem Step.samePools {s s' : OrderStore} (h : Step s s') : SamePools s s' := by
  cases h with
  | @create o s' h =>
    intro id row hrow
    unfold OrderStore.create at h
    split at h <;> cases h
    refine ⟨row, ?_, rfl⟩
    simp only [get, List.find?_append]
    simp only [get] at hrow
    rw [hrow]
    rfl
  | @cancel id now o s' h =>
    simp only [OrderStore.cancel, Option.map_eq_some_iff, Prod.mk.injEq] at h
    obtain ⟨_, _, _, rfl⟩ := h
    exact setStatus_samePools s id .cancelled now
  | expire now =>
    simp only [takeExpired]
    generalize s.rows.filter _ = done
    induction done generalizing s with
    | nil => exact .refl s
    | cons o done ih => exact (setStatus_samePools s o.id .ended now).trans ih
  | flush => exact .of_map _ rfl (fun _ => rfl) fun _ => rfl

/-- A rewrite of the rows that keeps ids, row by row. -/
theorem get_of_map {s s' : OrderStore} (f : Order → Order) (hrows : s'.rows = s.rows.map f)
    (hid : ∀ o, (f o).id = o.id) (id : String) : s'.get id = (s.get id).map f := by
  rw [get, get, hrows, List.find?_map]
  simp only [Function.comp_def, hid]

/-- No row becomes active again. -/
def NoneRevived (s s' : OrderStore) : Prop :=
  ∀ id o o', s.get id = some o → s'.get id = some o' → o'.status = .active → o.status = .active

theorem NoneRevived.of_map {s s' : OrderStore} (f : Order → Order) (hrows : s'.rows = s.rows.map f)
    (hid : ∀ o, (f o).id = o.id) (hstatus : ∀ o, (f o).status = .active → o.status = .active) :
    NoneRevived s s' := by
  intro id o o' hget hget' hactive
  rw [get_of_map f hrows hid, hget] at hget'
  cases hget'
  exact hstatus o hactive

theorem setStatus_noneRevived (s : OrderStore) (id : String) {status : OrderStatus}
    (hstatus : status ≠ .active) (now : Int) : NoneRevived s (s.setStatus id status now) := by
  refine .of_map _ rfl ?_ ?_
  · intro o
    split <;> rfl
  · intro o hactive
    split at hactive
    · exact absurd hactive hstatus
    · exact hactive

theorem Step.noneRevived {s s' : OrderStore} (h : Step s s') : NoneRevived s s' := by
  cases h with
  | @create o s' h =>
    intro id row row' hrow hrow' hactive
    unfold OrderStore.create at h
    split at h <;> cases h
    have hsame : row' = row := by
      simp only [get, List.find?_append] at hrow hrow'
      rw [hrow] at hrow'
      exact (Option.some.inj hrow').symm
    rwa [hsame] at hactive
  | @cancel id now o s' h =>
    simp only [OrderStore.cancel, Option.map_eq_some_iff, Prod.mk.injEq] at h
    obtain ⟨_, _, _, rfl⟩ := h
    exact setStatus_noneRevived s id (by decide) now
  | expire now =>
    simp only [takeExpired]
    generalize s.rows.filter _ = done
    induction done generalizing s with
    | nil =>
      intro id o o' hget hget' hactive
      rw [List.foldl_nil, hget] at hget'
      cases hget'
      exact hactive
    | cons o done ih =>
      intro id row row' hrow hrow' hactive
      obtain ⟨mid, hmid, _⟩ := setStatus_samePools s o.id .ended now id row hrow
      exact setStatus_noneRevived s o.id (by decide) now id row mid hrow hmid
        (ih id mid row' hmid hrow' hactive)
  | flush => exact .of_map _ rfl (fun _ => rfl) fun _ h => h

/-- The live order of a worker is the row of its id. -/
theorem OneActive.get_activeForWorker {s : OrderStore} (h : s.OneActive) {w : String} {now : Int}
    {o : Order} (hactive : s.activeForWorker w now = some o) : s.get o.id = some o := by
  obtain ⟨hrow, _, _⟩ := mem_of_activeForWorker hactive
  cases hget : s.get o.id with
  | none =>
    have hnone := List.find?_eq_none.mp hget o hrow
    simp at hnone
  | some o' =>
    obtain ⟨hrow', hid⟩ := mem_of_get hget
    rw [h.eq_of_id hrow' hrow hid]

end OrderStore

end RentalProxy
