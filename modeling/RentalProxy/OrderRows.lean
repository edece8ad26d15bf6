import RentalProxy.Lib.Refinement
import RentalProxy.RentalBands

/-!
# The rows of the orders table

The `orders` table is flat: the status is a text, a missing fallback is a row of nulls, and the
counts are signed.  `OrderStore` holds orders instead.

* `OrderTable.OrderRow` is a row, `intoOrder` the order that is read off it.
* `OrderTable` is the table with its statements as they are written in SQL.
* `flat_table_refines` says that the calls cannot tell the table from the store of orders.
-/

namespace RentalProxy

open StepSystem

/-! ## Rows -/

/-- `as u64` of an `i64`. -/
def asU64 (x : Int) : Nat := (x % 2 ^ 64).toNat

/-- `as i64` of a `u64`. -/
def asI64 (n : Nat) : Int := Int.bmod n (2 ^ 64)

theorem asU64_of_lt {x : Int} (hpos : 0 ≤ x) (hlt : x < 2 ^ 63) : (asU64 x : Int) = x := by
  unfold asU64
  omega

theorem asI64_of_lt {n : Nat} (hlt : n < 2 ^ 63) : asI64 n = n := by
  unfold asI64
  rw [Int.bmod_def]
  omega

def OrderStatus.fromDb (s : String) : OrderStatus :=
  if s = "ended" then .ended else if s = "cancelled" then .cancelled else .active

namespace OrderTable

/-- A row of the table. -/
structure OrderRow where
  id : String
  worker : String
  targetUrl : String
  targetUser : String
  targetPassword : String
  targetAuthority : Option String
  fallbackUrl : Option String
  fallbackUser : Option String
  fallbackPassword : Option String
  fallbackAuthority : Option String
  createdMs : Int
  untilMs : Int
  status : String
  endedMs : Int
  deliveredWork : Rat
  acceptedShares : Int
  submittedShares : Int
  pricePerThDay : Rat
  budget : Rat

namespace OrderRow

def intoOrder (r : OrderRow) : Order where
  id := r.id
  worker := r.worker
  target := ⟨r.targetUrl, r.targetUser, r.targetPassword, r.targetAuthority⟩
  fallback := r.fallbackUrl.map fun url =>
    ⟨url, r.fallbackUser.getD "", r.fallbackPassword.getD "", r.fallbackAuthority⟩
  createdMs := r.createdMs
  untilMs := r.untilMs
  status := .fromDb r.status
  endedMs := r.endedMs
  deliveredWork := r.deliveredWork
  acceptedShares := asU64 r.acceptedShares
  submittedShares := asU64 r.submittedShares
  pricePerThDay := r.pricePerThDay
  budget := r.budget

/-- The values of the `INSERT`; `ended_ms` has its default. -/
def ofNew (o : Order) (now : Int) : OrderRow where
  id := o.id
  worker := o.worker
  targetUrl := o.target.url
  targetUser := o.target.user
  targetPassword := o.target.password
  targetAuthority := o.target.authorityPubkey
  fallbackUrl := o.fallback.map UpstreamTarget.url
  fallbackUser := o.fallback.map UpstreamTarget.user
  fallbackPassword := o.fallback.map UpstreamTarget.password
  fallbackAuthority := o.fallback.bind UpstreamTarget.authorityPubkey
  createdMs := now
  untilMs := o.untilMs
  status := "active"
  endedMs := 0
  deliveredWork := 0
  acceptedShares := 0
  submittedShares := 0
  pricePerThDay := o.pricePerThDay
  budget := o.budget

/-- A row as the proxy writes it. -/
structure Sound (r : OrderRow) : Prop where
  status : r.status ∈ ["active", "ended", "cancelled"]
  accepted : 0 ≤ r.acceptedShares ∧ r.acceptedShares < 2 ^ 63
  submitted : 0 ≤ r.submittedShares ∧ r.submittedShares < 2 ^ 63

/-- What is inserted is read back. -/
theorem intoOrder_ofNew (o : Order) (now : Int) :
    (ofNew o now).intoOrder = OrderStore.newRow o now := by
  unfold intoOrder ofNew OrderStore.newRow
  cases o.fallback <;> rfl

theorem ofNew_sound (o : Order) (now : Int) : (ofNew o now).Sound :=
  ⟨List.mem_cons_self, show (0 : Int) ≤ 0 ∧ (0 : Int) < 2 ^ 63 by omega,
    show (0 : Int) ≤ 0 ∧ (0 : Int) < 2 ^ 63 by omega⟩

/-- The text of the status is `active` exactly when the order is. -/
theorem Sound.active_iff {r : OrderRow} (h : r.Sound) :
    r.intoOrder.status = .active ↔ r.status = "active" := by
  show OrderStatus.fromDb r.status = .active ↔ _
  have hstatus := h.status
  simp only [List.mem_cons, List.not_mem_nil, or_false] at hstatus
  rcases hstatus with hs | hs | hs <;> rw [hs] <;> decide

end OrderRow

end OrderTable

/-! ## Statements -/

/-- The table, with the buffered accounting. -/
structure OrderTable where
  rows : List OrderTable.OrderRow := []
  pending : WorkBuffer := ∅

namespace OrderTable

/-- The orders of the table. -/
def store (t : OrderTable) : OrderStore := ⟨t.rows.map OrderRow.intoOrder, t.pending⟩

/-- `SELECT … WHERE id = ?`. -/
def get (t : OrderTable) (id : String) : Option Order :=
  (t.rows.find? fun r => decide (r.id = id)).map OrderRow.intoOrder

/-- `SELECT …` of the whole table. -/
def list (t : OrderTable) : List Order := t.rows.map OrderRow.intoOrder

/-- `SELECT … WHERE worker = ? ORDER BY created_ms ASC`. -/
def listForWorker (t : OrderTable) (worker : String) : List Order :=
  ((t.rows.filter fun r => decide (r.worker = worker)).insertionSort
    fun a b => a.createdMs ≤ b.createdMs).map OrderRow.intoOrder

/-- `SELECT … WHERE worker = ? AND status = 'active' AND (until_ms = 0 OR until_ms > ?)`, and the
first that is funded. -/
def activeForWorker (t : OrderTable) (worker : String) (now : Int) : Option Order :=
  ((t.rows.filter fun r => decide (r.worker = worker) && decide (r.status = "active") &&
    (decide (r.untilMs = 0) || decide (now < r.untilMs))).map OrderRow.intoOrder).find?
      fun o => !o.fundingExhausted

/-- `SELECT … WHERE status = 'active'`. -/
def active (t : OrderTable) : List Order :=
  (t.rows.filter fun r => decide (r.status = "active")).map OrderRow.intoOrder

/-- `INSERT`, under the primary key and the index on the active rows of a worker. -/
def insert (t : OrderTable) (o : Order) (now : Int) : Option OrderTable :=
  if t.rows.any fun r => decide (r.id = o.id) ||
      (decide (r.worker = o.worker) && decide (r.status = "active")) then none
  else some { t with rows := t.rows ++ [.ofNew o now] }

/-- `UPDATE orders SET delivered_work = delivered_work + ?, … WHERE id = ?`. -/
def addDelta (t : OrderTable) (id : String) (d : WorkDelta) : OrderTable :=
  { t with rows := t.rows.map fun r =>
      if r.id = id then { r with
        deliveredWork := r.deliveredWork + d.work
        acceptedShares := r.acceptedShares + asI64 d.accepted
        submittedShares := r.submittedShares + asI64 d.submitted } else r }

/-- `UPDATE orders SET status = …, ended_ms = ? WHERE id = ?`. -/
def setStatus (t : OrderTable) (id status : String) (now : Int) : OrderTable :=
  { t with rows := t.rows.map fun r =>
      if r.id = id then { r with status := status, endedMs := now } else r }

/-- The next piece of a call, on the table. -/
def piece (t : OrderTable) : StoreCall → Piece → Option (OrderTable × StoreCall)
  | .addWork id work accepted, _ =>
    some ({ t with pending := t.pending.addWork id work accepted }, .returned .unit)
  | .addSubmitted id submitted, _ =>
    some ({ t with pending := t.pending.addSubmitted id submitted }, .returned .unit)
  | .flush, _ =>
    some ({ t with pending := ∅ }, .flushing (t.pending.entries.map fun e => (e.1, e.2)))
  | .flushing [], _ => some (t, .returned .unit)
  | .flushing drained, p =>
    (drained[p.entry]?).map fun (id, d) =>
      (if p.ok then t.addDelta id d else t, .flushing (drained.eraseIdx p.entry))
  | .create o, p =>
    if p.ok then
      match t.insert o p.now with
      | some t' => some (t', .returned (.created (.ok (OrderStore.newRow o p.now))))
      | none => some (t, .returned (.created (.error .alreadyActive)))
    else some (t, .returned (.created (.error .db)))
  | .cancel id, p =>
    match if p.ok then t.get id else none with
    | some existing => some (t, .cancelling id existing)
    | none => some (t, .returned (.cancelled none))
  | .cancelling id existing, p =>
    some (if p.ok then t.setStatus id "cancelled" p.now else t,
      .returned (.cancelled (some { existing with status := .cancelled, endedMs := p.now })))
  | .takeExpired now, p => some (t, .expiring now (if p.ok then t.active else []) [])
  | .expiring _ [] done, _ => some (t, .returned (.expired done))
  | .expiring now (o :: active) done, p =>
    if OrderStore.finished o now then
      some (if p.ok then t.setStatus o.id "ended" now else t,
        .expiring now active (done ++ [{ o with status := .ended, endedMs := now }]))
    else some (t, .expiring now active done)
  | .returned _, _ => none

/-- The rows are as the proxy writes them. -/
def Sound (t : OrderTable) : Prop := ∀ r ∈ t.rows, r.Sound

/-- No count of a row reaches `2 ^ 63`. -/
def Fits (t : OrderTable) (p : Piece) : StoreCall → Prop
  | .flushing drained => ∀ e ∈ drained[p.entry]?, ∀ r ∈ t.rows, r.id = e.1 →
      r.acceptedShares + e.2.accepted < 2 ^ 63 ∧ r.submittedShares + e.2.submitted < 2 ^ 63
  | _ => True

instance (t : OrderTable) (p : Piece) : (c : StoreCall) → Decidable (t.Fits p c)
  | .flushing drained =>
    inferInstanceAs (Decidable (∀ e ∈ drained[p.entry]?, ∀ r ∈ t.rows, r.id = e.1 → _ ∧ _))
  | .addWork .. | .addSubmitted .. | .flush | .create _ | .cancel _ | .cancelling ..
  | .takeExpired _ | .expiring .. | .returned _ => isTrue trivial

/-! ## What the statements do to the orders -/

variable {t t' : OrderTable} {p : Piece} {c c' : StoreCall}

theorem find_intoOrder (l : List OrderRow) (id : String) :
    (l.find? fun r => decide (r.id = id)).map OrderRow.intoOrder =
      (l.map OrderRow.intoOrder).find? fun o => decide (o.id = id) := by
  rw [List.find?_map]
  rfl

theorem get_eq (t : OrderTable) (id : String) : t.get id = t.store.get id :=
  find_intoOrder t.rows id

theorem filter_intoOrder {q : OrderRow → Bool} {q' : Order → Bool}
    (h : ∀ r ∈ t.rows, q r = q' r.intoOrder) :
    (t.rows.filter q).map OrderRow.intoOrder = t.store.rows.filter q' := by
  show _ = (t.rows.map OrderRow.intoOrder).filter q'
  rw [List.filter_map]
  exact congrArg _ (List.filter_congr h)

theorem active_eq (h : t.Sound) :
    t.active = t.store.rows.filter fun o => decide (o.status = .active) :=
  filter_intoOrder fun r hr => decide_eq_decide.mpr (h r hr).active_iff.symm

theorem activeForWorker_eq (h : t.Sound) (worker : String) (now : Int) :
    t.activeForWorker worker now = t.store.activeForWorker worker now := by
  unfold activeForWorker OrderStore.activeForWorker
  refine congrArg _ (filter_intoOrder fun r hr => ?_)
  rw [decide_eq_decide.mpr (h r hr).active_iff.symm]
  rfl

theorem listForWorker_eq (t : OrderTable) (worker : String) :
    t.listForWorker worker = t.store.listForWorker worker := by
  unfold listForWorker OrderStore.listForWorker
  rw [← filter_intoOrder (q := fun r => decide (r.worker = worker)) fun r _ => rfl]
  exact List.map_insertionSort _ _ _ _ fun _ _ _ _ => Iff.rfl

/-- The `INSERT` is refused exactly when `OrderStore.create` refuses the order. -/
theorem insert_eq (h : t.Sound) (o : Order) (now : Int) :
    (t.insert o now).map store = t.store.create (OrderStore.newRow o now) := by
  have hany : (t.rows.any fun r => decide (r.id = o.id) ||
      (decide (r.worker = o.worker) && decide (r.status = "active"))) =
      t.store.rows.any fun r => decide (r.id = (OrderStore.newRow o now).id) ||
        (decide (r.worker = (OrderStore.newRow o now).worker) && decide (r.status = .active)) := by
    show _ = (t.rows.map OrderRow.intoOrder).any _
    rw [List.any_map, Bool.eq_iff_iff, List.any_eq_true, List.any_eq_true]
    refine exists_congr fun r => and_congr_right fun hr => ?_
    rw [decide_eq_decide.mpr (h r hr).active_iff.symm]
    rfl
  unfold insert OrderStore.create
  rw [hany]
  split
  · rfl
  · rw [Option.map_some, store, List.map_append, List.map_singleton, OrderRow.intoOrder_ofNew]
    rfl

theorem setStatus_eq (t : OrderTable) (id : String) {status : String} (now : Int) :
    (t.setStatus id status now).store = t.store.setStatus id (.fromDb status) now := by
  unfold store setStatus OrderStore.setStatus
  simp only [List.map_map, OrderStore.mk.injEq, and_true]
  refine List.map_congr_left fun r _ => ?_
  show OrderRow.intoOrder (if r.id = id then _ else r) = if r.id = id then _ else _
  split <;> rfl

/-- Counts that fit are added as they are. -/
theorem asU64_add {x : Int} {n : Nat} (hpos : 0 ≤ x) (hfits : x + n < 2 ^ 63) :
    asU64 (x + asI64 n) = asU64 x + n := by
  have hx := asU64_of_lt hpos (by omega)
  have hsum := asU64_of_lt (x := x + n) (by omega) hfits
  rw [asI64_of_lt (by omega)]
  omega

theorem addDelta_eq (h : t.Sound) {id : String} {d : WorkDelta}
    (hfits : ∀ r ∈ t.rows, r.id = id →
      r.acceptedShares + d.accepted < 2 ^ 63 ∧ r.submittedShares + d.submitted < 2 ^ 63) :
    (t.addDelta id d).store = t.store.addDelta id d := by
  unfold store addDelta OrderStore.addDelta
  simp only [List.map_map, OrderStore.mk.injEq, and_true]
  refine List.map_congr_left fun r hr => ?_
  show OrderRow.intoOrder (if r.id = id then _ else r) = if r.id = id then _ else _
  split
  · rename_i hid
    obtain ⟨haccepted, hsubmitted⟩ := hfits r hr hid
    unfold OrderRow.intoOrder
    rw [asU64_add (h r hr).accepted.1 haccepted, asU64_add (h r hr).submitted.1 hsubmitted]
  · rfl

/-! ## The pieces of the calls -/

/-- A piece on the table is the piece on the store of its orders. -/
theorem piece_eq (h : t.Sound) (hfits : t.Fits p c) :
    (t.piece c p).map (fun z => (z.1.store, z.2)) = c.atomicPiece t.store p := by
  cases c with
  | addWork | addSubmitted | flush | returned => rfl
  | flushing drained =>
    cases drained with
    | nil => rfl
    | cons e rest =>
      simp only [piece, StoreCall.atomicPiece]
      rw [Option.map_map]
      cases hentry : (e :: rest)[p.entry]? with
      | none => rfl
      | some e' =>
        simp only [Option.map_some, Function.comp_apply]
        split
        · rw [addDelta_eq h (hfits e' hentry)]
        · rfl
  | create o =>
    simp only [piece, StoreCall.atomicPiece]
    cases hok : p.ok with
    | false => rfl
    | true =>
      simp only [if_true]
      rw [← insert_eq h]
      cases t.insert o p.now <;> rfl
  | cancel id =>
    simp only [piece, StoreCall.atomicPiece]
    rw [get_eq]
    cases (if p.ok = true then t.store.get id else none) <;> rfl
  | cancelling id existing =>
    simp only [piece, StoreCall.atomicPiece]
    cases p.ok with
    | false => rfl
    | true =>
      simp only [if_true, Option.map_some]
      rw [setStatus_eq]
      rfl
  | takeExpired now =>
    simp only [piece, StoreCall.atomicPiece]
    rw [active_eq h]
    rfl
  | expiring now active done =>
    cases active with
    | nil => rfl
    | cons o active =>
      simp only [piece, StoreCall.atomicPiece]
      split
      · cases p.ok with
        | false => rfl
        | true =>
          simp only [if_true, Option.map_some]
          rw [setStatus_eq]
          rfl
      · rfl

theorem Sound.setStatus (h : t.Sound) {id status : String} {now : Int}
    (hstatus : status ∈ ["active", "ended", "cancelled"]) : (t.setStatus id status now).Sound := by
  intro r hr
  obtain ⟨o, ho, rfl⟩ := List.mem_map.mp hr
  split
  · exact ⟨hstatus, (h o ho).accepted, (h o ho).submitted⟩
  · exact h o ho

/-- A piece leaves rows as the proxy writes them. -/
theorem Sound.piece (h : t.Sound) (hfits : t.Fits p c) (hpiece : t.piece c p = some (t', c')) :
    t'.Sound := by
  cases c with
  | addWork | addSubmitted | flush | takeExpired =>
    cases hpiece
    exact h
  | returned => cases hpiece
  | flushing drained =>
    cases drained with
    | nil =>
      cases hpiece
      exact h
    | cons e rest =>
      obtain ⟨⟨id, d⟩, hentry, heq⟩ := Option.map_eq_some_iff.mp hpiece
      cases heq
      split
      · intro r hr
        obtain ⟨o, ho, rfl⟩ := List.mem_map.mp hr
        have hsound := h o ho
        split
        · rename_i hid
          obtain ⟨haccepted, hsubmitted⟩ := hfits (id, d) hentry o ho hid
          obtain ⟨ha, _⟩ := hsound.accepted
          obtain ⟨hs, _⟩ := hsound.submitted
          dsimp only at haccepted hsubmitted
          refine ⟨hsound.status, ?_, ?_⟩ <;> dsimp only <;> rw [asI64_of_lt (by omega)] <;> omega
        · exact hsound
      · exact h
  | create o =>
    simp only [OrderTable.piece] at hpiece
    split at hpiece
    · split at hpiece <;> cases hpiece
      · rename_i hinsert
        unfold insert at hinsert
        split at hinsert <;> cases hinsert
        intro r hr
        rcases List.mem_append.mp hr with hr | hr
        · exact h r hr
        · rw [List.mem_singleton.mp hr]
          exact OrderRow.ofNew_sound o p.now
      · exact h
    · cases hpiece
      exact h
  | cancel id =>
    simp only [OrderTable.piece] at hpiece
    split at hpiece <;> cases hpiece <;> exact h
  | cancelling id existing =>
    cases hpiece
    split
    · exact h.setStatus (by simp)
    · exact h
  | expiring now active done =>
    cases active with
    | nil =>
      cases hpiece
      exact h
    | cons o active =>
      simp only [OrderTable.piece] at hpiece
      split at hpiece <;> cases hpiece
      · split
        · exact h.setStatus (by simp)
        · exact h
      · exact h

end OrderTable

/-! ## Runs -/

/-- The table with its calls. -/
abbrev TablePool := Calls.Pool OrderTable StoreCall

namespace TablePool

def step : TablePool → StoreEvent → Option TablePool :=
  Calls.step StoreCall.isEntry OrderTable.piece

/-- The counts of the rows stay small. -/
def Fits (x : TablePool) : StoreEvent → Prop
  | .call _ => True
  | .run k p => ∀ c ∈ x.calls[k]?, x.shared.Fits p c

instance (x : TablePool) : (e : StoreEvent) → Decidable (x.Fits e)
  | .call _ => isTrue trivial
  | .run k p => inferInstanceAs (Decidable (∀ c ∈ x.calls[k]?, x.shared.Fits p c))

/-- The same calls on the store of the orders. -/
def pool (x : TablePool) : StorePool := x.map OrderTable.store

theorem step_pool {x y : TablePool} {e : StoreEvent} (h : x.shared.Sound) (hfits : x.Fits e)
    (hstep : x.step e = some y) : y.shared.Sound ∧ x.pool.step e = some y.pool := by
  refine ⟨?_, Calls.step_map OrderTable.store ?_ hstep⟩
  · rcases Calls.cases_of_step hstep with
      ⟨c, rfl, hentry, rfl⟩ | ⟨k, p, c, t, c', rfl, hc, hpiece, rfl⟩
    · exact h
    · exact h.piece (hfits c hc) hpiece
  · rintro k p c rfl hc
    exact OrderTable.piece_eq h (hfits c hc)

end TablePool

/-- The calls on the flat table are the calls on the store of orders: they run the same way and
return the same, and what is read off the table at any point is what is read off the store, as long
as no count of shares reaches `2 ^ 63`. -/
theorem flat_table_refines {x y : TablePool} (hx : x.shared.Sound)
    (h : Run TablePool.step TablePool.Fits x y) :
    Run StorePool.step (fun _ _ => True) x.pool y.pool ∧
      (∀ id, y.shared.get id = y.pool.shared.get id) ∧
      y.shared.list = y.pool.shared.rows ∧
      (∀ worker, y.shared.listForWorker worker = y.pool.shared.listForWorker worker) ∧
      ∀ worker now,
        y.shared.activeForWorker worker now = y.pool.shared.activeForWorker worker now := by
  obtain ⟨hy, hrun⟩ := h.refine (I := fun x => x.shared.Sound) (H := fun _ _ => True)
    TablePool.pool hx fun _ _ _ hsound hfits hstep =>
      ⟨(TablePool.step_pool hsound hfits hstep).1, trivial,
        (TablePool.step_pool hsound hfits hstep).2⟩
  exact ⟨hrun, OrderTable.get_eq y.shared, rfl, OrderTable.listForWorker_eq y.shared,
    OrderTable.activeForWorker_eq hy⟩

/-- An order with a fallback, one share of it, and its end. -/
def fallbackOrder : Order where
  id := "o1"
  worker := "bc1q.rig"
  target := ⟨"buyer:3333", "b", "x", none⟩
  fallback := some ⟨"spare:3333", "b", "", some "9auq"⟩

def fallbackOrderEvents : List StoreEvent :=
  [.call (.create fallbackOrder), .run 0 { now := 100 }, .call (.addWork "o1" 5 1), .run 1 {},
    .call .flush, .run 2 {}, .run 2 {}, .call (.cancel "o1"), .run 3 {}, .run 3 { now := 200 }]

theorem flat_table_refines_fallback :
    ∃ y : TablePool, Run TablePool.step TablePool.Fits ⟨{}, []⟩ y ∧
      y.shared.get "o1" = some { fallbackOrder with
        createdMs := 100, status := .cancelled, endedMs := 200, deliveredWork := 5
        acceptedShares := 1 } ∧
      y.shared.get "o1" = y.pool.shared.get "o1" := by
  have hrun : ((runWhile TablePool.step (fun x e => decide (x.Fits e)) ⟨{}, []⟩
      fallbackOrderEvents).any fun y => decide (y.shared.get "o1" = some { fallbackOrder with
        createdMs := 100, status := .cancelled, endedMs := 200, deliveredWork := 5
        acceptedShares := 1 })) = true := by decide +kernel
  obtain ⟨y, hy, htest⟩ := (Option.any_eq_true ..).mp hrun
  have hreach : Run TablePool.step TablePool.Fits ⟨{}, []⟩ y :=
    Run.of_runWhile (fun _ _ => of_decide_eq_true) hy
  have hsound : OrderTable.Sound {} := List.forall_mem_nil _
  exact ⟨y, hreach, of_decide_eq_true htest, (flat_table_refines hsound hreach).2.1 "o1"⟩

end RentalProxy
