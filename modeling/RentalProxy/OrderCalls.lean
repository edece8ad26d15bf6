import RentalProxy.Lib.Calls
import RentalProxy.Lib.History
import RentalProxy.Orders

/-!
# The order store, statement by statement

The calls of `OrderStore` run concurrently, from the relay tasks, the API and the expiry task.  Each
is cut where another may come in between: after the buffer lock is given back and around every SQL
statement.

* `StoreCall` is where a call stands, `atomicPiece` its next piece.
* `Piece` is what the store does not decide: whether the statement succeeds, what the clock says,
  and in which order the drained buffer is written.
-/

namespace RentalProxy

/-! ## Calls -/

/-- Why `create` could not record an order. -/
inductive CreateOrderError where
  | alreadyActive
  | db
deriving DecidableEq

/-- What a call returns. -/
inductive StoreAnswer where
  | unit
  | created (order : Except CreateOrderError Order)
  | cancelled (order : Option Order)
  | expired (orders : List Order)

/-- Where a call of the store stands. -/
inductive StoreCall where
  | addWork (id : String) (work : Rat) (accepted : Nat)
  | addSubmitted (id : String) (submitted : Nat)
  | flush
  /-- The buffer is taken; these entries are still to be written. -/
  | flushing (drained : List (String × WorkDelta))
  | create (o : Order)
  | cancel (id : String)
  /-- The row was read. -/
  | cancelling (id : String) (existing : Order)
  | takeExpired (now : Int)
  /-- The active rows were read. -/
  | expiring (now : Int) (active done : List Order)
  | returned (answer : StoreAnswer)

/-- What decides the outcome of a piece. -/
structure Piece where
  /-- The statement succeeds. -/
  ok : Bool := true
  /-- The clock. -/
  now : Int := 0
  /-- The entry of the drained buffer that is next. -/
  entry : Nat := 0

namespace OrderStore

/-- The `UPDATE` of `flush`. -/
def addDelta (s : OrderStore) (id : String) (d : WorkDelta) : OrderStore :=
  { s with rows := s.rows.map fun o =>
      if o.id = id then { o with
        deliveredWork := o.deliveredWork + d.work
        acceptedShares := o.acceptedShares + d.accepted
        submittedShares := o.submittedShares + d.submitted } else o }

/-- The row that `create` inserts. -/
def newRow (o : Order) (now : Int) : Order :=
  { o with
    createdMs := now, status := .active, endedMs := 0, deliveredWork := 0, acceptedShares := 0
    submittedShares := 0 }

end OrderStore

namespace StoreCall

/-- The calls as they are made. -/
def isEntry : StoreCall → Bool
  | addWork .. | addSubmitted .. | flush | create _ | cancel _ | takeExpired _ => true
  | flushing _ | cancelling .. | expiring .. | returned _ => false

/-- The next piece of a call. -/
def atomicPiece (s : OrderStore) : StoreCall → Piece → Option (OrderStore × StoreCall)
  | addWork id work accepted, _ =>
    some ({ s with pending := s.pending.addWork id work accepted }, returned .unit)
  | addSubmitted id submitted, _ =>
    some ({ s with pending := s.pending.addSubmitted id submitted }, returned .unit)
  | flush, _ =>
    some ({ s with pending := ∅ }, flushing (s.pending.entries.map fun e => (e.1, e.2)))
  | flushing [], _ => some (s, returned .unit)
  | flushing drained, p =>
    -- an error of the statement is not looked at
    (drained[p.entry]?).map fun (id, d) =>
      (if p.ok then s.addDelta id d else s, flushing (drained.eraseIdx p.entry))
  | create o, p =>
    if p.ok then
      match s.create (OrderStore.newRow o p.now) with
      | some s' => some (s', returned (.created (.ok (OrderStore.newRow o p.now))))
      | none => some (s, returned (.created (.error .alreadyActive)))
    else some (s, returned (.created (.error .db)))
  | cancel id, p =>
    match if p.ok then s.get id else none with
    | some existing => some (s, cancelling id existing)
    | none => some (s, returned (.cancelled none))
  | cancelling id existing, p =>
    some (if p.ok then s.setStatus id .cancelled p.now else s,
      returned (.cancelled (some { existing with status := .cancelled, endedMs := p.now })))
  | takeExpired now, p =>
    some (s, expiring now
      (if p.ok then s.rows.filter fun o => decide (o.status = .active) else []) [])
  | expiring _ [] done, _ => some (s, returned (.expired done))
  | expiring now (o :: active) done, p =>
    if OrderStore.finished o now then
      some (if p.ok then s.setStatus o.id .ended now else s,
        expiring now active (done ++ [{ o with status := .ended, endedMs := now }]))
    else some (s, expiring now active done)
  | returned _, _ => none

end StoreCall

/-! ## Pieces -/

namespace StoreCall

/-- What a piece does to the store, and where it leaves its call. -/
inductive Moves (s : OrderStore) (p : Piece) : StoreCall → OrderStore → StoreCall → Prop where
  | addWork (id : String) (work : Rat) (accepted : Nat) :
      Moves s p (addWork id work accepted)
        { s with pending := s.pending.addWork id work accepted } (returned .unit)
  | addSubmitted (id : String) (submitted : Nat) :
      Moves s p (addSubmitted id submitted)
        { s with pending := s.pending.addSubmitted id submitted } (returned .unit)
  | take : Moves s p flush { s with pending := ∅ }
      (flushing (s.pending.entries.map fun e => (e.1, e.2)))
  | flushed : Moves s p (flushing []) s (returned .unit)
  | write {drained : List (String × WorkDelta)} {id : String} {d : WorkDelta}
      (hentry : drained[p.entry]? = some (id, d)) (hok : p.ok = true) :
      Moves s p (flushing drained) (s.addDelta id d) (flushing (drained.eraseIdx p.entry))
  | lose {drained : List (String × WorkDelta)} {id : String} {d : WorkDelta}
      (hentry : drained[p.entry]? = some (id, d)) (hok : p.ok = false) :
      Moves s p (flushing drained) s (flushing (drained.eraseIdx p.entry))
  | insert {o : Order} {s' : OrderStore} (hok : p.ok = true)
      (hcreate : s.create (OrderStore.newRow o p.now) = some s') :
      Moves s p (create o) s' (returned (.created (.ok (OrderStore.newRow o p.now))))
  | refuse (o : Order) (e : CreateOrderError) :
      Moves s p (create o) s (returned (.created (.error e)))
  | read {id : String} {existing : Order} (hget : s.get id = some existing) :
      Moves s p (cancel id) s (cancelling id existing)
  | missing (id : String) : Moves s p (cancel id) s (returned (.cancelled none))
  | cancelled {id : String} {existing : Order} (hok : p.ok = true) :
      Moves s p (cancelling id existing) (s.setStatus id .cancelled p.now)
        (returned (.cancelled (some { existing with status := .cancelled, endedMs := p.now })))
  | uncancelled {id : String} {existing : Order} (hok : p.ok = false) :
      Moves s p (cancelling id existing) s
        (returned (.cancelled (some { existing with status := .cancelled, endedMs := p.now })))
  | select {now : Int} {active : List Order}
      (hactive : ∀ o ∈ active, o ∈ s.rows ∧ o.status = .active) :
      Moves s p (takeExpired now) s (expiring now active [])
  | swept (now : Int) (done : List Order) :
      Moves s p (expiring now [] done) s (returned (.expired done))
  | expire {now : Int} {o : Order} {active done : List Order}
      (hfinished : OrderStore.finished o now = true) (hok : p.ok = true) :
      Moves s p (expiring now (o :: active) done) (s.setStatus o.id .ended now)
        (expiring now active (done ++ [{ o with status := .ended, endedMs := now }]))
  | unexpired {now : Int} {o : Order} {active done : List Order}
      (hfinished : OrderStore.finished o now = true) (hok : p.ok = false) :
      Moves s p (expiring now (o :: active) done) s
        (expiring now active (done ++ [{ o with status := .ended, endedMs := now }]))
  | skip {now : Int} {o : Order} {active done : List Order}
      (hfinished : OrderStore.finished o now = false) :
      Moves s p (expiring now (o :: active) done) s (expiring now active done)

variable {s s' : OrderStore} {c c' : StoreCall} {p : Piece}

theorem moves_of_atomicPiece (h : atomicPiece s c p = some (s', c')) : Moves s p c s' c' := by
  cases c with
  | addWork | addSubmitted | flush =>
    cases h
    constructor
  | flushing drained =>
    cases drained with
    | nil =>
      cases h
      exact .flushed
    | cons e rest =>
      simp only [atomicPiece, Option.map_eq_some_iff, Prod.mk.injEq] at h
      obtain ⟨⟨id, d⟩, hentry, rfl, rfl⟩ := h
      cases hok : p.ok with
      | true => exact .write hentry hok
      | false => exact .lose hentry hok
  | create o =>
    simp only [atomicPiece] at h
    split at h
    · split at h <;> cases h
      · exact .insert ‹_› ‹_›
      · exact .refuse o _
    · cases h
      exact .refuse o _
  | cancel id =>
    simp only [atomicPiece] at h
    split at h <;> cases h
    · rename_i hget
      split at hget
      · exact .read hget
      · cases hget
    · exact .missing id
  | cancelling id existing =>
    cases hok : p.ok <;> simp only [atomicPiece, hok] at h <;> cases h
    · exact .uncancelled hok
    · exact .cancelled hok
  | takeExpired now =>
    cases h
    refine .select fun o ho => ?_
    split at ho
    · simpa using ho
    · cases ho
  | expiring now active done =>
    cases active with
    | nil =>
      cases h
      exact .swept now done
    | cons o active =>
      simp only [atomicPiece] at h
      split at h
      · cases hok : p.ok <;> simp only [hok] at h <;> cases h
        · exact .unexpired ‹_› hok
        · exact .expire ‹_› hok
      · cases h
        exact .skip (Bool.eq_false_of_not_eq_true ‹_›)
  | returned => cases h

end StoreCall

/-- The store with its calls. -/
abbrev StorePool := Calls.Pool OrderStore StoreCall

abbrev StoreEvent := Calls.Event StoreCall Piece

namespace StorePool

/-- One step of one call. -/
def step : StorePool → StoreEvent → Option StorePool :=
  Calls.step StoreCall.isEntry StoreCall.atomicPiece

/-- A store that no call has been made of. -/
def idle (s : OrderStore) : StorePool := ⟨s, []⟩

end StorePool

/-! ## What a statement does to the rows -/

namespace OrderStore

variable {s s' : OrderStore} {id : String} {o : Order}

theorem get_setStatus (s : OrderStore) (id : String) (status : OrderStatus) (now : Int)
    (row : String) : (s.setStatus id status now).get row = (s.get row).map fun o =>
      if row = id then { o with status := status, endedMs := now } else o := by
  rw [get_of_map (s := s) _ rfl (fun o => by split <;> rfl)]
  cases hget : s.get row with
  | none => rfl
  | some o =>
    obtain ⟨_, rfl⟩ := mem_of_get hget
    rfl

theorem get_addDelta (s : OrderStore) (id : String) (d : WorkDelta) (row : String) :
    (s.addDelta id d).get row = (s.get row).map fun o => if row = id then { o with
      deliveredWork := o.deliveredWork + d.work
      acceptedShares := o.acceptedShares + d.accepted
      submittedShares := o.submittedShares + d.submitted } else o := by
  rw [get_of_map (s := s) _ rfl (fun o => by split <;> rfl)]
  cases hget : s.get row with
  | none => rfl
  | some o =>
    obtain ⟨_, rfl⟩ := mem_of_get hget
    rfl

/-- An insert leaves the other rows alone. -/
theorem get_create_of_some {r : Order} {row : String} (h : s.create o = some s')
    (hrow : s.get row = some r) : s'.get row = some r := by
  unfold create at h
  split at h <;> cases h
  rw [get, List.find?_append]
  rw [get] at hrow
  rw [hrow]
  rfl

theorem create_pending (h : s.create o = some s') : s'.pending = s.pending := by
  unfold create at h
  split at h <;> cases h
  rfl

end OrderStore

/-- A piece keeps the rows. -/
theorem StoreCall.Moves.isSome {s s' : OrderStore} {c c' : StoreCall} {p : Piece} {row : String}
    (h : Moves s p c s' c') (hrow : (s.get row).isSome = true) :
    (s'.get row).isSome = true := by
  cases h with
  | write => rwa [OrderStore.get_addDelta, Option.isSome_map]
  | insert _ hcreate =>
    obtain ⟨r, hr⟩ := Option.isSome_iff_exists.mp hrow
    rw [OrderStore.get_create_of_some hcreate hr]
    rfl
  | cancelled | expire => rwa [OrderStore.get_setStatus, Option.isSome_map]
  | _ => exact hrow

/-- A piece brings in no row but that of the order it inserts, and no order to be inserted. -/
theorem StoreCall.Moves.origin {s s' : OrderStore} {c c' : StoreCall} {p : Piece}
    (h : Moves s p c s' c') :
    (∀ r' ∈ s'.rows, (∃ r ∈ s.rows, r.id = r'.id ∧ r.worker = r'.worker) ∨
        ∃ o, c = .create o ∧ r'.id = o.id ∧ r'.worker = o.worker) ∧
      ∀ o, c' ≠ .create o := by
  cases h with
  | write | cancelled | expire =>
    refine ⟨fun r' hr' => ?_, fun o ho => by cases ho⟩
    obtain ⟨r, hr, rfl⟩ := List.mem_map.mp hr'
    exact Or.inl ⟨r, hr, by split <;> exact ⟨rfl, rfl⟩⟩
  | @insert o _ _ hcreate =>
    refine ⟨fun r' hr' => ?_, fun o ho => by cases ho⟩
    unfold OrderStore.create at hcreate
    split at hcreate <;> cases hcreate
    rcases List.mem_append.mp hr' with hr' | hr'
    · exact Or.inl ⟨r', hr', rfl, rfl⟩
    · rw [List.mem_singleton.mp hr']
      exact Or.inr ⟨o, rfl, rfl, rfl⟩
  | _ => exact ⟨fun r' hr' => Or.inl ⟨r', hr', rfl, rfl⟩, fun o ho => by cases ho⟩

/-! ## Calls that run alone -/

namespace StorePool

open StepSystem

/-- The pieces of a call of which nothing is asked. -/
def pieces (n : Nat) (now : Int) : List StoreEvent := List.replicate n (.run 0 { now := now })

theorem run_pieces {s s' : OrderStore} {c c' : StoreCall} {now : Int}
    (h : StoreCall.atomicPiece s c { now := now } = some (s', c')) (n : Nat) :
    run step ⟨s, [c]⟩ (pieces (n + 1) now) = run step ⟨s', [c']⟩ (pieces n now) := by
  simp only [pieces, List.replicate_succ, run, step, Calls.step, List.getElem?_cons_zero,
    Option.bind_some, h, Option.map_some, List.set_cons_zero]

/-- A cancel that nothing comes in between of. -/
theorem cancel_alone (s : OrderStore) (id : String) (now : Int) {o : Order} {s' : OrderStore}
    (h : s.cancel id now = some (o, s')) :
    run step ⟨s, [.cancel id]⟩ (pieces 2 now) = some ⟨s', [.returned (.cancelled (some o))]⟩ := by
  simp only [OrderStore.cancel, Option.map_eq_some_iff, Prod.mk.injEq] at h
  obtain ⟨existing, hget, rfl, rfl⟩ := h
  have hread : StoreCall.atomicPiece s (.cancel id) { now := now } =
      some (s, .cancelling id existing) := by
    simp only [StoreCall.atomicPiece, if_true, hget]
  rw [run_pieces hread, run_pieces rfl]
  rfl

theorem expiring_alone (now : Int) (active done : List Order) (s : OrderStore) :
    run step ⟨s, [.expiring now active done]⟩ (pieces (active.length + 1) now) =
      some ⟨(active.filter (OrderStore.finished · now)).foldl
          (fun st o => st.setStatus o.id .ended now) s,
        [.returned (.expired (done ++ (active.filter (OrderStore.finished · now)).map
          fun o => { o with status := .ended, endedMs := now }))]⟩ := by
  induction active generalizing s done with
  | nil =>
    rw [List.length_nil, run_pieces rfl]
    simp [pieces, run]
  | cons o active ih =>
    rw [List.length_cons]
    by_cases hfinished : OrderStore.finished o now = true
    · have hpiece : StoreCall.atomicPiece s (.expiring now (o :: active) done) { now := now } =
          some (s.setStatus o.id .ended now, .expiring now active
            (done ++ [{ o with status := .ended, endedMs := now }])) := by
        simp only [StoreCall.atomicPiece, hfinished, if_true]
      rw [run_pieces hpiece, ih,
        List.filter_cons_of_pos (p := fun x => OrderStore.finished x now) hfinished]
      simp only [List.foldl_cons, List.map_cons, List.append_assoc, List.singleton_append]
    · have hpiece : StoreCall.atomicPiece s (.expiring now (o :: active) done) { now := now } =
          some (s, .expiring now active done) := by
        simp only [StoreCall.atomicPiece, hfinished, Bool.false_eq_true, if_false]
      rw [run_pieces hpiece, ih,
        List.filter_cons_of_neg (p := fun x => OrderStore.finished x now) hfinished]

/-- A sweep that nothing comes in between of. -/
theorem takeExpired_alone (s : OrderStore) (now : Int) :
    ∃ n, run step ⟨s, [.takeExpired now]⟩ (pieces n now) =
      some ⟨(s.takeExpired now).2, [.returned (.expired (s.takeExpired now).1)]⟩ := by
  refine ⟨(s.rows.filter fun o => decide (o.status = .active)).length + 1 + 1, ?_⟩
  rw [run_pieces rfl, if_pos rfl, expiring_alone, List.filter_filter]
  have hdone : (s.rows.filter fun o => OrderStore.finished o now && decide (o.status = .active)) =
      s.rows.filter fun o => decide (o.status = .active) && OrderStore.finished o now :=
    List.filter_congr fun o _ => Bool.and_comm _ _
  rw [hdone]
  rfl

end StorePool

end RentalProxy
