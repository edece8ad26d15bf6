import RentalProxy.OrderCalls
import Mathlib.Algebra.Order.Ring.Rat
import Mathlib.Tactic.Abel

/-!
# Buffered work

Work and share counts are buffered by order and written by `flush`, which takes the whole buffer
and then issues one `UPDATE` per order.  An error of the statement is dropped, and the delta with
it.

* `WorkDelta` adds up, so that work, accepted and submitted shares are one quantity.
* `held` is what the rows, the buffer and the running flushes hold for an order.
* `held_eq` is the balance of a run: what is held and what was lost is what was there and what was
  added.  `work_conserved_iff` is the result.
-/

namespace RentalProxy

open StepSystem

/-! ## Deltas -/

attribute [ext] WorkDelta

namespace WorkDelta

instance : Zero WorkDelta := ⟨{}⟩

instance : Add WorkDelta :=
  ⟨fun a b => ⟨a.work + b.work, a.accepted + b.accepted, a.submitted + b.submitted⟩⟩

@[simp] theorem zero_work : (0 : WorkDelta).work = 0 := rfl
@[simp] theorem zero_accepted : (0 : WorkDelta).accepted = 0 := rfl
@[simp] theorem zero_submitted : (0 : WorkDelta).submitted = 0 := rfl
@[simp] theorem add_work (a b : WorkDelta) : (a + b).work = a.work + b.work := rfl
@[simp] theorem add_accepted (a b : WorkDelta) : (a + b).accepted = a.accepted + b.accepted := rfl
@[simp] theorem add_submitted (a b : WorkDelta) :
    (a + b).submitted = a.submitted + b.submitted := rfl

instance : AddCancelCommMonoid WorkDelta where
  add_assoc a b c := by ext <;> simp [add_assoc]
  zero_add a := by ext <;> simp
  add_zero a := by ext <;> simp
  add_comm a b := by ext <;> simp [add_comm]
  add_left_cancel a b c h := by
    have hwork := congrArg work h
    have haccepted := congrArg accepted h
    have hsubmitted := congrArg submitted h
    simp only [add_work, add_accepted, add_submitted, add_right_inj] at hwork haccepted hsubmitted
    exact WorkDelta.ext hwork haccepted hsubmitted
  nsmul := nsmulRec

end WorkDelta

/-- What a list of deltas has for one order. -/
def ofEntries (id : String) (l : List (String × WorkDelta)) : WorkDelta :=
  ((l.filter fun e => decide (e.1 = id)).map Prod.snd).sum

section Entries

variable {id : String} {l : List (String × WorkDelta)}

@[simp] theorem ofEntries_nil (id : String) : ofEntries id [] = 0 := rfl

theorem ofEntries_singleton (id : String) (e : String × WorkDelta) :
    ofEntries id [e] = if e.1 = id then e.2 else 0 := by
  unfold ofEntries
  by_cases h : e.1 = id <;> simp [h]

theorem ofEntries_append (l' : List (String × WorkDelta)) :
    ofEntries id (l ++ l') = ofEntries id l + ofEntries id l' := by
  unfold ofEntries
  rw [List.filter_append, List.map_append, List.sum_append]

theorem ofEntries_cons (e : String × WorkDelta) :
    ofEntries id (e :: l) = ofEntries id [e] + ofEntries id l :=
  ofEntries_append (l := [e]) l

/-- One entry is taken out. -/
theorem ofEntries_eraseIdx {k : Nat} {e : String × WorkDelta} (h : l[k]? = some e) :
    ofEntries id (l.eraseIdx k) + ofEntries id [e] = ofEntries id l := by
  induction l generalizing k with
  | nil => simp at h
  | cons a l ih =>
    cases k with
    | zero =>
      obtain rfl : a = e := by simpa using h
      rw [List.eraseIdx_cons_zero, add_comm, ← ofEntries_cons]
    | succ k =>
      rw [List.getElem?_cons_succ] at h
      rw [List.eraseIdx_cons_succ, ofEntries_cons, add_assoc, ih h, ← ofEntries_cons]

/-- A table with one entry per order has the entry of the order. -/
theorem ofEntries_keyed {es : List (Sigma fun _ : String => WorkDelta)} (hkeys : es.NodupKeys) :
    ofEntries id (es.map fun e => (e.1, e.2)) = (es.dlookup id).getD {} := by
  induction es with
  | nil => rfl
  | cons e es ih =>
    obtain ⟨hfresh, hrest⟩ := List.nodupKeys_cons.mp hkeys
    rw [List.map_cons, ofEntries_cons, ofEntries_singleton, ih hrest]
    by_cases hid : e.1 = id
    · subst hid
      rw [if_pos rfl, List.dlookup_cons_eq, List.dlookup_eq_none.mpr hfresh]
      exact add_zero e.2
    · rw [if_neg hid, List.dlookup_cons_ne _ _ fun h => hid h.symm, zero_add]

end Entries

/-! ## What is held for an order -/

/-- What a row has been credited with. -/
def Order.tally (o : Order) : WorkDelta := ⟨o.deliveredWork, o.acceptedShares, o.submittedShares⟩

/-- The totals in the database. -/
def OrderStore.written (s : OrderStore) (id : String) : WorkDelta :=
  ((s.get id).map Order.tally).getD 0

namespace StoreCall

/-- What a flush has drained and not written yet. -/
def drained (id : String) : StoreCall → WorkDelta
  | flushing l => ofEntries id l
  | _ => 0

/-- What the next piece of a call adds. -/
def adds : StoreCall → List (String × WorkDelta)
  | addWork id work accepted => [(id, ⟨work, accepted, 0⟩)]
  | addSubmitted id submitted => [(id, ⟨0, 0, submitted⟩)]
  | _ => []

/-- What the next piece of a call loses: the delta of an `UPDATE` that fails. -/
def loses (p : Piece) : StoreCall → List (String × WorkDelta)
  | flushing l => if p.ok then [] else (l[p.entry]?).toList
  | _ => []

end StoreCall

/-- What was added, and what was lost, along a run. -/
structure WorkLog where
  added : List (String × WorkDelta)
  lost : List (String × WorkDelta)

/-- The bookkeeping of one step. -/
def noteWork (x : StorePool) (e : StoreEvent) (log : WorkLog) : WorkLog :=
  match e with
  | .call _ => log
  | .run k p =>
    match x.calls[k]? with
    | some c => ⟨log.added ++ c.adds, log.lost ++ c.loses p⟩
    | none => log

/-- What the rows, the buffer and the running flushes hold for an order. -/
def StorePool.held (x : StorePool) (id : String) : WorkDelta :=
  x.shared.written id + x.shared.pending.delta id + x.total (StoreCall.drained id)

/-! ## One piece -/

theorem WorkBuffer.delta_addWork (b : WorkBuffer) (id row : String) (work : Rat) (accepted : Nat) :
    (b.addWork id work accepted).delta row =
      b.delta row + ofEntries row [(id, ⟨work, accepted, 0⟩)] := by
  rw [ofEntries_singleton]
  by_cases h : row = id
  · subst h
    rw [if_pos rfl, addWork]
    ext <;> simp [delta]
  · rw [if_neg fun h' => h h'.symm, add_zero, addWork]
    simp [delta, AList.lookup_insert_ne h]

theorem WorkBuffer.delta_addSubmitted (b : WorkBuffer) (id row : String) (submitted : Nat) :
    (b.addSubmitted id submitted).delta row =
      b.delta row + ofEntries row [(id, ⟨0, 0, submitted⟩)] := by
  rw [ofEntries_singleton]
  by_cases h : row = id
  · subst h
    rw [if_pos rfl, addSubmitted]
    ext <;> simp [delta]
  · rw [if_neg fun h' => h h'.symm, add_zero, addSubmitted]
    simp [delta, AList.lookup_insert_ne h]

namespace OrderStore

variable {s s' : OrderStore} {row : String}

/-- An `UPDATE` of the status credits nothing. -/
theorem written_setStatus (s : OrderStore) (id : String) (status : OrderStatus) (now : Int)
    (row : String) : (s.setStatus id status now).written row = s.written row := by
  rw [written, get_setStatus, written]
  cases s.get row with
  | none => rfl
  | some o =>
    simp only [Option.map_some, Option.getD_some]
    split <;> rfl

/-- The `UPDATE` of a flush credits its row. -/
theorem written_addDelta (hrow : (s.get row).isSome = true) (id : String) (d : WorkDelta) :
    (s.addDelta id d).written row = s.written row + ofEntries row [(id, d)] := by
  obtain ⟨o, ho⟩ := Option.isSome_iff_exists.mp hrow
  rw [written, get_addDelta, written, ho, ofEntries_singleton]
  simp only [Option.map_some, Option.getD_some]
  by_cases h : row = id
  · rw [if_pos h, if_pos h.symm]
    rfl
  · rw [if_neg h, if_neg fun h' => h h'.symm, add_zero]

theorem written_create {o r : Order} (h : s.create o = some s') (hrow : s.get row = some r) :
    s'.written row = s.written row := by
  rw [written, get_create_of_some h hrow, written, hrow]

end OrderStore

/-- A piece moves deltas around, and adds and loses what it says. -/
theorem StoreCall.Moves.balance {s s' : OrderStore} {c c' : StoreCall} {p : Piece} {row : String}
    (h : Moves s p c s' c') (hrow : (s.get row).isSome = true) :
    s'.written row + s'.pending.delta row + c'.drained row + ofEntries row (c.loses p) =
      s.written row + s.pending.delta row + c.drained row + ofEntries row c.adds := by
  cases h with
  | addWork id work accepted =>
    simp only [drained, loses, adds, ofEntries_nil, add_zero, WorkBuffer.delta_addWork, add_assoc]
    rfl
  | addSubmitted id submitted =>
    simp only [drained, loses, adds, ofEntries_nil, add_zero, WorkBuffer.delta_addSubmitted,
      add_assoc]
    rfl
  | take =>
    simp only [drained, loses, adds, ofEntries_nil, add_zero]
    rw [ofEntries_keyed s.pending.nodupKeys]
    change _ + 0 + WorkBuffer.delta s.pending row = _
    rw [add_zero]
    rfl
  | @write l id d hentry hok =>
    simp only [drained, loses, adds, hok, if_true, ofEntries_nil, add_zero,
      OrderStore.written_addDelta hrow]
    rw [add_right_comm (s.written row), add_assoc (_ + _), add_comm (ofEntries row [(id, d)]),
      ofEntries_eraseIdx hentry]
    rfl
  | lose hentry hok =>
    simp only [drained, loses, adds, hok, hentry, Option.toList_some, Bool.false_eq_true, if_false,
      ofEntries_nil, add_zero]
    rw [add_assoc _ (ofEntries row _), ofEntries_eraseIdx hentry]
  | insert _ hcreate =>
    obtain ⟨r, hr⟩ := Option.isSome_iff_exists.mp hrow
    simp only [drained, loses, adds, OrderStore.written_create hcreate hr,
      OrderStore.create_pending hcreate]
  | cancelled | expire =>
    simp only [drained, loses, adds, OrderStore.written_setStatus]
    rfl
  | flushed =>
    simp only [drained, loses, adds, List.getElem?_nil, Option.toList_none, ite_self]
    rfl
  | refuse | read | missing | uncancelled | select | swept | unexpired | skip => rfl

/-! ## A flush that runs alone -/

theorem OrderStore.foldl_addDelta_rows (l : List (String × WorkDelta)) (s : OrderStore) :
    (l.foldl (fun s e => s.addDelta e.1 e.2) s).rows = s.rows.map fun o => { o with
      deliveredWork := o.deliveredWork + (ofEntries o.id l).work
      acceptedShares := o.acceptedShares + (ofEntries o.id l).accepted
      submittedShares := o.submittedShares + (ofEntries o.id l).submitted } := by
  induction l generalizing s with
  | nil => simp
  | cons e l ih =>
    rw [List.foldl_cons, ih, addDelta, List.map_map]
    refine List.map_congr_left fun o _ => ?_
    by_cases h : o.id = e.1
    · have hnew : ofEntries o.id (e :: l) = e.2 + ofEntries o.id l := by
        rw [ofEntries_cons, ofEntries_singleton, if_pos h.symm]
      simp only [Function.comp_apply, if_pos h, hnew, WorkDelta.add_work, WorkDelta.add_accepted,
        WorkDelta.add_submitted, add_assoc]
    · have hnew : ofEntries o.id (e :: l) = ofEntries o.id l := by
        rw [ofEntries_cons, ofEntries_singleton, if_neg fun h' => h h'.symm, zero_add]
      simp only [Function.comp_apply, if_neg h, hnew]

theorem OrderStore.foldl_addDelta_pending (l : List (String × WorkDelta)) (s : OrderStore) :
    (l.foldl (fun s e => s.addDelta e.1 e.2) s).pending = s.pending := by
  induction l generalizing s with
  | nil => rfl
  | cons e l ih => exact ih _

theorem StorePool.flushing_alone (now : Int) (l : List (String × WorkDelta)) (s : OrderStore) :
    run step ⟨s, [.flushing l]⟩ (pieces (l.length + 1) now) =
      some ⟨l.foldl (fun s e => s.addDelta e.1 e.2) s, [.returned .unit]⟩ := by
  induction l generalizing s with
  | nil =>
    rw [List.length_nil, run_pieces rfl]
    rfl
  | cons e l ih =>
    rw [List.length_cons, run_pieces rfl]
    exact ih _

/-- A flush that nothing comes in between of, and of which every `UPDATE` succeeds. -/
theorem StorePool.flush_alone (s : OrderStore) (now : Int) :
    ∃ n, run step ⟨s, [.flush]⟩ (pieces n now) = some ⟨s.flush, [.returned .unit]⟩ := by
  refine ⟨(s.pending.entries.map fun e => (e.1, e.2)).length + 1 + 1, ?_⟩
  rw [run_pieces rfl, flushing_alone]
  refine congrArg (fun t => some (⟨t, _⟩ : StorePool)) ?_
  have hrows := OrderStore.foldl_addDelta_rows (s.pending.entries.map fun e => (e.1, e.2))
    { s with pending := ∅ }
  have hpending := OrderStore.foldl_addDelta_pending (s.pending.entries.map fun e => (e.1, e.2))
    { s with pending := ∅ }
  simp only [ofEntries_keyed s.pending.nodupKeys] at hrows
  generalize List.foldl _ _ _ = t at hrows hpending ⊢
  cases t
  cases hrows
  cases hpending
  rfl

/-! ## Runs -/

/-- The runs of the store from a state without calls. -/
def WorkReaches (s₀ : OrderStore) (x : StorePool × WorkLog) : Prop :=
  Run (observed StorePool.step noteWork) (fun _ _ => True) (StorePool.idle s₀, ⟨[], []⟩) x

namespace WorkReaches

variable {s₀ : OrderStore} {x : StorePool × WorkLog} {id : String}

/-- What is held and what was lost is what was there and what was added. -/
theorem held_eq (h : WorkReaches s₀ x) (hrow : (s₀.get id).isSome = true) :
    (x.1.shared.get id).isSome = true ∧
      x.1.held id + ofEntries id x.2.lost =
        (StorePool.idle s₀).held id + ofEntries id x.2.added := by
  refine Run.invariant (I := fun x => (x.1.shared.get id).isSome = true ∧
    x.1.held id + ofEntries id x.2.lost = (StorePool.idle s₀).held id + ofEntries id x.2.added)
    h ⟨hrow, by simp⟩ ?_
  rintro ⟨x, log⟩ e ⟨y, log'⟩ ⟨hsome, hheld⟩ _ hstep
  obtain ⟨hnext, rfl⟩ := observed_eq_some.mp hstep
  rcases Calls.cases_of_step hnext with
    ⟨c, rfl, hentry, rfl⟩ | ⟨k, p, c, s, c', rfl, hc, hpiece, rfl⟩
  · refine ⟨hsome, ?_⟩
    have hnew : c.drained id = 0 := by
      cases c <;> first | rfl | cases hentry
    change _ + _ + Calls.Pool.total _ _ + _ = _
    rw [Calls.Pool.total_call, hnew, add_zero]
    exact hheld
  · have hmoves := StoreCall.moves_of_atomicPiece hpiece
    refine ⟨hmoves.isSome hsome, ?_⟩
    have hbalance := hmoves.balance hsome
    have htotal := Calls.Pool.total_run (StoreCall.drained id) hc s c'
    simp only [noteWork, hc, ofEntries_append]
    -- the call itself, before and after
    refine add_right_cancel (b := c.drained id) ?_
    calc StorePool.held (⟨s, x.calls.set k c'⟩ : StorePool) id + (ofEntries id log.lost +
          ofEntries id (c.loses p)) + c.drained id
        = s.written id + s.pending.delta id + (Calls.Pool.total (StoreCall.drained id)
            (⟨s, x.calls.set k c'⟩ : StorePool) + c.drained id) + ofEntries id (c.loses p) +
            ofEntries id log.lost := by
          unfold StorePool.held
          abel
      _ = s.written id + s.pending.delta id + c'.drained id + ofEntries id (c.loses p) +
            x.total (StoreCall.drained id) + ofEntries id log.lost := by
          rw [htotal]
          abel
      _ = x.held id + ofEntries id log.lost + ofEntries id c.adds + c.drained id := by
          rw [hbalance]
          unfold StorePool.held
          abel
      _ = _ := by
          rw [hheld]
          abel

end WorkReaches

/-- What is held for an order is what was there and what was added, exactly when the deltas of the
failed `UPDATE`s of the order come to nothing. -/
theorem work_conserved_iff {s₀ : OrderStore} {x : StorePool × WorkLog} {id : String}
    (h : WorkReaches s₀ x) (hrow : (s₀.get id).isSome = true) :
    x.1.held id = (StorePool.idle s₀).held id + ofEntries id x.2.added ↔
      ofEntries id x.2.lost = 0 := by
  rw [← (h.held_eq hrow).2]
  exact left_eq_add

/-! ## Runs of one order -/

/-- An executed schedule is a run of the store. -/
theorem WorkReaches.exists_of_run {s₀ : OrderStore} (es : List StoreEvent)
    {test : StorePool × WorkLog → Bool}
    (h : ((run (observed StorePool.step noteWork) (StorePool.idle s₀, ⟨[], []⟩) es).any test) =
      true) :
    ∃ x, WorkReaches s₀ x ∧ test x = true := by
  obtain ⟨x, hx, htest⟩ := (Option.any_eq_true ..).mp h
  exact ⟨x, Run.of_run hx, htest⟩

/-- A store with one order. -/
def oneOrder : OrderStore where
  rows := [{ id := "o1", worker := "bc1q.rig", target := ⟨"buyer:3333", "b", "", none⟩ }]

/-- Credit for an order, one share while a flush is under way, and the outcome of its `UPDATE`. -/
def flushEvents (ok : Bool) : List StoreEvent :=
  [.call (.addWork "o1" (5 / 2) 1), .run 0 {}, .call (.addSubmitted "o1" 3), .run 1 {},
    .call .flush, .run 2 {}, .call (.addWork "o1" 1 1), .run 3 {}, .run 2 { ok := ok },
    .run 2 {}]

theorem work_conserved_flushed :
    ∃ x, WorkReaches oneOrder x ∧ x.1.held "o1" = ⟨7 / 2, 2, 3⟩ ∧
      x.1.held "o1" = (StorePool.idle oneOrder).held "o1" + ofEntries "o1" x.2.added := by
  obtain ⟨x, hreach, hx⟩ := @WorkReaches.exists_of_run oneOrder (flushEvents true)
    (fun x => decide (x.1.held "o1" = ⟨7 / 2, 2, 3⟩ ∧ ofEntries "o1" x.2.lost = 0))
    (by decide +kernel)
  obtain ⟨hheld, hlost⟩ := of_decide_eq_true hx
  exact ⟨x, hreach, hheld, (work_conserved_iff hreach (by decide +kernel)).mpr hlost⟩

/-- The `UPDATE` fails, and the credit is nowhere. -/
theorem failed_update_loses_work :
    ∃ x, WorkReaches oneOrder x ∧ x.1.held "o1" = ⟨1, 1, 0⟩ ∧
      ofEntries "o1" x.2.added = ⟨7 / 2, 2, 3⟩ ∧
      x.1.held "o1" ≠ (StorePool.idle oneOrder).held "o1" + ofEntries "o1" x.2.added := by
  obtain ⟨x, hreach, hx⟩ := @WorkReaches.exists_of_run oneOrder (flushEvents false)
    (fun x => decide (x.1.held "o1" = ⟨1, 1, 0⟩ ∧
      ofEntries "o1" x.2.added = ⟨7 / 2, 2, 3⟩ ∧
      x.1.held "o1" ≠ (StorePool.idle oneOrder).held "o1" + ofEntries "o1" x.2.added))
    (by decide +kernel)
  exact ⟨x, hreach, of_decide_eq_true hx⟩

end RentalProxy
