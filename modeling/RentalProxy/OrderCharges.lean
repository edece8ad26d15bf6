import RentalProxy.BufferedWork
import RentalProxy.OrderCalls
import Mathlib.Tactic.Linarith

/-!
# What a rental is charged

A rental is charged for the work that a flush has written into its row.  The row is what the buyer
is billed by, so nothing in it may be taken back.

* `Order.Advanced` is what may happen to a row, and `StoreCall.Moves.rows` shows that a piece of a
  call does nothing else.
* `charges_only_grow` says so of runs: the cost rises, what is left of the budget falls, and an
  order that is over does not come back.
-/

namespace RentalProxy

open StepSystem

/-! ## Cost -/

namespace Order

/-- `Order::budget_remaining`, `0` without a budget. -/
def budgetRemaining (o : Order) : Rat :=
  if o.budget ≤ 0 then 0 else max (o.budget - o.cost) 0

theorem costOf_add (price work more : Rat) :
    costOf price (work + more) = costOf price work + costOf price more := by
  unfold costOf
  ring

theorem costOf_zero (price : Rat) : costOf price 0 = 0 := by
  unfold costOf
  ring

/-- The row `r` was the row `o` before: of what was agreed on nothing has changed. -/
structure Advanced (o r : Order) : Prop where
  terms : r = { o with
    status := r.status, endedMs := r.endedMs, deliveredWork := r.deliveredWork
    acceptedShares := r.acceptedShares, submittedShares := r.submittedShares }
  work : o.deliveredWork ≤ r.deliveredWork
  accepted : o.acceptedShares ≤ r.acceptedShares
  submitted : o.submittedShares ≤ r.submittedShares
  active : r.status = .active → o.status = .active

namespace Advanced

variable {o q r : Order}

theorem refl (o : Order) : o.Advanced o :=
  ⟨rfl, le_refl _, le_refl _, le_refl _, fun h => h⟩

theorem trans (h : o.Advanced q) (h' : q.Advanced r) : o.Advanced r where
  terms := by
    rw [h'.terms, h.terms]
  work := le_trans h.work h'.work
  accepted := le_trans h.accepted h'.accepted
  submitted := le_trans h.submitted h'.submitted
  active hactive := h.active (h'.active hactive)

theorem id_eq (h : o.Advanced r) : r.id = o.id := by rw [h.terms]

theorem budget_eq (h : o.Advanced r) : r.budget = o.budget := by rw [h.terms]

theorem price_eq (h : o.Advanced r) : r.pricePerThDay = o.pricePerThDay := by rw [h.terms]

theorem untilMs_eq (h : o.Advanced r) : r.untilMs = o.untilMs := by rw [h.terms]

theorem cost_le (h : o.Advanced r) (hprice : 0 ≤ o.pricePerThDay) : o.cost ≤ r.cost := by
  unfold cost
  rw [h.price_eq]
  exact costOf_le hprice h.work

theorem budgetRemaining_le (h : o.Advanced r) (hprice : 0 ≤ o.pricePerThDay) :
    r.budgetRemaining ≤ o.budgetRemaining := by
  unfold budgetRemaining
  rw [h.budget_eq]
  split
  · exact le_refl _
  · exact max_le_max (sub_le_sub_left (h.cost_le hprice) _) (le_refl _)

theorem fundingExhausted (h : o.Advanced r) (hprice : 0 ≤ o.pricePerThDay)
    (hspent : o.fundingExhausted = true) : r.fundingExhausted = true := by
  simp only [Order.fundingExhausted, Bool.and_eq_true, decide_eq_true_eq, h.budget_eq] at hspent ⊢
  exact ⟨hspent.1, le_trans hspent.2 (h.cost_le hprice)⟩

/-- An order that is in effect was so at any time before. -/
theorem isLive (h : o.Advanced r) (hprice : 0 ≤ o.pricePerThDay) {now later : Int}
    (hle : now ≤ later) (hlive : r.isLive later = true) : o.isLive now = true := by
  have hbefore := isLive_of_le hle hlive
  simp only [Order.isLive, Bool.and_eq_true, decide_eq_true_eq, Bool.not_eq_true'] at hbefore ⊢
  obtain ⟨⟨hactive, hdeadline⟩, hfunded⟩ := hbefore
  rw [h.untilMs_eq] at hdeadline
  refine ⟨⟨h.active hactive, hdeadline⟩, ?_⟩
  by_contra hspent
  rw [h.fundingExhausted hprice (by simpa using hspent)] at hfunded
  cases hfunded

end Advanced

end Order

/-! ## What a piece does to the rows -/

namespace StoreCall

/-- What a piece writes into the rows. -/
def writes (p : Piece) : StoreCall → List (String × WorkDelta)
  | flushing l => if p.ok then (l[p.entry]?).toList else []
  | _ => []

/-- What a piece takes from the buffer. -/
def takes (s : OrderStore) : StoreCall → List (String × WorkDelta)
  | flush => s.pending.entries.map fun e => (e.1, e.2)
  | _ => []

/-- Work is credited, not withdrawn. -/
def Credits : StoreCall → Prop
  | addWork _ work _ => 0 ≤ work
  | flushing l => ∀ e ∈ l, 0 ≤ e.2.work
  | _ => True

instance : (c : StoreCall) → Decidable c.Credits
  | addWork _ work _ => inferInstanceAs (Decidable (0 ≤ work))
  | flushing l => inferInstanceAs (Decidable (∀ e ∈ l, 0 ≤ e.2.work))
  | addSubmitted .. | flush | create _ | cancel _ | takeExpired _ | cancelling .. | expiring ..
  | returned _ => isTrue trivial

end StoreCall

theorem ofEntries_work_nonneg {id : String} {l : List (String × WorkDelta)}
    (h : ∀ e ∈ l, 0 ≤ e.2.work) : 0 ≤ (ofEntries id l).work := by
  induction l with
  | nil => exact le_refl _
  | cons e l ih =>
    rw [ofEntries_cons, ofEntries_singleton, WorkDelta.add_work]
    refine add_nonneg ?_ (ih fun e he => h e (List.mem_cons_of_mem _ he))
    split
    · exact h e List.mem_cons_self
    · exact le_refl _

namespace OrderStore

/-- Nothing that is buffered is negative. -/
def CreditsBuffered (s : OrderStore) : Prop := ∀ e ∈ s.pending.entries, 0 ≤ e.2.work

/-- The rows of `s` have advanced by the entries of `l`, and there may be new ones. -/
def RowsAdvance (s s' : OrderStore) (l : List (String × WorkDelta)) : Prop :=
  ∃ (f : Order → Order) (new : List Order), s'.rows = s.rows.map f ++ new ∧
    (∀ o : Order, o.Advanced (f o)) ∧
    (∀ o : Order, (f o).deliveredWork = o.deliveredWork + (ofEntries o.id l).work) ∧
    ∀ n ∈ new, n.deliveredWork = 0

theorem RowsAdvance.of_rows_eq {s s' : OrderStore} (h : s'.rows = s.rows) :
    s.RowsAdvance s' [] := by
  refine ⟨fun o => o, [], by simp [h], Order.Advanced.refl, fun o => ?_, by simp⟩
  exact (add_zero _).symm

theorem RowsAdvance.of_setStatus (s : OrderStore) (id : String) {status : OrderStatus}
    (hstatus : status ≠ .active) (now : Int) : s.RowsAdvance (s.setStatus id status now) [] := by
  refine ⟨_, [], (List.append_nil _).symm, fun o => ?_, fun o => ?_, by simp⟩
  · split
    · exact ⟨rfl, le_refl _, le_refl _, le_refl _, fun h => absurd h hstatus⟩
    · exact .refl o
  · split <;> exact (add_zero _).symm

/-- A row that has advanced keeps its id. -/
theorem RowsAdvance.get {s s' : OrderStore} {l : List (String × WorkDelta)}
    (h : s.RowsAdvance s' l) {id : String} {o : Order} (ho : s.get id = some o) :
    ∃ r, s'.get id = some r ∧ o.Advanced r := by
  obtain ⟨f, new, hrows, hadvanced, _, _⟩ := h
  refine ⟨f o, ?_, hadvanced o⟩
  have hmap : OrderStore.get { s with rows := s.rows.map f } id = (s.get id).map f :=
    get_of_map f rfl (fun o => (hadvanced o).id_eq) id
  rw [ho] at hmap
  unfold OrderStore.get at hmap ⊢
  rw [hrows, List.find?_append, hmap]
  rfl

end OrderStore

theorem WorkBuffer.delta_work_nonneg {b : WorkBuffer} (h : ∀ e ∈ b.entries, 0 ≤ e.2.work)
    (id : String) : 0 ≤ (b.delta id).work := by
  unfold delta
  cases hfound : b.lookup id with
  | none => exact le_refl _
  | some d => exact h ⟨id, d⟩ (AList.mem_lookup_iff.mp hfound)

theorem WorkBuffer.insert_work_nonneg {b : WorkBuffer} (h : ∀ e ∈ b.entries, 0 ≤ e.2.work)
    (id : String) {d : WorkDelta} (hd : 0 ≤ d.work) :
    ∀ e ∈ AList.entries (b.insert id d), 0 ≤ e.2.work := by
  rw [AList.entries_insert]
  intro e he
  rcases List.mem_cons.mp he with rfl | he
  · exact hd
  · exact h e (List.kerase_sublist id b.entries |>.subset he)

namespace StoreCall.Moves

variable {s s' : OrderStore} {c c' : StoreCall} {p : Piece}

/-- A piece keeps the buffer and the drained entries from being negative. -/
theorem credits (h : Moves s p c s' c') (hs : s.CreditsBuffered) (hc : c.Credits) :
    s'.CreditsBuffered ∧ c'.Credits := by
  cases h with
  | addWork id work accepted =>
    refine ⟨WorkBuffer.insert_work_nonneg hs id ?_, trivial⟩
    exact add_nonneg (WorkBuffer.delta_work_nonneg hs id) hc
  | addSubmitted id submitted =>
    refine ⟨WorkBuffer.insert_work_nonneg hs id ?_, trivial⟩
    exact WorkBuffer.delta_work_nonneg hs id
  | take =>
    refine ⟨fun e he => absurd he List.not_mem_nil, fun e he => ?_⟩
    obtain ⟨e', he', rfl⟩ := List.mem_map.mp he
    exact hs e' he'
  | write | lose => exact ⟨hs, fun e he => hc e (List.mem_of_mem_eraseIdx he)⟩
  | insert _ hcreate =>
    unfold OrderStore.CreditsBuffered
    rw [OrderStore.create_pending hcreate]
    exact ⟨hs, trivial⟩
  | _ => exact ⟨hs, trivial⟩

/-- A piece advances the rows, by what it writes, and may insert a new one. -/
theorem rows (h : Moves s p c s' c') (hc : c.Credits) : s.RowsAdvance s' (c.writes p) := by
  cases h with
  | @write l id d hentry hok =>
    have hd : 0 ≤ d.work := hc (id, d) (List.mem_of_getElem? hentry)
    refine ⟨_, [], (List.append_nil _).symm, fun o => ?_, fun o => ?_, by simp⟩
    · split
      · exact ⟨rfl, le_add_of_nonneg_right hd, Nat.le_add_right .., Nat.le_add_right .., fun h => h⟩
      · exact .refl o
    · simp only [writes, hok, hentry, if_true, Option.toList_some, ofEntries_singleton]
      by_cases hid : o.id = id
      · rw [if_pos hid, if_pos hid.symm]
      · rw [if_neg hid, if_neg fun h => hid h.symm]
        exact (add_zero _).symm
  | lose hentry hok =>
    rw [show (flushing _).writes p = [] by simp [writes, hok]]
    exact .of_rows_eq rfl
  | flushed =>
    rw [show (flushing _).writes p = [] by simp [writes]]
    exact .of_rows_eq rfl
  | insert _ hcreate =>
    unfold OrderStore.create at hcreate
    split at hcreate <;> cases hcreate
    refine ⟨fun o => o, _, by rw [List.map_id'], Order.Advanced.refl, fun o => ?_, fun n hn => ?_⟩
    · exact (add_zero _).symm
    · rw [List.mem_singleton.mp hn]
  | cancelled => exact .of_setStatus s _ (by decide) _
  | expire => exact .of_setStatus s _ (by decide) _
  | _ => exact .of_rows_eq rfl

/-- What a call has drained is what it had, with what it takes and without what it writes or
loses. -/
theorem drained_eq (h : Moves s p c s' c') (id : String) :
    c'.drained id + ofEntries id (c.writes p) + ofEntries id (c.loses p) =
      c.drained id + ofEntries id (c.takes s) := by
  cases h with
  | write hentry hok =>
    simp only [drained, writes, loses, takes, hok, hentry, if_true, Option.toList_some,
      ofEntries_nil, add_zero]
    exact ofEntries_eraseIdx hentry
  | lose hentry hok =>
    simp only [drained, writes, loses, takes, hok, hentry, Bool.false_eq_true, if_false,
      Option.toList_some, ofEntries_nil, add_zero]
    exact ofEntries_eraseIdx hentry
  | flushed => simp [drained, writes, loses, takes]
  | _ => simp [drained, writes, loses, takes]

end StoreCall.Moves

/-! ## Rows along a run -/

namespace StorePool

/-- No call withdraws work. -/
def CreditsWork (_ : StorePool) : StoreEvent → Prop
  | .call c => c.Credits
  | .run .. => True

instance (x : StorePool) : (e : StoreEvent) → Decidable (x.CreditsWork e)
  | .call c => inferInstanceAs (Decidable c.Credits)
  | .run .. => isTrue trivial

/-- Nothing that is buffered or drained is negative. -/
abbrev NoneNegative (x : StorePool) : Prop :=
  x.Holds OrderStore.CreditsBuffered fun _ c => c.Credits

variable {x y : StorePool} {e : StoreEvent}

theorem NoneNegative.step (h : x.NoneNegative) (he : x.CreditsWork e) (hstep : x.step e = some y) :
    y.NoneNegative := by
  rcases Calls.cases_of_step hstep with ⟨c, rfl, _, rfl⟩ | ⟨k, p, c, s, c', rfl, hc, hpiece, rfl⟩
  · refine ⟨h.shared, fun r hr => ?_⟩
    rcases List.mem_append.mp hr with hr | hr
    · exact h.calls r hr
    · rw [List.mem_singleton.mp hr]
      exact he
  · have hmoves := StoreCall.moves_of_atomicPiece hpiece
    obtain ⟨hs, hc'⟩ := hmoves.credits h.shared (h.calls c (List.mem_of_getElem? hc))
    refine ⟨hs, fun r hr => ?_⟩
    rcases List.mem_or_eq_of_mem_set hr with hr | rfl
    · exact h.calls r hr
    · exact hc'

theorem NoneNegative.advanced (h : x.NoneNegative) (hstep : x.step e = some y) {id : String}
    {o : Order} (ho : x.shared.get id = some o) :
    ∃ r, y.shared.get id = some r ∧ o.Advanced r := by
  rcases Calls.cases_of_step hstep with ⟨c, rfl, _, rfl⟩ | ⟨k, p, c, s, c', rfl, hc, hpiece, rfl⟩
  · exact ⟨o, ho, .refl o⟩
  · have hmoves := StoreCall.moves_of_atomicPiece hpiece
    exact (hmoves.rows (h.calls c (List.mem_of_getElem? hc))).get ho

/-- The runs from the start of the process on some table. -/
abbrev CreditRun (rows : List Order) (x : StorePool) : Prop :=
  Run step CreditsWork (idle { rows }) x

theorem CreditRun.noneNegative {rows : List Order} (h : CreditRun rows x) : x.NoneNegative := by
  refine Run.invariant (I := NoneNegative) h ?_ fun x e y hx he hstep => hx.step he hstep
  exact ⟨fun e he => absurd he List.not_mem_nil, fun c hc => absurd hc List.not_mem_nil⟩

end StorePool

/-- Whatever calls run, and whichever statements fail: an order stays as it was agreed on, is
charged more and more, has less and less left, and is in effect for one stretch of time only. -/
theorem charges_only_grow {rows : List Order} {x y : StorePool} (hx : StorePool.CreditRun rows x)
    (hxy : Run StorePool.step StorePool.CreditsWork x y) {id : String} {o : Order}
    (ho : x.shared.get id = some o) :
    ∃ r, y.shared.get id = some r ∧ o.Advanced r ∧ (0 ≤ o.pricePerThDay →
      o.cost ≤ r.cost ∧ r.budgetRemaining ≤ o.budgetRemaining ∧
        ∀ now later, now ≤ later → r.isLive later = true → o.isLive now = true) := by
  have hadvanced : ∃ r, y.shared.get id = some r ∧ o.Advanced r := by
    induction hxy with
    | refl => exact ⟨o, ho, .refl o⟩
    | @tail z w e hrun hnext hguard ih =>
      obtain ⟨q, hq, hoq⟩ := ih
      obtain ⟨r, hr, hqr⟩ := (StorePool.CreditRun.noneNegative (hx.trans hrun)).advanced hnext hq
      exact ⟨r, hr, hoq.trans hqr⟩
  obtain ⟨r, hr, hor⟩ := hadvanced
  refine ⟨r, hr, hor, fun hprice => ⟨hor.cost_le hprice, hor.budgetRemaining_le hprice, ?_⟩⟩
  intro now later hle hlive
  exact hor.isLive hprice hle hlive

/-- A rental with a budget, at a price at which a difficulty-1 share costs one. -/
def fundedOrder : Order :=
  { id := "o1", worker := "bc1q.rig", target := ⟨"buyer:3333", "b", "", none⟩
    pricePerThDay := hashesPerThDay / diff1Hashes, budget := 2 }

/-- Three shares' worth of work is credited and flushed. -/
def flushThree : List StoreEvent :=
  [.call (.addWork "o1" 3 1), .run 0 {}, .call .flush, .run 1 {}, .run 1 {}]

theorem charges_only_grow_flushed :
    ∃ x y o r, StorePool.CreditRun [fundedOrder] x ∧
      Run StorePool.step StorePool.CreditsWork x y ∧ x.shared.get "o1" = some o ∧
      y.shared.get "o1" = some r ∧ o.cost = 0 ∧ r.cost = 3 ∧
      r.budgetRemaining ≤ o.budgetRemaining := by
  obtain ⟨x, y, hx, hxy, htest⟩ := @Run.exists_of_runWhile _ _ StorePool.step
    StorePool.CreditsWork (StorePool.idle { rows := [fundedOrder] })
    (fun x e => decide (x.CreditsWork e))
    (fun x y => decide ((x.shared.get "o1").map (fun o => (o.cost, o.pricePerThDay)) =
        some (0, hashesPerThDay / diff1Hashes) ∧
      (y.shared.get "o1").map Order.cost = some 3))
    [] flushThree (fun _ _ => of_decide_eq_true) (by decide +kernel)
  obtain ⟨ho, hr⟩ := of_decide_eq_true htest
  obtain ⟨o, ho, hcost⟩ := Option.map_eq_some_iff.mp ho
  obtain ⟨hzero, hprice⟩ := Prod.mk.inj hcost
  obtain ⟨r, hr', _, hgrow⟩ := charges_only_grow hx hxy ho
  have hthree : r.cost = 3 := by
    rw [hr'] at hr
    exact Option.some.inj hr
  have hnonneg : 0 ≤ o.pricePerThDay := by
    rw [hprice]
    decide +kernel
  exact ⟨x, y, o, r, hx, hxy, ho, hr', hzero, hthree, (hgrow hnonneg).2.1⟩

end RentalProxy
