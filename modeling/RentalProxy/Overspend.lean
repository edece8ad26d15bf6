import RentalProxy.OrderCharges

/-!
# How far a rental overspends

A sweep ends a rental once its row is worth its budget.  The flush comes before the sweep, in one
task, while shares are credited, so a rental runs past its budget until the next sweep.

* `ExpiryTask` is the store with the task of `spawn_expiry`, which may be started again at any time.
* `SweepLog` keeps what the flushes took since the last sweep that ended all it had to.
* `Charged` is the invariant, and `overspend_bounded` the result: an active rental is never charged
  more than its budget and what that log holds of it.
-/

namespace RentalProxy

open StepSystem

/-! ## The expiry task -/

namespace StoreCall

/-- The calls that only the expiry task makes. -/
def ofTask : StoreCall → Bool
  | flush | flushing _ | takeExpired _ | expiring .. => true
  | addWork .. | addSubmitted .. | create _ | cancel _ | cancelling .. | returned _ => false

theorem drained_eq_zero {c : StoreCall} (h : c.ofTask = false) (id : String) :
    c.drained id = 0 := by
  cases c <;> first | rfl | cases h

end StoreCall

/-- The store with the task of `spawn_expiry`. -/
structure ExpiryTask where
  pool : StorePool
  /-- The sweep is next, and not the flush. -/
  flushed : Bool

inductive ExpiryEvent where
  | store (e : StoreEvent)
  /-- The process is started again: calls and buffer are gone. -/
  | restart

/-- What the flushes took since the last sweep that ended all it had to. -/
structure SweepLog where
  unswept : List (String × WorkDelta)
  /-- No statement of the sweep that is under way has failed. -/
  clean : Bool

namespace ExpiryTask

/-- No call of the task is under way. -/
def resting (x : ExpiryTask) : Bool := x.pool.calls.all fun c => !c.ofTask

def step (x : ExpiryTask) : ExpiryEvent → Option ExpiryTask
  | .store (.call .flush) =>
    if x.resting && !x.flushed then (x.pool.step (.call .flush)).map fun pool => ⟨pool, true⟩
    else none
  | .store (.call (.takeExpired now)) =>
    if x.resting && x.flushed then
      (x.pool.step (.call (.takeExpired now))).map fun pool => ⟨pool, false⟩
    else none
  | .store e => (x.pool.step e).map fun pool => { x with pool }
  | .restart => some ⟨.idle { x.pool.shared with pending := ∅ }, false⟩

end ExpiryTask

/-- The bookkeeping of one piece. -/
def SweepLog.piece (log : SweepLog) (s : OrderStore) (p : Piece) : StoreCall → SweepLog
  | .flush => { log with unswept := log.unswept ++ StoreCall.flush.takes s }
  | .takeExpired _ => { log with clean := p.ok }
  | .expiring _ [] _ => if log.clean then { log with unswept := [] } else log
  | .expiring now (o :: _) _ =>
    { log with clean := log.clean && (p.ok || !OrderStore.finished o now) }
  | _ => log

/-- The bookkeeping of one step. -/
def noteSweep (x : ExpiryTask) (e : ExpiryEvent) (log : SweepLog) : SweepLog :=
  match e with
  | .store (.run k p) =>
    match x.pool.calls[k]? with
    | some c => log.piece x.pool.shared p c
    | none => log
  | .store (.call _) | .restart => log

namespace ExpiryTask

/-- No call withdraws work. -/
def CreditsWork (x : ExpiryTask) : ExpiryEvent → Prop
  | .store e => x.pool.CreditsWork e
  | .restart => True

instance (x : ExpiryTask) : (e : ExpiryEvent) → Decidable (x.CreditsWork e)
  | .store e => inferInstanceAs (Decidable (x.pool.CreditsWork e))
  | .restart => isTrue trivial

/-- The first start, on an empty table. -/
def first : ExpiryTask × SweepLog := (⟨.idle {}, false⟩, ⟨[], true⟩)

/-- The runs from the first start on. -/
abbrev Reaches (x : ExpiryTask × SweepLog) : Prop :=
  Run (observed step noteSweep) (fun z e => z.1.CreditsWork e) first x

/-- Work that was taken from the buffer and is still to be written. -/
def flight (x : ExpiryTask) (id : String) : Rat := x.pool.total fun c => (c.drained id).work

/-- How many calls of the task are under way. -/
def underWay (x : ExpiryTask) : ℕ := x.pool.total fun c => c.ofTask.toNat

variable {x y : ExpiryTask} {e : ExpiryEvent}

/-- What a step does to the pool. -/
inductive Moves (x : ExpiryTask) : ExpiryEvent → StorePool → Prop where
  | call {c : StoreCall} (hentry : c.isEntry = true)
      (hresting : c.ofTask = true → x.resting = true) :
      Moves x (.store (.call c)) { x.pool with calls := x.pool.calls ++ [c] }
  | run {k : Nat} {p : Piece} {c c' : StoreCall} {s : OrderStore} (hc : x.pool.calls[k]? = some c)
      (hpiece : StoreCall.atomicPiece x.pool.shared c p = some (s, c')) :
      Moves x (.store (.run k p)) ⟨s, x.pool.calls.set k c'⟩
  | restart : Moves x .restart (.idle { x.pool.shared with pending := ∅ })

theorem moves_of_pool {e : StoreEvent} {pool : StorePool} (h : x.pool.step e = some pool)
    (hresting : ∀ c, e = .call c → c.ofTask = true → x.resting = true) :
    x.Moves (.store e) pool := by
  rcases Calls.cases_of_step h with ⟨c, rfl, hentry, rfl⟩ | ⟨k, p, c, s, c', rfl, hc, hpiece, rfl⟩
  · exact .call hentry (hresting c rfl)
  · exact .run hc hpiece

theorem moves_of_step (h : x.step e = some y) : x.Moves e y.pool := by
  have hguarded : ∀ {b : Bool} {e : StoreEvent} {f : StorePool → ExpiryTask},
      (∀ pool, (f pool).pool = pool) →
      (if x.resting && b then (x.pool.step e).map f else none) = some y →
      x.Moves (.store e) y.pool := by
    intro b e f hf h
    split at h
    · obtain ⟨pool, hpool, rfl⟩ := Option.map_eq_some_iff.mp h
      rw [hf]
      exact moves_of_pool hpool fun _ _ _ => (Bool.and_eq_true_iff.mp ‹_›).1
    · cases h
  unfold step at h
  split at h
  · exact hguarded (fun _ => rfl) h
  · exact hguarded (fun _ => rfl) h
  · rename_i e hflush hsweep
    obtain ⟨pool, hpool, rfl⟩ := Option.map_eq_some_iff.mp h
    refine moves_of_pool hpool ?_
    rintro c rfl htask
    cases c with
    | flush => exact absurd rfl hflush
    | takeExpired now => exact absurd rfl (hsweep now)
    | flushing | expiring =>
      rcases Calls.cases_of_step hpool with ⟨c, heq, hentry, _⟩ | ⟨_, _, _, _, _, heq, _⟩
      · cases heq
        cases hentry
      · cases heq
    | addWork | addSubmitted | create | cancel | cancelling | returned => cases htask
  · cases h
    exact .restart

theorem underWay_eq_zero (h : x.resting = true) : x.underWay = 0 := by
  unfold underWay Calls.Pool.total
  rw [List.sum_eq_zero_iff_forall_eq_nat]
  intro n hn
  obtain ⟨c, hc, rfl⟩ := List.mem_map.mp hn
  have hother := List.all_eq_true.mp h c hc
  simpa using hother

/-- Nothing is in flight when no call of the task is under way. -/
theorem flight_eq_zero (h : x.underWay = 0) (id : String) : x.flight id = 0 := by
  unfold flight Calls.Pool.total
  refine List.sum_eq_zero fun w hw => ?_
  obtain ⟨c, hc, rfl⟩ := List.mem_map.mp hw
  have hother : c.ofTask.toNat = 0 :=
    List.sum_eq_zero_iff_forall_eq_nat.mp h _ (List.mem_map_of_mem hc)
  rw [StoreCall.drained_eq_zero (by simpa using hother)]
  rfl

theorem flight_nonneg (h : x.pool.NoneNegative) (id : String) : 0 ≤ x.flight id := by
  unfold flight Calls.Pool.total
  refine List.sum_nonneg fun w hw => ?_
  obtain ⟨c, hc, rfl⟩ := List.mem_map.mp hw
  have hcredits := h.calls c hc
  cases c with
  | flushing l => exact ofEntries_work_nonneg hcredits
  | _ => exact le_refl _

end ExpiryTask

/-! ## What an active order may be charged -/

namespace StoreCall.Moves

variable {s s' : OrderStore} {c c' : StoreCall} {p : Piece}

theorem ofTask (h : Moves s p c s' c') (hc : c.ofTask = false) : c'.ofTask = false := by
  cases h <;> first | rfl | cases hc

theorem writes_eq_nil (hc : c.ofTask = false) : c.writes p = [] := by
  cases c <;> first | rfl | cases hc

theorem nonneg (hc : c.Credits) (id : String) :
    0 ≤ (ofEntries id (c.writes p)).work ∧ 0 ≤ (ofEntries id (c.loses p)).work := by
  cases c with
  | flushing l =>
    have hentry : ∀ e ∈ (l[p.entry]?).toList, 0 ≤ e.2.work := by
      intro e he
      exact hc e (List.mem_of_getElem? (Option.mem_toList.mp he))
    cases hok : p.ok with
    | true =>
      simp only [writes, loses, hok, if_true]
      exact ⟨ofEntries_work_nonneg hentry, le_refl _⟩
    | false =>
      simp only [writes, loses, hok, Bool.false_eq_true, if_false]
      exact ⟨le_refl _, ofEntries_work_nonneg hentry⟩
  | _ => exact ⟨le_refl _, le_refl _⟩

end StoreCall.Moves

/-- The list of a sweep has every row that it is to end for its budget. -/
def StoreCall.Covers (s : OrderStore) : StoreCall → Prop
  | expiring _ active _ => ∀ r ∈ s.rows, r.status = .active → r.fundingExhausted = true →
      ∃ o ∈ active, o.id = r.id ∧ o.fundingExhausted = true
  | _ => True

theorem StoreCall.covers_of_ofTask {c : StoreCall} (h : c.ofTask = false) (s : OrderStore) :
    c.Covers s := by
  cases c <;> first | exact trivial | cases h

/-- An active order is charged, with what is in flight, at most its budget and what was not swept
yet. -/
structure Charged (x : ExpiryTask × SweepLog) : Prop where
  single : x.1.underWay ≤ 1
  credits : x.1.pool.NoneNegative
  flight : ∀ id, x.1.flight id ≤ (ofEntries id x.2.unswept).work
  rows : ∀ o ∈ x.1.pool.shared.rows, o.status = .active → 0 < o.budget → 0 ≤ o.pricePerThDay →
    Order.costOf o.pricePerThDay (o.deliveredWork + x.1.flight o.id) <
      o.budget + Order.costOf o.pricePerThDay (ofEntries o.id x.2.unswept).work
  swept : x.2.clean = true → ∀ c ∈ x.1.pool.calls, c.Covers x.1.pool.shared

/-- Every piece adds what it takes, but for the end of a clean sweep. -/
theorem SweepLog.unswept_piece (log : SweepLog) (s : OrderStore) (p : Piece) (c : StoreCall) :
    (log.piece s p c).unswept = log.unswept ++ c.takes s ∨
      (log.piece s p c).unswept = [] ∧ log.clean = true ∧
        ∃ now done, c = StoreCall.expiring now [] done := by
  cases c with
  | flush => exact Or.inl rfl
  | expiring now active done =>
    cases active with
    | nil =>
      cases hclean : log.clean with
      | true => exact Or.inr ⟨by simp [piece, hclean], rfl, now, done, rfl⟩
      | false => exact Or.inl (by simp [piece, hclean, StoreCall.takes])
    | cons o active => exact Or.inl (List.append_nil _).symm
  | _ => exact Or.inl (List.append_nil _).symm

theorem Order.fundingExhausted_of_no_work {o : Order} (h : o.deliveredWork = 0) :
    o.fundingExhausted = false := by
  simp only [fundingExhausted, cost, h, costOf_zero, Bool.and_eq_false_iff, decide_eq_false_iff_not]
  by_cases hbudget : 0 < o.budget
  · exact Or.inr (not_le.mpr hbudget)
  · exact Or.inl hbudget

namespace Charged

variable {x y : ExpiryTask × SweepLog}

theorem first : Charged ExpiryTask.first where
  single := Nat.zero_le 1
  credits := ⟨fun _ he => absurd he List.not_mem_nil, fun _ hc => absurd hc List.not_mem_nil⟩
  flight _ := le_refl _
  rows _ ho := absurd ho List.not_mem_nil
  swept _ _ hc := absurd hc List.not_mem_nil

theorem restart (h : Charged x) (hpool : y.1.pool = .idle { x.1.pool.shared with pending := ∅ })
    (hlog : y.2 = x.2) : Charged y := by
  have hflight : ∀ id, y.1.flight id = 0 := by
    intro id
    unfold ExpiryTask.flight
    rw [hpool]
    rfl
  refine ⟨?_, ?_, fun id => ?_, ?_, ?_⟩
  · unfold ExpiryTask.underWay
    rw [hpool]
    exact Nat.zero_le 1
  · rw [hpool]
    exact ⟨fun _ he => absurd he List.not_mem_nil, fun _ hc => absurd hc List.not_mem_nil⟩
  · rw [hflight, hlog]
    exact le_trans (ExpiryTask.flight_nonneg h.credits id) (h.flight id)
  · rw [hpool, hlog]
    intro o ho hactive hbudget hprice
    refine lt_of_le_of_lt (Order.costOf_le hprice ?_) (h.rows o ho hactive hbudget hprice)
    rw [hflight]
    linarith [ExpiryTask.flight_nonneg h.credits o.id]
  · rw [hpool]
    exact fun _ _ hc => absurd hc List.not_mem_nil

theorem call (h : Charged x) {c : StoreCall} (hcredits : c.Credits) (hentry : c.isEntry = true)
    (hresting : c.ofTask = true → x.1.resting = true)
    (hpool : y.1.pool = { x.1.pool with calls := x.1.pool.calls ++ [c] }) (hlog : y.2 = x.2) :
    Charged y := by
  have hflight : ∀ id, y.1.flight id = x.1.flight id := by
    intro id
    have hnew : c.drained id = 0 := by
      cases c <;> first | rfl | cases hentry
    unfold ExpiryTask.flight
    rw [hpool, Calls.Pool.total_call, hnew]
    exact add_zero _
  refine ⟨?_, ?_, fun id => ?_, ?_, ?_⟩
  · have hunder : y.1.underWay = x.1.underWay + c.ofTask.toNat := by
      unfold ExpiryTask.underWay
      rw [hpool, Calls.Pool.total_call]
    have hsingle := h.single
    cases htask : c.ofTask with
    | true =>
      rw [hunder, ExpiryTask.underWay_eq_zero (hresting htask), htask]
      exact le_refl 1
    | false =>
      rw [hunder, htask]
      exact hsingle
  · rw [hpool]
    refine ⟨h.credits.shared, fun r hr => ?_⟩
    rcases List.mem_append.mp hr with hr | hr
    · exact h.credits.calls r hr
    · rw [List.mem_singleton.mp hr]
      exact hcredits
  · rw [hflight, hlog]
    exact h.flight id
  · rw [hpool, hlog]
    intro o ho
    rw [hflight]
    exact h.rows o ho
  · rw [hpool, hlog]
    intro hclean r hr
    rcases List.mem_append.mp hr with hr | hr
    · exact h.swept hclean r hr
    · rw [List.mem_singleton.mp hr]
      cases c <;> first | exact trivial | cases hentry

end Charged

/-! ## One piece -/

namespace ExpiryTask

variable {x y : ExpiryTask} {k : Nat} {p : Piece} {c c' : StoreCall} {s : OrderStore}

/-- What a piece takes is in flight until it is written or lost. -/
theorem flight_run (hc : x.pool.calls[k]? = some c)
    (hmoves : StoreCall.Moves x.pool.shared p c s c')
    (hpool : y.pool = ⟨s, x.pool.calls.set k c'⟩) (id : String) :
    y.flight id + (ofEntries id (c.writes p)).work + (ofEntries id (c.loses p)).work =
      x.flight id + (ofEntries id (c.takes x.pool.shared)).work := by
  have htotal : y.flight id + (c.drained id).work = x.flight id + (c'.drained id).work := by
    unfold flight
    rw [hpool]
    exact Calls.Pool.total_run (fun c => (c.drained id).work) hc s c'
  have hdrained := congrArg WorkDelta.work (hmoves.drained_eq id)
  simp only [WorkDelta.add_work] at hdrained
  linarith

theorem underWay_run (hc : x.pool.calls[k]? = some c)
    (hpool : y.pool = ⟨s, x.pool.calls.set k c'⟩) :
    y.underWay + c.ofTask.toNat = x.underWay + c'.ofTask.toNat := by
  unfold underWay
  rw [hpool]
  exact Calls.Pool.total_run (fun c => c.ofTask.toNat) hc s c'

/-- A call of the task is the only one. -/
theorem eq_of_ofTask (h : x.underWay ≤ 1) {c d : StoreCall} (hc : c ∈ x.pool.calls)
    (hd : d ∈ x.pool.calls) (hc' : c.ofTask = true) (hd' : d.ofTask = true) : c = d := by
  by_contra hne
  have hle := Calls.Pool.add_le_total (fun c => c.ofTask.toNat) hc hd hne
  simp only [hc', hd', Bool.toNat_true] at hle
  unfold underWay at h
  omega

end ExpiryTask

namespace StoreCall.Moves

variable {s s' : OrderStore} {c c' : StoreCall} {p : Piece} {log : SweepLog}

/-- A piece of another call leaves the list of a sweep good. -/
theorem covers (h : Moves s p c s' c') (hcredits : c.Credits) (hc : c.ofTask = false)
    {q : StoreCall} (hq : q.Covers s) : q.Covers s' := by
  obtain ⟨f, new, hrows, hadvanced, hwork, hnew⟩ := h.rows hcredits
  cases q with
  | expiring now active done =>
    intro r hr hactive hspent
    rw [hrows] at hr
    rcases List.mem_append.mp hr with hr | hr
    · obtain ⟨o, ho, rfl⟩ := List.mem_map.mp hr
      have hspent' : o.fundingExhausted = true := by
        simp only [Order.fundingExhausted, Order.cost, (hadvanced o).budget_eq,
          (hadvanced o).price_eq, hwork o, writes_eq_nil hc, ofEntries_nil, WorkDelta.zero_work,
          add_zero] at hspent
        exact hspent
      rw [(hadvanced o).id_eq]
      exact hq o ho ((hadvanced o).active hactive) hspent'
    · rw [Order.fundingExhausted_of_no_work (hnew r hr)] at hspent
      cases hspent
  | _ => trivial

/-- The piece of a sweep leaves its list good, unless its statement fails. -/
theorem covers_own (hpiece : atomicPiece s c p = some (s', c'))
    (hlog : (log.piece s p c).clean = true) (hc : log.clean = true → c.Covers s) :
    c'.Covers s' := by
  have h := moves_of_atomicPiece hpiece
  cases h with
  | select _ =>
    have hok : p.ok = true := hlog
    simp only [atomicPiece, hok, if_true, Option.some.injEq, Prod.mk.injEq,
      expiring.injEq] at hpiece
    obtain ⟨-, -, rfl, -⟩ := hpiece
    intro r hr hactive hspent
    exact ⟨r, List.mem_filter.mpr ⟨hr, decide_eq_true hactive⟩, rfl, hspent⟩
  | @expire now o active done _ _ =>
    have hclean : log.clean = true := (Bool.and_eq_true_iff.mp hlog).1
    intro r hr hactive hspent
    obtain ⟨q, hq, rfl⟩ := List.mem_map.mp hr
    by_cases hid : q.id = o.id
    · rw [if_pos hid] at hactive
      cases hactive
    · rw [if_neg hid] at hactive hspent ⊢
      obtain ⟨d, hd, hdid, hdspent⟩ := hc hclean q hq hactive hspent
      rcases List.mem_cons.mp hd with rfl | hd
      · exact absurd hdid.symm hid
      · exact ⟨d, hd, hdid, hdspent⟩
  | @unexpired now o active done hfinished hok =>
    have hfailed := (Bool.and_eq_true_iff.mp hlog).2
    rw [hok, hfinished] at hfailed
    cases hfailed
  | @skip now o active done hfinished =>
    have hclean : log.clean = true := (Bool.and_eq_true_iff.mp hlog).1
    intro r hr hactive hspent
    obtain ⟨d, hd, hdid, hdspent⟩ := hc hclean r hr hactive hspent
    rcases List.mem_cons.mp hd with rfl | hd
    · rw [OrderStore.finished, hdspent, Bool.or_true] at hfinished
      cases hfinished
    · exact ⟨d, hd, hdid, hdspent⟩
  | _ => trivial

end StoreCall.Moves

namespace Charged

variable {x y : ExpiryTask × SweepLog} {k : Nat} {p : Piece} {c c' : StoreCall} {s : OrderStore}

/-- The bound, when the log has grown by what the piece takes. -/
theorem rows_run (h : Charged x) (hc : x.1.pool.calls[k]? = some c)
    (hmoves : StoreCall.Moves x.1.pool.shared p c s c')
    (hpool : y.1.pool = ⟨s, x.1.pool.calls.set k c'⟩)
    (hlog : y.2.unswept = x.2.unswept ++ c.takes x.1.pool.shared) :
    (∀ id, y.1.flight id ≤ (ofEntries id y.2.unswept).work) ∧
      ∀ o ∈ s.rows, o.status = .active → 0 < o.budget → 0 ≤ o.pricePerThDay →
        Order.costOf o.pricePerThDay (o.deliveredWork + y.1.flight o.id) <
          o.budget + Order.costOf o.pricePerThDay (ofEntries o.id y.2.unswept).work := by
  have hcredits := h.credits.calls c (List.mem_of_getElem? hc)
  have hflight := fun id => ExpiryTask.flight_run hc hmoves hpool id
  have hnonneg := fun id => StoreCall.Moves.nonneg (p := p) hcredits id
  have hle : ∀ id, y.1.flight id ≤ (ofEntries id y.2.unswept).work := by
    intro id
    rw [hlog, ofEntries_append, WorkDelta.add_work]
    linarith [hflight id, hnonneg id, h.flight id]
  refine ⟨hle, ?_⟩
  obtain ⟨f, new, hrows, hadvanced, hwork, hnew⟩ := hmoves.rows hcredits
  intro r hr hactive hbudget hprice
  rw [hrows] at hr
  rcases List.mem_append.mp hr with hr | hr
  · obtain ⟨o, ho, rfl⟩ := List.mem_map.mp hr
    have hadv := hadvanced o
    rw [hadv.budget_eq] at hbudget
    rw [hadv.price_eq] at hprice
    have hbefore := h.rows o ho (hadv.active hactive) hbudget hprice
    rw [hadv.price_eq, hadv.id_eq, hadv.budget_eq, hwork o, hlog, ofEntries_append,
      WorkDelta.add_work, Order.costOf_add o.pricePerThDay (ofEntries o.id x.2.unswept).work,
      ← add_assoc]
    -- what was written or lost is no longer in flight
    calc Order.costOf o.pricePerThDay
          (o.deliveredWork + (ofEntries o.id (c.writes p)).work + y.1.flight o.id)
        ≤ Order.costOf o.pricePerThDay (o.deliveredWork + x.1.flight o.id +
            (ofEntries o.id (c.takes x.1.pool.shared)).work) := by
          apply Order.costOf_le hprice
          linarith [hflight o.id, hnonneg o.id]
      _ = Order.costOf o.pricePerThDay (o.deliveredWork + x.1.flight o.id) +
            Order.costOf o.pricePerThDay (ofEntries o.id (c.takes x.1.pool.shared)).work :=
          Order.costOf_add ..
      _ < _ := add_lt_add_left hbefore _
  · rw [hnew r hr, zero_add]
    have hcost := Order.costOf_le hprice (hle r.id)
    linarith

/-- The bound, when a clean sweep ends. -/
theorem rows_swept (h : Charged x) {now : Int} {done : List Order}
    (hc : x.1.pool.calls[k]? = some (StoreCall.expiring now [] done)) (hclean : x.2.clean = true)
    (hpool : y.1.pool = ⟨x.1.pool.shared, x.1.pool.calls.set k (.returned (.expired done))⟩)
    (hlog : y.2.unswept = []) :
    (∀ id, y.1.flight id ≤ (ofEntries id y.2.unswept).work) ∧
      ∀ o ∈ x.1.pool.shared.rows, o.status = .active → 0 < o.budget → 0 ≤ o.pricePerThDay →
        Order.costOf o.pricePerThDay (o.deliveredWork + y.1.flight o.id) <
          o.budget + Order.costOf o.pricePerThDay (ofEntries o.id y.2.unswept).work := by
  have hnone : y.1.underWay = 0 := by
    have hunder : y.1.underWay + 1 = x.1.underWay + 0 := ExpiryTask.underWay_run hc hpool
    have hsingle := h.single
    omega
  have hflight := fun id => ExpiryTask.flight_eq_zero hnone id
  refine ⟨fun id => ?_, fun o ho hactive hbudget _ => ?_⟩
  · rw [hflight, hlog]
    exact le_refl _
  · rw [hflight, hlog, add_zero, ofEntries_nil, WorkDelta.zero_work, Order.costOf_zero, add_zero]
    by_contra hspent
    have hexhausted : o.fundingExhausted = true := by
      rw [Order.fundingExhausted, decide_eq_true hbudget, Bool.true_and]
      exact decide_eq_true (not_lt.mp hspent)
    obtain ⟨d, hd, _⟩ := h.swept hclean _ (List.mem_of_getElem? hc) o ho hactive hexhausted
    cases hd

theorem run (h : Charged x) (hc : x.1.pool.calls[k]? = some c)
    (hpiece : StoreCall.atomicPiece x.1.pool.shared c p = some (s, c'))
    (hpool : y.1.pool = ⟨s, x.1.pool.calls.set k c'⟩)
    (hlog : y.2 = x.2.piece x.1.pool.shared p c) : Charged y := by
  have hmem : c ∈ x.1.pool.calls := List.mem_of_getElem? hc
  have hmem' : c' ∈ y.1.pool.calls := by
    rw [hpool]
    exact List.mem_set (List.getElem?_eq_some_iff.mp hc).1 c'
  have hmoves := StoreCall.moves_of_atomicPiece hpiece
  have hcredits := h.credits.calls c hmem
  have hunder := ExpiryTask.underWay_run hc hpool
  have hsingle := h.single
  have hsingle' : y.1.underWay ≤ 1 := by
    cases htask : c.ofTask with
    | true =>
      have hle : c'.ofTask.toNat ≤ 1 := Bool.toNat_le _
      rw [htask, Bool.toNat_true] at hunder
      omega
    | false =>
      rw [htask, hmoves.ofTask htask] at hunder
      omega
  have hrows : (∀ id, y.1.flight id ≤ (ofEntries id y.2.unswept).work) ∧
      ∀ o ∈ s.rows, o.status = .active → 0 < o.budget → 0 ≤ o.pricePerThDay →
        Order.costOf o.pricePerThDay (o.deliveredWork + y.1.flight o.id) <
          o.budget + Order.costOf o.pricePerThDay (ofEntries o.id y.2.unswept).work := by
    rcases x.2.unswept_piece x.1.pool.shared p c with hadds | ⟨hswept, hclean, now, done, rfl⟩
    · exact h.rows_run hc hmoves hpool (by rw [hlog, hadds])
    · cases hpiece
      exact h.rows_swept hc hclean hpool (by rw [hlog, hswept])
  refine ⟨hsingle', ?_, hrows.1, by rw [hpool]; exact hrows.2, ?_⟩
  · rw [hpool]
    obtain ⟨hs, hc'⟩ := hmoves.credits h.credits.shared hcredits
    refine ⟨hs, fun r hr => ?_⟩
    rcases List.mem_or_eq_of_mem_set hr with hr | rfl
    · exact h.credits.calls r hr
    · exact hc'
  · intro hclean r hr
    have hshared : y.1.pool.shared = s := by rw [hpool]
    rw [hshared]
    rw [hlog] at hclean
    cases hr' : r.ofTask with
    | false => exact StoreCall.covers_of_ofTask hr' s
    | true =>
      cases htask : c.ofTask with
      | true =>
        -- the only call of the task is the one that has run
        have htask' : c'.ofTask = true := by
          by_contra hother
          have hnone : y.1.underWay = 0 := by
            rw [htask, Bool.eq_false_of_not_eq_true hother, Bool.toNat_true] at hunder
            simp only [Bool.toNat_false] at hunder
            omega
          have hzero := List.sum_eq_zero_iff_forall_eq_nat.mp hnone _ (List.mem_map_of_mem hr)
          rw [hr'] at hzero
          cases hzero
        rw [ExpiryTask.eq_of_ofTask hsingle' hr hmem' hr' htask']
        exact StoreCall.Moves.covers_own hpiece hclean fun hbefore => h.swept hbefore c hmem
      | false =>
        have hbefore : x.2.clean = true := by
          cases c <;> first | exact hclean | cases htask
        rw [hpool] at hr
        rcases List.mem_or_eq_of_mem_set hr with hr | rfl
        · exact hmoves.covers hcredits htask (h.swept hbefore r hr)
        · rw [hmoves.ofTask htask] at hr'
          cases hr'

theorem step {e : ExpiryEvent} (h : Charged x) (he : x.1.CreditsWork e)
    (hstep : observed ExpiryTask.step noteSweep x e = some y) : Charged y := by
  obtain ⟨hnext, hlog⟩ := observed_eq_some.mp hstep
  have hmoves := ExpiryTask.moves_of_step hnext
  generalize hpool : y.1.pool = pool at hmoves
  cases hmoves with
  | call hentry hresting => exact h.call he hentry hresting hpool hlog
  | run hc hpiece =>
    refine h.run hc hpiece hpool ?_
    rw [hlog]
    simp only [noteSweep, hc]
  | restart => exact h.restart hpool hlog

end Charged

/-- Whatever calls run, whichever statements fail and whenever the process is started again: an
active rental is charged less than its budget and the work that was taken from the buffer since
the last sweep that ended all it had to. -/
theorem overspend_bounded {x : ExpiryTask × SweepLog} (h : ExpiryTask.Reaches x) {o : Order}
    (ho : o ∈ x.1.pool.shared.rows) (hactive : o.status = .active) (hbudget : 0 < o.budget)
    (hprice : 0 ≤ o.pricePerThDay) :
    o.cost < o.budget + Order.costOf o.pricePerThDay (ofEntries o.id x.2.unswept).work := by
  have hcharged : Charged x :=
    Run.invariant (I := Charged) h Charged.first fun z e w hz he hstep => hz.step he hstep
  refine lt_of_le_of_lt ?_ (hcharged.rows o ho hactive hbudget hprice)
  apply Order.costOf_le hprice
  linarith [ExpiryTask.flight_nonneg hcharged.credits o.id]

/-- A rental is made, and more than its budget is flushed before the sweep. -/
def overspent : List ExpiryEvent :=
  [.store (.call (.create fundedOrder)), .store (.run 0 {}),
    .store (.call (.addWork "o1" 3 1)), .store (.run 1 {}),
    .store (.call .flush), .store (.run 2 {}), .store (.run 2 {})]

theorem overspend_bounded_flushed :
    ∃ x o, ExpiryTask.Reaches x ∧ o ∈ x.1.pool.shared.rows ∧ o.status = .active ∧
      o.budget = 2 ∧ o.cost = 3 ∧
      o.cost < o.budget + Order.costOf o.pricePerThDay (ofEntries o.id x.2.unswept).work := by
  have hrun : ((runWhile (observed ExpiryTask.step noteSweep)
      (fun z e => decide (z.1.CreditsWork e)) ExpiryTask.first overspent).any fun x =>
        x.1.pool.shared.rows.any fun o => decide (o.status = .active ∧ o.budget = 2 ∧
          o.cost = 3 ∧ 0 ≤ o.pricePerThDay)) = true := by decide +kernel
  obtain ⟨x, hx, htest⟩ := (Option.any_eq_true ..).mp hrun
  obtain ⟨o, ho, htest⟩ := List.any_eq_true.mp htest
  obtain ⟨hactive, hbudget, hcost, hprice⟩ := of_decide_eq_true htest
  have hreach : ExpiryTask.Reaches x := Run.of_runWhile (fun _ _ => of_decide_eq_true) hx
  refine ⟨x, o, hreach, ho, hactive, hbudget, hcost, ?_⟩
  apply overspend_bounded hreach ho hactive ?_ hprice
  rw [hbudget]
  decide +kernel

end RentalProxy
