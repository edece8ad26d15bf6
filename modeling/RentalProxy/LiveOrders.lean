import RentalProxy.Orders

/-!
# The notions of a live order

Whether an order is in effect is asked in four places: by `is_live`, by the SQL filter of
`active_for_worker` with the test of the funding behind it, by the loop of `take_expired`, and by
the unique index, which goes by the status alone.

`finished_eq` says that the sweep ends what is not live.  So after a sweep the status tells it all,
and the four agree (`live_orders_agree`).
-/

namespace RentalProxy

/-- The order has left `active` by expiry. -/
def Order.ended (o : Order) (now : Int) : Order :=
  { o with status := .ended, endedMs := now }

namespace OrderStore

variable {s : OrderStore} {now : Int} {o : Order} {w : String}

/-- The row is to be ended by a sweep. -/
def due (o : Order) (now : Int) : Bool := decide (o.status = .active) && finished o now

/-- The sweep ends the active orders that are not live. -/
theorem finished_eq (hactive : o.status = .active) (huntil : 0 ≤ o.untilMs) :
    finished o now = !o.isLive now := by
  have hdeadline : (decide (0 < o.untilMs) && decide (o.untilMs ≤ now)) =
      !(decide (o.untilMs = 0) || decide (now < o.untilMs)) := by
    rw [← Bool.decide_and, ← Bool.decide_or, ← decide_not, decide_eq_decide]
    omega
  rw [finished, Order.isLive, hdeadline, decide_eq_true hactive, Bool.true_and, Bool.not_and,
    Bool.not_not]

theorem due_iff (huntil : 0 ≤ o.untilMs) :
    due o now = true ↔ o.status = .active ∧ o.isLive now = false := by
  rw [due, Bool.and_eq_true, decide_eq_true_eq]
  refine and_congr_right fun hactive => ?_
  rw [finished_eq hactive huntil, Bool.not_eq_true']

/-- A row that is not due is live, or has left `active`. -/
theorem active_iff_isLive (huntil : 0 ≤ o.untilMs) (hdue : due o now = false) :
    o.status = .active ↔ o.isLive now = true := by
  refine ⟨fun hactive => ?_, Order.status_of_isLive⟩
  by_contra hlive
  rw [(due_iff huntil).mpr ⟨hactive, by simpa using hlive⟩] at hdue
  cases hdue

@[simp] theorem due_ended (o : Order) (now : Int) : due (o.ended now) now = false := rfl

/-! ## The sweep -/

/-- The loop of `take_expired` ends the rows whose ids are in its list. -/
theorem foldl_setStatus_rows (done : List Order) (s : OrderStore) (now : Int) :
    (done.foldl (fun st o => st.setStatus o.id .ended now) s).rows =
      s.rows.map fun o => if o.id ∈ done.map Order.id then o.ended now else o := by
  induction done generalizing s with
  | nil => simp
  | cons d done ih =>
    rw [List.foldl_cons, ih, setStatus, List.map_map]
    refine List.map_congr_left fun o _ => ?_
    by_cases hd : o.id = d.id
    · simp [hd, Order.ended]
    · simp [hd]

theorem foldl_setStatus_pending (done : List Order) (s : OrderStore) (now : Int) :
    (done.foldl (fun st o => st.setStatus o.id .ended now) s).pending = s.pending := by
  induction done generalizing s with
  | nil => rfl
  | cons d done ih => exact ih _

/-- The sweep ends the rows that are due and leaves the others alone. -/
theorem takeExpired_rows (hone : s.OneActive) :
    (s.takeExpired now).2.rows = s.rows.map fun o => if due o now then o.ended now else o := by
  rw [takeExpired, foldl_setStatus_rows]
  refine List.map_congr_left fun o ho => ?_
  have hiff : o.id ∈ (s.rows.filter fun o => due o now).map Order.id ↔ due o now = true := by
    constructor
    · intro hid
      obtain ⟨d, hd, heq⟩ := List.mem_map.mp hid
      obtain ⟨hrow, hdue⟩ := List.mem_filter.mp hd
      rwa [← hone.eq_of_id hrow ho heq]
    · intro hdue
      exact List.mem_map_of_mem (List.mem_filter.mpr ⟨ho, hdue⟩)
  change (if o.id ∈ (s.rows.filter fun o => due o now).map Order.id then _ else _) = _
  simp only [hiff]

/-- Nothing is due after a sweep. -/
theorem not_due_of_takeExpired (hone : s.OneActive) (ho : o ∈ (s.takeExpired now).2.rows) :
    due o now = false := by
  rw [takeExpired_rows hone] at ho
  obtain ⟨r, _, rfl⟩ := List.mem_map.mp ho
  split
  · rfl
  · simpa using ‹¬due r now = true›

/-- A deadline is not negative after a sweep when none was. -/
theorem untilMs_of_takeExpired (hone : s.OneActive) (huntil : ∀ o ∈ s.rows, 0 ≤ o.untilMs)
    (ho : o ∈ (s.takeExpired now).2.rows) : 0 ≤ o.untilMs := by
  rw [takeExpired_rows hone] at ho
  obtain ⟨r, hr, rfl⟩ := List.mem_map.mp ho
  split <;> exact huntil r hr

/-! ## The lookup and the index -/

/-- Where the status tells which orders are live, the lookup finds the active row. -/
theorem activeForWorker_eq_some_iff (hone : s.OneActive)
    (hlive : ∀ o ∈ s.rows, o.status = .active ↔ o.isLive now = true) :
    s.activeForWorker w now = some o ↔ o ∈ s.rows ∧ o.worker = w ∧ o.status = .active := by
  constructor
  · intro h
    obtain ⟨hrow, hworker, hislive⟩ := mem_of_activeForWorker h
    exact ⟨hrow, hworker, (hlive o hrow).mpr hislive⟩
  · rintro ⟨hrow, hworker, hactive⟩
    obtain ⟨o', ho'⟩ := Option.isSome_iff_exists.mp
      (activeForWorker_isSome hrow hworker ((hlive o hrow).mp hactive))
    obtain ⟨hrow', hworker', hislive'⟩ := mem_of_activeForWorker ho'
    rw [ho', hone.unique hrow' hrow (hworker'.trans hworker.symm)
      (Order.status_of_isLive hislive') hactive]

/-- The index refuses a fresh row exactly when its worker has an active one. -/
theorem create_isSome_iff (hfresh : ∀ r ∈ s.rows, r.id ≠ o.id) :
    (s.create o).isSome = true ↔ ∀ r ∈ s.rows, ¬(r.worker = o.worker ∧ r.status = .active) := by
  unfold create
  split
  · rename_i htaken
    obtain ⟨r, hr, htaken⟩ := List.any_eq_true.mp htaken
    simp only [Bool.or_eq_true, Bool.and_eq_true, decide_eq_true_eq, hfresh r hr,
      false_or] at htaken
    exact iff_of_false (by simp) fun hnone => hnone r hr htaken
  · rename_i hfree
    refine iff_of_true rfl fun r hr htaken => hfree (List.any_eq_true.mpr ⟨r, hr, ?_⟩)
    simp [htaken.1, htaken.2]

/-! ## The result -/

/-- The four notions, around a sweep that took these orders. -/
structure LiveNotionsAgree (s : OrderStore) (now : Int) (taken : List Order) (s' : OrderStore) :
    Prop where
  /-- The orders that are handed out. -/
  taken : taken = (s.rows.filter fun o =>
    decide (o.status = .active ∧ o.isLive now = false)).map fun o => o.ended now
  /-- The other rows are as they were. -/
  rows : s'.rows = s.rows.map fun o =>
    if o.status = .active ∧ o.isLive now = false then o.ended now else o
  pending : s'.pending = s.pending
  live : ∀ o ∈ s'.rows, o.status = .active ↔ o.isLive now = true
  lookup : ∀ w o, s'.activeForWorker w now = some o ↔
    o ∈ s'.rows ∧ o.worker = w ∧ o.status = .active
  create : ∀ o, (∀ r ∈ s'.rows, r.id ≠ o.id) →
    ((s'.create o).isSome = true ↔ s'.activeForWorker o.worker now = none)
  again : (s'.takeExpired now).1 = []

/-- A sweep makes the notions of a live order agree. -/
theorem live_orders_agree (hone : s.OneActive) (huntil : ∀ o ∈ s.rows, 0 ≤ o.untilMs)
    (now : Int) :
    LiveNotionsAgree s now (s.takeExpired now).1 (s.takeExpired now).2 := by
  have hdue : ∀ o ∈ s.rows, (due o now = true ↔ o.status = .active ∧ o.isLive now = false) :=
    fun o ho => due_iff (huntil o ho)
  have hone' : (s.takeExpired now).2.OneActive := takeExpired_oneActive hone now
  have hlive : ∀ o ∈ (s.takeExpired now).2.rows, o.status = .active ↔ o.isLive now = true :=
    fun o ho => active_iff_isLive (untilMs_of_takeExpired hone huntil ho)
      (not_due_of_takeExpired hone ho)
  have hlookup : ∀ w o, (s.takeExpired now).2.activeForWorker w now = some o ↔
      o ∈ (s.takeExpired now).2.rows ∧ o.worker = w ∧ o.status = .active :=
    fun w o => activeForWorker_eq_some_iff hone' hlive
  refine ⟨?_, ?_, foldl_setStatus_pending _ _ _, hlive, hlookup, ?_, ?_⟩
  · refine congrArg (List.map _) (List.filter_congr fun o ho => ?_)
    exact Bool.eq_iff_iff.mpr ((hdue o ho).trans decide_eq_true_iff.symm)
  · rw [takeExpired_rows hone]
    exact List.map_congr_left fun o ho => by simp only [hdue o ho]
  · intro o hfresh
    rw [create_isSome_iff hfresh, Option.eq_none_iff_forall_ne_some]
    constructor
    · intro hnone r hr
      obtain ⟨hrow, htaken⟩ := (hlookup o.worker r).mp hr
      exact hnone r hrow htaken
    · intro hnone r hrow htaken
      exact hnone r ((hlookup o.worker r).mpr ⟨hrow, htaken⟩)
  · have hnone : (s.takeExpired now).2.rows.filter (fun o => due o now) = [] :=
      List.filter_eq_nil_iff.mpr fun o ho => by simp [not_due_of_takeExpired hone ho]
    change List.map _ ((s.takeExpired now).2.rows.filter fun o => due o now) = []
    rw [hnone, List.map_nil]

/-- A table with an order past its deadline, one whose deadline is now, one that is paid up to its
budget, and one that is open-ended. -/
def mixedOrders : OrderStore where
  rows := [
    { id := "o1", worker := "a", target := ⟨"p:1", "u", "", none⟩, untilMs := 5 },
    { id := "o2", worker := "b", target := ⟨"p:1", "u", "", none⟩, untilMs := 10 },
    { id := "o3", worker := "c", target := ⟨"p:1", "u", "", none⟩, untilMs := 0,
      deliveredWork := hashesPerThDay, pricePerThDay := 1, budget := diff1Hashes },
    { id := "o4", worker := "d", target := ⟨"p:1", "u", "", none⟩ }]

theorem live_orders_agree_mixed :
    (mixedOrders.takeExpired 10).1.map Order.id = ["o1", "o2", "o3"] ∧
      LiveNotionsAgree mixedOrders 10 (mixedOrders.takeExpired 10).1
        (mixedOrders.takeExpired 10).2 :=
  ⟨by decide +kernel, live_orders_agree (by unfold OneActive; decide +kernel) (by decide) 10⟩

end OrderStore

end RentalProxy
