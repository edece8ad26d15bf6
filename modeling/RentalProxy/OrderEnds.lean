import RentalProxy.OrderCalls
import Mathlib.Algebra.BigOperators.Group.List.Basic

/-!
# How orders end

`cancel` and `take_expired` read a row and write it in another statement, and neither `UPDATE` asks
whether the row is still active.  `take_expired` hands an order out although its `UPDATE` failed.

* `EndLog` keeps what was handed out, and the orders whose `UPDATE` failed in a sweep.
* `EndsFirst` says that a piece which ends an order is the first to do so.
* `orders_end_once` is about the runs of such pieces: the rows that have left active stay as they
  are, and no order is handed out twice.
-/

namespace RentalProxy

open StepSystem

/-! ## What is handed out -/

/-- What was handed out along a run. -/
structure EndLog where
  /-- The orders handed out as finished. -/
  handedOut : List String
  /-- The orders that a sweep took for ended although its `UPDATE` failed. -/
  failed : List String

/-- The row is there and active. -/
def OrderStore.isActive (s : OrderStore) (id : String) : Bool :=
  (s.get id).any fun o => decide (o.status = .active)

namespace StoreCall

/-- The orders that a sweep has collected. -/
def collected : StoreCall → List String
  | expiring _ _ done => done.map Order.id
  | _ => []

/-- The orders that the next piece of a call takes for ended: the `UPDATE` of a cancel that finds
the row active, and every finished order of a sweep. -/
def ends (s : OrderStore) (p : Piece) : StoreCall → List String
  | cancelling id _ => if p.ok && s.isActive id then [id] else []
  | expiring now (o :: _) _ => if OrderStore.finished o now then [o.id] else []
  | _ => []

/-- The orders that are handed out with the next piece of a call. -/
def handsOut (s : OrderStore) (p : Piece) : StoreCall → List String
  | cancelling id _ => if p.ok && s.isActive id then [id] else []
  | expiring _ [] done => done.map Order.id
  | _ => []

/-- The order that a sweep takes for ended although its `UPDATE` fails. -/
def failsToEnd (p : Piece) : StoreCall → List String
  | expiring now (o :: _) _ => if OrderStore.finished o now && !p.ok then [o.id] else []
  | _ => []

/-- A piece that ends an order is the first to do so: the row is active, and no sweep has taken
the order for ended before.  Or the `UPDATE` writes what is there. -/
def EndsFirst (s : OrderStore) (failed : List String) (p : Piece) : StoreCall → Prop
  | cancelling id _ => p.ok = true → ∀ o ∈ s.get id,
      (o.status = .active ∧ id ∉ failed) ∨ (o.status = .cancelled ∧ o.endedMs = p.now)
  | expiring now (o :: _) _ => OrderStore.finished o now = true →
      s.isActive o.id = true ∧ o.id ∉ failed
  | _ => True

end StoreCall

instance StoreCall.instDecidableEndsFirst (s : OrderStore) (failed : List String) (p : Piece) :
    (c : StoreCall) → Decidable (c.EndsFirst s failed p)
  | cancelling .. => inferInstanceAs (Decidable (_ → ∀ o ∈ s.get _, _ ∧ _ ∨ _ ∧ _))
  | expiring _ (_ :: _) _ => inferInstanceAs (Decidable (_ → _ ∧ _))
  | expiring _ [] _ | addWork .. | addSubmitted .. | flush | flushing _ | create _ | cancel _
  | takeExpired _ | returned _ => isTrue trivial

/-- The bookkeeping of one step. -/
def noteEnds (x : StorePool) (e : StoreEvent) (log : EndLog) : EndLog :=
  match e with
  | .call _ => log
  | .run k p =>
    match x.calls[k]? with
    | some c => ⟨log.handedOut ++ c.handsOut x.shared p, log.failed ++ c.failsToEnd p⟩
    | none => log

/-- Every piece that ends an order is the first to do so. -/
def EndsOnce (x : StorePool × EndLog) : StoreEvent → Prop
  | .call _ => True
  | .run k p => ∀ c ∈ x.1.calls[k]?, c.EndsFirst x.1.shared x.2.failed p

instance (x : StorePool × EndLog) : (e : StoreEvent) → Decidable (EndsOnce x e)
  | .call _ => isTrue trivial
  | .run k p => inferInstanceAs (Decidable (∀ c ∈ x.1.calls[k]?, c.EndsFirst _ _ p))

/-- A row that has left active is as it was. -/
def OrderStore.Final (s s' : OrderStore) : Prop :=
  ∀ id o, s.get id = some o → o.status ≠ .active →
    ∃ o', s'.get id = some o' ∧ o'.status = o.status ∧ o'.endedMs = o.endedMs

/-! ## One piece -/

namespace OrderStore

variable {s s' : OrderStore} {id : String}

theorem isActive_iff : s.isActive id = true ↔ ∃ o, s.get id = some o ∧ o.status = .active := by
  simp only [isActive, Option.any_eq_true, decide_eq_true_eq]

theorem Final.refl (s : OrderStore) : Final s s := fun _ o ho _ => ⟨o, ho, rfl, rfl⟩

theorem Final.trans {t : OrderStore} (h : Final s s') (h' : Final s' t) : Final s t := by
  intro id o ho hended
  obtain ⟨o', ho', hstatus, hms⟩ := h id o ho hended
  obtain ⟨o'', ho'', hstatus', hms'⟩ := h' id o' ho' (by rwa [hstatus])
  exact ⟨o'', ho'', hstatus'.trans hstatus, hms'.trans hms⟩

/-- An `UPDATE` of a row that is active, or has what the `UPDATE` writes. -/
theorem final_setStatus {status : OrderStatus} {now : Int}
    (h : ∀ o, s.get id = some o → o.status = .active ∨ o.status = status ∧ o.endedMs = now) :
    Final s (s.setStatus id status now) := by
  intro row o ho hended
  rw [get_setStatus, ho]
  by_cases hrow : row = id
  · subst hrow
    rcases h o ho with hactive | ⟨hstatus, hms⟩
    · exact absurd hactive hended
    · exact ⟨_, rfl, by simp only [if_true, hstatus], by simp only [if_true, hms]⟩
  · exact ⟨_, rfl, by simp only [if_neg hrow], by simp only [if_neg hrow]⟩

theorem final_addDelta (s : OrderStore) (id : String) (d : WorkDelta) :
    Final s (s.addDelta id d) := by
  intro row o ho _
  rw [get_addDelta, ho]
  refine ⟨_, rfl, ?_, ?_⟩ <;> split <;> rfl

end OrderStore

namespace StoreCall

variable {s s' : OrderStore} {c c' : StoreCall} {p : Piece} {failed : List String} {id : String}

/-- What a piece takes for ended is handed out with it or collected. -/
theorem Moves.count_ends (h : Moves s p c s' c') :
    (c.handsOut s p).count id + c'.collected.count id =
      c.collected.count id + (c.ends s p).count id := by
  cases h with
  | expire hfinished | unexpired hfinished =>
    simp only [handsOut, collected, ends, hfinished, if_true, List.map_append, List.count_append,
      List.map_cons, List.map_nil, List.count_nil, Nat.zero_add]
  | skip hfinished =>
    simp only [handsOut, collected, ends, hfinished, Bool.false_eq_true, if_false, List.count_nil,
      Nat.zero_add, Nat.add_zero]
  | cancelled | uncancelled => exact Nat.add_comm _ _
  | _ => rfl

/-- A piece does not make a row active again. -/
theorem Moves.isActive_before (h : Moves s p c s' c') {o : Order} (ho : s.get id = some o)
    (hactive : s'.isActive id = true) : s.isActive id = true := by
  obtain ⟨o', ho', hstatus⟩ := OrderStore.isActive_iff.mp hactive
  refine OrderStore.isActive_iff.mpr ⟨o, ho, ?_⟩
  cases h with
  | write =>
    rw [OrderStore.get_addDelta, ho] at ho'
    cases ho'
    split at hstatus <;> exact hstatus
  | insert _ hcreate =>
    rw [OrderStore.get_create_of_some hcreate ho] at ho'
    cases ho'
    exact hstatus
  | cancelled | expire =>
    rw [OrderStore.get_setStatus, ho] at ho'
    cases ho'
    split at hstatus
    · cases hstatus
    · exact hstatus
  | _ =>
    change s.get id = some o' at ho'
    rw [ho] at ho'
    cases ho'
    exact hstatus

theorem EndsFirst.of_mem_ends (h : EndsFirst s failed p c) (hid : id ∈ c.ends s p) :
    s.isActive id = true ∧ id ∉ failed := by
  cases c with
  | cancelling row existing =>
    simp only [ends] at hid
    split at hid
    · rename_i hboth
      obtain ⟨hok, hactive⟩ := Bool.and_eq_true_iff.mp hboth
      obtain rfl := List.mem_singleton.mp hid
      obtain ⟨o, ho, hstatus⟩ := OrderStore.isActive_iff.mp hactive
      rcases h hok o ho with ⟨_, hfresh⟩ | ⟨hcancelled, _⟩
      · exact ⟨hactive, hfresh⟩
      · rw [hstatus] at hcancelled
        cases hcancelled
    · cases hid
  | expiring now active done =>
    cases active with
    | nil => cases hid
    | cons o active =>
      simp only [ends] at hid
      split at hid
      · obtain rfl := List.mem_singleton.mp hid
        exact h ‹_›
      · cases hid
  | _ => cases hid

/-- What a piece takes for ended is not active afterwards, or its `UPDATE` failed. -/
theorem Moves.ended (h : Moves s p c s' c') (hid : id ∈ c.ends s p)
    (hactive : s'.isActive id = true) : id ∈ c.failsToEnd p := by
  cases h with
  | cancelled hok =>
    simp only [ends] at hid
    split at hid
    · obtain rfl := List.mem_singleton.mp hid
      obtain ⟨o', ho', hstatus⟩ := OrderStore.isActive_iff.mp hactive
      rw [OrderStore.get_setStatus, Option.map_eq_some_iff] at ho'
      obtain ⟨o, _, rfl⟩ := ho'
      rw [if_pos rfl] at hstatus
      cases hstatus
    · cases hid
  | uncancelled hok =>
    simp only [ends, hok, Bool.false_and, Bool.false_eq_true, if_false] at hid
    cases hid
  | expire hfinished hok =>
    simp only [ends, hfinished, if_true] at hid
    obtain rfl := List.mem_singleton.mp hid
    obtain ⟨o', ho', hstatus⟩ := OrderStore.isActive_iff.mp hactive
    rw [OrderStore.get_setStatus, Option.map_eq_some_iff] at ho'
    obtain ⟨o, _, rfl⟩ := ho'
    rw [if_pos rfl] at hstatus
    cases hstatus
  | unexpired hfinished hok =>
    simp only [ends, hfinished, if_true] at hid
    simp only [failsToEnd, hfinished, hok, Bool.not_false, Bool.and_self, if_true]
    exact hid
  | skip hfinished =>
    simp only [ends, hfinished, Bool.false_eq_true, if_false] at hid
    cases hid
  | _ => cases hid

/-- At most one order is ended by a piece. -/
theorem count_ends_le (s : OrderStore) (p : Piece) (c : StoreCall) (id : String) :
    (c.ends s p).count id ≤ 1 := by
  cases c with
  | cancelling row existing =>
    simp only [ends]
    split <;> simp [List.count_singleton]
    split <;> simp
  | expiring now active done =>
    cases active with
    | nil => simp [ends]
    | cons o active =>
      simp only [ends]
      split <;> simp [List.count_singleton]
      split <;> simp
  | _ => simp [ends]

/-- A piece that ends an order as the first keeps the rows that have left active. -/
theorem Moves.final (h : Moves s p c s' c') (hfirst : EndsFirst s failed p c) :
    OrderStore.Final s s' := by
  cases h with
  | write => exact OrderStore.final_addDelta _ _ _
  | insert _ hcreate =>
    intro row o ho _
    exact ⟨o, OrderStore.get_create_of_some hcreate ho, rfl, rfl⟩
  | cancelled hok =>
    refine OrderStore.final_setStatus fun o ho => ?_
    rcases hfirst hok o ho with ⟨hactive, _⟩ | hsame
    · exact Or.inl hactive
    · exact Or.inr hsame
  | expire hfinished hok =>
    refine OrderStore.final_setStatus fun o ho => ?_
    obtain ⟨o', ho', hactive⟩ := OrderStore.isActive_iff.mp (hfirst hfinished).1
    rw [ho] at ho'
    cases ho'
    exact Or.inl hactive
  | addWork | addSubmitted | take =>
    intro row o ho _
    exact ⟨o, ho, rfl, rfl⟩
  | _ => exact .refl s

end StoreCall

/-! ## Runs -/

/-- How often an order was handed out, or is collected to be. -/
def timesEnded (x : StorePool × EndLog) (id : String) : Nat :=
  x.2.handedOut.count id + x.1.total fun c => c.collected.count id

/-- An order was ended at most once.  Its row is there and has left active, unless an `UPDATE` of a
sweep failed. -/
def EndedOnce (x : StorePool × EndLog) : Prop :=
  ∀ id, timesEnded x id = 0 ∨ timesEnded x id = 1 ∧ (x.1.shared.get id).isSome = true ∧
    (x.1.shared.isActive id = true → id ∈ x.2.failed)

section Steps

variable {x y : StorePool × EndLog} {e : StoreEvent}

/-- A piece counts what it takes for ended. -/
theorem timesEnded_run {k : Nat} {p : Piece} {c c' : StoreCall} {s : OrderStore}
    (hc : x.1.calls[k]? = some c) (hmoves : c.Moves x.1.shared p s c') (id : String) :
    timesEnded (⟨s, x.1.calls.set k c'⟩, noteEnds x.1 (.run k p) x.2) id =
      timesEnded x id + (c.ends x.1.shared p).count id := by
  have hcount : (c.handsOut x.1.shared p).count id + c'.collected.count id =
      c.collected.count id + (c.ends x.1.shared p).count id := hmoves.count_ends
  have htotal := Calls.Pool.total_run (fun c : StoreCall => c.collected.count id) hc s c'
  simp only [timesEnded, noteEnds, hc, List.count_append]
  omega

theorem EndedOnce.step (h : EndedOnce x) (hfirst : EndsOnce x e)
    (hstep : observed StorePool.step noteEnds x e = some y) : EndedOnce y := by
  obtain ⟨x, log⟩ := x
  obtain ⟨y, log'⟩ := y
  obtain ⟨hnext, rfl⟩ := observed_eq_some.mp hstep
  intro id
  rcases Calls.cases_of_step hnext with
    ⟨c, rfl, hentry, rfl⟩ | ⟨k, p, c, s, c', rfl, hc, hpiece, rfl⟩
  · have hnew : c.collected.count id = 0 := by
      cases c <;> first | rfl | cases hentry
    have hcount : timesEnded (⟨x.shared, x.calls ++ [c]⟩, log) id = timesEnded (x, log) id := by
      simp only [timesEnded, Calls.Pool.total_call, hnew, Nat.add_zero]
    change timesEnded (⟨x.shared, x.calls ++ [c]⟩, log) id = 0 ∨
      timesEnded (⟨x.shared, x.calls ++ [c]⟩, log) id = 1 ∧ _
    rw [hcount]
    exact h id
  · have hmoves := StoreCall.moves_of_atomicPiece hpiece
    have hpieceFirst : c.EndsFirst x.shared log.failed p := hfirst c hc
    rw [timesEnded_run (x := (x, log)) hc hmoves]
    by_cases hid : id ∈ c.ends x.shared p
    · -- the first to end it
      obtain ⟨hactive, hfresh⟩ := hpieceFirst.of_mem_ends hid
      have hone : (c.ends x.shared p).count id = 1 :=
        Nat.le_antisymm (StoreCall.count_ends_le ..) (List.count_pos_iff.mpr hid)
      have hzero : timesEnded (x, log) id = 0 := by
        rcases h id with hzero | ⟨_, _, hfailed⟩
        · exact hzero
        · exact absurd (hfailed hactive) hfresh
      obtain ⟨o, ho, _⟩ := OrderStore.isActive_iff.mp hactive
      refine Or.inr ⟨by rw [hone, hzero], hmoves.isSome (Option.isSome_of_eq_some ho),
        fun hstill => ?_⟩
      simp only [noteEnds, hc]
      exact List.mem_append_right _ (hmoves.ended hid hstill)
    · rw [List.count_eq_zero_of_not_mem hid, Nat.add_zero]
      rcases h id with hzero | ⟨hone, hrow, hfailed⟩
      · exact Or.inl hzero
      · obtain ⟨o, ho⟩ := Option.isSome_iff_exists.mp hrow
        refine Or.inr ⟨hone, hmoves.isSome hrow, fun hstill => ?_⟩
        simp only [noteEnds, hc]
        exact List.mem_append_left _ (hfailed (hmoves.isActive_before ho hstill))

theorem final_step (hfirst : EndsOnce x e)
    (hstep : observed StorePool.step noteEnds x e = some y) :
    OrderStore.Final x.1.shared y.1.shared := by
  obtain ⟨hnext, _⟩ := observed_eq_some.mp hstep
  rcases Calls.cases_of_step hnext with ⟨c, rfl, _, hy⟩ | ⟨k, p, c, s, c', rfl, hc, hpiece, hy⟩
  · rw [hy]
    exact .refl _
  · rw [hy]
    exact (StoreCall.moves_of_atomicPiece hpiece).final (hfirst c hc)

end Steps

/-- The runs of the store of which every piece that ends an order is the first to do so. -/
abbrev EndRun (x y : StorePool × EndLog) : Prop :=
  Run (observed StorePool.step noteEnds) EndsOnce x y

/-- While every piece that ends an order is the first to do so, the rows that have left active stay
as they are, and every order is handed out at most once. -/
theorem orders_end_once {s₀ : OrderStore} {x y : StorePool × EndLog}
    (hx : EndRun (StorePool.idle s₀, ⟨[], []⟩) x) (hy : EndRun x y) :
    OrderStore.Final x.1.shared y.1.shared ∧ ∀ id, y.2.handedOut.count id ≤ 1 := by
  refine ⟨hy.relation (R := fun x y => OrderStore.Final x.1.shared y.1.shared)
    (fun _ => .refl _) (fun _ _ _ => OrderStore.Final.trans)
    fun _ _ _ _ hfirst hstep => final_step hfirst hstep, fun id => ?_⟩
  have honce : EndedOnce y := (hx.trans hy).invariant (I := EndedOnce)
    (fun _ => Or.inl rfl) fun _ _ _ h hfirst hstep => h.step hfirst hstep
  have hle : y.2.handedOut.count id ≤ timesEnded y id := Nat.le_add_right _ _
  rcases honce id with hzero | ⟨hone, _⟩ <;> omega

/-! ## Runs of two orders -/

/-- How an order stands, and since when. -/
def OrderStore.endOf (s : OrderStore) (id : String) : Option (OrderStatus × Int) :=
  (s.get id).map fun o => (o.status, o.endedMs)

/-- A rental until a deadline, and one without. -/
def twoOrders : OrderStore where
  rows := [
    { id := "o1", worker := "bc1q.rig", target := ⟨"buyer:3333", "b", "", none⟩, untilMs := 100 },
    { id := "o2", worker := "bc1q.other", target := ⟨"buyer:3333", "b", "", none⟩ }]

/-- The sweep ends one order, a cancel the other one. -/
theorem orders_end_once_swept :
    ∃ x y, EndRun (StorePool.idle twoOrders, ⟨[], []⟩) x ∧ EndRun x y ∧
      x.2.handedOut = ["o1"] ∧ y.2.handedOut = ["o1", "o2"] ∧
      OrderStore.Final x.1.shared y.1.shared ∧ ∀ id, y.2.handedOut.count id ≤ 1 := by
  have hrun : ∃ x y, EndRun (StorePool.idle twoOrders, ⟨[], []⟩) x ∧ EndRun x y ∧
      decide (x.2.handedOut = ["o1"] ∧ y.2.handedOut = ["o1", "o2"]) = true :=
    Run.exists_of_runWhile (g := fun x e => decide (EndsOnce x e))
      [.call (.takeExpired 100), .run 0 {}, .run 0 {}, .run 0 {}, .run 0 {}]
      [.call (.cancel "o2"), .run 1 {}, .run 1 { now := 120 }]
      (fun _ _ => of_decide_eq_true) (by decide +kernel)
  obtain ⟨x, y, hx, hy, htest⟩ := hrun
  obtain ⟨hhalf, hall⟩ := of_decide_eq_true htest
  exact ⟨x, y, hx, hy, hhalf, hall, orders_end_once hx hy⟩

/-- A cancel between the two statements of a sweep: the row is ended a second time, and both hand
the order out. -/
theorem cancelled_order_ends_again :
    ∃ x y, Reachable (observed StorePool.step noteEnds) (StorePool.idle twoOrders, ⟨[], []⟩) x ∧
      Reachable (observed StorePool.step noteEnds) x y ∧
      x.1.shared.endOf "o1" = some (.cancelled, 90) ∧
      y.1.shared.endOf "o1" = some (.ended, 100) ∧ y.2.handedOut = ["o1", "o1"] := by
  have hrun : ∃ x y, Reachable (observed StorePool.step noteEnds)
      (StorePool.idle twoOrders, ⟨[], []⟩) x ∧ Reachable (observed StorePool.step noteEnds) x y ∧
      decide (x.1.shared.endOf "o1" = some (.cancelled, 90) ∧
        y.1.shared.endOf "o1" = some (.ended, 100) ∧ y.2.handedOut = ["o1", "o1"]) = true :=
    Run.exists_of_runWhile (g := fun _ _ => true)
      [.call (.takeExpired 100), .run 0 {}, .call (.cancel "o1"), .run 1 {}, .run 1 { now := 90 }]
      [.run 0 {}, .run 0 {}, .run 0 {}]
      (fun _ _ _ => trivial) (by decide +kernel)
  obtain ⟨x, y, hx, hy, htest⟩ := hrun
  exact ⟨x, y, hx, hy, of_decide_eq_true htest⟩

end RentalProxy
