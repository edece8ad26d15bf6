import RentalProxy.Lib.Numerals
import RentalProxy.OrderCalls

/-!
# The ids of orders

`create` makes up an id from the clock and a counter of the process, and takes every violated
constraint for a second active order.  The key of the table is such a constraint, too.

* `orderId` is the id, and `orderId_injective` says what it is made of.
* `OrderProcess` is the store with the counter, which begins anew with every start of the process.
* `already_active_iff` is the result: a refusal always means that the worker has an active order.
-/

namespace RentalProxy

open StepSystem

/-! ## Ids -/

/-- The id that `create` makes up. -/
def orderId (now : Int) (seq : Nat) : String := s!"o{now}-{seq}"

theorem toList_orderId (now : Int) (seq : Nat) :
    (orderId now seq).toList = 'o' :: (now.repr.toList ++ '-' :: seq.repr.toList) := by
  unfold orderId
  simp only [toString, String.toList_append, List.append_assoc]
  rfl

theorem orderId_injective {t t' : Int} {n n' : Nat} (ht : 0 ≤ t)
    (h : orderId t n = orderId t' n') : t = t' ∧ n = n' := by
  have hlist := congrArg String.toList h
  rw [toList_orderId, toList_orderId] at hlist
  exact Numerals.pair_injective ht (List.cons.inj hlist).2

/-! ## The process -/

/-- The store in a process. -/
structure OrderProcess where
  pool : StorePool
  /-- `SEQ`. -/
  seq : Nat
  /-- The latest time that is in an id. -/
  stamped : Int
  /-- The latest time that was in an id when the process was started. -/
  boot : Int

inductive ProcessEvent where
  /-- A `create` reads the clock and the counter.  The id of the order is still to be made up. -/
  | create (o : Order) (now : Int)
  /-- Any other call, and the pieces of all of them. -/
  | store (e : StoreEvent)
  /-- The process is started again: calls and buffer are gone. -/
  | restart

namespace OrderProcess

def step (x : OrderProcess) : ProcessEvent → Option OrderProcess
  | .create o now => some { x with
      pool := { x.pool with
        calls := x.pool.calls ++ [.create { o with id := orderId now x.seq }] }
      seq := x.seq + 1
      stamped := max x.stamped now }
  | .store (.call (.create _)) => none
  | .store e => (x.pool.step e).map fun pool => { x with pool }
  | .restart => some { x with
      pool := .idle { x.pool.shared with pending := ∅ }, seq := 0, boot := x.stamped }

/-- The first start, on an empty table. -/
def first : OrderProcess := ⟨.idle {}, 0, 0, 0⟩

/-- After a start the clock is later than every time in an id. -/
def ClockForward (x : OrderProcess) : ProcessEvent → Prop
  | .create _ now => x.boot < now
  | .store _ | .restart => True

instance (x : OrderProcess) : (e : ProcessEvent) → Decidable (x.ClockForward e)
  | .create _ now => inferInstanceAs (Decidable (x.boot < now))
  | .store _ | .restart => isTrue trivial

/-- The runs from the first start on. -/
def Reaches (x : OrderProcess) : Prop := Run step ClockForward first x

/-! ## What is in use -/

/-- An id that was made up, before the process was started or by its counter. -/
def Issued (x : OrderProcess) (id : String) : Prop :=
  ∃ t n, id = orderId t n ∧ 0 ≤ t ∧ t ≤ x.stamped ∧ (t ≤ x.boot ∨ n < x.seq)

variable {x y : OrderProcess} {id : String}

theorem Issued.mono (h : x.Issued id) (hstamped : x.stamped ≤ y.stamped)
    (hboot : x.boot ≤ y.boot) (hseq : x.seq ≤ y.seq) : y.Issued id := by
  obtain ⟨t, n, rfl, hpos, hle, hor⟩ := h
  refine ⟨t, n, rfl, hpos, by omega, ?_⟩
  rcases hor with hbefore | hcount
  · exact Or.inl (by omega)
  · exact Or.inr (by omega)

/-- The next id is a new one. -/
theorem Issued.ne_next (h : x.Issued id) {now : Int} (hnow : x.boot < now) :
    id ≠ orderId now x.seq := by
  obtain ⟨t, n, rfl, hpos, _, hor⟩ := h
  intro heq
  obtain ⟨htime, hcount⟩ := orderId_injective hpos heq
  rcases hor with hbefore | hcount' <;> omega

/-- The ids of the rows and of the orders that are still to be inserted are all different. -/
structure Distinct (x : OrderProcess) : Prop where
  boot : 0 ≤ x.boot ∧ x.boot ≤ x.stamped
  rows : ∀ r ∈ x.pool.shared.rows, x.Issued r.id
  calls : ∀ (k : Nat) (o : Order), x.pool.calls[k]? = some (StoreCall.create o) →
    x.Issued o.id ∧ ∀ r ∈ x.pool.shared.rows, r.id ≠ o.id
  once : ∀ (j k : Nat) (o o' : Order), x.pool.calls[j]? = some (StoreCall.create o) →
    x.pool.calls[k]? = some (StoreCall.create o') → o.id = o'.id → j = k

end OrderProcess

namespace OrderProcess

variable {x y : OrderProcess}

theorem Distinct.create (h : x.Distinct) (o : Order) {now : Int} (hnow : x.boot < now)
    (hstep : x.step (.create o now) = some y) : y.Distinct := by
  cases hstep
  have hle : x.stamped ≤ max x.stamped now := le_max_left _ _
  have hnext : ∀ (k : Nat) (o' : Order),
      (x.pool.calls ++ [.create { o with id := orderId now x.seq }])[k]? =
        some (StoreCall.create o') → x.pool.calls[k]? = some (.create o') ∨
        k = x.pool.calls.length ∧ o'.id = orderId now x.seq := by
    intro k o' hk
    rw [List.getElem?_append] at hk
    split at hk
    · exact Or.inl hk
    · obtain ⟨hzero, heq⟩ := List.getElem?_eq_some_iff.mp hk
      simp only [List.length_singleton] at hzero
      refine Or.inr ⟨by omega, ?_⟩
      simp only [List.getElem_singleton, StoreCall.create.injEq] at heq
      rw [← heq]
  refine ⟨⟨h.boot.1, le_trans h.boot.2 hle⟩, ?_, ?_, ?_⟩
  · exact fun r hr => (h.rows r hr).mono hle le_rfl (Nat.le_succ _)
  · intro k o' hk
    rcases hnext k o' hk with hold | ⟨_, hid⟩
    · obtain ⟨hissued, hfree⟩ := h.calls k o' hold
      exact ⟨hissued.mono hle le_rfl (Nat.le_succ _), hfree⟩
    · rw [hid]
      have hpos := h.boot.1
      refine ⟨⟨now, x.seq, rfl, by omega, le_max_right _ _, Or.inr (Nat.lt_succ_self _)⟩, ?_⟩
      exact fun r hr => (h.rows r hr).ne_next hnow
  · intro j k o₁ o₂ hj hk hid
    rcases hnext j o₁ hj with hj | ⟨hj, hid₁⟩ <;> rcases hnext k o₂ hk with hk | ⟨hk, hid₂⟩
    · exact h.once j k o₁ o₂ hj hk hid
    · exact absurd (hid.trans hid₂) ((h.calls j o₁ hj).1.ne_next hnow)
    · exact absurd (hid.symm.trans hid₁) ((h.calls k o₂ hk).1.ne_next hnow)
    · omega

/-- A call of the store that is no `create`, or a piece of one. -/
theorem Distinct.store (h : x.Distinct) {e : StoreEvent} {pool : StorePool}
    (hnew : ∀ o, e ≠ .call (.create o)) (hstep : x.pool.step e = some pool) :
    Distinct { x with pool } := by
  rcases Calls.cases_of_step hstep with
    ⟨c, rfl, hentry, rfl⟩ | ⟨k, p, c, s, c', rfl, hc, hpiece, rfl⟩
  · have hold : ∀ (k : Nat) (o : Order), (x.pool.calls ++ [c])[k]? = some (StoreCall.create o) →
        x.pool.calls[k]? = some (StoreCall.create o) := by
      intro k o hk
      rw [List.getElem?_append] at hk
      split at hk
      · exact hk
      · obtain ⟨hzero, heq⟩ := List.getElem?_eq_some_iff.mp hk
        rw [List.getElem_singleton] at heq
        exact absurd (congrArg Calls.Event.call heq) (hnew o)
    exact ⟨h.boot, h.rows, fun k o hk => h.calls k o (hold k o hk),
      fun j k o o' hj hk => h.once j k o o' (hold j o hj) (hold k o' hk)⟩
  · obtain ⟨horigin, hother⟩ := (StoreCall.moves_of_atomicPiece hpiece).origin
    have hold : ∀ (j : Nat) (o : Order), (x.pool.calls.set k c')[j]? = some (StoreCall.create o) →
        x.pool.calls[j]? = some (StoreCall.create o) ∧ j ≠ k := by
      intro j o hj
      by_cases hjk : k = j
      · subst hjk
        rw [List.getElem?_set_self (List.getElem?_eq_some_iff.mp hc).1] at hj
        exact absurd (Option.some.inj hj) (hother o)
      · rw [List.getElem?_set_ne hjk] at hj
        exact ⟨hj, Ne.symm hjk⟩
    refine ⟨h.boot, fun r' hr' => ?_, fun j o hj => ?_, fun j j' o o' hj hj' =>
      h.once j j' o o' (hold j o hj).1 (hold j' o' hj').1⟩
    · rcases horigin r' hr' with ⟨r, hr, hid, _⟩ | ⟨o, rfl, hid, _⟩
      · rw [← hid]
        exact h.rows r hr
      · rw [hid]
        exact (h.calls k o hc).1
    · obtain ⟨hcall, hjk⟩ := hold j o hj
      refine ⟨(h.calls j o hcall).1, fun r' hr' hid' => ?_⟩
      rcases horigin r' hr' with ⟨r, hr, hid, _⟩ | ⟨o', rfl, hid, _⟩
      · exact (h.calls j o hcall).2 r hr (hid.trans hid')
      · exact hjk (h.once j k o o' hcall hc (hid'.symm.trans hid))

theorem Distinct.restart (h : x.Distinct) (hstep : x.step .restart = some y) : y.Distinct := by
  cases hstep
  refine ⟨⟨le_trans h.boot.1 h.boot.2, le_rfl⟩, fun r hr => ?_, fun k o hk => ?_,
    fun j k o o' hj => ?_⟩
  · obtain ⟨t, n, hid, hpos, hle, _⟩ := h.rows r hr
    exact ⟨t, n, hid, hpos, hle, Or.inl hle⟩
  · rw [StorePool.idle, List.getElem?_nil] at hk
    cases hk
  · rw [StorePool.idle, List.getElem?_nil] at hj
    cases hj

theorem store_of_step {e : StoreEvent} (h : x.step (.store e) = some y) :
    (∀ o, e ≠ .call (.create o)) ∧ ∃ pool, x.pool.step e = some pool ∧ y = { x with pool } := by
  cases e with
  | call c =>
    cases c with
    | create => cases h
    | _ =>
      simp only [step, Option.map_eq_some_iff] at h
      obtain ⟨pool, hpool, rfl⟩ := h
      exact ⟨fun o ho => (by cases ho), pool, hpool, rfl⟩
  | run k p =>
    simp only [step, Option.map_eq_some_iff] at h
    obtain ⟨pool, hpool, rfl⟩ := h
    exact ⟨fun o ho => (by cases ho), pool, hpool, rfl⟩

theorem Reaches.distinct (h : Reaches x) : x.Distinct := by
  refine Run.invariant (I := Distinct) h ?_ ?_
  · refine ⟨⟨le_rfl, le_rfl⟩, List.forall_mem_nil _, fun k o hk => ?_, fun j k o o' hj => ?_⟩
    · rw [first, StorePool.idle, List.getElem?_nil] at hk
      cases hk
    · rw [first, StorePool.idle, List.getElem?_nil] at hj
      cases hj
  · intro x e y hx hforward hstep
    cases e with
    | create o now => exact hx.create o hforward hstep
    | store e =>
      obtain ⟨hnew, pool, hpool, rfl⟩ := store_of_step hstep
      exact hx.store hnew hpool
    | restart => exact hx.restart hstep

end OrderProcess

/-- `create` refuses an order as the second active one exactly when the worker has an active order.
The key of the table never refuses it, whatever ran before and however often the process was started
again. -/
theorem already_active_iff {x y : OrderProcess} (h : x.Reaches) {k : Nat} {p : Piece} {o : Order}
    (hc : x.pool.calls[k]? = some (.create o)) (hstep : x.step (.store (.run k p)) = some y) :
    y.pool.calls[k]? = some (.returned (.created (.error .alreadyActive))) ↔
      p.ok = true ∧ ∃ r ∈ x.pool.shared.rows, r.worker = o.worker ∧ r.status = .active := by
  obtain ⟨_, pool, hpool, rfl⟩ := OrderProcess.store_of_step hstep
  obtain ⟨_, hfree⟩ := h.distinct.calls k o hc
  rcases Calls.cases_of_step hpool with ⟨c, heq, _⟩ | ⟨k', p', c, s, c', heq, hc', hpiece, rfl⟩
  · cases heq
  · cases heq
    rw [hc] at hc'
    cases hc'
    rw [List.getElem?_set_self (List.getElem?_eq_some_iff.mp hc).1, Option.some.injEq]
    have hany : (x.pool.shared.create (OrderStore.newRow o p.now)) = none ↔
        ∃ r ∈ x.pool.shared.rows, r.worker = o.worker ∧ r.status = .active := by
      unfold OrderStore.create
      split
      · rename_i hrefuse
        simp only [List.any_eq_true, Bool.or_eq_true, Bool.and_eq_true, decide_eq_true_eq]
          at hrefuse
        obtain ⟨r, hr, hid | hactive⟩ := hrefuse
        · exact absurd hid (hfree r hr)
        · exact ⟨fun _ => ⟨r, hr, hactive⟩, fun _ => rfl⟩
      · rename_i hinsert
        simp only [List.any_eq_true, Bool.or_eq_true, Bool.and_eq_true, decide_eq_true_eq,
          not_exists, not_and, not_or] at hinsert
        constructor
        · intro hnone
          cases hnone
        · rintro ⟨r, hr, hworker, hactive⟩
          exact absurd hactive ((hinsert r hr).2 hworker)
    rw [← hany]
    simp only [StoreCall.atomicPiece] at hpiece
    split at hpiece
    · rename_i hok
      split at hpiece <;> cases hpiece
      · rename_i hsome
        simp [hok, hsome]
      · rename_i hnone
        simp [hok, hnone]
    · rename_i hok
      cases hpiece
      simp [hok]

/-- The order that a call is about to insert. -/
def StoreCall.creating : StoreCall → Option Order
  | create o => some o
  | _ => none

/-- A second rental of a rig, after the process was started again. -/
def rentedAgain : List ProcessEvent :=
  [.create { id := "", worker := "bc1q.rig", target := ⟨"buyer:3333", "b", "", none⟩ } 100,
    .store (.run 0 { now := 100 }), .restart,
    .create { id := "", worker := "bc1q.rig", target := ⟨"buyer:3333", "b", "", none⟩ } 101]

theorem already_active_iff_again :
    ∃ x y o, OrderProcess.Reaches x ∧ x.pool.calls[0]? = some (.create o) ∧
      x.step (.store (.run 0 {})) = some y ∧ o.id = "o101-0" ∧
      y.pool.calls[0]? = some (.returned (.created (.error .alreadyActive))) := by
  have hrun : ((runWhile OrderProcess.step (fun x e => decide (x.ClockForward e)) .first
      rentedAgain).any fun x => (x.step (.store (.run 0 {}))).isSome &&
        decide (((x.pool.calls[0]?).bind StoreCall.creating).map (fun o => (o.id, o.worker)) =
          some ("o101-0", "bc1q.rig")) &&
        x.pool.shared.rows.any fun r => decide (r.worker = "bc1q.rig" ∧ r.status = .active)) =
      true := by decide +kernel
  obtain ⟨x, hx, htest⟩ := (Option.any_eq_true ..).mp hrun
  simp only [Bool.and_eq_true, decide_eq_true_eq, List.any_eq_true, Option.map_eq_some_iff,
    Option.bind_eq_some_iff] at htest
  obtain ⟨⟨hsome, o, ⟨c, hc, hcreating⟩, hid⟩, r, hr, hworker, hactive⟩ := htest
  obtain ⟨y, hy⟩ := Option.isSome_iff_exists.mp hsome
  cases c <;> cases hcreating
  simp only [Prod.mk.injEq] at hid
  have hreach : x.Reaches := Run.of_runWhile (fun _ _ => of_decide_eq_true) hx
  exact ⟨x, y, o, hreach, hc, hy, hid.1,
    (already_active_iff hreach hc hy).mpr ⟨rfl, r, hr, hworker.trans hid.2.symm, hactive⟩⟩

end RentalProxy
