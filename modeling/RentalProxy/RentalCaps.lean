import RentalProxy.Marketplace

/-!
# Rigs with a cap on their rentals

A seller may cap how long one rental of his rig lasts.  `create_order` looks at the cap when it
checks the listing, and inserts the order three statements later.

* `Request.Moves.agreed` says where the terms of a new order come from.
* `RequestPool.Capped` is the invariant: what is past the check ends in time.
* `capped_rentals_end` is the result: as long as the seller keeps the cap, no rental of the rig
  that was made since outlasts it.
-/

namespace RentalProxy

open StepSystem

/-! ## The terms of an order -/

/-- When an order was made, and until when, are agreed for good. -/
theorem StoreCall.Moves.agreed {s s' : OrderStore} {c c' : StoreCall} {p : Piece}
    (h : Moves s p c s' c') : ∀ r' ∈ s'.rows,
      (∃ r ∈ s.rows, r.id = r'.id ∧ r.worker = r'.worker ∧ r.untilMs = r'.untilMs ∧
        r.createdMs = r'.createdMs) ∨
      ∃ o, c = .create o ∧ r'.worker = o.worker ∧ r'.untilMs = o.untilMs ∧
        r'.createdMs = p.now := by
  cases h with
  | write | cancelled | expire =>
    intro r' hr'
    obtain ⟨r, hr, rfl⟩ := List.mem_map.mp hr'
    exact Or.inl ⟨r, hr, by split <;> exact ⟨rfl, rfl, rfl, rfl⟩⟩
  | @insert o _ _ hcreate =>
    intro r' hr'
    unfold OrderStore.create at hcreate
    split at hcreate <;> cases hcreate
    rcases List.mem_append.mp hr' with hr' | hr'
    · exact Or.inl ⟨r', hr', rfl, rfl, rfl, rfl⟩
    · rw [List.mem_singleton.mp hr']
      exact Or.inr ⟨o, rfl, rfl, rfl, rfl⟩
  | _ => exact fun r' hr' => Or.inl ⟨r', hr', rfl, rfl, rfl, rfl⟩

/-! ## Past the check -/

namespace Request

variable {s s' : ApiStores} {r r' : Request} {p : ApiPiece}

/-- A new row is that of a request past the check, made now. -/
theorem Moves.agreed (h : Moves s p r s' r') {r' : Order} (hr' : r' ∈ s'.orders.rows) :
    (∃ q ∈ s.orders.rows, q.id = r'.id ∧ q.worker = r'.worker ∧ q.untilMs = r'.untilMs ∧
        q.createdMs = r'.createdMs) ∨
      ∃ o, r.checked? = some o ∧ r'.worker = o.worker ∧ r'.untilMs = o.untilMs ∧
        r'.createdMs = p.now := by
  cases h with
  | store hmoves =>
    rcases hmoves.agreed r' hr' with hold | ⟨o, rfl, howner, huntil, hcreated⟩
    · exact Or.inl hold
    · exact Or.inr ⟨o, rfl, howner, huntil, hcreated⟩
  | _ => exact Or.inl ⟨r', hr', rfl, rfl, rfl, rfl⟩

end Request

/-- What a capped rig is not refused for ends in time. -/
theorem SellerRig.within_of_refusal {rig : SellerRig} {untilMs now : Int}
    (hcap : 0 < rig.maxRentalSecs) (h : rig.refusal untilMs now = none) :
    0 < untilMs ∧ untilMs ≤ now + rig.maxRentalSecs * 1000 := by
  unfold refusal at h
  split at h
  · cases h
  · dsimp only at h
    split at h
    · cases h
    · split at h
      · cases h
      · omega

/-! ## The invariant -/

/-- The row of the worker has a cap, of at most this many seconds. -/
def SellerRig.CappedBy (cap : Int) (rig : SellerRig) : Prop :=
  0 < rig.maxRentalSecs ∧ rig.maxRentalSecs ≤ cap

instance (cap : Int) (rig : SellerRig) : Decidable (rig.CappedBy cap) :=
  inferInstanceAs (Decidable (_ ∧ _))

/-- The order ends within the cap of a moment. -/
def Order.EndsWithin (o : Order) (cap now : Int) : Prop :=
  0 < o.untilMs ∧ o.untilMs ≤ now + cap * 1000

theorem Order.EndsWithin.later {o : Order} {cap now later : Int} (h : o.EndsWithin cap now)
    (hle : now ≤ later) : o.EndsWithin cap later := by
  obtain ⟨hpos, hend⟩ := h
  exact ⟨hpos, by omega⟩

/-- The statement leaves the worker a row with a cap, or finds the row it looks for. -/
def Request.KeepsCap (worker : String) (cap : Int) (p : ApiPiece) : Request → Prop
  | writing w row =>
    w = worker → p.ok = true → row.any (fun rig => decide (rig.CappedBy cap)) = true
  | checkListing o => o.worker = worker → p.ok = true
  | _ => True

instance (worker : String) (cap : Int) (p : ApiPiece) :
    DecidablePred (Request.KeepsCap worker cap p)
  | .writing w row => inferInstanceAs (Decidable (w = worker → p.ok = true →
      row.any (fun rig => decide (rig.CappedBy cap)) = true))
  | .checkListing o => inferInstanceAs (Decidable (o.worker = worker → p.ok = true))
  | .setSeller .. | .deleteSeller .. | .createOrder .. | .checkRented .. | .checkOnline ..
  | .inStore .. | .replied .. => isTrue trivial

namespace RequestPool

/-- The rig has a cap, and the requests for it that are past the check keep it. -/
structure Capped (x : RequestPool) (worker : String) (cap : Int) : Prop where
  row : ∃ rig, x.shared.sellers.lookup worker = some rig ∧ rig.CappedBy cap
  calls : ∀ r ∈ x.calls, ∀ o, r.checked? = some o → o.worker = worker →
    o.EndsWithin cap x.shared.now

/-- The seller keeps the cap, and does not delete the rig; and its row is found by every order that
looks for it. -/
def KeepsCap (worker : String) (cap : Int) (x : RequestPool) : MarketEvent → Prop
  | .request (.run k p) => ∀ r ∈ x.calls[k]?, r.KeepsCap worker cap p
  | .request (.call _) | .setRentable .. => True

instance (worker : String) (cap : Int) (x : RequestPool) : DecidablePred (x.KeepsCap worker cap)
  | .request (.run k p) => inferInstanceAs (Decidable (∀ r ∈ x.calls[k]?, r.KeepsCap worker cap p))
  | .request (.call _) | .setRentable .. => isTrue trivial

variable {x y : RequestPool} {e : MarketEvent} {worker : String} {cap : Int}

theorem Capped.setRentable (h : x.Capped worker cap) (w : String) (rentable : Bool)
    (failure : Option String) :
    ∃ rig, (RentalProxy.setRentable x.shared.sellers w rentable failure).1.lookup worker =
      some rig ∧ rig.CappedBy cap := by
  obtain ⟨rig, hrig, hcapped⟩ := h.row
  rcases lookup_setRentable hrig rentable failure with hsame | ⟨-, hset⟩
  · exact ⟨rig, hsame, hcapped⟩
  · exact ⟨_, hset, hcapped⟩

/-- What the check lets through ends within the cap. -/
theorem endsWithin_of_check {s : SellerStore} {o : Order} {now : Int}
    (hrow : ∃ rig, s.lookup o.worker = some rig ∧ rig.CappedBy cap)
    (hnone : ((s.lookup o.worker).bind fun rig => rig.refusal o.untilMs now) = none) :
    o.EndsWithin cap now := by
  obtain ⟨rig, hrig, hpos, hle⟩ := hrow
  rw [hrig, Option.bind_some] at hnone
  obtain ⟨huntil, hend⟩ := SellerRig.within_of_refusal hpos hnone
  exact ⟨huntil, by omega⟩

/-- One step keeps the cap, and a new order of the rig ends within it. -/
theorem Capped.step (h : x.Capped worker cap) (he : x.KeepsCap worker cap e)
    (hstep : x.marketStep e = some y) : y.Capped worker cap ∧
      ∀ o ∈ y.shared.orders.rows, o.worker = worker →
        (∃ r ∈ x.shared.orders.rows, r.id = o.id ∧ r.worker = worker ∧ r.untilMs = o.untilMs ∧
          r.createdMs = o.createdMs) ∨ o.EndsWithin cap o.createdMs := by
  cases e with
  | setRentable w rentable failure =>
    cases hstep
    exact ⟨⟨h.setRentable w rentable failure, h.calls⟩,
      fun o ho howner => Or.inl ⟨o, ho, rfl, howner, rfl, rfl⟩⟩
  | request e =>
    rcases Calls.cases_of_step hstep with
      ⟨r, rfl, hentry, rfl⟩ | ⟨k, p, r, s, r', rfl, hr, hpiece, rfl⟩
    · refine ⟨⟨h.row, fun q hq o hchecked => ?_⟩,
        fun o ho howner => Or.inl ⟨o, ho, rfl, howner, rfl, rfl⟩⟩
      rcases List.mem_append.mp hq with hq | hq
      · exact h.calls q hq o hchecked
      · -- a request that was just made has checked nothing
        rw [List.mem_singleton.mp hq] at hchecked
        rw [Request.checked_of_isEntry hentry] at hchecked
        cases hchecked
    · have hmem : r ∈ x.calls := List.mem_of_getElem? hr
      obtain ⟨hclock, hmoves⟩ := Request.cases_of_atomicPiece hpiece
      have hnow : s.now = p.now := hmoves.now_eq
      have hkeeps : r.KeepsCap worker cap p := he r hr
      refine ⟨⟨?_, fun q hq o hchecked howner => ?_⟩, fun o ho howner => ?_⟩
      · rcases hmoves.sellers with hsame | ⟨w, row, rfl, hok, rfl⟩
        · rw [hsame]
          exact h.row
        · dsimp only
          rw [SellerStore.lookup_write]
          split
          · rename_i hw
            obtain ⟨rig, hrow, hcapped⟩ := (Option.any_eq_true ..).mp (hkeeps hw.symm hok)
            exact ⟨rig, hrow, of_decide_eq_true hcapped⟩
          · exact h.row
      · show o.EndsWithin cap s.now
        rw [hnow]
        rcases List.mem_or_eq_of_mem_set hq with hq | rfl
        · exact (h.calls q hq o hchecked howner).later hclock
        · simp only [Request.atomicPiece, if_pos hclock] at hpiece
          rcases Request.checked_of_piece hpiece hchecked with hbefore | ⟨rfl, hnone⟩
          · exact (h.calls r hmem o hbefore howner).later hclock
          · rw [if_pos (hkeeps howner)] at hnone
            apply endsWithin_of_check _ hnone
            rw [howner]
            exact h.row
      · rcases hmoves.agreed ho with ⟨q, hq, hid, hworker, huntil, hcreated⟩ |
          ⟨q, hchecked, hworker, huntil, hcreated⟩
        · exact Or.inl ⟨q, hq, hid, hworker.trans howner, huntil, hcreated⟩
        · obtain ⟨hpos, hend⟩ :=
            (h.calls r hmem q hchecked (hworker.symm.trans howner)).later hclock
          exact Or.inr ⟨by omega, by omega⟩

end RequestPool

/-! ## The result -/

/-- As long as the seller keeps a cap on his rig, whatever requests run: every order of the rig was
there at first, with the same end, or it ends within the cap from when it was made, and is not in
effect after that. -/
theorem capped_rentals_end {x y : RequestPool} {worker : String} {cap : Int}
    (h : x.Capped worker cap)
    (hrun : Run RequestPool.marketStep (RequestPool.KeepsCap worker cap) x y) {o : Order}
    (ho : o ∈ y.shared.orders.rows) (howner : o.worker = worker) :
    (∃ r ∈ x.shared.orders.rows, r.id = o.id ∧ r.worker = worker ∧ r.untilMs = o.untilMs ∧
        r.createdMs = o.createdMs) ∨
      0 < o.untilMs ∧ o.untilMs ≤ o.createdMs + cap * 1000 ∧
        ∀ now, o.createdMs + cap * 1000 ≤ now → o.isLive now = false := by
  have hall := Run.invariant (I := fun y : RequestPool => y.Capped worker cap ∧
      ∀ o ∈ y.shared.orders.rows, o.worker = worker →
        (∃ r ∈ x.shared.orders.rows, r.id = o.id ∧ r.worker = worker ∧ r.untilMs = o.untilMs ∧
          r.createdMs = o.createdMs) ∨ o.EndsWithin cap o.createdMs) hrun
    ⟨h, fun o ho howner => Or.inl ⟨o, ho, rfl, howner, rfl, rfl⟩⟩ ?_
  · rcases hall.2 o ho howner with hold | ⟨hpos, hend⟩
    · exact Or.inl hold
    · refine Or.inr ⟨hpos, hend, fun now hnow => ?_⟩
      have hzero : o.untilMs ≠ 0 := by omega
      have hover : ¬now < o.untilMs := by omega
      simp [Order.isLive, hzero, hover]
  · intro z e w hz hguard hnext
    obtain ⟨hcapped, hold⟩ := hz
    obtain ⟨hcapped', horigin⟩ := hcapped.step hguard hnext
    refine ⟨hcapped', fun o ho howner => ?_⟩
    rcases horigin o ho howner with ⟨q, hq, hid, hworker, huntil, hcreated⟩ | hends
    · rcases hold q hq hworker with ⟨r, hr, hid', hworker', huntil', hcreated'⟩ | hends
      · exact Or.inl ⟨r, hr, hid'.trans hid, hworker', huntil'.trans huntil,
          hcreated'.trans hcreated⟩
      · obtain ⟨hpos, hend⟩ := hends
        exact Or.inr ⟨by omega, by omega⟩
    · exact Or.inr hends

/-- A rig that is rented for an hour at most. -/
def hourlyRig : RequestPool where
  shared := {
    orders := {}
    sellers := [⟨"bc1q.rig", {
      defaultPool := ⟨"pool:3333", "acct", "", none⟩, maxRentalSecs := 3600 }⟩].toAList
    now := 0 }
  calls := []

/-- The rig is asked for without an end, and then for an hour. -/
def askForHours : List MarketEvent :=
  (.call (rentUntil 0) :: .run 0 { now := 150 } :: .run 0 { now := 150 } ::
    .call (rentUntil 3600100) :: rentEvents 1 151).map .request

/-- The hour is rented, and no more. -/
theorem capped_rentals_end_hour :
    ∃ y, Run RequestPool.marketStep (RequestPool.KeepsCap "bc1q.rig" 3600) hourlyRig y ∧
      ∃ o ∈ y.shared.orders.rows, o.worker = "bc1q.rig" ∧
        o.isLive (o.createdMs + 3600 * 1000) = false := by
  have hrun : ((runWhile RequestPool.marketStep
      (fun x e => decide (x.KeepsCap "bc1q.rig" 3600 e)) hourlyRig askForHours).any fun y =>
        y.shared.orders.rows.any fun o => decide (o.worker = "bc1q.rig")) = true := by
    decide +kernel
  obtain ⟨y, hy, htest⟩ := (Option.any_eq_true ..).mp hrun
  obtain ⟨o, ho, howner⟩ := List.any_eq_true.mp htest
  have hreach := Run.of_runWhile (G := RequestPool.KeepsCap "bc1q.rig" 3600)
    (fun _ _ => of_decide_eq_true) hy
  have hcapped : hourlyRig.Capped "bc1q.rig" 3600 := by
    refine ⟨⟨{ defaultPool := ⟨"pool:3333", "acct", "", none⟩, maxRentalSecs := 3600 },
      ?_, ?_⟩, ?_⟩
    · decide +kernel
    · decide
    · exact List.forall_mem_nil _
  refine ⟨y, hreach, o, ho, of_decide_eq_true howner, ?_⟩
  rcases capped_rentals_end hcapped hreach ho (of_decide_eq_true howner) with
    ⟨r, hr, _⟩ | ⟨_, _, hover⟩
  · cases hr
  · exact hover _ (le_refl _)

end RentalProxy
