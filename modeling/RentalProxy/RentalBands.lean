import RentalProxy.FrozenRigs
import RentalProxy.HashrateHistory
import RentalProxy.OrderEnds
import Mathlib.Data.List.Sort

/-!
# The rental bands of a rig

The history of a rig shows a band for each of its orders, from the creation to the end.

* `getSellerHistory` is the page, and `rentalBands` its bands.
* `Chronicle` says that the orders of a worker follow one another in time.  Every piece keeps it
  that comes in time and ends an active row.
* `rental_bands_disjoint` reads off it that the bands of a rig do not overlap.
-/

namespace RentalProxy

open StepSystem

/-! ## The page -/

/-- `OrderStore::list_for_worker`, the oldest first. -/
def OrderStore.listForWorker (s : OrderStore) (worker : String) : List Order :=
  (s.rows.filter fun o => decide (o.worker = worker)).insertionSort
    fun a b => a.createdMs ≤ b.createdMs

structure RentalBand where
  id : String
  startMs : Int
  endMs : Int
  status : OrderStatus
deriving DecidableEq

/-- Where the band of an order ends.  A row from before the migration has no end of its own. -/
def Order.bandEnd (o : Order) (now : Int) : Int :=
  if o.status = .active then now
  else if 0 < o.endedMs then o.endedMs
  else if 0 < o.untilMs then o.untilMs
  else o.createdMs

/-- The band of an order, unless it is over before the visible window begins. -/
def Order.band (o : Order) (now sinceMs : Int) : Option RentalBand :=
  if o.bandEnd now < sinceMs then none else some ⟨o.id, o.createdMs, o.bandEnd now, o.status⟩

def OrderStore.rentalBands (s : OrderStore) (worker : String) (now : Int) (days : Option Int) :
    List RentalBand :=
  (s.listForWorker worker).filterMap fun o => o.band now (historySince now days)

structure HistoryPage where
  worker : String
  advertisedThs : Rat
  days : Int
  samples : List Sample
  rentals : List RentalBand

/-- `get_seller_history`. -/
def getSellerHistory (sellers : SellerStore) (orders : OrderStore) (hashrate : HashrateStore)
    (worker : String) (days : Option Int) (now : Int) : Except (Nat × String) HistoryPage :=
  match sellers.lookup worker with
  | none => .error (404, "rig not found")
  | some rig => .ok {
      worker
      advertisedThs := rig.advertisedThs
      days := historyDays days
      samples := hashrate.since worker (historySince now days)
      rentals := orders.rentalBands worker now days }

theorem rentals_of_page {sellers : SellerStore} {orders : OrderStore} {hashrate : HashrateStore}
    {worker : String} {days : Option Int} {now : Int} {page : HistoryPage}
    (h : getSellerHistory sellers orders hashrate worker days now = .ok page) :
    page.rentals = orders.rentalBands worker now days := by
  unfold getSellerHistory at h
  split at h <;> cases h
  rfl

/-! ## Orders that follow one another -/

namespace OrderStore

/-- The orders up to a time.  Of two orders of a worker, the first had ended when the second was
created. -/
structure Chronicle (s : OrderStore) (clock : Int) : Prop where
  created : ∀ o ∈ s.rows, 0 < o.createdMs ∧ o.createdMs ≤ clock
  ended : ∀ o ∈ s.rows, o.status ≠ .active → o.createdMs ≤ o.endedMs ∧ o.endedMs ≤ clock
  chained : s.rows.Pairwise fun a b => a.id ≠ b.id ∧
    (a.worker = b.worker → a.status ≠ .active ∧ a.endedMs ≤ b.createdMs)

namespace Chronicle

variable {s s' : OrderStore} {clock now : Int}

theorem empty (clock : Int) : Chronicle {} clock :=
  ⟨List.forall_mem_nil _, List.forall_mem_nil _, List.Pairwise.nil⟩

theorem oneActive (h : s.Chronicle clock) : s.OneActive :=
  h.chained.imp fun hab => ⟨hab.1, fun hboth => (hab.2 hboth.1).1 hboth.2.1⟩

theorem mono (h : s.Chronicle clock) (hle : clock ≤ now) : s.Chronicle now where
  created o ho := ⟨(h.created o ho).1, le_trans (h.created o ho).2 hle⟩
  ended o ho hstatus := ⟨(h.ended o ho hstatus).1, le_trans (h.ended o ho hstatus).2 hle⟩
  chained := h.chained

/-- A new row, of a worker without an active one. -/
theorem create {o : Order} (h : s.Chronicle clock) (hpos : 0 < now) (hle : clock ≤ now)
    (hcreate : s.create (newRow o now) = some s') : s'.Chronicle now := by
  unfold OrderStore.create at hcreate
  split at hcreate
  · cases hcreate
  · rename_i hfree
    cases hcreate
    simp only [List.any_eq_true, Bool.or_eq_true, Bool.and_eq_true, decide_eq_true_eq,
      not_exists, not_and, not_or] at hfree
    refine ⟨?_, ?_, List.pairwise_append.mpr ⟨h.chained, List.pairwise_singleton _ _, ?_⟩⟩
    · intro r hr
      rcases List.mem_append.mp hr with hr | hr
      · exact (h.mono hle).created r hr
      · rw [List.mem_singleton.mp hr]
        exact ⟨hpos, le_rfl⟩
    · intro r hr hstatus
      rcases List.mem_append.mp hr with hr | hr
      · exact (h.mono hle).ended r hr hstatus
      · rw [List.mem_singleton.mp hr] at hstatus
        exact absurd rfl hstatus
    · intro r hr b hb
      rw [List.mem_singleton.mp hb]
      obtain ⟨hid, hactive⟩ := hfree r hr
      exact ⟨hid, fun hworker => ⟨hactive hworker,
        le_trans (h.ended r hr (hactive hworker)).2 hle⟩⟩

/-- Rows with other accounting. -/
theorem addDelta (h : s.Chronicle clock) (id : String) (d : WorkDelta) :
    (s.addDelta id d).Chronicle clock := by
  refine ⟨?_, ?_, List.pairwise_map.mpr (h.chained.imp fun {a b} hab => ?_)⟩
  · intro r hr
    obtain ⟨o, ho, rfl⟩ := List.mem_map.mp hr
    split <;> exact h.created o ho
  · intro r hr
    obtain ⟨o, ho, rfl⟩ := List.mem_map.mp hr
    split <;> exact h.ended o ho
  · split_ifs <;> exact hab

/-- An active row is ended.  It is the last one of its worker. -/
theorem setStatus {id : String} {status : OrderStatus} (h : s.Chronicle clock)
    (hactive : ∀ o, s.get id = some o → o.status = .active)
    (hcreated : ∀ o ∈ s.rows, o.id = id → o.createdMs ≤ now) (hnow : now ≤ clock) :
    (s.setStatus id status now).Chronicle clock := by
  have hrow : ∀ o ∈ s.rows, o.id = id → o.status = .active := by
    intro o ho hid
    cases hget : s.get id with
    | none => exact absurd hid (by simpa using List.find?_eq_none.mp hget o ho)
    | some o' =>
      obtain ⟨ho', hid'⟩ := mem_of_get hget
      rw [h.oneActive.eq_of_id ho ho' (hid.trans hid'.symm)]
      exact hactive o' hget
  refine ⟨?_, ?_, List.pairwise_map.mpr (h.chained.imp_of_mem fun {a b} ha hb hab => ?_)⟩
  · intro r hr
    obtain ⟨o, ho, rfl⟩ := List.mem_map.mp hr
    split <;> exact h.created o ho
  · intro r hr hstatus
    obtain ⟨o, ho, rfl⟩ := List.mem_map.mp hr
    split at hstatus
    · rename_i hid
      rw [if_pos hid]
      exact ⟨hcreated o ho hid, hnow⟩
    · rename_i hid
      rw [if_neg hid]
      exact h.ended o ho hstatus
  · obtain ⟨hid, hnext⟩ := hab
    refine ⟨by split_ifs <;> exact hid, fun hworker => ?_⟩
    have hworker' : a.worker = b.worker := by split_ifs at hworker <;> exact hworker
    obtain ⟨hended, hle⟩ := hnext hworker'
    rw [if_neg fun ha' => hended (hrow a ha ha')]
    exact ⟨hended, by split <;> exact hle⟩

/-- The orders of a worker are in the order of their creation. -/
theorem listForWorker (h : s.Chronicle clock) (worker : String) :
    s.listForWorker worker = s.rows.filter fun o => decide (o.worker = worker) := by
  refine List.Pairwise.insertionSort_eq (List.pairwise_filter.mpr ?_)
  refine h.chained.imp_of_mem fun {a b} ha _ hab haw hbw => ?_
  obtain ⟨hended, hle⟩ := hab.2 (by rw [of_decide_eq_true haw, of_decide_eq_true hbw])
  exact le_trans (h.ended a ha hended).1 hle

/-- Where a band ends. -/
theorem bandEnd_eq (h : s.Chronicle clock) {o : Order} (ho : o ∈ s.rows) (now : Int) :
    o.bandEnd now = if o.status = .active then now else o.endedMs := by
  unfold Order.bandEnd
  by_cases hstatus : o.status = .active
  · rw [if_pos hstatus, if_pos hstatus]
  · have hpos := (h.created o ho).1
    have hle := (h.ended o ho hstatus).1
    rw [if_neg hstatus, if_neg hstatus, if_pos (by omega)]

end Chronicle

end OrderStore

theorem Order.band_eq_some {o : Order} {now sinceMs : Int} {band : RentalBand} :
    o.band now sinceMs = some band ↔
      sinceMs ≤ o.bandEnd now ∧ band = ⟨o.id, o.createdMs, o.bandEnd now, o.status⟩ := by
  unfold Order.band
  split
  · constructor
    · intro h
      cases h
    · rintro ⟨hle, _⟩
      omega
  · constructor
    · intro h
      cases h
      exact ⟨by omega, rfl⟩
    · rintro ⟨_, rfl⟩
      rfl

/-! ## Pieces in time -/

namespace StoreCall

/-- The clock after the next piece of a call. -/
def clockAfter (clock : Int) (p : Piece) : StoreCall → Int
  | create _ | cancelling .. => p.now
  | takeExpired now => now
  | _ => clock

/-- A piece that reads the clock finds it no earlier than before, and one that ends an order finds
it active.  A sweep reads the active rows as soon as it has read the clock. -/
def InTime (s : OrderStore) (clock : Int) (p : Piece) : StoreCall → Prop
  | create _ => clock ≤ p.now
  | cancelling id _ => clock ≤ p.now ∧ (p.ok = true → ∀ o ∈ s.get id, o.status = .active)
  | takeExpired now => clock ≤ now
  | expiring now (o :: _) _ => OrderStore.finished o now = true → p.ok = true →
      ∀ r ∈ s.get o.id, r.status = .active
  | _ => True

/-- What a sweep has read was there when it read the clock. -/
def SweepsPast (s : OrderStore) (clock : Int) : StoreCall → Prop
  | expiring now active _ => now ≤ clock ∧
      ∀ o ∈ active, ∃ r ∈ s.rows, r.id = o.id ∧ r.createdMs ≤ now
  | _ => True

end StoreCall

instance StoreCall.instDecidableInTime (s : OrderStore) (clock : Int) (p : Piece) :
    (c : StoreCall) → Decidable (c.InTime s clock p)
  | create _ | takeExpired _ => inferInstanceAs (Decidable (_ ≤ _))
  | cancelling .. => inferInstanceAs (Decidable (_ ≤ _ ∧ (_ → ∀ o ∈ s.get _, _)))
  | expiring _ (_ :: _) _ => inferInstanceAs (Decidable (_ → _ → ∀ r ∈ s.get _, _))
  | expiring _ [] _ | addWork .. | addSubmitted .. | flush | flushing _ | cancel _
  | returned _ => isTrue trivial

namespace StoreCall

variable {s s' : OrderStore} {c c' : StoreCall} {p : Piece} {clock : Int}

theorem InTime.le_clockAfter (h : c.InTime s clock p) : clock ≤ c.clockAfter clock p := by
  cases c with
  | create | takeExpired => exact h
  | cancelling => exact h.1
  | _ => exact le_rfl

/-- A piece keeps the rows and when they were created. -/
theorem Moves.created (h : Moves s p c s' c') {r : Order} (hr : r ∈ s.rows) :
    ∃ r' ∈ s'.rows, r'.id = r.id ∧ r'.createdMs = r.createdMs := by
  cases h with
  | write | cancelled | expire =>
    refine ⟨_, List.mem_map_of_mem hr, ?_⟩
    split <;> exact ⟨rfl, rfl⟩
  | insert _ hcreate =>
    unfold OrderStore.create at hcreate
    split at hcreate <;> cases hcreate
    exact ⟨r, List.mem_append_left _ hr, rfl, rfl⟩
  | _ => exact ⟨r, hr, rfl, rfl⟩

/-- The pieces of other calls do not take away what a sweep has read. -/
theorem Moves.sweepsPast_other (h : Moves s p c s' c') (hin : c.InTime s clock p) {d : StoreCall}
    (hd : d.SweepsPast s clock) : d.SweepsPast s' (c.clockAfter clock p) := by
  cases d with
  | expiring now active done =>
    refine ⟨le_trans hd.1 hin.le_clockAfter, fun o ho => ?_⟩
    obtain ⟨r, hr, hid, hcreated⟩ := hd.2 o ho
    obtain ⟨r', hr', hid', hcreated'⟩ := h.created hr
    exact ⟨r', hr', hid'.trans hid, by omega⟩
  | _ => trivial

/-- A piece in time keeps the chronicle. -/
theorem Moves.chronicle (h : Moves s p c s' c') (hin : c.InTime s clock p) (hpos : 0 < clock)
    (hrows : s.Chronicle clock) (hc : c.SweepsPast s clock) :
    s'.Chronicle (c.clockAfter clock p) ∧ c'.SweepsPast s' (c.clockAfter clock p) := by
  have hle := hin.le_clockAfter
  have hafter := hrows.mono hle
  cases h with
  | write => exact ⟨hafter.addDelta _ _, trivial⟩
  | addWork | addSubmitted | take => exact ⟨⟨hafter.created, hafter.ended, hafter.chained⟩, trivial⟩
  | flushed | lose | refuse | read | missing | uncancelled | swept => exact ⟨hafter, trivial⟩
  | insert _ hcreate => exact ⟨hrows.create (lt_of_lt_of_le hpos hle) hle hcreate, trivial⟩
  | cancelled hok =>
    refine ⟨hafter.setStatus (fun o ho => hin.2 hok o ho) (fun o ho _ => ?_) le_rfl, trivial⟩
    exact (hafter.created o ho).2
  | select hactive =>
    refine ⟨hafter, le_rfl, fun o ho => ?_⟩
    exact ⟨o, (hactive o ho).1, rfl, (hafter.created o (hactive o ho).1).2⟩
  | @expire now o active done hfinished hok =>
    have hcreated : ∀ r ∈ s.rows, r.id = o.id → r.createdMs ≤ now := by
      intro r hr hid
      obtain ⟨r', hr', hid', hle'⟩ := hc.2 o List.mem_cons_self
      rwa [hrows.oneActive.eq_of_id hr hr' (hid.trans hid'.symm)]
    refine ⟨hrows.setStatus (fun r hr => hin hfinished hok r hr) hcreated hc.1, hc.1, ?_⟩
    intro o' ho'
    obtain ⟨r, hr, hid, hle'⟩ := hc.2 o' (List.mem_cons_of_mem o ho')
    refine ⟨_, List.mem_map_of_mem hr, ?_⟩
    split <;> exact ⟨hid, hle'⟩
  | unexpired | skip =>
    exact ⟨hrows, hc.1, fun o ho => hc.2 o (List.mem_cons_of_mem _ ho)⟩

end StoreCall

/-! ## Runs -/

/-- The bookkeeping of one step: the clock that the pieces have read. -/
def noteClock (x : StorePool) (e : StoreEvent) (clock : Int) : Int :=
  match e with
  | .call _ => clock
  | .run k p => ((x.calls[k]?).map fun c => c.clockAfter clock p).getD clock

/-- Every piece is in time. -/
def InTime (x : StorePool × Int) : StoreEvent → Prop
  | .call _ => True
  | .run k p => ∀ c ∈ x.1.calls[k]?, c.InTime x.1.shared x.2 p

instance (x : StorePool × Int) : (e : StoreEvent) → Decidable (InTime x e)
  | .call _ => isTrue trivial
  | .run k p => inferInstanceAs (Decidable (∀ c ∈ x.1.calls[k]?, c.InTime _ _ p))

/-- The runs of the store, from an empty table at some time on, whose pieces are all in time. -/
def ChronicleReaches (start : Int) (x : StorePool × Int) : Prop :=
  Run (observed StorePool.step noteClock) InTime (StorePool.idle {}, start) x

structure Chronicled (x : StorePool × Int) : Prop where
  clock : 0 < x.2
  rows : x.1.shared.Chronicle x.2
  sweeps : ∀ c ∈ x.1.calls, c.SweepsPast x.1.shared x.2

theorem Chronicled.step {x y : StorePool × Int} {e : StoreEvent} (h : Chronicled x)
    (hin : InTime x e) (hstep : observed StorePool.step noteClock x e = some y) : Chronicled y := by
  obtain ⟨x, clock⟩ := x
  obtain ⟨y, clock'⟩ := y
  obtain ⟨hnext, rfl⟩ := observed_eq_some.mp hstep
  rcases Calls.cases_of_step hnext with
    ⟨c, rfl, hentry, rfl⟩ | ⟨k, p, c, s, c', rfl, hc, hpiece, rfl⟩
  · refine ⟨h.clock, h.rows, fun d hd => ?_⟩
    rcases List.mem_append.mp hd with hd | hd
    · exact h.sweeps d hd
    · rw [List.mem_singleton.mp hd]
      cases c <;> trivial
  · have hmoves := StoreCall.moves_of_atomicPiece hpiece
    have hinTime : c.InTime x.shared clock p := hin c hc
    have hafter : noteClock x (.run k p) clock = c.clockAfter clock p := by
      simp only [noteClock, hc, Option.map_some, Option.getD_some]
    obtain ⟨hrows, hsweep⟩ := hmoves.chronicle hinTime h.clock h.rows
      (h.sweeps c (List.mem_of_getElem? hc))
    refine ⟨?_, ?_, fun d hd => ?_⟩
    · show 0 < noteClock x (.run k p) clock
      rw [hafter]
      exact lt_of_lt_of_le h.clock hinTime.le_clockAfter
    · show OrderStore.Chronicle s (noteClock x (.run k p) clock)
      rw [hafter]
      exact hrows
    · show d.SweepsPast s (noteClock x (.run k p) clock)
      rw [hafter]
      rcases List.mem_or_eq_of_mem_set hd with hd | rfl
      · exact hmoves.sweepsPast_other hinTime (h.sweeps d hd)
      · exact hsweep

/-- The bands of a rig follow one another: the rental of a band was over when the next one began, so
no moment of the history is rented twice, and the running rental comes last.  Each band begins
before it ends and reaches into the visible window. -/
theorem rental_bands_disjoint {start : Int} (hstart : 0 < start) {x : StorePool × Int}
    (h : ChronicleReaches start x) {now : Int} (hnow : x.2 ≤ now) {sellers : SellerStore}
    {hashrate : HashrateStore} {worker : String} {days : Option Int} {page : HistoryPage}
    (hpage : getSellerHistory sellers x.1.shared hashrate worker days now = .ok page) :
    (page.rentals.Pairwise fun a b => a.status ≠ .active ∧ a.endMs ≤ b.startMs) ∧
      ∀ band ∈ page.rentals,
        band.startMs ≤ band.endMs ∧ historySince now days ≤ band.endMs ∧ band.endMs ≤ now := by
  rw [rentals_of_page hpage]
  have hrows : x.1.shared.Chronicle x.2 := (h.invariant (I := Chronicled)
    ⟨hstart, .empty start, List.forall_mem_nil _⟩ fun _ _ _ hx hin hstep => hx.step hin hstep).rows
  unfold OrderStore.rentalBands
  rw [hrows.listForWorker]
  constructor
  · refine List.pairwise_filterMap.mpr (List.pairwise_filter.mpr ?_)
    refine hrows.chained.imp_of_mem fun {a b} ha _ hab haw hbw => ?_
    obtain ⟨hended, hle⟩ := hab.2 (by rw [of_decide_eq_true haw, of_decide_eq_true hbw])
    intro band hband band' hband'
    obtain ⟨_, rfl⟩ := Order.band_eq_some.mp hband
    obtain ⟨_, rfl⟩ := Order.band_eq_some.mp hband'
    refine ⟨hended, ?_⟩
    show a.bandEnd now ≤ b.createdMs
    rwa [hrows.bandEnd_eq ha, if_neg hended]
  · intro band hband
    obtain ⟨o, ho, hband⟩ := List.mem_filterMap.mp hband
    obtain ⟨hsince, rfl⟩ := Order.band_eq_some.mp hband
    have hrow := List.mem_of_mem_filter ho
    have hcreated := (hrows.created o hrow).2
    refine ⟨?_, hsince, ?_⟩ <;> dsimp only <;> rw [hrows.bandEnd_eq hrow] <;> split
    · omega
    · exact (hrows.ended o hrow ‹_›).1
    · exact le_rfl
    · exact le_trans (hrows.ended o hrow ‹_›).2 hnow

/-- A rental that is cancelled, and the next one of the rig. -/
def twoRentals : List StoreEvent :=
  [.call (.create { id := "o1", worker := "bc1q.rig", target := ⟨"buyer:3333", "b", "", none⟩ }),
    .run 0 { now := 100 }, .call (.cancel "o1"), .run 1 {}, .run 1 { now := 200 },
    .call (.create { id := "o2", worker := "bc1q.rig", target := ⟨"buyer:3333", "b", "", none⟩ }),
    .run 2 { now := 250 }]

/-- The rig of the two rentals. -/
def listedRig : SellerStore :=
  (∅ : SellerStore).insert "bc1q.rig" { defaultPool := ⟨"seller:3333", "s", "", none⟩ }

theorem rental_bands_disjoint_two :
    ∃ x page, ChronicleReaches 1 x ∧ x.2 ≤ 300 ∧
      getSellerHistory listedRig x.1.shared ∅ "bc1q.rig" none 300 = .ok page ∧
      page.rentals = [⟨"o1", 100, 200, .cancelled⟩, ⟨"o2", 250, 300, .active⟩] ∧
      page.rentals.Pairwise fun a b => a.status ≠ .active ∧ a.endMs ≤ b.startMs := by
  have hrun : ((runWhile (observed StorePool.step noteClock) (fun x e => decide (InTime x e))
      (StorePool.idle {}, 1) twoRentals).any fun x => decide (x.2 ≤ 300 ∧
        x.1.shared.rentalBands "bc1q.rig" 300 none =
          [⟨"o1", 100, 200, .cancelled⟩, ⟨"o2", 250, 300, .active⟩])) = true := by decide +kernel
  obtain ⟨x, hx, htest⟩ := (Option.any_eq_true ..).mp hrun
  obtain ⟨hclock, hbands⟩ := of_decide_eq_true htest
  have hreach : ChronicleReaches 1 x := Run.of_runWhile (fun _ _ => of_decide_eq_true) hx
  have hrig : listedRig.lookup "bc1q.rig" =
      some { defaultPool := ⟨"seller:3333", "s", "", none⟩ } := AList.lookup_insert _
  have hpage : ∃ page, getSellerHistory listedRig x.1.shared ∅ "bc1q.rig" none 300 = .ok page := by
    unfold getSellerHistory
    rw [hrig]
    exact ⟨_, rfl⟩
  obtain ⟨page, hpage⟩ := hpage
  exact ⟨x, page, hreach, hclock, hpage, (rentals_of_page hpage).trans hbands,
    (rental_bands_disjoint (by decide) hreach hclock hpage).1⟩

end RentalProxy
