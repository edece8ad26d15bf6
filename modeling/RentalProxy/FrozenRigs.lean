import RentalProxy.Hashrate
import RentalProxy.OrderCalls

/-!
# Rented rigs

`set_seller` and `delete_seller` ask for a live order of the worker, and write in another statement;
`create_order` checks the listing, the live order and the hash rate, and then inserts.  Nothing
keeps an order from being inserted between the guard of one request and its write.

* `Request` is where a request stands, `piece` its next statement.
* `missed` keeps, by request, the orders that its guard did not see.
* `rented_rig_frozen_iff` is the result: the row of a rented rig stays as it is, exactly when no
  order that the guard did not see is live at a write.
-/

namespace RentalProxy

open StepSystem

/-! ## Stores -/

/-- A row of the seller store. -/
structure SellerRig where
  defaultPool : UpstreamTarget
  advertisedThs : Rat := 0
  pricePerThDay : Rat := 0
  priceMinPerThDay : Rat := 0
  priceMaxPerThDay : Rat := 0
  payoutAddress : Option String := none
  rentable : Bool := true
  maxRentalSecs : Int := 0
deriving DecidableEq

/-- `SellerStore`, by worker. -/
abbrev SellerStore := AList fun _ : String => SellerRig

/-- The upsert of `SellerStore::set`, or the `DELETE` of `SellerStore::remove`. -/
def SellerStore.write (s : SellerStore) (worker : String) : Option SellerRig → SellerStore
  | some rig => s.insert worker rig
  | none => s.erase worker

/-- What the requests share. -/
structure ApiStores where
  orders : OrderStore
  sellers : SellerStore
  now : Int

/-! ## Requests -/

structure SellerReq where
  /-- The pool, or why `pool_url` refuses its url. -/
  pool : Except String UpstreamTarget
  advertisedThs : Rat := 0
  pricePerThDay : Rat := 0
  priceMinPerThDay : Rat := 0
  priceMaxPerThDay : Rat := 0
  payoutAddress : Option String := none
  rentable : Bool := true
  maxRentalSecs : Int := 0

def SellerReq.rig (req : SellerReq) (target : UpstreamTarget) : SellerRig where
  defaultPool := target
  advertisedThs := req.advertisedThs
  pricePerThDay := req.pricePerThDay
  priceMinPerThDay := req.priceMinPerThDay
  priceMaxPerThDay := req.priceMaxPerThDay
  payoutAddress := req.payoutAddress
  rentable := req.rentable
  maxRentalSecs := max req.maxRentalSecs 0

structure OrderReq where
  /-- The id that `create` makes up for the order. -/
  id : String
  worker : String
  /-- The pool and its fallback, or why `pool_url` refuses an url. -/
  pools : Except String (UpstreamTarget × Option UpstreamTarget)
  untilMs : Int := 0
  pricePerThDay : Rat := 0
  budget : Rat := 0

def OrderReq.order (req : OrderReq) (pools : UpstreamTarget × Option UpstreamTarget) : Order where
  id := req.id
  worker := req.worker
  target := pools.1
  fallback := pools.2
  untilMs := req.untilMs
  pricePerThDay := req.pricePerThDay
  budget := req.budget

inductive ApiReply where
  | ok
  | error (status : Nat) (message : String)

/-- Where a request stands. -/
inductive Request where
  | setSeller (worker : String) (req : SellerReq)
  | deleteSeller (worker : String)
  /-- The guard has passed.  Without a row it is a delete. -/
  | writing (worker : String) (rig : Option SellerRig)
  | createOrder (req : OrderReq)
  | checkListing (o : Order)
  | checkRented (o : Order)
  | checkOnline (o : Order)
  /-- In a call of the order store. -/
  | inStore (c : StoreCall)
  | replied (reply : ApiReply)

/-- What decides the outcome of a statement of a request. -/
structure ApiPiece extends Piece where
  /-- What the registry sums up for the worker. -/
  hashrate : Option Rat := none
  /-- The error of a statement that fails. -/
  error : String := ""

/-- Why a rig cannot be rented as asked for. -/
def SellerRig.refusal (rig : SellerRig) (untilMs now : Int) : Option String :=
  let maxH := rig.maxRentalSecs / 3600
  if rig.rentable = false then some "rig is not listed for rent"
  else if 0 < rig.maxRentalSecs then
    if untilMs ≤ 0 then some s!"this rig caps rentals at {maxH} h — set an end time"
    else if min (rig.maxRentalSecs * 1000) (2 ^ 63 - 1) < untilMs - now then
      some s!"rental too long — this rig caps at {maxH} h"
    else none
  else none

namespace ApiStores

/-- `rented_guard`.  A lookup that fails finds nothing. -/
def rented (s : ApiStores) (worker : String) (p : ApiPiece) : Bool :=
  p.ok && (s.orders.activeForWorker worker p.now).isSome

end ApiStores

namespace Request

/-- The requests as they arrive. -/
def isEntry : Request → Bool
  | setSeller .. | deleteSeller _ | createOrder _ | inStore (.cancel _) => true
  | writing .. | checkListing _ | checkRented _ | checkOnline _ | inStore _ | replied _ => false

/-- The next statement of a request. -/
def piece (s : ApiStores) : Request → ApiPiece → Option (ApiStores × Request)
  | setSeller worker req, p =>
    if s.rented worker p then some (s, replied (.error 409 "rig is already rented"))
    else match req.pool with
      | .ok target => some (s, writing worker (some (req.rig target)))
      | .error e => some (s, replied (.error 400 e))
  | deleteSeller worker, p =>
    if s.rented worker p then some (s, replied (.error 409 "rig is already rented"))
    else some (s, writing worker none)
  | writing worker rig, p =>
    if p.ok then some ({ s with sellers := s.sellers.write worker rig }, replied .ok)
    else some (s, replied (.error 500 p.error))
  | createOrder req, p =>
    match req.pools with
    | .ok pools =>
      if req.untilMs ≠ 0 ∧ req.untilMs ≤ p.now then
        some (s, replied (.error 409 "end time must be in the future"))
      else some (s, checkListing (req.order pools))
    | .error e => some (s, replied (.error 400 e))
  | checkListing o, p =>
    match (if p.ok then s.sellers.lookup o.worker else none).bind
        fun rig => rig.refusal o.untilMs p.now with
    | some message => some (s, replied (.error 409 message))
    | none => some (s, checkRented o)
  | checkRented o, p =>
    if s.rented o.worker p then some (s, replied (.error 409 "rig is already rented"))
    else some (s, checkOnline o)
  | checkOnline o, p =>
    if isDelivering (p.hashrate.getD 0) then some (s, inStore (.create o))
    else some (s, replied (.error 409 "rig is offline"))
  | inStore c, p =>
    (c.atomicPiece s.orders p.toPiece).map fun y => ({ s with orders := y.1 }, inStore y.2)
  | replied _, _ => none

/-- The clock does not go back between two statements. -/
def atomicPiece (s : ApiStores) (r : Request) (p : ApiPiece) : Option (ApiStores × Request) :=
  if s.now ≤ p.now then piece { s with now := p.now } r p else none

end Request

/-- The stores with the requests. -/
abbrev RequestPool := Calls.Pool ApiStores Request

abbrev RequestEvent := Calls.Event Request ApiPiece

namespace RequestPool

def step : RequestPool → RequestEvent → Option RequestPool :=
  Calls.step Request.isEntry Request.atomicPiece

end RequestPool

/-! ## What a guard does not see -/

/-- The order that a statement inserts. -/
def Request.inserts (s : ApiStores) (p : ApiPiece) : Request → List String
  | inStore (.create o) =>
    if p.ok && (s.orders.create (OrderStore.newRow o p.now)).isSome then [o.id] else []
  | _ => []

/-- The orders that a guard does not see: those of a lookup that fails. -/
def Request.overlooks (s : ApiStores) (p : ApiPiece) : Request → Option (List String)
  | setSeller .. | deleteSeller _ => some (if p.ok then [] else s.orders.rows.map Order.id)
  | _ => none

/-- The bookkeeping of one step: by request, the orders that its guard did not see, or that were
inserted since. -/
def noteMissed (x : RequestPool) (e : RequestEvent) (missed : Nat → List String) :
    Nat → List String :=
  match e with
  | .call _ => missed
  | .run k p =>
    match x.calls[k]? with
    | some r => fun j =>
      if j = k then (r.overlooks x.shared p).getD (missed j)
      else missed j ++ r.inserts x.shared p
    | none => missed

/-- The row of a rented rig stays as it is. -/
def Frozen (s s' : ApiStores) (worker : String) : Prop :=
  (s.orders.activeForWorker worker s'.now).isSome = true →
    ∀ rig, s.sellers.lookup worker = some rig → s'.sellers.lookup worker = some rig

/-- A write changes the row of a rig, and an order of the worker is live that the guard of the
request did not see. -/
def Overtaken (x : RequestPool × (Nat → List String)) (worker : String) : RequestEvent → Prop
  | .call _ => False
  | .run k p => p.ok = true ∧ ∃ row, x.1.calls[k]? = some (.writing worker row) ∧
      (∃ rig, x.1.shared.sellers.lookup worker = some rig ∧ row ≠ some rig) ∧
      ∃ o ∈ x.1.shared.orders.rows, o.worker = worker ∧ o.isLive p.now = true ∧ o.id ∈ x.2 k

/-- The runs of the requests from stores that no request has been made of. -/
def RequestsReach (s₀ : ApiStores) (x : RequestPool × (Nat → List String)) : Prop :=
  Run (observed RequestPool.step noteMissed) (fun _ _ => True) (⟨s₀, []⟩, fun _ => []) x

/-! ## One statement -/

namespace Request

/-- What a statement of a request does to the stores, and where it leaves the request. -/
inductive Moves (s : ApiStores) (p : ApiPiece) : Request → ApiStores → Request → Prop where
  | guarded {r : Request} {worker : String} {row : Option SellerRig}
      (hoverlooks : r.overlooks s p = some (if p.ok then [] else s.orders.rows.map Order.id))
      (hrented : s.rented worker p = false) : Moves s p r s (writing worker row)
  | write {worker : String} {row : Option SellerRig} (hok : p.ok = true) :
      Moves s p (writing worker row) { s with sellers := s.sellers.write worker row } (replied .ok)
  | store {c c' : StoreCall} {orders : OrderStore}
      (hmoves : c.Moves s.orders p.toPiece orders c') :
      Moves s p (inStore c) { s with orders := orders } (inStore c')
  | refuse (r : Request) (reply : ApiReply) : Moves s p r s (replied reply)
  | check {r r' : Request} (o : Order)
      (hnext : r' = checkListing o ∨ r' = checkRented o ∨ r' = checkOnline o ∨
        r' = inStore (.create o)) : Moves s p r s r'

variable {s s' : ApiStores} {r r' : Request} {p : ApiPiece}

theorem moves_of_piece (h : piece s r p = some (s', r')) : Moves s p r s' r' := by
  cases r with
  | setSeller worker req =>
    simp only [piece] at h
    split at h
    · cases h
      exact .refuse _ _
    · split at h <;> cases h
      · exact .guarded rfl (Bool.eq_false_of_not_eq_true ‹_›)
      · exact .refuse _ _
  | deleteSeller worker =>
    simp only [piece] at h
    split at h <;> cases h
    · exact .refuse _ _
    · exact .guarded rfl (Bool.eq_false_of_not_eq_true ‹_›)
  | writing worker row =>
    simp only [piece] at h
    split at h <;> cases h
    · exact .write ‹_›
    · exact .refuse _ _
  | createOrder req =>
    simp only [piece] at h
    split at h
    · split at h <;> cases h
      · exact .refuse _ _
      · exact .check _ (Or.inl rfl)
    · cases h
      exact .refuse _ _
  | checkListing o =>
    simp only [piece] at h
    split at h <;> cases h
    · exact .refuse _ _
    · exact .check o (Or.inr (Or.inl rfl))
  | checkRented o =>
    simp only [piece] at h
    split at h <;> cases h
    · exact .refuse _ _
    · exact .check o (Or.inr (Or.inr (Or.inl rfl)))
  | checkOnline o =>
    simp only [piece] at h
    split at h <;> cases h
    · exact .check o (Or.inr (Or.inr (Or.inr rfl)))
    · exact .refuse _ _
  | inStore c =>
    simp only [piece, Option.map_eq_some_iff, Prod.mk.injEq] at h
    obtain ⟨⟨orders, c'⟩, hpiece, rfl, rfl⟩ := h
    exact .store (StoreCall.moves_of_atomicPiece hpiece)
  | replied reply => cases h

/-- The calls of the order store that requests are in. -/
def ofRequest : Request → Prop
  | inStore (.create _) | inStore (.cancel _) | inStore (.cancelling ..)
  | inStore (.returned _) => True
  | inStore _ => False
  | _ => True

theorem ofRequest_of_isEntry (h : r.isEntry = true) : r.ofRequest := by
  cases r with
  | inStore c => cases c <;> trivial
  | _ => trivial

theorem Moves.ofRequest (h : Moves s p r s' r') (hr : r.ofRequest) : r'.ofRequest := by
  cases h with
  | store hmoves => cases hmoves <;> trivial
  | check o hnext => rcases hnext with rfl | rfl | rfl | rfl <;> trivial
  | _ => trivial

/-- A live row was there, or was just inserted. -/
theorem Moves.mem_before (h : Moves s p r s' r') (hr : r.ofRequest) {o : Order} {now : Int}
    (ho : o ∈ s'.orders.rows) (hlive : o.isLive now = true) :
    o ∈ s.orders.rows ∨ o.id ∈ r.inserts s p := by
  cases h with
  | guarded | write | refuse | check => exact Or.inl ho
  | store hmoves =>
    cases hmoves with
    | insert hok hcreate =>
      have hinserts := hcreate
      unfold OrderStore.create at hcreate
      split at hcreate <;> cases hcreate
      rcases List.mem_append.mp ho with hold | hnew
      · exact Or.inl hold
      · right
        rw [List.mem_singleton.mp hnew]
        simp only [inserts, hok, hinserts, Option.isSome_some, Bool.and_self, if_true]
        exact List.mem_singleton.mpr rfl
    | cancelled =>
      obtain ⟨o', ho', rfl⟩ := List.mem_map.mp ho
      split at hlive
      · cases Order.status_of_isLive hlive
      · rename_i hother
        rw [if_neg hother]
        exact Or.inl ho'
    | refuse | read | missing | uncancelled => exact Or.inl ho
    | _ => exact hr.elim

/-- Only a write changes the rows of the rigs. -/
theorem Moves.sellers (h : Moves s p r s' r') : s'.sellers = s.sellers ∨
    ∃ worker row, r = writing worker row ∧ p.ok = true ∧
      s' = { s with sellers := s.sellers.write worker row } := by
  cases h with
  | write hok => exact Or.inr ⟨_, _, rfl, hok, rfl⟩
  | _ => exact Or.inl rfl

theorem cases_of_atomicPiece (h : atomicPiece s r p = some (s', r')) :
    s.now ≤ p.now ∧ Moves { s with now := p.now } p r s' r' := by
  unfold atomicPiece at h
  split at h
  · exact ⟨‹_›, moves_of_piece h⟩
  · cases h

theorem Moves.now_eq (h : Moves s p r s' r') : s'.now = s.now := by
  cases h <;> rfl

end Request

theorem SellerStore.lookup_write (s : SellerStore) (worker : String) (row : Option SellerRig)
    (w : String) : (s.write worker row).lookup w = if w = worker then row else s.lookup w := by
  by_cases h : w = worker
  · subst h
    cases row with
    | none => simp [write]
    | some rig => simp [write]
  · rw [if_neg h]
    cases row with
    | none => simp [write, AList.lookup_erase_ne h]
    | some rig => simp [write, AList.lookup_insert_ne h]

/-! ## Runs -/

/-- A request that is about to write has seen every order of the worker that is live, but for the
ones it missed. -/
structure Watched (x : RequestPool × (Nat → List String)) : Prop where
  ofRequest : ∀ r ∈ x.1.calls, r.ofRequest
  missed : ∀ k worker row, x.1.calls[k]? = some (.writing worker row) →
    ∀ o ∈ x.1.shared.orders.rows, o.worker = worker → o.isLive x.1.shared.now = true →
      o.id ∈ x.2 k

section Steps

variable {x y : RequestPool × (Nat → List String)} {e : RequestEvent} {w : String}

/-- A request that works stays one that was made. -/
theorem ofRequest_step {x y : RequestPool} {e : RequestEvent} (h : ∀ r ∈ x.calls, r.ofRequest)
    (hstep : x.step e = some y) : ∀ r ∈ y.calls, r.ofRequest := by
  have hholds : x.Holds (fun _ => True) fun _ r => r.ofRequest := ⟨trivial, h⟩
  refine (hholds.step hstep ?_ ?_ ?_).calls
  · exact fun _ _ _ hentry => Request.ofRequest_of_isEntry hentry
  · intro _ _ _ _ _ _ _ _ hr hpiece
    exact ⟨trivial, (Request.cases_of_atomicPiece hpiece).2.ofRequest hr⟩
  · exact fun _ _ _ _ _ _ _ _ _ _ _ hr _ => hr

theorem Watched.step (h : Watched x) (hstep : observed RequestPool.step noteMissed x e = some y) :
    Watched y := by
  obtain ⟨x, missed⟩ := x
  obtain ⟨y, missed'⟩ := y
  obtain ⟨hnext, rfl⟩ := observed_eq_some.mp hstep
  refine ⟨ofRequest_step h.ofRequest hnext, ?_⟩
  rcases Calls.cases_of_step hnext with
    ⟨r, rfl, hentry, rfl⟩ | ⟨k, p, r, s, r', rfl, hr, hpiece, rfl⟩
  · intro j worker row hj
    refine h.missed j worker row ?_
    rw [List.getElem?_append] at hj
    split at hj
    · exact hj
    · obtain rfl := List.mem_singleton.mp (List.mem_of_getElem? hj)
      cases hentry
  · obtain ⟨hclock, hmoves⟩ := Request.cases_of_atomicPiece hpiece
    have hof := h.ofRequest r (List.mem_of_getElem? hr)
    intro j worker row hj o ho hworker hlive
    have hnow : s.now = p.now := hmoves.now_eq
    rw [hnow] at hlive
    simp only [noteMissed, hr]
    by_cases hjk : j = k
    · -- the guard has just passed
      subst hjk
      rw [List.getElem?_set_self (List.getElem?_eq_some_iff.mp hr).1] at hj
      cases hj
      cases hmoves with
      | guarded hoverlooks hrented =>
        have hmissed : r.overlooks x.shared p =
            some (if p.ok then [] else x.shared.orders.rows.map Order.id) := hoverlooks
        rw [if_pos rfl, hmissed, Option.getD_some]
        cases hok : p.ok with
        | true =>
          -- the lookup would have found the order
          rw [ApiStores.rented, hok, Bool.true_and] at hrented
          rw [OrderStore.activeForWorker_isSome ho hworker hlive] at hrented
          cases hrented
        | false => exact List.mem_map_of_mem ho
      | check o hnext => rcases hnext with hnext | hnext | hnext | hnext <;> cases hnext
    · rw [List.getElem?_set_ne fun h => hjk h.symm] at hj
      rw [if_neg hjk]
      rcases hmoves.mem_before hof ho hlive with hold | hnew
      · exact List.mem_append_left _ (h.missed j worker row hj o hold hworker
          (Order.isLive_of_le hclock hlive))
      · exact List.mem_append_right _ hnew

end Steps

/-- The row of a rented rig stays as it is, exactly when no write changes it while an order of the
worker is live that the guard of the request did not see. -/
theorem rented_rig_frozen_iff {s₀ : ApiStores} {x y : RequestPool × (Nat → List String)}
    {e : RequestEvent} (h : RequestsReach s₀ x)
    (hstep : observed RequestPool.step noteMissed x e = some y) (worker : String) :
    Frozen x.1.shared y.1.shared worker ↔ ¬Overtaken x worker e := by
  have hwatched : Watched x := Run.invariant h
    ⟨List.forall_mem_nil _, fun _ _ _ hk => by cases hk⟩ fun _ _ _ hx _ => hx.step
  obtain ⟨x, missed⟩ := x
  obtain ⟨y, missed'⟩ := y
  obtain ⟨hnext, rfl⟩ := observed_eq_some.mp hstep
  rcases Calls.cases_of_step hnext with ⟨r, rfl, _, rfl⟩ | ⟨k, p, r, s, r', rfl, hr, hpiece, rfl⟩
  · exact iff_of_true (fun _ _ hrig => hrig) id
  obtain ⟨hclock, hmoves⟩ := Request.cases_of_atomicPiece hpiece
  have hnow : s.now = p.now := hmoves.now_eq
  constructor
  · -- the orders that were missed are live orders
    rintro hfrozen ⟨hok, row, hk, ⟨rig, hrig, hchanges⟩, o, ho, hworker, hlive, _⟩
    rw [hr] at hk
    cases hk
    have hrented : (x.shared.orders.activeForWorker worker s.now).isSome = true := by
      rw [hnow]
      exact OrderStore.activeForWorker_isSome ho hworker hlive
    have hkept := hfrozen hrented rig hrig
    simp only [Request.atomicPiece, if_pos hclock, Request.piece, if_pos hok] at hpiece
    cases hpiece
    rw [SellerStore.lookup_write, if_pos rfl] at hkept
    exact hchanges hkept
  · intro hsafe hrented rig hrig
    rcases hmoves.sellers with hsame | ⟨worker', row, rfl, hok, rfl⟩
    · rw [hsame]
      exact hrig
    · rw [SellerStore.lookup_write]
      split
      · rename_i hworker
        subst hworker
        by_contra hchanges
        obtain ⟨o, ho⟩ := Option.isSome_iff_exists.mp hrented
        obtain ⟨hrow, howner, hlive⟩ := OrderStore.mem_of_activeForWorker ho
        exact hsafe ⟨hok, row, hr, ⟨rig, hrig, hchanges⟩, o, hrow, howner, hlive,
          hwatched.missed k worker row hr o hrow howner (Order.isLive_of_le hclock hlive)⟩
      · exact hrig

/-! ## Runs of one rig -/

/-- A registered rig. -/
def registeredRig : ApiStores where
  orders := {}
  sellers := [⟨"bc1q.rig", { defaultPool := ⟨"pool:3333", "acct", "", none⟩ }⟩].toAList
  now := 0

/-- A rental until a deadline. -/
def rentUntil (untilMs : Int) : Request :=
  .createOrder { id := "o1", worker := "bc1q.rig", untilMs := untilMs
                 pools := .ok (⟨"buyer:3333", "b", "", none⟩, none) }

/-- The statements of `create_order`. -/
def rentEvents (k : Nat) (now : Int) : List RequestEvent :=
  [.run k { now := now }, .run k { now := now }, .run k { now := now },
    .run k { now := now, hashrate := some 1 }, .run k { now := now }]

theorem RequestsReach.exists_of_run {s₀ : ApiStores} (es : List RequestEvent)
    {test : RequestPool × (Nat → List String) → Bool}
    (h : (run (observed RequestPool.step noteMissed) (⟨s₀, []⟩, fun _ => []) es).any test = true) :
    ∃ x, RequestsReach s₀ x ∧ test x = true := by
  obtain ⟨x, hx, htest⟩ := (Option.any_eq_true ..).mp h
  exact ⟨x, Run.of_run hx, htest⟩

/-- A rig is deleted after its rental. -/
theorem rented_rig_frozen_until_deadline :
    ∃ x y, RequestsReach registeredRig x ∧
      observed RequestPool.step noteMissed x (.run 1 { now := 200 }) = some y ∧
      Frozen x.1.shared y.1.shared "bc1q.rig" ∧
      (y.1.shared.sellers.lookup "bc1q.rig").isSome = false := by
  obtain ⟨x, hreach, hx⟩ := @RequestsReach.exists_of_run registeredRig
    (.call (rentUntil 100) :: rentEvents 0 50 ++
      [.call (.deleteSeller "bc1q.rig"), .run 1 { now := 150 }])
    (fun x => decide (x.2 1 = []) &&
      (observed RequestPool.step noteMissed x (.run 1 { now := 200 })).any fun y =>
        !(y.1.shared.sellers.lookup "bc1q.rig").isSome) (by decide +kernel)
  obtain ⟨hmissed, hstep⟩ := Bool.and_eq_true_iff.mp hx
  obtain ⟨y, hy, hgone⟩ := (Option.any_eq_true ..).mp hstep
  refine ⟨x, y, hreach, hy, (rented_rig_frozen_iff hreach hy "bc1q.rig").mpr ?_,
    by simpa using hgone⟩
  rintro ⟨_, _, _, _, o, _, _, _, hid⟩
  rw [of_decide_eq_true hmissed] at hid
  cases hid

/-- An order is created between the guard and the delete. -/
theorem rented_rig_is_deleted :
    ∃ x y, RequestsReach registeredRig x ∧
      observed RequestPool.step noteMissed x (.run 0 { now := 20 }) = some y ∧
      (x.1.shared.orders.activeForWorker "bc1q.rig" 20).isSome = true ∧
      (x.1.shared.sellers.lookup "bc1q.rig").isSome = true ∧
      y.1.shared.sellers.lookup "bc1q.rig" = none ∧
      ¬Frozen x.1.shared y.1.shared "bc1q.rig" := by
  obtain ⟨x, hreach, hx⟩ := @RequestsReach.exists_of_run registeredRig
    ([.call (.deleteSeller "bc1q.rig"), .run 0 { now := 10 }, .call (rentUntil 0)] ++
      rentEvents 1 15)
    (fun x => (x.1.shared.orders.activeForWorker "bc1q.rig" 20).isSome &&
      (x.1.shared.sellers.lookup "bc1q.rig").isSome &&
      (observed RequestPool.step noteMissed x (.run 0 { now := 20 })).any
        fun y : RequestPool × (Nat → List String) =>
          !(y.1.shared.sellers.lookup "bc1q.rig").isSome && decide (y.1.shared.now = 20))
    (by decide +kernel)
  simp only [Bool.and_eq_true] at hx
  obtain ⟨⟨hrented, hthere⟩, hstep⟩ := hx
  obtain ⟨y, hy, hboth⟩ := (Option.any_eq_true ..).mp hstep
  obtain ⟨hgone, hnow⟩ := Bool.and_eq_true_iff.mp hboth
  have hnone : y.1.shared.sellers.lookup "bc1q.rig" = none := by simpa using hgone
  refine ⟨x, y, hreach, hy, hrented, hthere, hnone, fun hfrozen => ?_⟩
  obtain ⟨rig, hrig⟩ := Option.isSome_iff_exists.mp hthere
  have hkept := hfrozen (by rw [of_decide_eq_true hnow]; exact hrented) rig hrig
  rw [hnone] at hkept
  cases hkept

end RentalProxy
