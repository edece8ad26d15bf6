import RentalProxy.FrozenRigs
import RentalProxy.LiveOrders
import RentalProxy.Registry
import RentalProxy.SellerRigs

/-!
# The marketplace

A buyer chooses a rig from the list of `list_sellers`, and `create_order` decides whether he gets
it.  Each has its own way to find out whether the rig is online and whether it is rented.

* `listSellers` is the list: the rows of the seller store with what the registry and the order
  store say of them.
* `Request.alone` is a request that nothing comes in between.
* `listed_rig_rented_iff` is the result: an order is taken exactly when the list shows the rig free,
  and no order of the rig waits for the sweep.
-/

namespace RentalProxy

open StepSystem

/-! ## The list -/

/-- `snapshot`; `status` is what each session answers when it is asked. -/
def Registry.snapshot (m : Registry) (status : Nat → SessionStatus) : List SessionStatus :=
  m.inner.entries.filterMap fun e => aggregate (e.2.map status)

/-- The live hash rates, by the worker that a status names. -/
def liveHashrates (statuses : List SessionStatus) : AList fun _ : String => Rat :=
  statuses.foldl (fun m st => m.insert st.worker st.hashrateHs) ∅

/-- An entry of the list. -/
structure SellerListing where
  rig : SellerRig
  hashrateHs : Rat
  online : Bool
  rented : Bool

/-- `enrich_sellers`. -/
def enrichSellers (sellers : List (Sigma fun _ : String => SellerRig))
    (live : AList fun _ : String => Rat) (rented : List String) : List (String × SellerListing) :=
  sellers.map fun e =>
    let hashrateHs := (live.lookup e.1).getD 0
    (e.1, { rig := e.2, hashrateHs, online := isDelivering hashrateHs
            rented := decide (e.1 ∈ rented) })

/-- Which of the two queries succeed.  One that fails finds nothing. -/
structure ListReads where
  sellers : Bool := true
  orders : Bool := true

/-- `list_sellers`. -/
def listSellers (s : ApiStores) (m : Registry) (status : Nat → SessionStatus) (now : Int)
    (seller : Option String) (reads : ListReads) : List (String × SellerListing) :=
  let sellers := match seller with
    | some address =>
      if address = "" then s.sellers.entries else s.sellers.listForSeller address
    | none => s.sellers.entries
  let orders := if reads.orders then s.orders.rows else []
  enrichSellers (if reads.sellers then sellers else []) (liveHashrates (m.snapshot status))
    ((orders.filter fun o => o.isLive now).map Order.worker)

/-! ## What the list says of a rig -/

/-- Every session is registered under the worker it names. -/
def Registry.Labelled (m : Registry) (status : Nat → SessionStatus) : Prop :=
  ∀ worker, ∀ c ∈ m.getAll worker, (status c).worker = worker

section Listing

variable {s : ApiStores} {m : Registry} {status : Nat → SessionStatus} {now : Int}
  {seller : Option String} {reads : ListReads} {worker : String} {l : SellerListing}

theorem aggregate_worker {parts : List SessionStatus} {rig : SessionStatus}
    (h : aggregate parts = some rig) (hworker : ∀ p ∈ parts, p.worker = worker) :
    rig.worker = worker := by
  obtain ⟨lead, hlead, rfl⟩ := Option.map_eq_some_iff.mp h
  exact hworker lead (List.mem_of_getElem? hlead)

theorem getAll_of_mem {e : Sigma fun _ : String => List Nat} (he : e ∈ m.inner.entries) :
    m.getAll e.1 = e.2 := by
  unfold Registry.getAll
  rw [AList.mem_lookup_iff.mpr he]
  rfl

/-- A rig in the table is asked for by its worker. -/
theorem aggregatedStatus_of_mem {e : Sigma fun _ : String => List Nat}
    (he : e ∈ m.inner.entries) : m.aggregatedStatus status e.1 = aggregate (e.2.map status) := by
  unfold Registry.aggregatedStatus
  rw [getAll_of_mem he]
  dsimp only
  split
  · rename_i hnone
    rw [hnone]
    exact (aggregate_eq_none.mpr rfl).symm
  · rfl

theorem mem_snapshot {st : SessionStatus} : st ∈ m.snapshot status ↔
    ∃ worker, m.aggregatedStatus status worker = some st := by
  unfold Registry.snapshot
  rw [List.mem_filterMap]
  constructor
  · rintro ⟨e, he, hst⟩
    exact ⟨e.1, (aggregatedStatus_of_mem he).trans hst⟩
  · rintro ⟨worker, hst⟩
    cases hsessions : m.inner.lookup worker with
    | none =>
      unfold Registry.aggregatedStatus Registry.getAll at hst
      rw [hsessions, Option.getD_none, if_pos rfl] at hst
      cases hst
    | some sessions =>
      have he : ⟨worker, sessions⟩ ∈ m.inner.entries := AList.mem_lookup_iff.mp hsessions
      exact ⟨_, he, (aggregatedStatus_of_mem he).symm.trans hst⟩

theorem aggregatedStatus_worker (hlabels : m.Labelled status) {st : SessionStatus}
    (h : m.aggregatedStatus status worker = some st) : st.worker = worker := by
  unfold Registry.aggregatedStatus at h
  dsimp only at h
  split at h
  · cases h
  · apply aggregate_worker h
    intro p hp
    obtain ⟨c, hc, rfl⟩ := List.mem_map.mp hp
    exact hlabels worker c hc

/-- The snapshot names every worker once. -/
theorem snapshot_workers (hlabels : m.Labelled status) :
    ((m.snapshot status).map SessionStatus.worker).Sublist m.inner.keys := by
  have hentry : ∀ e ∈ m.inner.entries, ∀ rig, aggregate (e.2.map status) = some rig →
      rig.worker = e.1 := by
    intro e he rig hrig
    exact aggregatedStatus_worker hlabels ((aggregatedStatus_of_mem he).trans hrig)
  unfold Registry.snapshot AList.keys List.keys
  generalize m.inner.entries = es at hentry
  induction es with
  | nil => exact List.Sublist.slnil
  | cons e es ih =>
    have hrest := ih fun e' he' => hentry e' (List.mem_cons_of_mem e he')
    rw [List.filterMap_cons, List.map_cons]
    cases hrig : aggregate (e.2.map status) with
    | none => exact hrest.cons e.1
    | some rig =>
      rw [List.map_cons, hentry e List.mem_cons_self rig hrig]
      exact hrest.cons_cons e.1

/-- The list has the hash rate that `create_order` asks the registry for. -/
theorem lookup_liveHashrates (hlabels : m.Labelled status) (worker : String) :
    (liveHashrates (m.snapshot status)).lookup worker =
      (m.aggregatedStatus status worker).map SessionStatus.hashrateHs := by
  have hnodup : ((m.snapshot status).map SessionStatus.worker).Nodup :=
    (snapshot_workers hlabels).nodup m.inner.keys_nodup
  ext rate
  unfold liveHashrates
  rw [KeyedTable.lookup_foldl_insert _ _ hnodup, AList.lookup_empty, Option.map_eq_some_iff]
  constructor
  · rintro (⟨st, hst, rfl, rfl⟩ | ⟨_, hnone⟩)
    · obtain ⟨w, hw⟩ := mem_snapshot.mp hst
      rw [aggregatedStatus_worker hlabels hw]
      exact ⟨st, hw, rfl⟩
    · cases hnone
  · rintro ⟨st, hst, rfl⟩
    exact Or.inl ⟨st, mem_snapshot.mpr ⟨worker, hst⟩, aggregatedStatus_worker hlabels hst, rfl⟩

/-- An entry of the list is a row of the store, with what the other stores say of its worker. -/
theorem mem_listSellers (hlabels : m.Labelled status) (horders : reads.orders = true)
    (h : (worker, l) ∈ listSellers s m status now seller reads) :
    s.sellers.lookup worker = some l.rig ∧
      l.online = isDelivering (((m.aggregatedStatus status worker).map
        SessionStatus.hashrateHs).getD 0) ∧
      (l.rented = true ↔ (s.orders.activeForWorker worker now).isSome = true) := by
  unfold listSellers enrichSellers at h
  obtain ⟨e, he, heq⟩ := List.mem_map.mp h
  cases heq
  have hrow : e ∈ s.sellers.entries := by
    split at he
    · split at he
      · split at he
        · exact he
        · exact (List.mem_filter.mp he).1
      · exact he
    · cases he
  refine ⟨AList.mem_lookup_iff.mpr hrow, ?_, ?_⟩
  · rw [← lookup_liveHashrates hlabels]
  · rw [decide_eq_true_eq, horders, if_pos rfl]
    constructor
    · intro hmem
      obtain ⟨o, ho, hworker⟩ := List.mem_map.mp hmem
      obtain ⟨horder, hlive⟩ := List.mem_filter.mp ho
      exact OrderStore.activeForWorker_isSome horder hworker hlive
    · intro hrented
      obtain ⟨o, ho⟩ := Option.isSome_iff_exists.mp hrented
      obtain ⟨horder, hworker, hlive⟩ := OrderStore.mem_of_activeForWorker ho
      exact List.mem_map.mpr ⟨o, List.mem_filter.mpr ⟨horder, hlive⟩, hworker⟩

end Listing

/-! ## An order for a rig of the list -/

namespace Request

/-- At most `n` statements of a request, with nothing in between. -/
def alone : Nat → ApiStores → Request → ApiPiece → ApiStores × Request
  | 0, s, r, _ => (s, r)
  | n + 1, s, r, p =>
    match atomicPiece s r p with
    | some y => alone n y.1 y.2 p
    | none => (s, r)

/-- The order that was inserted. -/
def created? : Request → Option Order
  | inStore (.returned (.created (.ok o))) => some o
  | _ => none

variable {s : ApiStores} {p : ApiPiece} {r r' : Request}

theorem alone_succ {s' : ApiStores} (n : Nat) (hnow : s.now ≤ p.now)
    (h : piece { s with now := p.now } r p = some (s', r')) :
    alone (n + 1) s r p = alone n s' r' p := by
  rw [alone, atomicPiece, if_pos hnow, h]

theorem alone_replied (n : Nat) (reply : ApiReply) :
    alone n s (replied reply) p = (s, replied reply) := by
  cases n with
  | zero => rfl
  | succ n =>
    rw [alone, atomicPiece]
    split
    · rename_i h
      split at h <;> cases h
    · rfl

end Request

section Order

variable {s : ApiStores} {now : Int} {o : Order} {r : Option Rat}

/-- The checks of `create_order`, one after the other, and the insert. -/
theorem checkListing_alone {rig : SellerRig} (hrig : s.sellers.lookup o.worker = some rig)
    (hnow : s.now = now) :
    let y := Request.alone 4 s (.checkListing o) { now := now, hashrate := r }
    (y.2.created?.isSome = true ↔ rig.refusal o.untilMs now = none ∧
        (s.orders.activeForWorker o.worker now).isSome = false ∧
        isDelivering (r.getD 0) = true ∧
        (s.orders.create (OrderStore.newRow o now)).isSome = true) ∧
      (y.2.created? = none → y.1 = s) := by
  let p : ApiPiece := { now := now, hashrate := r }
  have hclock : s.now ≤ p.now := le_of_eq hnow
  have hs : { s with now := p.now } = s := by
    rw [show p.now = s.now from hnow.symm]
  -- a refusal ends the request
  have hrefused : ∀ (n : Nat) (q : Request) (message : String)
      {free : Prop}, Request.piece s q p = some (s, .replied (.error 409 message)) → ¬free →
      ((Request.alone (n + 1) s q p).2.created?.isSome = true ↔ free) ∧
        ((Request.alone (n + 1) s q p).2.created? = none →
          (Request.alone (n + 1) s q p).1 = s) := by
    intro n q message free hpiece hnot
    rw [Request.alone_succ n hclock (by rw [hs]; exact hpiece), Request.alone_replied]
    exact ⟨iff_of_false Bool.false_ne_true hnot, fun _ => rfl⟩
  change ((Request.alone 4 s (.checkListing o) p).2.created?.isSome = true ↔ _) ∧ _
  cases hlisting : rig.refusal o.untilMs now with
  | some message =>
    refine hrefused 3 _ message ?_ fun h => by cases h.1
    simp only [Request.piece, p, if_true, hrig, Option.bind_some, hlisting]
  | none =>
    have hpiece : Request.piece s (.checkListing o) p = some (s, .checkRented o) := by
      simp only [Request.piece, p, if_true, hrig, Option.bind_some, hlisting]
    rw [Request.alone_succ 3 hclock (by rw [hs]; exact hpiece)]
    cases hrented : (s.orders.activeForWorker o.worker now).isSome with
    | true =>
      refine hrefused 2 _ "rig is already rented" ?_ fun h => by cases h.2.1
      simp only [Request.piece, ApiStores.rented, p, hrented, Bool.and_self, if_true]
    | false =>
      have hpiece : Request.piece s (.checkRented o) p = some (s, .checkOnline o) := by
        simp only [Request.piece, ApiStores.rented, p, hrented, Bool.and_false,
          Bool.false_eq_true, if_false]
      rw [Request.alone_succ 2 hclock (by rw [hs]; exact hpiece)]
      cases honline : isDelivering (r.getD 0) with
      | false =>
        refine hrefused 1 _ "rig is offline" ?_ fun h => by cases h.2.2.1
        simp only [Request.piece, p, honline, Bool.false_eq_true, if_false]
      | true =>
        have hpiece : Request.piece s (.checkOnline o) p = some (s, .inStore (.create o)) := by
          simp only [Request.piece, p, honline, if_true]
        rw [Request.alone_succ 1 hclock (by rw [hs]; exact hpiece)]
        cases hcreate : s.orders.create (OrderStore.newRow o now) with
        | none =>
          have hpiece : Request.piece s (.inStore (.create o)) p =
              some (s, .inStore (.returned (.created (.error .alreadyActive)))) := by
            simp only [Request.piece, StoreCall.atomicPiece, p, if_true, hcreate,
              Option.map_some]
          rw [Request.alone_succ 0 hclock (by rw [hs]; exact hpiece)]
          refine ⟨iff_of_false Bool.false_ne_true fun h => ?_, fun _ => rfl⟩
          cases h.2.2.2
        | some orders =>
          have hpiece : Request.piece s (.inStore (.create o)) p =
              some ({ s with orders := orders },
                .inStore (.returned (.created (.ok (OrderStore.newRow o now))))) := by
            simp only [Request.piece, StoreCall.atomicPiece, p, if_true, hcreate,
              Option.map_some]
          rw [Request.alone_succ 0 hclock (by rw [hs]; exact hpiece)]
          exact ⟨iff_of_true rfl ⟨rfl, rfl, rfl, rfl⟩, fun h => by cases h⟩

end Order

/-- An order for a rig of the list is taken exactly when the rig is for rent and for that long, the
list shows it online and not rented, and no active order of it is due for the sweep.  An order that
is not taken leaves everything as it was. -/
theorem listed_rig_rented_iff {s : ApiStores} {m : Registry} {status : Nat → SessionStatus}
    {now : Int} {seller : Option String} {reads : ListReads} {worker : String} {l : SellerListing}
    (hlisted : (worker, l) ∈ listSellers s m status now seller reads)
    (hlabels : m.Labelled status) (horders : reads.orders = true)
    (huntil : ∀ o ∈ s.orders.rows, 0 ≤ o.untilMs) (hnow : s.now ≤ now) {req : OrderReq}
    {pools : UpstreamTarget × Option UpstreamTarget} (hworker : req.worker = worker)
    (hpools : req.pools = .ok pools) (hend : req.untilMs = 0 ∨ now < req.untilMs)
    (hfresh : ∀ o ∈ s.orders.rows, o.id ≠ req.id) :
    let y := Request.alone 5 s (.createOrder req)
      { now := now, hashrate := (m.aggregatedStatus status worker).map SessionStatus.hashrateHs }
    (y.2.created?.isSome = true ↔ l.rig.refusal req.untilMs now = none ∧ l.online = true ∧
        l.rented = false ∧
        ∀ o ∈ s.orders.rows, o.worker = worker → OrderStore.due o now = false) ∧
      (y.2.created? = none → y.1 = { s with now := now }) := by
  obtain ⟨hrig, honline, hrented⟩ := mem_listSellers hlabels horders hlisted
  subst hworker
  intro y
  have hfirst : y = Request.alone 4 { s with now := now } (.checkListing (req.order pools))
      { now := now
        hashrate := (m.aggregatedStatus status req.worker).map SessionStatus.hashrateHs } := by
    apply Request.alone_succ 4 hnow
    have hnotpast : ¬(req.untilMs ≠ 0 ∧ req.untilMs ≤ now) := by omega
    simp only [Request.piece, hpools, if_neg hnotpast]
  have hchecks := checkListing_alone (s := { s with now := now }) (o := req.order pools)
    (r := (m.aggregatedStatus status req.worker).map SessionStatus.hashrateHs) hrig rfl
  rw [hfirst]
  refine ⟨hchecks.1.trans ?_, hchecks.2⟩
  -- the index refuses a worker with an active row, whether or not it is live
  have hcreate : (s.orders.create (OrderStore.newRow (req.order pools) now)).isSome = true ↔
      ∀ o ∈ s.orders.rows, ¬(o.worker = req.worker ∧ o.status = .active) :=
    OrderStore.create_isSome_iff hfresh
  have hlisting : l.rented = false ↔
      (s.orders.activeForWorker req.worker now).isSome = false := by
    rw [← Bool.not_eq_true, ← Bool.not_eq_true, hrented]
  rw [honline, hlisting]
  constructor
  · rintro ⟨hrefusal, hfree, hdelivering, hinsert⟩
    refine ⟨hrefusal, hdelivering, hfree, fun o ho howner => ?_⟩
    by_contra hdue
    have hactive := (OrderStore.due_iff (huntil o ho)).mp (by simpa using hdue)
    exact hcreate.mp hinsert o ho ⟨howner, hactive.1⟩
  · rintro ⟨hrefusal, hdelivering, hfree, hnotdue⟩
    refine ⟨hrefusal, hfree, hdelivering, hcreate.mpr ?_⟩
    rintro o ho ⟨howner, hactive⟩
    have hlive := (OrderStore.active_iff_isLive (huntil o ho) (hnotdue o ho howner)).mp hactive
    have hsome := OrderStore.activeForWorker_isSome ho howner hlive
    change (s.orders.activeForWorker req.worker now).isSome = false at hfree
    rw [hfree] at hsome
    cases hsome

/-- The registry with one miner of the rig. -/
def oneMiner : Registry := Registry.empty.insert "bc1q.rig" 0

/-- What the miner answers when it is asked. -/
def oneMinerStatus (_ : Nat) : SessionStatus where
  worker := "bc1q.rig"
  routing := "idle"
  orderId := none
  upstreamUrl := "pool:3333"
  hashrateHs := 1
  deliveredWork := 0
  acceptedShares := 0
  submittedShares := 0
  acceptRatio := 1
  acceptRatioLow := false
  protocol := "sv1"

/-- A rental until `100` that no sweep has ended yet. -/
def unsweptRig : ApiStores :=
  { registeredRig with orders := { rows := [{
      id := "o0", worker := "bc1q.rig", target := ⟨"buyer:3333", "b", "", none⟩
      untilMs := 100 }] } }

theorem oneMiner_labelled : oneMiner.Labelled oneMinerStatus := by
  intro worker c hc
  unfold oneMiner at hc
  rw [Registry.getAll_insert] at hc
  split at hc
  · rename_i hworker
    exact hworker.symm
  · cases hc

/-- A rental without an end. -/
def openEnded : OrderReq where
  id := "o1"
  worker := "bc1q.rig"
  pools := .ok (⟨"buyer:3333", "b", "", none⟩, none)

/-- What the list shows of the rig while nobody rents it. -/
def freeListing : SellerListing where
  rig := { defaultPool := ⟨"pool:3333", "acct", "", none⟩ }
  hashrateHs := 1
  online := true
  rented := false

theorem freeListing_mem {s : ApiStores} (hsellers : s.sellers = registeredRig.sellers)
    (horders : (s.orders.rows.filter fun o => o.isLive 150) = []) :
    ("bc1q.rig", freeListing) ∈ listSellers s oneMiner oneMinerStatus 150 none {} := by
  have hrate : (liveHashrates (oneMiner.snapshot oneMinerStatus)).lookup "bc1q.rig" = some 1 := by
    decide +kernel
  have hentries : registeredRig.sellers.entries = [⟨"bc1q.rig", freeListing.rig⟩] := by
    decide +kernel
  simp only [listSellers, enrichSellers, hsellers, horders, hentries, if_true, List.map_cons,
    List.map_nil, hrate, Option.getD_some, List.not_mem_nil, decide_false]
  have honline : isDelivering 1 = true := by decide +kernel
  rw [honline]
  exact List.mem_singleton_self _

/-- The list shows the rig free before a rental, and after one that waits for the sweep; then the
order is refused. -/
theorem listed_rig_rented_iff_unswept :
    ("bc1q.rig", freeListing) ∈ listSellers registeredRig oneMiner oneMinerStatus 150 none {} ∧
      (Request.alone 5 registeredRig (.createOrder openEnded)
        { now := 150, hashrate := some 1 }).2.created?.isSome = true ∧
      ("bc1q.rig", freeListing) ∈ listSellers unsweptRig oneMiner oneMinerStatus 150 none {} ∧
      ¬(Request.alone 5 unsweptRig (.createOrder openEnded)
        { now := 150, hashrate := some 1 }).2.created?.isSome = true := by
  have hfree : ("bc1q.rig", freeListing) ∈
      listSellers registeredRig oneMiner oneMinerStatus 150 none {} := freeListing_mem rfl rfl
  have hlate : ("bc1q.rig", freeListing) ∈
      listSellers unsweptRig oneMiner oneMinerStatus 150 none {} :=
    freeListing_mem rfl (by decide +kernel)
  have hend : openEnded.untilMs = 0 ∨ 150 < openEnded.untilMs := Or.inl rfl
  have hrate : (oneMiner.aggregatedStatus oneMinerStatus "bc1q.rig").map
      SessionStatus.hashrateHs = some 1 := by decide +kernel
  refine ⟨hfree, ?_, hlate, ?_⟩
  · have hiff := (listed_rig_rented_iff hfree oneMiner_labelled rfl (by decide) (by decide)
      rfl rfl hend (by decide)).1
    rw [hrate] at hiff
    exact hiff.mpr ⟨by decide +kernel, rfl, rfl, by decide⟩
  · intro htaken
    have hiff := (listed_rig_rented_iff hlate oneMiner_labelled rfl (by decide) (by decide)
      rfl rfl hend (by decide)).1
    rw [hrate] at hiff
    have hswept := (hiff.mp htaken).2.2.2 _ List.mem_cons_self rfl
    exact absurd hswept (by decide +kernel)

/-! ## A rig that is taken off the list -/

/-- The `UPDATE` of `SellerStore::set_rentable`. -/
def SellerStore.setRentable (s : SellerStore) (worker : String) (rentable : Bool) : SellerStore :=
  match s.lookup worker with
  | some rig => s.insert worker { rig with rentable := rentable }
  | none => s

/-- The handler `set_rentable`: the table that it leaves and its reply, `failure` being the error of
its statement if it fails. -/
def setRentable (s : SellerStore) (worker : String) (rentable : Bool) :
    Option String → SellerStore × ApiReply
  | some error => (s, .error 500 error)
  | none => (s.setRentable worker rentable,
      if (s.lookup worker).isSome then .ok else .error 404 "rig not found")

inductive MarketEvent where
  | request (e : RequestEvent)
  | setRentable (worker : String) (rentable : Bool) (failure : Option String)

/-- The requests, with `set_rentable` among them. -/
def RequestPool.marketStep (x : RequestPool) : MarketEvent → Option RequestPool
  | .request e => x.step e
  | .setRentable worker rentable failure => some { x with shared := { x.shared with
      sellers := (setRentable x.shared.sellers worker rentable failure).1 } }

/-- The rig gets the flag, or the request is refused and the table stays as it was. -/
theorem setRentable_cases (s : SellerStore) (worker : String) (rentable : Bool)
    (failure : Option String) :
    (∃ rig, s.lookup worker = some rig ∧ setRentable s worker rentable failure =
      (s.insert worker { rig with rentable := rentable }, .ok)) ∨
    ∃ status message, setRentable s worker rentable failure = (s, .error status message) := by
  cases failure with
  | some error => exact Or.inr ⟨500, error, rfl⟩
  | none =>
    cases hrig : s.lookup worker with
    | some rig =>
      refine Or.inl ⟨rig, rfl, ?_⟩
      simp only [setRentable, SellerStore.setRentable, hrig, Option.isSome_some, if_true]
    | none =>
      refine Or.inr ⟨404, "rig not found", ?_⟩
      simp only [setRentable, SellerStore.setRentable, hrig, Option.isSome_none,
        Bool.false_eq_true, if_false]

/-- A row keeps all but the flag. -/
theorem lookup_setRentable {s : SellerStore} {worker w : String} {rig : SellerRig}
    (hrig : s.lookup w = some rig) (rentable : Bool) (failure : Option String) :
    (setRentable s worker rentable failure).1.lookup w = some rig ∨
      w = worker ∧ (setRentable s worker rentable failure).1.lookup w =
        some { rig with rentable := rentable } := by
  rcases setRentable_cases s worker rentable failure with ⟨rig', hrig', heq⟩ | ⟨_, _, heq⟩
  · rw [heq]
    by_cases h : w = worker
    · subst h
      rw [hrig] at hrig'
      cases hrig'
      exact Or.inr ⟨rfl, AList.lookup_insert s⟩
    · exact Or.inl ((AList.lookup_insert_ne h).trans hrig)
  · rw [heq]
    exact Or.inl hrig

/-- The order of a request that has checked the listing. -/
def Request.checked? : Request → Option Order
  | checkRented o | checkOnline o | inStore (.create o) => some o
  | _ => none

/-- The request has found the rig of the worker for rent, and is still to insert the order. -/
def Request.PastListing (worker : String) (r : Request) : Prop :=
  ∃ o, r.checked? = some o ∧ o.worker = worker

/-- The seller has taken the rig off the list, and no order for it is on its way. -/
structure RequestPool.OffList (x : RequestPool) (worker : String) : Prop where
  row : ∃ rig, x.shared.sellers.lookup worker = some rig ∧ rig.rentable = false
  calls : ∀ r ∈ x.calls, ¬r.PastListing worker

/-- The seller leaves the rig off the list, and does not delete it; and its row is found by every
order that looks for it. -/
def RequestPool.LeftOff (worker : String) (x : RequestPool) : MarketEvent → Prop
  | .request (.call _) => True
  | .request (.run k p) =>
    match x.calls[k]? with
    | some (.writing w row) => w = worker → p.ok = true → row.any (fun rig => !rig.rentable) = true
    | some (.checkListing o) => o.worker = worker → p.ok = true
    | _ => True
  | .setRentable w rentable _ => w = worker → rentable = false

namespace Request

variable {s s' : ApiStores} {r r' : Request} {p : ApiPiece} {worker : String} {o : Order}

theorem checked_of_isEntry (h : r.isEntry = true) : r.checked? = none := by
  cases r with
  | checkRented | checkOnline => cases h
  | inStore c =>
    cases c with
    | create => cases h
    | _ => rfl
  | _ => rfl

/-- A request gets past the check with an order that nothing speaks against. -/
theorem checked_of_piece (h : piece s r p = some (s', r')) (hchecked : r'.checked? = some o) :
    r.checked? = some o ∨ r = checkListing o ∧
      ((if p.ok then s.sellers.lookup o.worker else none).bind
        fun rig => rig.refusal o.untilMs p.now) = none := by
  cases r with
  | setSeller w req =>
    simp only [piece] at h
    split at h
    · cases h
      cases hchecked
    · split at h <;> cases h <;> cases hchecked
  | deleteSeller w =>
    simp only [piece] at h
    split at h <;> cases h <;> cases hchecked
  | writing w row =>
    simp only [piece] at h
    split at h <;> cases h <;> cases hchecked
  | createOrder req =>
    simp only [piece] at h
    split at h
    · split at h <;> cases h <;> cases hchecked
    · cases h
      cases hchecked
  | checkListing q =>
    simp only [piece] at h
    split at h <;> cases h
    · cases hchecked
    · rename_i hnone
      cases hchecked
      exact Or.inr ⟨rfl, hnone⟩
  | checkRented q =>
    simp only [piece] at h
    split at h <;> cases h
    · cases hchecked
    · exact Or.inl hchecked
  | checkOnline q =>
    simp only [piece] at h
    split at h <;> cases h
    · exact Or.inl hchecked
    · cases hchecked
  | inStore c =>
    simp only [piece, Option.map_eq_some_iff, Prod.mk.injEq] at h
    obtain ⟨⟨orders, c'⟩, hpiece, rfl, rfl⟩ := h
    have hother := (StoreCall.moves_of_atomicPiece hpiece).origin.2
    cases c' with
    | create q => exact absurd rfl (hother q)
    | _ => cases hchecked
  | replied reply => cases h

/-- A request comes past the listing by finding nothing against the rig. -/
theorem pastListing_of_piece (h : piece s r p = some (s', r')) (hpast : r'.PastListing worker) :
    r.PastListing worker ∨ ∃ o, r = checkListing o ∧ o.worker = worker ∧
      ((if p.ok then s.sellers.lookup worker else none).bind
        fun rig => rig.refusal o.untilMs p.now) = none := by
  obtain ⟨o, hchecked, howner⟩ := hpast
  rcases checked_of_piece h hchecked with hbefore | ⟨rfl, hnone⟩
  · exact Or.inl ⟨o, hbefore, howner⟩
  · rw [howner] at hnone
    exact Or.inr ⟨o, rfl, howner, hnone⟩

/-- Only a request past the listing brings in an order of the worker. -/
theorem Moves.origin (h : Moves s p r s' r') (hnot : ¬r.PastListing worker)
    (ho : o ∈ s'.orders.rows) (howner : o.worker = worker) :
    ∃ q ∈ s.orders.rows, q.id = o.id ∧ q.worker = worker := by
  cases h with
  | store hmoves =>
    rcases hmoves.origin.1 o ho with ⟨q, hq, hid, hworker⟩ | ⟨o', rfl, hid, hworker⟩
    · exact ⟨q, hq, hid, hworker.trans howner⟩
    · exact absurd ⟨o', rfl, hworker.symm.trans howner⟩ hnot
  | _ => exact ⟨o, ho, rfl, howner⟩

end Request

namespace RequestPool

variable {x y : RequestPool} {e : MarketEvent} {worker : String}

theorem OffList.step (h : x.OffList worker) (he : x.LeftOff worker e)
    (hstep : x.marketStep e = some y) : y.OffList worker ∧
      ∀ o ∈ y.shared.orders.rows, o.worker = worker →
        ∃ r ∈ x.shared.orders.rows, r.id = o.id ∧ r.worker = worker := by
  obtain ⟨rig, hrig, hoff⟩ := h.row
  cases e with
  | setRentable w rentable failure =>
    cases hstep
    refine ⟨⟨?_, h.calls⟩, fun o ho howner => ⟨o, ho, rfl, howner⟩⟩
    rcases lookup_setRentable hrig rentable failure with hsame | ⟨hw, hset⟩
    · exact ⟨rig, hsame, hoff⟩
    · exact ⟨_, hset, he hw.symm⟩
  | request e =>
    rcases Calls.cases_of_step hstep with
      ⟨r, rfl, hentry, rfl⟩ | ⟨k, p, r, s, r', rfl, hr, hpiece, rfl⟩
    · refine ⟨⟨h.row, fun q hq => ?_⟩, fun o ho howner => ⟨o, ho, rfl, howner⟩⟩
      rcases List.mem_append.mp hq with hq | hq
      · exact h.calls q hq
      · -- a request that was just made has checked nothing
        rw [List.mem_singleton.mp hq]
        rintro ⟨o, hchecked, -⟩
        rw [Request.checked_of_isEntry hentry] at hchecked
        cases hchecked
    · have hmem : r ∈ x.calls := List.mem_of_getElem? hr
      obtain ⟨hclock, hmoves⟩ := Request.cases_of_atomicPiece hpiece
      have hnot := h.calls r hmem
      simp only [LeftOff, hr] at he
      refine ⟨⟨?_, fun q hq => ?_⟩, fun o ho howner => hmoves.origin hnot ho howner⟩
      · rcases hmoves.sellers with hsame | ⟨w, row, rfl, hok, rfl⟩
        · rw [hsame]
          exact ⟨rig, hrig, hoff⟩
        · dsimp only
          rw [SellerStore.lookup_write]
          split
          · rename_i hw
            obtain ⟨rig', hrow, hoff'⟩ := (Option.any_eq_true ..).mp (he hw.symm hok)
            exact ⟨rig', hrow, by simpa using hoff'⟩
          · exact ⟨rig, hrig, hoff⟩
      · rcases List.mem_or_eq_of_mem_set hq with hq | rfl
        · exact h.calls q hq
        · intro hpast
          simp only [Request.atomicPiece, if_pos hclock] at hpiece
          rcases Request.pastListing_of_piece hpiece hpast with hpast | ⟨o, rfl, howner, hnone⟩
          · exact hnot hpast
          · rw [if_pos (he howner)] at hnone
            change (x.shared.sellers.lookup worker).bind _ = none at hnone
            rw [hrig, Option.bind_some, SellerRig.refusal] at hnone
            simp [hoff] at hnone

end RequestPool

/-- A rig that its seller has taken off the list is not rented again, whatever requests run, as
long as he leaves it off: every order of the rig was there when he did so. -/
theorem off_list_not_rented {x y : RequestPool} {worker : String} (h : x.OffList worker)
    (hrun : Run RequestPool.marketStep (RequestPool.LeftOff worker) x y) {o : Order}
    (ho : o ∈ y.shared.orders.rows) (howner : o.worker = worker) :
    ∃ r ∈ x.shared.orders.rows, r.id = o.id ∧ r.worker = worker := by
  have hall := Run.invariant (I := fun y : RequestPool => y.OffList worker ∧
      ∀ o ∈ y.shared.orders.rows, o.worker = worker →
        ∃ r ∈ x.shared.orders.rows, r.id = o.id ∧ r.worker = worker) hrun
    ⟨h, fun o ho howner => ⟨o, ho, rfl, howner⟩⟩ ?_
  · exact hall.2 o ho howner
  · rintro z e w ⟨hoff, hold⟩ hguard hnext
    obtain ⟨hoff', horigin⟩ := hoff.step hguard hnext
    refine ⟨hoff', fun o ho howner => ?_⟩
    obtain ⟨q, hq, hid, howner'⟩ := horigin o ho howner
    obtain ⟨r, hr, hid', howner''⟩ := hold q hq howner'
    exact ⟨r, hr, hid'.trans hid, howner''⟩

/-- The rig is rented, and taken off the list. -/
def offListRig : RequestPool :=
  ⟨{ unsweptRig with sellers := unsweptRig.sellers.setRentable "bc1q.rig" false }, []⟩

/-- An order is asked for, and the rig is registered anew, off the list. -/
def askForRig : List MarketEvent :=
  [.request (.call (rentUntil 0)), .request (.run 0 { now := 150 }),
    .request (.run 0 { now := 151 }),
    .request (.call (.setSeller "bc1q.rig"
      { pool := .ok ⟨"pool:3333", "acct", "", none⟩, rentable := false })),
    .request (.run 1 { now := 152 }), .request (.run 1 { now := 153 })]

instance (worker : String) (x : RequestPool) : (e : MarketEvent) → Decidable (x.LeftOff worker e)
  | .request (.call _) => isTrue trivial
  | .request (.run k p) => by
    unfold RequestPool.LeftOff
    dsimp only
    split <;> infer_instance
  | .setRentable w rentable _ => inferInstanceAs (Decidable (w = worker → rentable = false))

theorem off_list_not_rented_asked :
    ∃ y, Run RequestPool.marketStep (RequestPool.LeftOff "bc1q.rig") offListRig y ∧
      ∃ o ∈ y.shared.orders.rows, o.worker = "bc1q.rig" ∧
        ∃ r ∈ offListRig.shared.orders.rows, r.id = o.id ∧ r.worker = "bc1q.rig" := by
  have hrun : ((runWhile RequestPool.marketStep
      (fun x e => decide (x.LeftOff "bc1q.rig" e)) offListRig askForRig).any fun y =>
        y.shared.orders.rows.any fun o => decide (o.worker = "bc1q.rig")) = true := by
    decide +kernel
  obtain ⟨y, hy, htest⟩ := (Option.any_eq_true ..).mp hrun
  obtain ⟨o, ho, howner⟩ := List.any_eq_true.mp htest
  have hreach := Run.of_runWhile (G := RequestPool.LeftOff "bc1q.rig")
    (fun _ _ => of_decide_eq_true) hy
  have hoff : offListRig.OffList "bc1q.rig" := by
    refine ⟨⟨{ defaultPool := ⟨"pool:3333", "acct", "", none⟩, rentable := false }, ?_, rfl⟩, ?_⟩
    · decide +kernel
    · exact List.forall_mem_nil _
  exact ⟨y, hreach, o, ho, of_decide_eq_true howner,
    off_list_not_rented hoff hreach ho (of_decide_eq_true howner)⟩

end RentalProxy
