import RentalProxy.Sv1.Routing
import RentalProxy.Sv2.Attach

/-!
# Failover when a miner connects

A miner connects while the pool of its worker's order is out of reach and the fallback of
the order answers.  It should end up on the fallback, rented to the order.

The authorize step of an SV1 session switches with `switch_to`, which knows one pool only,
and not with `switch_to_order`: the session stays where it was
(`authorize_ignores_fallback`).  An SV2 connection does fall over, to the extent that a rig
it is bundled onto can be swapped.

* `Sv1.Reach` and `Sv2.Reach` say how the pools answer.  The calls of the handlers are
  defined under these names, `Sv1.Reach.authorize` and `Sv2.Reach.handleOpen` on top.
* `Sv1.authorize_reaches` and `Sv2.handleOpen_reaches` say that the tasks of a session
  execute the calls.
* `Arrival.failsOver_iff` is the result, for both protocols.
-/

namespace RentalProxy

open StepSystem

/-! ## The SV1 handler -/

namespace Sv1

/-- How each pool answers a connect. -/
abbrev Reach := UpstreamTarget → PoolAnswer

namespace Reach

variable (reach : Reach)

/-- `swap_upstream`: the state it leaves, and whether it returned `Ok`. -/
def swapUpstream (target : UpstreamTarget) (routing : Routing) (i : Inner) : Inner × Bool :=
  let generation := i.generationCounter + 1
  let begun := { i with generationCounter := generation }
  match connectRaw target i.configure (upstreamWorker target.user i.label) (reach target) with
  | none => (begun, false)
  | some raw =>
    -- the prelude is taken from the state and queued
    ({ (installRaw raw generation target routing begun).1 with pendingPrelude := [] }, true)

/-- `switch_to`. -/
def switchTo (orderId : String) (target : UpstreamTarget) (i : Inner) : Inner × Bool :=
  reach.swapUpstream target (.rented orderId) i

/-- `switch_to_order`. -/
def switchToOrder (store : OrderStore) (orderId : String) (i : Inner) : Inner × Bool :=
  match store.get orderId with
  | none => (i, false)
  | some order =>
    match reach.switchTo orderId order.target i with
    | (i, true) => (i, true)
    | (i, false) =>
      match order.fallback with
      | some fb => reach.switchTo orderId fb i
      | none => (i, false)

/-- `set_default`. -/
def setDefault (target : UpstreamTarget) (i : Inner) : Inner × Bool :=
  reach.swapUpstream target .idle { i with defaultTarget := target }

/-- The authorize arm of the miner loop, from the moment that the miner has told whether it
takes a live extranonce change.  `none` ends the loop. -/
def authorize (store : OrderStore) (pool : Option UpstreamTarget) (worker : String) (now : Int)
    (i : Inner) : Option Inner :=
  let order := store.activeForWorker worker now
  match Authorizing.wanted order pool with
  | none => none
  | some want =>
    let i := { i with label := worker }
    if i.active.target = want then
      match order with
      | some o => some { i with routing := .rented o.id }
      | none => some i
    else if i.extranonceCapable then
      match order with
      | some o => some (reach.switchTo o.id o.target i).1
      | none => some (reach.setDefault want i).1
    else none

end Reach

/-- A pool that is out of reach answers on neither protocol. -/
theorem connectRaw_unreachable (target : UpstreamTarget) (configure : Option RpcMessage)
    (identity : String) : connectRaw target configure identity {} = none := rfl

section Calls

variable {reach : Reach} {i : Inner} {target : UpstreamTarget}

theorem Reach.swapUpstream_unreachable (routing : Routing) (h : reach target = {}) :
    reach.swapUpstream target routing i =
      ({ i with generationCounter := i.generationCounter + 1 }, false) := by
  simp only [Reach.swapUpstream, h, connectRaw_unreachable]

/-- The sibling call of the supervisor does fall over: it returns what the swap to the
fallback does. -/
theorem Reach.switchToOrder_unreachable {store : OrderStore} {o : Order} {fb : UpstreamTarget}
    (hget : store.get o.id = some o) (hfb : o.fallback = some fb) (h : reach o.target = {}) :
    reach.switchToOrder store o.id i =
      reach.switchTo o.id fb { i with generationCounter := i.generationCounter + 1 } := by
  simp only [Reach.switchToOrder, hget, Reach.switchTo, reach.swapUpstream_unreachable _ h, hfb]

/-- The authorize step does not: the session stays on its upstream. -/
theorem Reach.authorize_unreachable {store : OrderStore} {pool : Option UpstreamTarget}
    {worker : String} {now : Int} {o : Order} (horder : store.activeForWorker worker now = some o)
    (hcapable : i.extranonceCapable = true) (hother : i.active.target ≠ o.target)
    (h : reach o.target = {}) :
    reach.authorize store pool worker now i = some { i with
      label := worker, generationCounter := i.generationCounter + 1 } := by
  simp only [Reach.authorize, horder, Authorizing.wanted, Option.map_some, Option.some_or,
    if_neg hother, if_pos hcapable, Reach.switchTo, reach.swapUpstream_unreachable _ h]

/-! The tasks execute the calls. -/

/-- The prelude of a swap is queued line by line. -/
theorem reachable_swapFlush (lines : List Line) {r : Relay} (h : r.swap = .flushing lines) :
    ∃ r', Reachable step r r' ∧ r'.inner = r.inner ∧ r'.swap = .idle := by
  induction lines generalizing r with
  | nil =>
    have hend : step r .swapFlush = some { r with swap := .idle } := by simp only [step, h]
    exact ⟨_, .head hend trivial .refl, rfl, rfl⟩
  | cons line rest ih =>
    let s := { r with swap := .flushing rest }.queue line
    have hline : step r .swapFlush = some s := by simp only [step, h, s]
    obtain ⟨r', hreach, hinner, hswap⟩ := ih (r := s) rfl
    exact ⟨r', .head hline trivial hreach, hinner, hswap⟩

/-- An installed upstream is surfaced to the miner, and its prelude is sent. -/
theorem reachable_installed {r : Relay} {generation : Nat} {capable : Bool} {en1 : String}
    {en2 : Nat} (h : r.swap = .installed generation capable en1 en2) :
    ∃ r', Reachable step r r' ∧ r'.inner = { r.inner with pendingPrelude := [] } ∧
      r'.swap = .idle := by
  have hrepoint : ∃ s, step r .swapRepoint = some s ∧ s.inner = r.inner ∧
      s.swap = .repointed generation := by
    cases capable with
    | true =>
      exact ⟨{ r with swap := .repointed generation }.queue
        ⟨.extranonce generation, .setExtranonce en1 en2⟩, by simp only [step, h], rfl, rfl⟩
    | false =>
      exact ⟨{ r with swap := .repointed generation, reconnects := r.reconnects + 1 },
        by simp only [step, h], rfl, rfl⟩
  obtain ⟨s, hstep, hinner, hswap⟩ := hrepoint
  let taken : Relay := { s with
    inner := { s.inner with pendingPrelude := [] }, swap := .flushing s.inner.pendingPrelude }
  have htake : step s .swapTakePrelude = some taken := by simp only [step, hswap, taken]
  obtain ⟨r', hreach, hinner', hidle⟩ := reachable_swapFlush s.inner.pendingPrelude (r := taken) rfl
  refine ⟨r', .head hstep trivial (.head htake trivial hreach), ?_, hidle⟩
  rw [hinner', ← hinner]

/-- The swap task executes `swap_upstream`. -/
theorem reachable_swapUpstream (reach : Reach) (target : UpstreamTarget) (routing : Routing)
    {r : Relay} (hidle : r.swap = .idle) :
    ∃ r', Reachable step r r' ∧ r'.inner = (reach.swapUpstream target routing r.inner).1 ∧
      r'.swap = .idle := by
  let snap : SwapSnapshot := {
    target, routing, configure := r.inner.configure, capable := r.inner.extranonceCapable
    generation := r.inner.generationCounter + 1, label := r.inner.label }
  let begun : Relay := { r with
    inner := { r.inner with generationCounter := r.inner.generationCounter + 1 }
    swap := .connecting snap }
  have hbegin : step r (.swapBegin target routing) = some begun := by
    simp only [step, hidle, begun, snap]
  unfold Reach.swapUpstream
  cases hraw : connectRaw target r.inner.configure (upstreamWorker target.user r.inner.label)
      (reach target) with
  | none =>
    have hfail : step begun (.swapConnect (reach target)) = some { begun with swap := .idle } := by
      simp only [step, begun, snap, hraw]
    exact ⟨_, .head hbegin trivial (.head hfail trivial .refl), rfl, rfl⟩
  | some raw =>
    have hconnect : step begun (.swapConnect (reach target)) = some (begun.install snap raw) := by
      simp only [step, begun, snap, hraw]
    obtain ⟨r', hreach, hinner, hswap⟩ := reachable_installed (r := begun.install snap raw) rfl
    exact ⟨r', .head hbegin trivial (.head hconnect trivial hreach), hinner, hswap⟩

/-- The miner loop and the swap task execute the authorize arm. -/
theorem authorize_reaches (reach : Reach) {store : OrderStore} {pool : Option UpstreamTarget}
    {worker : String} {now : Int} {r : Relay} {i : Inner} (hready : r.miner = .ready)
    (hidle : r.swap = .idle) (h : reach.authorize store pool worker now r.inner = some i) :
    ∃ r', Reachable step r r' ∧ r'.inner = i := by
  let answered := { r with inner := { r.inner with label := worker } }.queue
    ⟨.reply, okReply none (.bool true)⟩
  have hanswer : step r (.minerAuthorize worker none) = some answered := by
    simp only [step, hready, answered]
  dsimp only [Reach.authorize] at h
  split at h
  · cases h
  · rename_i want hwant
    split_ifs at h with hsame hcapable
    · cases horder : store.activeForWorker worker now with
      | none =>
        rw [horder] at h
        cases h
        exact ⟨answered, .head hanswer trivial .refl, rfl⟩
      | some o =>
        rw [horder] at h
        cases h
        have hattach : step answered (.attachOrder o.id) = some { answered with
            inner := { answered.inner with routing := .rented o.id } } := rfl
        exact ⟨_, .head hanswer trivial (.head hattach trivial .refl), rfl⟩
    · cases horder : store.activeForWorker worker now with
      | none =>
        rw [horder] at h
        cases h
        let default : Relay := { answered with
          inner := { answered.inner with defaultTarget := want } }
        have hdefault : step answered (.setDefault want) = some default := rfl
        obtain ⟨r', hreach, hinner, _⟩ :=
          reachable_swapUpstream reach want .idle (r := default) hidle
        exact ⟨r', .head hanswer trivial (.head hdefault trivial hreach), hinner⟩
      | some o =>
        rw [horder] at h
        cases h
        obtain ⟨r', hreach, hinner, _⟩ :=
          reachable_swapUpstream reach o.target (.rented o.id) (r := answered) hidle
        exact ⟨r', .head hanswer trivial hreach, hinner⟩

end Calls

end Sv1

/-! ## The SV2 handler -/

namespace Sv2

open Sv1 (upstreamWorker)

/-- What each pool answers a connect with, `none` when it cannot be reached. -/
abbrev Reach := UpstreamTarget → Option SwapAnswer

namespace Reach

variable (reach : Reach)

/-- `swap_upstream`.  The channels are in the snapshot before the pool is contacted. -/
def swapUpstream (target : UpstreamTarget) (routing : Routing) (i : Inner) : Inner × Bool :=
  match reach target with
  | some answer => i.swapUpstream answer target routing
  | none => (i.snapshot.1, false)

/-- `switch_to_order`. -/
def switchToOrder (store : OrderStore) (orderId : String) (i : Inner) : Inner × Bool :=
  match store.get orderId with
  | none => (i, false)
  | some order =>
    match reach.swapUpstream order.target (.rented orderId) i with
    | (i, true) => (i, true)
    | (i, false) =>
      match order.fallback with
      | some fb => reach.swapUpstream fb (.rented orderId) i
      | none => (i, false)

/-- `revert`.  Without an idle pool the members are dropped. -/
def revert (i : Inner) : Inner × Bool :=
  match i.defaultTarget with
  | some target => reach.swapUpstream target .idle i
  | none => (i, true)

/-- `reconcile_routing`. -/
def reconcileRouting (store : OrderStore) (desired : Option Order) (i : Inner) : Inner :=
  match desired, i.routing.orderId? with
  | some o, current => if current ≠ some o.id then (reach.switchToOrder store o.id i).1 else i
  | none, some _ => (reach.revert i).1
  | none, none => i

/-- `connect_and_install_initial`. -/
def connectAndInstallInitial (spec : OpenSpec) (target : UpstreamTarget) (routing : Routing)
    (i : Inner) : Inner × Bool :=
  match reach target with
  | some (.native _) => i.installSv2Initial spec target routing
  | some (.sv1 conn) =>
    let (i, reply) := i.installSv1TranslateInitial spec conn target routing
    (i, reply.isSome)
  | none => (i, false)

/-- The connection of a fresh session: the pool of the order, then its fallback. -/
def connectFresh (spec : OpenSpec) (order : Option Order) (target : UpstreamTarget)
    (routing : Routing) (i : Inner) : Inner × Bool :=
  match reach.connectAndInstallInitial spec target routing i with
  | (i, true) => (i, true)
  | (i, false) =>
    match order.bind Order.fallback with
    | some fb => reach.connectAndInstallInitial spec fb routing i
    | none => (i, false)

/-- The session of its own that serves a connection, `none` when the handler returns an error. -/
def openFresh (spec : OpenSpec) (order : Option Order) (target : UpstreamTarget)
    (routing : Routing) (i : Inner) : Option Inner :=
  match reach.connectFresh spec order target routing i with
  | (i, true) => some i
  | (_, false) => none

/-- The first open of a connection.  `rig` is the one that the worker has in `sv2_rigs`, and
`now` and `later` are the two looks at the clock.  The result is the session that serves the
connection, `none` when it is refused or the handler returns an error. -/
def handleOpen (store : OrderStore) (pool : Option UpstreamTarget) (worker : String)
    (now later : Int) (spec : OpenSpec) (rig : Option Inner) : Option Inner :=
  let order := store.activeForWorker worker now
  match initialTarget order pool with
  | none => none
  | some (target, routing) =>
    let desired := store.activeForWorker worker later
    let attached := rig.bind fun i => attachMember spec (reach.reconcileRouting store desired i)
    match attached with
    | some (i, _) => some i
    | none => reach.openFresh spec order target routing (placeholder target routing pool worker)

end Reach

/-! ## When the fallback can be used -/

/-- The swap to the pool that answers gets as far as the install: a pool that speaks SV2 can be
asked for every channel, one that speaks SV1 takes over a channel. -/
def Inner.CanSwap (answer : SwapAnswer) (target : UpstreamTarget) (i : Inner) : Prop :=
  match answer with
  | .native _ => ∀ c ∈ i.channels,
      (openChannelUpstream c.spec (upstreamWorker target.user i.label) c.spec.requestId).isSome
  | .sv1 _ => i.channels ≠ []

/-- The first channel of a fresh session can be opened: the open can be built for a pool that
speaks SV2, the answer to it for one that speaks SV1. -/
def CanOpen (answer : SwapAnswer) (target : UpstreamTarget) (worker : String)
    (spec : OpenSpec) : Prop :=
  match answer with
  | .native _ => (openChannelUpstream spec (upstreamWorker target.user worker) 1).isSome
  | .sv1 conn => (openSuccessDownstream spec 1 0 (translatedInfo spec 1 conn)).isSome

/-- The rig takes the connection, and is on the fallback then. -/
def Inner.TakesOn (answer : SwapAnswer) (fb : UpstreamTarget) (id : String) (i : Inner) : Prop :=
  if i.routing = .rented id then i.translating = false ∧ i.active.target = fb
  else answer.isNative = true ∧ i.CanSwap answer fb

/-- The rig translates an SV1 pool when the connection asks, so that it gets a session of its
own. -/
def Inner.TurnsAway (answer : SwapAnswer) (fb : UpstreamTarget) (id : String) (i : Inner) : Prop :=
  if i.routing = .rented id then i.translating = true
  else (answer.isNative = false ∧ i.CanSwap answer fb) ∨
    (¬i.CanSwap answer fb ∧ i.translating = true)

section Open

variable {reach : Reach} {i : Inner} {target fb : UpstreamTarget} {answer : SwapAnswer}

/-- What a swap to a pool that answers leaves behind. -/
structure Inner.Swapped (answer : SwapAnswer) (target : UpstreamTarget) (routing : Routing)
    (i : Inner) : Prop where
  target : i.active.target = target
  routing : i.routing = routing
  translating : i.translating = !answer.isNative

theorem swapUpstream_swapped (routing : Routing) (h : i.CanSwap answer target) :
    (i.swapUpstream answer target routing).1.Swapped answer target routing := by
  unfold Inner.swapUpstream
  cases answer with
  | native info =>
    have hreopen : (i.attachPlan target routing).canReopen = true := canReopen_attachPlan.mpr h
    simp only [hreopen, if_true]
    exact ⟨rfl, rfl, rfl⟩
  | sv1 conn =>
    obtain ⟨c, cs, hcs⟩ := List.exists_cons_of_ne_nil h
    simp only [Inner.translateSnapshot, Inner.snapshot, hcs, List.head?_cons, Option.map_some]
    exact ⟨rfl, rfl, rfl⟩

/-- A swap that cannot install leaves the rig as it was. -/
theorem swapUpstream_not_swapped (routing : Routing) (h : ¬i.CanSwap answer target) :
    i.swapUpstream answer target routing = (i.snapshot.1, false) := by
  unfold Inner.swapUpstream
  cases answer with
  | native info =>
    have hreopen : ¬(i.attachPlan target routing).canReopen = true :=
      fun hreopen => h (canReopen_attachPlan.mp hreopen)
    simp only [hreopen]
    rfl
  | sv1 conn =>
    simp only [Inner.CanSwap, not_not] at h
    simp [Inner.translateSnapshot, Inner.snapshot, h]

/-- A swap to a pool that is out of reach leaves the rig as it was. -/
theorem Reach.swapUpstream_unreachable (routing : Routing) (h : reach target = none) :
    reach.swapUpstream target routing i = (i.snapshot.1, false) := by
  simp only [Reach.swapUpstream, h]

/-- With the pool of the order out of reach, the switch is the swap to the fallback. -/
theorem Reach.switchToOrder_unreachable {store : OrderStore} {o : Order}
    (hget : store.get o.id = some o) (hfb : o.fallback = some fb) (h : reach o.target = none)
    (hanswer : reach fb = some answer) :
    reach.switchToOrder store o.id i = i.snapshot.1.swapUpstream answer fb (.rented o.id) := by
  simp only [Reach.switchToOrder, hget, hfb, Reach.swapUpstream, h, hanswer]

/-- The rig after the connection has reconciled it. -/
theorem Reach.reconcileRouting_unreachable {store : OrderStore} {o : Order}
    (hget : store.get o.id = some o) (hfb : o.fallback = some fb) (h : reach o.target = none)
    (hanswer : reach fb = some answer) :
    reach.reconcileRouting store (some o) i =
      if i.routing = .rented o.id then i
      else (i.snapshot.1.swapUpstream answer fb (.rented o.id)).1 := by
  have hrouted : i.routing = .rented o.id ↔ i.routing.orderId? = some o.id := by
    cases i.routing <;> simp
  simp only [Reach.reconcileRouting, Reach.switchToOrder_unreachable hget hfb h hanswer, hrouted]
  split_ifs <;> simp_all

/-- The upstream is the fallback, rented to the order. -/
def Inner.OnFallback (id : String) (fb : UpstreamTarget) (i : Inner) : Prop :=
  i.routing = .rented id ∧ i.active.target = fb

section Reconciled

variable {store : OrderStore} {o : Order} (hget : store.get o.id = some o)
  (hfb : o.fallback = some fb) (h : reach o.target = none) (hanswer : reach fb = some answer)

include hget hfb h hanswer

/-- The reconciled rig takes the connection, and is on the fallback, exactly when it can. -/
theorem reconciled_takesOn :
    ((reach.reconcileRouting store (some o) i).translating = false ∧
      (reach.reconcileRouting store (some o) i).OnFallback o.id fb) ↔
      i.TakesOn answer fb o.id := by
  rw [Reach.reconcileRouting_unreachable hget hfb h hanswer, Inner.TakesOn, Inner.OnFallback]
  split_ifs with hrouted
  · simp [hrouted]
  · by_cases hswap : i.CanSwap answer fb
    · have hswapped := swapUpstream_swapped (i := i.snapshot.1) (.rented o.id) hswap
      rw [hswapped.routing, hswapped.target, hswapped.translating]
      simp [hswap]
    · rw [swapUpstream_not_swapped (i := i.snapshot.1) _ hswap]
      simp [Inner.snapshot, hrouted, hswap]

/-- The reconciled rig takes no connection exactly when it translates. -/
theorem reconciled_turnsAway :
    (reach.reconcileRouting store (some o) i).translating = true ↔ i.TurnsAway answer fb o.id := by
  rw [Reach.reconcileRouting_unreachable hget hfb h hanswer, Inner.TurnsAway]
  split_ifs with hrouted
  · rfl
  · by_cases hswap : i.CanSwap answer fb
    · rw [(swapUpstream_swapped (i := i.snapshot.1) (.rented o.id) hswap).translating]
      simp [hswap]
    · rw [swapUpstream_not_swapped (i := i.snapshot.1) _ hswap]
      simp [Inner.snapshot, hswap]

end Reconciled

theorem Reach.openFresh_eq_some {spec : OpenSpec} {order : Option Order} {routing : Routing}
    {i j : Inner} : reach.openFresh spec order target routing i = some j ↔
      reach.connectFresh spec order target routing i = (j, true) := by
  unfold Reach.openFresh
  obtain ⟨k, ok⟩ := reach.connectFresh spec order target routing i
  cases ok <;> simp

/-- The fresh session is on the fallback exactly when its first channel can be opened. -/
theorem openFresh_iff {o : Order} {worker : String} {spec : OpenSpec}
    {pool : Option UpstreamTarget} (hfb : o.fallback = some fb) (h : reach o.target = none)
    (hanswer : reach fb = some answer) :
    (∃ j, reach.openFresh spec (some o) o.target (.rented o.id)
        (placeholder o.target (.rented o.id) pool worker) = some j ∧ j.OnFallback o.id fb) ↔
      CanOpen answer fb worker spec := by
  simp only [Reach.openFresh_eq_some, Reach.connectFresh, Reach.connectAndInstallInitial, h,
    Option.bind_some, hfb, hanswer]
  cases answer with
  | native info =>
    unfold CanOpen Inner.installSv2Initial
    cases hopen : openChannelUpstream spec (upstreamWorker fb.user worker) 1 with
    | none => simp [placeholder, hopen]
    | some frame => simp [placeholder, hopen, Inner.OnFallback, Inner.sendUp]
  | sv1 conn =>
    simp only [CanOpen, Inner.installSv1TranslateInitial]
    cases hreply : openSuccessDownstream spec 1 0 (translatedInfo spec 1 conn) with
    | none => simp [placeholder, hreply]
    | some reply => simp [placeholder, hreply, Inner.OnFallback]

/-- A first connect that returns `Ok` has the routing it was asked for. -/
theorem Reach.connectAndInstallInitial_routing {spec : OpenSpec} {routing : Routing} {i j : Inner}
    (h : reach.connectAndInstallInitial spec target routing i = (j, true)) :
    j.routing = routing := by
  unfold Reach.connectAndInstallInitial at h
  split at h
  · unfold Inner.installSv2Initial at h
    split at h <;> cases h
    rfl
  · unfold Inner.installSv1TranslateInitial at h
    dsimp only at h
    split at h <;> cases h
    rfl
  · cases h

theorem Reach.connectFresh_routing {spec : OpenSpec} {order : Option Order} {routing : Routing}
    {i j : Inner} (h : reach.connectFresh spec order target routing i = (j, true)) :
    j.routing = routing := by
  unfold Reach.connectFresh at h
  split at h
  · rename_i hfirst
    cases h
    exact Reach.connectAndInstallInitial_routing hfirst
  · split at h
    · exact Reach.connectAndInstallInitial_routing h
    · cases h

/-- `attach_member` on a rig that does not translate is on the upstream of the rig. -/
theorem attachMember_cases (spec : OpenSpec) (i : Inner) :
    (i.translating = true ∧ attachMember spec i = none) ∨
      (i.translating = false ∧ ∃ j member, attachMember spec i = some (j, member) ∧
        SameUpstream i j) := by
  unfold attachMember
  cases htranslating : i.translating with
  | true => exact Or.inl ⟨rfl, rfl⟩
  | false =>
    have hup := forwardOpen_upstream i.nextMemberId spec i.addMember.1
    exact Or.inr ⟨rfl, _, _, rfl, ⟨hup.generation, hup.target, hup.routing, hup.defaultTarget,
      hup.translating, hup.generationCounter⟩⟩

/-- A member that is attached changes no routing. -/
theorem attachMember_routing {spec : OpenSpec} {i j : Inner} {member : Nat}
    (h : attachMember spec i = some (j, member)) : j.routing = i.routing := by
  rcases attachMember_cases spec i with ⟨_, hnone⟩ | ⟨_, j', m', hsome, hup⟩
  · rw [h] at hnone
    cases hnone
  · rw [h] at hsome
    cases hsome
    exact hup.routing

/-- When the handler leaves the connection on the fallback. -/
def OpensOnFallback (answer : SwapAnswer) (fb : UpstreamTarget) (id worker : String)
    (spec : OpenSpec) : Option Inner → Prop
  | none => CanOpen answer fb worker spec
  | some i => i.TakesOn answer fb id ∨ (i.TurnsAway answer fb id ∧ CanOpen answer fb worker spec)

theorem handleOpen_iff {store : OrderStore} {o : Order} {worker : String} {now later : Int}
    {spec : OpenSpec} (pool : Option UpstreamTarget) {rig : Option Inner}
    (hone : store.OneActive) (horder : store.activeForWorker worker now = some o)
    (hlater : store.activeForWorker worker later = some o) (hfb : o.fallback = some fb)
    (h : reach o.target = none) (hanswer : reach fb = some answer) :
    (∃ j, reach.handleOpen store pool worker now later spec rig = some j ∧
        j.OnFallback o.id fb) ↔ OpensOnFallback answer fb o.id worker spec rig := by
  have hget := hone.get_activeForWorker horder
  simp only [Reach.handleOpen, horder, hlater, initialTarget]
  cases rig with
  | none =>
    exact openFresh_iff hfb h hanswer
  | some i =>
    simp only [Option.bind_some, OpensOnFallback, ← reconciled_takesOn hget hfb h hanswer,
      ← reconciled_turnsAway hget hfb h hanswer]
    rcases attachMember_cases spec (reach.reconcileRouting store (some o) i) with
      ⟨htranslating, hattach⟩ | ⟨hnative, j, member, hattach, hup⟩
    · simp only [hattach, htranslating, openFresh_iff hfb h hanswer]
      simp
    · simp only [hattach, hnative, Inner.OnFallback, Option.some.injEq, exists_eq_left']
      rw [hup.routing, hup.target]
      simp

end Open

/-! ## The tasks of a rig execute the calls -/

section Tasks

variable {decode : Decoder} {lib : Sv1Library} {reach : Reach} {o : Order} {fb : UpstreamTarget}

/-- The SV1 pools answer with lines that the connect accepts. -/
def Reach.FromLines (lib : Sv1Library) (reach : Reach) : Prop :=
  ∀ target conn, reach target = some (.sv1 conn) →
    ∃ lines, connectSv1Upstream lib lines = some conn

theorem Reach.settles_beginSwap (hlines : reach.FromLines lib) (r : Rig) (target : UpstreamTarget)
    (routing : Routing) :
    ∃ r', Settles decode lib (r.beginSwap .attach target routing)
      (reach.swapUpstream target routing r.inner).1 r' := by
  unfold Reach.swapUpstream
  cases hanswer : reach target with
  | none =>
    let begun := r.beginSwap .attach target routing
    have hfailed : step decode lib begun .swapFailed = some { begun with swap := .idle } := rfl
    exact ⟨_, (Settles.refl (r := { begun with swap := .idle }) rfl).head hfailed rfl rfl⟩
  | some answer =>
    refine @Sv2.settles_beginSwap decode lib (fun _ => answer) ?_ r target routing
    rintro _ conn rfl
    exact hlines target conn hanswer

theorem Reach.settles_switchToOrder (hlines : reach.FromLines lib) {r : Rig}
    (hidle : r.swap = .idle) (hget : r.store.get o.id = some o) (hfb : o.fallback = some fb)
    (h : reach o.target = none) :
    ∃ r', Settles decode lib r (reach.switchToOrder r.store o.id r.inner).1 r' := by
  have hbegin : step decode lib r (.swapOrder .attach o.id false) =
      some (r.beginSwap .attach o.target (.rented o.id)) := by
    simp [step, hidle, hget]
  obtain ⟨s, hs⟩ := @Reach.settles_beginSwap decode _ _ hlines r o.target (.rented o.id)
  have hprimary := hs.head hbegin rfl rfl
  have hbegin' : step decode lib s (.swapOrder .attach o.id true) =
      some (s.beginSwap .attach fb (.rented o.id)) := by
    simp [step, hprimary.swap, hprimary.store, hget, hfb]
  obtain ⟨t, ht⟩ := @Reach.settles_beginSwap decode _ _ hlines s fb (.rented o.id)
  have hsecond := ht.head hbegin' rfl rfl
  rw [hprimary.inner, reach.swapUpstream_unreachable _ h] at hsecond
  refine ⟨t, ?_⟩
  simp only [Reach.switchToOrder, hget, reach.swapUpstream_unreachable _ h, hfb]
  exact hprimary.trans hsecond

/-- How the pools meet the first connect of a rig. -/
def Reach.Meets (lib : Sv1Library) (reach : Reach) (target : UpstreamTarget) :
    InitialAnswer → Prop
  | .unreachable => reach target = none
  | .native => ∃ info, reach target = some (.native info)
  | .sv1 lines => ∃ conn, reach target = some (.sv1 conn) ∧ connectSv1Upstream lib lines = some conn

theorem Reach.exists_meets (hlines : reach.FromLines lib) (target : UpstreamTarget) :
    ∃ answer, reach.Meets lib target answer := by
  cases hanswer : reach target with
  | none => exact ⟨.unreachable, hanswer⟩
  | some answer =>
    cases answer with
    | native info => exact ⟨.native, info, hanswer⟩
    | sv1 conn =>
      obtain ⟨lines, hconn⟩ := hlines target conn hanswer
      exact ⟨.sv1 lines, conn, hanswer, hconn⟩

/-- The first connect of a rig is `connect_and_install_initial`. -/
theorem Reach.Meets.connectInitial {target : UpstreamTarget} {answer : InitialAnswer}
    (h : reach.Meets lib target answer) (spec : OpenSpec) (routing : Routing) (r : Rig) :
    ((r.connectInitial lib spec target routing answer).1.inner,
        (r.connectInitial lib spec target routing answer).2) =
      reach.connectAndInstallInitial spec target routing r.inner := by
  cases answer with
  | unreachable =>
    have hnone : reach target = none := h
    simp only [Rig.connectInitial, Reach.connectAndInstallInitial, hnone]
  | native =>
    obtain ⟨info, hinfo⟩ := h
    simp only [Rig.connectInitial, Reach.connectAndInstallInitial, hinfo]
  | sv1 lines =>
    obtain ⟨conn, hanswer, hconn⟩ := h
    simp only [Rig.connectInitial, Reach.connectAndInstallInitial, hanswer, hconn]
    obtain ⟨i, reply⟩ := r.inner.installSv1TranslateInitial spec conn target routing
    cases reply <;> rfl

/-- The fresh session of a connection is one that a rig starts with. -/
theorem openFresh_start {store : OrderStore} {worker : String} {now : Int} {spec : OpenSpec}
    {pool : Option UpstreamTarget} {target : UpstreamTarget} {routing : Routing} {j : Inner}
    (hlines : reach.FromLines lib)
    (hinitial : initialTarget (store.activeForWorker worker now) pool = some (target, routing))
    (hfresh : reach.openFresh spec (store.activeForWorker worker now) target routing
      (placeholder target routing pool worker) = some j) :
    ∃ failed answer r, start lib worker spec store pool now failed answer = some r ∧
      r.inner = j := by
  obtain ⟨first, hfirst⟩ := reach.exists_meets hlines target
  let rig := Rig.unconnected store pool (placeholder target routing pool worker)
  have hconnect : (_, _) = reach.connectAndInstallInitial spec target routing
    (placeholder target routing pool worker) := hfirst.connectInitial spec routing rig
  rw [Reach.openFresh_eq_some, Reach.connectFresh, ← hconnect] at hfresh
  simp only [start, hinitial, Option.bind_eq_bind, Option.bind_some]
  rcases hleft : rig.connectInitial lib spec target routing first with ⟨left, ok⟩
  rw [hleft] at hfresh
  cases ok with
  | true =>
    cases hfresh
    refine ⟨none, first, left, ?_, rfl⟩
    simp only [rig, hleft]
  | false =>
    dsimp only at hfresh
    split at hfresh
    · rename_i fb hfb
      obtain ⟨second, hsecond⟩ := reach.exists_meets hlines fb
      rw [← hsecond.connectInitial spec routing left] at hfresh
      rcases hr : left.connectInitial lib spec fb routing second with ⟨r, ok⟩
      rw [hr] at hfresh
      cases hfresh
      refine ⟨some first, second, r, ?_, rfl⟩
      simp only [rig, hleft, hfb, Option.bind_some, hr]
    · cases hfresh

/-- The session that the handler leaves the connection with is one that a rig can reach. -/
theorem handleOpen_reaches {store : OrderStore} {worker : String} {now later : Int}
    {spec : OpenSpec} {pool : Option UpstreamTarget} {rig : Option Rig} {j : Inner}
    (hlines : reach.FromLines lib) (hone : store.OneActive)
    (hrig : ∀ r ∈ rig, Reaches decode lib r ∧ r.swap = .idle ∧ r.store = store)
    (horder : store.activeForWorker worker now = some o)
    (hlater : store.activeForWorker worker later = some o) (hfb : o.fallback = some fb)
    (h : reach o.target = none)
    (hopen : reach.handleOpen store pool worker now later spec (rig.map Rig.inner) = some j) :
    ∃ r, Reaches decode lib r ∧ r.inner = j := by
  have hfresh : ∀ j, reach.openFresh spec (some o) o.target (.rented o.id)
      (placeholder o.target (.rented o.id) pool worker) = some j →
        ∃ r, Reaches decode lib r ∧ r.inner = j := by
    intro j hj
    rw [← horder] at hj
    obtain ⟨failed, answer, r, hstart, hinner⟩ :=
      openFresh_start hlines (by rw [horder]; rfl) hj
    exact ⟨r, ⟨worker, spec, store, pool, now, failed, answer, r, hone, hstart, .refl⟩, hinner⟩
  simp only [Reach.handleOpen, horder, hlater, initialTarget] at hopen
  cases rig with
  | none => exact hfresh j hopen
  | some r =>
    obtain ⟨hreach, hidle, hstore⟩ := hrig r rfl
    have hget := hone.get_activeForWorker horder
    obtain ⟨s, hs⟩ : ∃ s, Settles decode lib r
        (reach.reconcileRouting store (some o) r.inner) s := by
      unfold Reach.reconcileRouting
      simp only
      split_ifs
      · subst hstore
        exact Reach.settles_switchToOrder hlines hidle hget hfb h
      · exact ⟨r, .refl hidle⟩
    simp only [Option.map_some, Option.bind_some] at hopen
    cases hattach : attachMember spec (reach.reconcileRouting store (some o) r.inner) with
    | none =>
      rw [hattach] at hopen
      exact hfresh j hopen
    | some attached =>
      rw [hattach] at hopen
      obtain ⟨i, member⟩ := attached
      cases hopen
      have hstep : step decode lib s (.attach spec) = some { s with inner := j } := by
        simp only [step, hs.inner, hattach, Option.map_some]
      obtain ⟨w, sp, st, idle, t, fallback, answer, r₀, hone₀, hstart, hrun⟩ := hreach
      exact ⟨_, ⟨w, sp, st, idle, t, fallback, answer, r₀, hone₀, hstart,
        hrun.trans (hs.reach.trans (.head hstep trivial .refl))⟩, rfl⟩

end Tasks

end Sv2

/-! ## The result -/

/-- A miner connects. -/
inductive Arrival where
  /-- `mining.authorize` on an SV1 session, once the miner has told whether it takes a live
  extranonce change. -/
  | authorize (session : Sv1.Inner)
  /-- The first open of an SV2 connection, and the rig that the worker has. -/
  | openChannel (spec : Sv2.OpenSpec) (rig : Option Sv2.Inner)

namespace Arrival

variable (sv1 : Sv1.Reach) (sv2 : Sv2.Reach) (store : OrderStore) (pool : Option UpstreamTarget)
  (worker : String) (now later : Int)

/-- Routing and upstream of the session that the handler leaves the miner with. -/
def handled : Arrival → Option (Routing × UpstreamTarget)
  | .authorize session =>
    (sv1.authorize store pool worker now session).map fun i => (i.routing, i.active.target)
  | .openChannel spec rig =>
    (sv2.handleOpen store pool worker now later spec rig).map fun i => (i.routing, i.active.target)

/-- An SV1 session takes part when its miner takes a live extranonce change and it is not yet on
the pool of the order. -/
def Switches (o : Order) : Arrival → Prop
  | .authorize session => session.extranonceCapable = true ∧ session.active.target ≠ o.target
  | .openChannel .. => True

/-- The condition on the state before the call: an SV1 session has fallen over already, and an
SV2 connection opens on the fallback. -/
def FailsOver (answer : Sv2.SwapAnswer) (fb : UpstreamTarget) (id worker : String) :
    Arrival → Prop
  | .authorize session => session.routing = .rented id ∧ session.active.target = fb
  | .openChannel spec rig => Sv2.OpensOnFallback answer fb id worker spec rig

end Arrival

open Arrival

/-- A miner that connects while the pool of its order is out of reach and the fallback answers
ends up on the fallback exactly when the condition holds. -/
theorem Arrival.failsOver_iff {sv1 : Sv1.Reach} {sv2 : Sv2.Reach} {store : OrderStore}
    {pool : Option UpstreamTarget} {worker : String} {now later : Int} {o : Order}
    {fb : UpstreamTarget} {answer : Sv2.SwapAnswer} {a : Arrival} (hone : store.OneActive)
    (horder : store.activeForWorker worker now = some o)
    (hlater : store.activeForWorker worker later = some o) (hfb : o.fallback = some fb)
    (hunreachable : sv1 o.target = {} ∧ sv2 o.target = none) (hanswer : sv2 fb = some answer)
    (ha : a.Switches o) :
    a.handled sv1 sv2 store pool worker now later = some (.rented o.id, fb) ↔
      a.FailsOver answer fb o.id worker := by
  cases a with
  | authorize session =>
    obtain ⟨hcapable, hother⟩ := ha
    simp [handled, FailsOver, Sv1.Reach.authorize_unreachable horder hcapable hother hunreachable.1]
  | openChannel spec rig =>
    rw [FailsOver, ← Sv2.handleOpen_iff pool hone horder hlater hfb hunreachable.2 hanswer]
    simp [handled, Sv2.Inner.OnFallback]

/-- The pool that the order falls back to. -/
def fallbackPool : UpstreamTarget := ⟨"fallback:3333", "bc1p", "", none⟩

/-- An order with a fallback. -/
def guardedOrder : Order := { Sv2.buyerOrder with fallback := some fallbackPool }

/-- The fallback answers, and no other pool does. -/
def sv1Fallback : Sv1.Reach := fun target =>
  if target = fallbackPool then Sv1.eagerPool 1024 else {}

/-- The fallback speaks SV2, and no other pool answers. -/
def sv2Fallback : Sv2.Reach := fun target =>
  if target = fallbackPool then some (.native fun _ => Sv2.reopenedInfo 1) else none

/-- A rig of one channel, idle. -/
theorem failsOver_iff_attached :
    ∃ r, Sv2.Reaches Sv2.wireDecoder Sv2.plainLibrary r ∧ r.inner.routing = .idle ∧
      (Arrival.openChannel (Sv2.extendedOpen 8) (some r.inner)).handled sv1Fallback sv2Fallback
        { rows := [guardedOrder] } none "bc1q.rig" 0 0 = some (.rented "o1", fallbackPool) := by
  refine ⟨_, Sv2.run_of_idleRig [.upstreamFrame 0 (Sv2.openedFrame 1 10 0) 0] rfl, rfl, ?_⟩
  have hone : OrderStore.OneActive { rows := [guardedOrder] } := List.pairwise_singleton ..
  refine (failsOver_iff (o := guardedOrder) (a := .openChannel (Sv2.extendedOpen 8) (some _)) hone
    (by decide +kernel) (by decide +kernel) rfl ⟨if_neg (by decide), if_neg (by decide)⟩ rfl
    trivial).mpr (Or.inl ?_)
  refine (if_neg (by decide)).mpr ⟨rfl, ?_⟩
  intro c hc
  rw [List.mem_singleton.mp hc]
  rfl

/-- A subscribed miner that takes a live extranonce change is authorized, and stays where it was:
the fallback is not asked. -/
theorem authorize_ignores_fallback :
    ∃ r, Sv1.Reaches r ∧ (Arrival.authorize r.inner).Switches guardedOrder ∧
      OrderStore.activeForWorker { rows := [guardedOrder] } "bc1q.rig" 0 = some guardedOrder ∧
      guardedOrder.fallback = some fallbackPool ∧ sv1Fallback guardedOrder.target = {} ∧
      (Sv1.connectRaw fallbackPool r.inner.configure "bc1p.rig-bp-proxy"
        (sv1Fallback fallbackPool)).isSome ∧
      (Arrival.authorize r.inner).handled sv1Fallback sv2Fallback { rows := [guardedOrder] } none
        "bc1q.rig" 0 0 ≠ some (.rented "o1", fallbackPool) := by
  obtain ⟨r, hreach, hr⟩ := Sv1.exists_of_eager 1024
    (Sv1.subscribeEvents ++ [.minerExtranonceSubscribe
      (.request (.num (.int 2)) "mining.extranonce.subscribe" (.arr []))])
    (p := fun r => r.inner.extranonceCapable && decide (r.inner.active.target ≠ guardedOrder.target)
      && (Sv1.connectRaw fallbackPool r.inner.configure "bc1p.rig-bp-proxy"
        (sv1Fallback fallbackPool)).isSome
      && decide ((Arrival.authorize r.inner).handled sv1Fallback sv2Fallback
        { rows := [guardedOrder] } none "bc1q.rig" 0 0 ≠ some (.rented "o1", fallbackPool)))
    (by decide +kernel)
  simp only [Bool.and_eq_true, decide_eq_true_eq] at hr
  obtain ⟨⟨⟨hcapable, hother⟩, hanswers⟩, hstays⟩ := hr
  exact ⟨r, hreach, ⟨hcapable, hother⟩, by decide +kernel, rfl, if_neg (by decide), hanswers,
    hstays⟩

end RentalProxy
