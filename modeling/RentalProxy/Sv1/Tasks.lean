import RentalProxy.Sv1.Relay
import RentalProxy.Lib.Runs

/-!
# The SV1 relay: tasks

One SV1 session is driven by several tasks that share its lock and its queue
to the miner: the miner loop, at most one swap at a time (the `switch` mutex),
and the readers of the current and of earlier upstreams.  `Relay` is the shared
state with the program counter of each task, and `step` runs one task up to
the point where it gives the lock back or queues one line.

Steps are as fine as the source allows another task to interleave: a reader
checks its generation under the lock and queues the line after the lock is
released, a swap installs, re-points, takes the prelude and queues each line
of it in separate steps, and the subscribe handler answers, marks and flushes
in separate steps.

`minerMsg` may carry any message and a swap may start at any time with any
target, so the supervisor, the authorize step and the grace loop are covered
without being told apart.
-/

namespace RentalProxy.Sv1

open StepSystem

/-- What a swap remembers from before it connects. -/
structure SwapSnapshot where
  target : UpstreamTarget
  routing : Routing
  configure : Option RpcMessage
  capable : Bool
  generation : Nat
  label : String

/-- Where `swap_upstream` stands. -/
inductive SwapTask where
  | idle
  | connecting (snap : SwapSnapshot)
  /-- Installed; the miner is still to be told. -/
  | installed (generation : Nat) (capable : Bool) (extranonce1 : String)
      (extranonce2Size : Nat)
  /-- The miner was told; the prelude is still stashed. -/
  | repointed (generation : Nat)
  /-- Queueing the prelude. -/
  | flushing (lines : List Line)

/-- Where the miner loop stands. -/
inductive MinerTask where
  | ready
  /-- `mining.subscribe` was read, with the extranonce of that moment. -/
  | subscribing (id : Option Value) (extranonce1 : String) (extranonce2Size : Nat)
  /-- The subscribe reply is queued. -/
  | answered
  /-- Queueing the prelude taken when the session was marked subscribed. -/
  | flushing (lines : List Line)

/-- What an install did, kept to state the order of lines. -/
structure Install where
  generation : Nat
  /-- The miner could take a live extranonce change when the swap began. -/
  capable : Bool
  handshakeLines : List RpcMessage

/-- A session with its tasks. -/
structure Relay where
  inner : Inner
  orders : WorkBuffer
  /-- Everything queued to the miner, oldest first. -/
  toMiner : List Line
  swap : SwapTask
  miner : MinerTask
  /-- The line each reader has let past the generation check and not queued
  yet, by generation. -/
  readers : AList fun _ : Nat => Line
  /-- Signals sent by `force_reconnect`. -/
  reconnects : Nat
  /-- The label the active upstream was authorized under, `none` for the
  bootstrap upstream, which is authorized under the bare account. -/
  connectedLabel : Option String
  /-- The swaps that installed an upstream, oldest first. -/
  installs : List Install

/-- A step of one task. -/
inductive Event where
  | minerConfigure (msg : RpcMessage)
  | minerSubscribe (msg : RpcMessage)
  | minerSubscribeReply
  | minerSubscribed
  | minerFlush
  | minerExtranonceSubscribe (msg : RpcMessage)
  /-- An accepted `mining.authorize` of this worker. -/
  | minerAuthorize (worker : String) (id : Option Value)
  | minerReject (id : Option Value)
  | minerClientReconnect
  /-- A line handed to `on_miner_msg`. -/
  | minerMsg (msg : RpcMessage)
  | attachOrder (orderId : String)
  | setDefault (target : UpstreamTarget)
  | swapBegin (target : UpstreamTarget) (routing : Routing)
  | swapConnect (answer : PoolAnswer)
  | swapRepoint
  | swapTakePrelude
  | swapFlush
  /-- The passthrough reader of a generation processes a line. -/
  | upstreamLine (generation : Nat) (msg : RpcMessage) (now : Rat)
  /-- A reader queues the line it has in hand. -/
  | readerForward (generation : Nat)
  | translateDifficulty (generation : Nat) (diff : Rat)
  | translateLine (generation : Nat) (msg : RpcMessage)
  | translateCredit (generation count : Nat) (now : Rat)
  | translateResult (generation : Nat) (id : Option Value) (ok : Bool)

/-- Queue one line to the miner. -/
def Relay.queue (r : Relay) (line : Line) : Relay :=
  { r with toMiner := r.toMiner ++ [line] }

/-- The reply to a request of the miner. -/
def okReply (id : Option Value) (result : Value) : RpcMessage where
  id := id
  result := some result
  error := some .null

/-- The synthesized `mining.configure` result. -/
def configureResult : Value :=
  .obj [("version-rolling", .bool true), ("version-rolling.mask", .str "1fffe000")]

/-- The synthesized `mining.subscribe` result. -/
def subscribeResult (extranonce1 : String) (extranonce2Size : Nat) : Value :=
  .arr [.arr [.arr [.str "mining.set_difficulty", .str "1"],
              .arr [.str "mining.notify", .str "1"]],
        .str extranonce1, .num (.int extranonce2Size)]

/-- The rejection of an unregistered worker. -/
def rejectReply (id : Option Value) : RpcMessage where
  id := id
  result := some (.bool false)
  error := some (.arr [.num (.int 24),
    .str "unregistered worker — register the rig first", .null])

/-- No line of this generation's reader is in hand. -/
def Relay.readerFree (r : Relay) (generation : Nat) : Bool :=
  (r.readers.lookup generation).isNone

/-- The generation was installed, and its steady reader is the passthrough one
as far as the active upstream tells. -/
def Relay.passthroughReader (r : Relay) (generation : Nat) : Bool :=
  decide (generation ≤ r.inner.active.generation) &&
    decide (generation = r.inner.active.generation → r.inner.translating = false)

/-- The generation was installed, and its steady reader is the translating one
as far as the active upstream tells. -/
def Relay.translateReader (r : Relay) (generation : Nat) : Bool :=
  decide (generation ≤ r.inner.active.generation) &&
    decide (generation = r.inner.active.generation → r.inner.translating = true)

/-- What is recorded of an install. -/
def installRecord (snap : SwapSnapshot) (raw : RawUpstream) : Install where
  generation := snap.generation
  capable := snap.capable
  handshakeLines := match raw with
    | .sv1 conn => conn.handshakeLines
    | .sv2 up => [setDifficultyLine up.initialDiff]

/-- The install of a connected upstream by the swap. -/
def Relay.install (r : Relay) (snap : SwapSnapshot) (raw : RawUpstream) : Relay :=
  let (inner, en1, en2) := installRaw raw snap.generation snap.target snap.routing r.inner
  { r with
    inner
    swap := .installed snap.generation snap.capable en1 en2
    connectedLabel := some snap.label
    installs := r.installs ++ [installRecord snap raw] }

/-- One step of one task. -/
def step (r : Relay) : Event → Option Relay
  | .minerConfigure msg =>
    match r.miner with
    | .ready =>
      if msg.method = some "mining.configure" then
        some ({ r with inner := { r.inner with configure := some msg } }.queue
          ⟨.reply, okReply msg.id configureResult⟩)
      else none
    | _ => none
  | .minerSubscribe msg =>
    match r.miner with
    | .ready => some { r with
        miner := .subscribing msg.id r.inner.extranonce1 r.inner.extranonce2Size }
    | _ => none
  | .minerSubscribeReply =>
    match r.miner with
    | .subscribing id en1 en2 => some ({ r with miner := .answered }.queue
        ⟨.subscribeReply, okReply id (subscribeResult en1 en2)⟩)
    | _ => none
  | .minerSubscribed =>
    match r.miner with
    | .answered => some { r with
        inner := { r.inner with subscribed := true, pendingPrelude := [] }
        miner := .flushing r.inner.pendingPrelude }
    | _ => none
  | .minerFlush =>
    match r.miner with
    | .flushing [] => some { r with miner := .ready }
    | .flushing (line :: rest) => some ({ r with miner := .flushing rest }.queue line)
    | _ => none
  | .minerExtranonceSubscribe msg =>
    match r.miner with
    | .ready => some ({ r with inner := { r.inner with extranonceCapable := true } }.queue
        ⟨.reply, okReply msg.id (.bool true)⟩)
    | _ => none
  | .minerAuthorize worker id =>
    match r.miner with
    | .ready => some ({ r with inner := { r.inner with label := worker } }.queue
        ⟨.reply, okReply id (.bool true)⟩)
    | _ => none
  | .minerReject id =>
    match r.miner with
    | .ready => some (r.queue ⟨.reply, rejectReply id⟩)
    | _ => none
  | .minerClientReconnect =>
    match r.miner with
    | .ready => some (r.queue ⟨.reply, .clientReconnect "" 0 1⟩)
    | _ => none
  | .minerMsg msg =>
    match r.miner with
    | .ready =>
      let (inner, order) := onMinerMsg msg r.inner
      some { r with
        inner
        orders := match order with
          | some o => r.orders.addSubmitted o 1
          | none => r.orders }
    | _ => none
  | .attachOrder o => some { r with inner := { r.inner with routing := .rented o } }
  | .setDefault target => some { r with inner := { r.inner with defaultTarget := target } }
  | .swapBegin target routing =>
    match r.swap with
    | .idle =>
      let generation := r.inner.generationCounter + 1
      some { r with
        inner := { r.inner with generationCounter := generation }
        swap := .connecting {
          target, routing, configure := r.inner.configure
          capable := r.inner.extranonceCapable, generation, label := r.inner.label } }
    | _ => none
  | .swapConnect answer =>
    match r.swap with
    | .connecting snap =>
      match connectRaw snap.target snap.configure
          (upstreamWorker snap.target.user snap.label) answer with
      | none => some { r with swap := .idle }
      | some raw => some (r.install snap raw)
    | _ => none
  | .swapRepoint =>
    match r.swap with
    | .installed generation true en1 en2 =>
      some ({ r with swap := .repointed generation }.queue
        ⟨.extranonce generation, .setExtranonce en1 en2⟩)
    | .installed generation false _ _ =>
      some { r with swap := .repointed generation, reconnects := r.reconnects + 1 }
    | _ => none
  | .swapTakePrelude =>
    match r.swap with
    | .repointed _ => some { r with
        inner := { r.inner with pendingPrelude := [] }
        swap := .flushing r.inner.pendingPrelude }
    | _ => none
  | .swapFlush =>
    match r.swap with
    | .flushing [] => some { r with swap := .idle }
    | .flushing (line :: rest) => some ({ r with swap := .flushing rest }.queue line)
    | _ => none
  | .upstreamLine generation msg now =>
    if r.readerFree generation && r.passthroughReader generation then
      let (inner, credit, out) := onUpstreamMsg now generation msg r.inner
      some { r with
        inner
        orders := r.orders.credit credit
        readers := match out with
          | some line => r.readers.insert generation ⟨.reader generation, line⟩
          | none => r.readers }
    else none
  | .readerForward generation =>
    match r.readers.lookup generation with
    | some line => some ({ r with readers := r.readers.erase generation }.queue line)
    | none => none
  | .translateDifficulty generation diff =>
    if r.readerFree generation && r.translateReader generation then
      some { r with inner := (setTranslateDifficulty generation diff r.inner).1 }
    else none
  | .translateLine generation msg =>
    if r.readerFree generation && r.translateReader generation then
      let (inner, send) := sendOrStash generation msg r.inner
      some { r with
        inner
        readers := if send then r.readers.insert generation ⟨.reader generation, msg⟩
          else r.readers }
    else none
  | .translateCredit generation count now =>
    if r.readerFree generation && r.translateReader generation then
      let (inner, credit) := creditTranslateAccepted now generation count r.inner
      some { r with inner, orders := r.orders.credit credit }
    else none
  | .translateResult generation id ok =>
    if r.readerFree generation && r.translateReader generation then
      some { r with
        readers := r.readers.insert generation
          ⟨.reader generation, submitResultLine id ok⟩ }
    else none

/-- The session of a miner that just connected, before the bootstrap upstream
is installed. -/
def bootstrap (target : UpstreamTarget) (peer : String) : Inner where
  active := { generation := 0, target, toUp := [] }
  generationCounter := 1
  currentDifficulty := 1
  pending := ∅
  hashrate := .new 600
  deliveredWork := 0
  acceptedShares := 0
  submittedShares := 0
  acceptLowLogged := false
  routing := .idle
  defaultTarget := target
  configure := none
  extranonceCapable := false
  label := peer
  pendingPrelude := []
  extranonce1 := ""
  extranonce2Size := 0
  translating := false
  subscribed := false

/-- The generation of the bootstrap upstream. -/
def bootstrapGeneration : Nat := 1

/-- The relay once the bootstrap upstream is installed.  The bootstrap is
authorized under the bare account: the worker is not known yet. -/
def start (target : UpstreamTarget) (peer : String) (orders : WorkBuffer)
    (answer : PoolAnswer) : Option Relay :=
  (connectRaw target none target.user answer).map fun raw =>
    { inner := (installRaw raw bootstrapGeneration target .idle (bootstrap target peer)).1
      orders
      toMiner := []
      swap := .idle
      miner := .ready
      readers := ∅
      reconnects := 0
      connectedLabel := none
      installs := [] }

/-- The states a session can reach from its bootstrap, along steps that meet
`G`. -/
def ReachesUnder (G : Relay → Event → Prop) (r : Relay) : Prop :=
  ∃ target peer orders answer r₀,
    start target peer orders answer = some r₀ ∧ Run step G r₀ r

/-- The states a session can reach from its bootstrap. -/
def Reaches (r : Relay) : Prop := ReachesUnder (fun _ _ => True) r

/-- The induction rule for sessions. -/
theorem ReachesUnder.invariant {G : Relay → Event → Prop} {I : Relay → Prop} {r : Relay}
    (h : ReachesUnder G r)
    (hstart : ∀ target peer orders answer r₀,
      start target peer orders answer = some r₀ → I r₀)
    (hstep : ∀ x e y, I x → G x e → step x e = some y → I y) : I r := by
  obtain ⟨target, peer, orders, answer, r₀, hr₀, hrun⟩ := h
  exact hrun.invariant (hstart target peer orders answer r₀ hr₀) hstep

/-- A pool that sets a difficulty before it answers the subscribe. -/
def eagerPool (difficulty : Nat) : PoolAnswer where
  sv1 := some [
    .request .null "mining.set_difficulty" (.arr [.num (.int difficulty)]),
    okReply (some (.num (.int 1))) (subscribeResult "08000002" 4),
    okReply (some (.num (.int 2))) (.bool true)]

/-- A session at such a pool. -/
def eagerSession (difficulty : Nat) : Option Relay :=
  start ⟨"pool:3333", "bc1q", "", none⟩ "peer" ∅ (eagerPool difficulty)

/-- A schedule executed from such a session is a run of it. -/
theorem run_of_eager {G : Relay → Event → Prop} [hG : ∀ r, DecidablePred (G r)] (difficulty : Nat)
    (es : List Event) {r : Relay}
    (h : ((eagerSession difficulty).bind
      (runWhile step (fun x e => decide (G x e)) · es)) = some r) :
    ∃ r₀, eagerSession difficulty = some r₀ ∧ Run step G r₀ r := by
  obtain ⟨r₀, hstart, hrun⟩ := Option.bind_eq_some_iff.mp h
  exact ⟨r₀, hstart, .of_runWhile (fun _ _ => of_decide_eq_true) hrun⟩

/-- A test on the state that the schedule ends in. -/
theorem exists_of_eager (difficulty : Nat) (es : List Event) {p : Relay → Bool}
    (h : ((eagerSession difficulty).bind (run step · es)).any p = true) :
    ∃ r, Reaches r ∧ p r = true := by
  obtain ⟨r, hr, hp⟩ := (Option.any_eq_true ..).mp h
  obtain ⟨r₀, hstart, hrun⟩ := Option.bind_eq_some_iff.mp hr
  exact ⟨r, ⟨_, _, _, _, r₀, hstart, .of_run hrun⟩, hp⟩

/-- The miner subscribes and gets the prelude of one line. -/
def subscribeEvents : List Event :=
  [.minerSubscribe (.request (.num (.int 1)) "mining.subscribe" (.arr [])),
    .minerSubscribeReply, .minerSubscribed, .minerFlush, .minerFlush]

@[simp] theorem Relay.queue_inner (r : Relay) (l : Line) : (r.queue l).inner = r.inner := rfl
@[simp] theorem Relay.queue_orders (r : Relay) (l : Line) : (r.queue l).orders = r.orders := rfl
@[simp] theorem Relay.queue_toMiner (r : Relay) (l : Line) :
    (r.queue l).toMiner = r.toMiner ++ [l] := rfl
@[simp] theorem Relay.queue_swap (r : Relay) (l : Line) : (r.queue l).swap = r.swap := rfl
@[simp] theorem Relay.queue_miner (r : Relay) (l : Line) : (r.queue l).miner = r.miner := rfl
@[simp] theorem Relay.queue_readers (r : Relay) (l : Line) :
    (r.queue l).readers = r.readers := rfl
@[simp] theorem Relay.queue_installs (r : Relay) (l : Line) :
    (r.queue l).installs = r.installs := rfl
@[simp] theorem Relay.queue_connectedLabel (r : Relay) (l : Line) :
    (r.queue l).connectedLabel = r.connectedLabel := rfl

end RentalProxy.Sv1
