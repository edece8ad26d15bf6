import RentalProxy.Orders
import RentalProxy.Sv2.Wire

/-!
# The SV1 relay: state and operations

The per-connection SV1 relay of `proto/relay.rs` with its swappable upstream.
Every definition is one function of the source, or the part of it that runs
under one hold of the session lock, as a function of `Inner`.

* Connecting: `connectUpstream` drives the SV1 handshake against the lines a
  pool sends, and `connectRaw` picks passthrough or translation.
* `installRaw` makes a connected upstream the active one.
* `onMinerMsg` and `onUpstreamMsg` process one line of the miner and of a
  passthrough pool.
* `sendOrStash`, `setTranslateDifficulty` and `creditTranslateAccepted` are the
  calls of the reader that translates an SV2 pool.

A line on its way to the miner carries where it came from (`LineSource`).  The
source has no such tag: it is there to state in which order lines are queued.
-/

namespace RentalProxy.Sv1

/-! ## Worker names -/

/-- `str::split_once('.')`. -/
def splitOnceDot (s : String) : Option (String × String) :=
  match s.toList.span fun c => decide (c ≠ '.') with
  | (_, []) => none
  | (before, _ :: rest) => some (String.ofList before, String.ofList rest)

/-- The part of a miner label that the upstream worker name keeps: what
follows the first dot, unless it is empty. -/
def workerSuffix (label : String) : Option String :=
  ((splitOnceDot label).map Prod.snd).filter fun s => decide (s ≠ "")

/-- `upstream_worker`: the account with the miner's own worker name, tagged. -/
def upstreamWorker (account minerLabel : String) : String :=
  match workerSuffix minerLabel with
  | some suffix => account ++ ("." ++ (suffix ++ "-bp-proxy"))
  | none => account ++ ".bp-proxy"

/-! ## State -/

/-- Who wrote a line that is queued to the miner. -/
inductive LineSource where
  /-- An answer of the miner loop other than the subscribe reply. -/
  | reply
  | subscribeReply
  /-- The `mining.set_extranonce` of a swap to this generation. -/
  | extranonce (generation : Nat)
  /-- A notification the pool sent during the handshake. -/
  | handshake (generation : Nat)
  /-- The steady reader of this generation. -/
  | reader (generation : Nat)
deriving DecidableEq

/-- A line for the miner. -/
structure Line where
  source : LineSource
  msg : RpcMessage
deriving DecidableEq

/-- The live upstream of a session. -/
structure ActiveUpstream where
  generation : Nat
  target : UpstreamTarget
  /-- What was written on the connection: the handshake, then every line
  handed to `to_up`. -/
  toUp : List RpcMessage

/-- The session state behind the lock. -/
structure Inner where
  active : ActiveUpstream
  generationCounter : Nat
  currentDifficulty : Rat
  /-- Submit id to generation and difficulty, for crediting.  The source keys
  by the serialized id.  Equal values are one key there, but for the floats
  `-0.0` and `0.0`, which are equal here and serialized apart. -/
  pending : AList fun _ : Value => Nat × Rat
  hashrate : HashrateWindow
  deliveredWork : Rat
  acceptedShares : Nat
  submittedShares : Nat
  acceptLowLogged : Bool
  routing : Routing
  defaultTarget : UpstreamTarget
  configure : Option RpcMessage
  extranonceCapable : Bool
  label : String
  /-- Lines captured before the miner subscribed. -/
  pendingPrelude : List Line
  extranonce1 : String
  extranonce2Size : Nat
  /-- The active upstream is an SV2 pool reached through translation. -/
  translating : Bool
  subscribed : Bool

/-- `id_key`: a missing id and `null` share a key. -/
def idKey (id : Option Value) : Value := id.getD .null

/-- Hand a line to the active upstream. -/
def Inner.sendUp (i : Inner) (msg : RpcMessage) : Inner :=
  { i with active := { i.active with toUp := i.active.toUp ++ [msg] } }

/-- The edge-triggered low-accept-ratio flag. -/
def Inner.flagLowRatio (i : Inner) : Inner :=
  if !i.acceptLowLogged && acceptRatioLow i.acceptedShares i.submittedShares then
    { i with acceptLowLogged := true }
  else i

/-! ## Connecting an upstream -/

/-- A connected and handshaken SV1 upstream. -/
structure UpstreamConn where
  /-- What the pool sent and the handshake has not consumed. -/
  reader : List RpcMessage
  /-- What the handshake wrote. -/
  write : List RpcMessage
  extranonce1 : String
  extranonce2Size : Nat
  /-- Notifications the pool sent during the handshake, in order. -/
  handshakeLines : List RpcMessage

/-- `read_response`: the first line without a method, the notifications before
it, and what follows.  `none` when the pool closes first. -/
def readResponse : List RpcMessage → Option (RpcMessage × List RpcMessage × List RpcMessage)
  | [] => none
  | msg :: rest =>
    if msg.method = none then some (msg, [], rest)
    else (readResponse rest).map fun (resp, seen, left) => (resp, msg :: seen, left)

/-- `parse_subscribe_result`: `[subscriptions, extranonce1, extranonce2_size]`. -/
def parseSubscribeResult (msg : RpcMessage) : Option (String × Nat) := do
  let arr ← msg.result.bind Value.asArray
  if arr.length < 3 then none
  else
    let en1 ← (arr[1]?).bind Value.asStr
    let en2 ← (arr[2]?).bind Value.asU64
    some (en1, en2 % 2 ^ 32)

/-- The subscribe request of the handshake. -/
def subscribeRequest : RpcMessage :=
  .request (.num (.int 1)) "mining.subscribe" (.arr [.str "bp-proxy"])

/-- The authorize request of the handshake. -/
def authorizeRequest (userIdentity password : String) : RpcMessage :=
  .request (.num (.int 2)) "mining.authorize" (.arr [.str userIdentity, .str password])

/-- `connect_upstream` against the lines the pool sends: `configure` when the
miner sent one, `subscribe`, `authorize`. -/
def connectUpstream (target : UpstreamTarget) (configure : Option RpcMessage)
    (userIdentity : String) (lines : List RpcMessage) : Option UpstreamConn := do
  let (seen, lines) ← match configure with
    | some _ => (readResponse lines).map fun (_, seen, left) => (seen, left)
    | none => some ([], lines)
  let (sub, seen', lines) ← readResponse lines
  let (extranonce1, extranonce2Size) ← parseSubscribeResult sub
  let (_, seen'', lines) ← readResponse lines
  some {
    reader := lines
    write := configure.toList ++ [subscribeRequest, authorizeRequest userIdentity target.password]
    extranonce1, extranonce2Size
    handshakeLines := seen ++ seen' ++ seen'' }

/-- An opened SV2 Extended channel, ready to translate for an SV1 miner. -/
structure Sv2RawUpstream where
  channelId : Nat
  extranonce1 : String
  extranonce2Size : Nat
  initialDiff : Rat

/-- A freshly connected upstream. -/
inductive RawUpstream where
  | sv1 (conn : UpstreamConn)
  | sv2 (up : Sv2RawUpstream)

/-- How a pool meets a connect: the lines it sends to the SV1 attempt (`none`
when the attempt is refused or times out) and the channel it opens on the SV2
attempt. -/
structure PoolAnswer where
  sv1 : Option (List RpcMessage) := none
  sv2 : Option Sv2RawUpstream := none

/-- `connect_raw`: SV1 first, SV2 translation when the pool does not answer as
SV1. -/
def connectRaw (target : UpstreamTarget) (configure : Option RpcMessage)
    (userIdentity : String) (answer : PoolAnswer) : Option RawUpstream :=
  match answer.sv1.bind (connectUpstream target configure userIdentity) with
  | some conn => some (.sv1 conn)
  | none => answer.sv2.map .sv2

/-- The `mining.set_difficulty` line the proxy writes for a translated pool. -/
def setDifficultyLine (value : Rat) : RpcMessage where
  method := some "mining.set_difficulty"
  params := some (.arr [.num (.float value)])

/-- `install_raw`: the connected upstream becomes the active one.  Returns the
extranonce to surface to the miner. -/
def installRaw (raw : RawUpstream) (generation : Nat) (target : UpstreamTarget)
    (routing : Routing) (i : Inner) : Inner × String × Nat :=
  match raw with
  | .sv1 conn =>
    ({ i with
        active := { generation, target, toUp := conn.write }
        routing
        extranonce1 := conn.extranonce1
        extranonce2Size := conn.extranonce2Size
        translating := false
        pending := ∅
        pendingPrelude := conn.handshakeLines.map (⟨.handshake generation, ·⟩) },
      conn.extranonce1, conn.extranonce2Size)
  | .sv2 up =>
    ({ i with
        active := { generation, target, toUp := [] }
        routing
        extranonce1 := up.extranonce1
        extranonce2Size := up.extranonce2Size
        translating := true
        currentDifficulty := up.initialDiff
        pending := ∅
        pendingPrelude := [⟨.handshake generation, setDifficultyLine up.initialDiff⟩] },
      up.extranonce1, up.extranonce2Size)

/-- What the handshake reads up to a response, in order. -/
theorem readResponse_eq {lines seen left : List RpcMessage} {msg : RpcMessage}
    (h : readResponse lines = some (msg, seen, left)) : lines = seen ++ msg :: left := by
  induction lines generalizing seen with
  | nil => cases h
  | cons line rest ih =>
    rw [readResponse] at h
    split at h
    · cases h
      rfl
    · obtain ⟨⟨resp, seen', left'⟩, hrest, heq⟩ := Option.map_eq_some_iff.mp h
      cases heq
      rw [ih hrest]
      rfl

/-- A line set aside by one of two reads that follow each other was sent. -/
theorem mem_of_readResponse {lines seen left seen' left' : List RpcMessage}
    {msg msg' line : RpcMessage} (h : readResponse lines = some (msg, seen, left))
    (h' : readResponse left = some (msg', seen', left')) (hline : line ∈ seen ++ seen') :
    line ∈ lines := by
  rw [readResponse_eq h, readResponse_eq h']
  simp only [List.mem_append, List.mem_cons] at hline ⊢
  tauto

/-- The handshake makes up no line. -/
theorem connectUpstream_handshakeLines {target : UpstreamTarget} {configure : Option RpcMessage}
    {name : String} {lines : List RpcMessage} {conn : UpstreamConn}
    (h : connectUpstream target configure name lines = some conn) :
    conn.handshakeLines ⊆ lines := by
  intro line hline
  unfold connectUpstream at h
  cases configure with
  | none =>
    simp only [Option.bind_eq_bind, Option.bind_eq_some_iff, Option.some.injEq] at h
    obtain ⟨_, rfl, ⟨_, _, _⟩, hsub, _, _, ⟨_, _, _⟩, hauth, rfl⟩ := h
    exact mem_of_readResponse hsub hauth hline
  | some c =>
    simp only [Option.bind_eq_bind, Option.bind_eq_some_iff, Option.some.injEq] at h
    obtain ⟨_, hmap, ⟨_, _, _⟩, hsub, _, _, ⟨_, _, _⟩, hauth, rfl⟩ := h
    obtain ⟨⟨_, _, _⟩, hconfigure, rfl⟩ := Option.map_eq_some_iff.mp hmap
    rw [List.append_assoc, List.mem_append] at hline
    rcases hline with hline | hline
    · exact mem_of_readResponse hconfigure hsub (List.mem_append_left _ hline)
    · rw [readResponse_eq hconfigure]
      exact List.mem_append_right _
        (List.mem_cons_of_mem _ (mem_of_readResponse hsub hauth hline))

/-- A connect that ends in passthrough went through the SV1 handshake. -/
theorem connectRaw_sv1 {target : UpstreamTarget} {configure : Option RpcMessage} {name : String}
    {answer : PoolAnswer} {conn : UpstreamConn}
    (h : connectRaw target configure name answer = some (.sv1 conn)) :
    ∃ lines, answer.sv1 = some lines ∧
      connectUpstream target configure name lines = some conn := by
  unfold connectRaw at h
  split at h
  · rename_i conn' hconn
    cases h
    exact Option.bind_eq_some_iff.mp hconn
  · simp at h

/-! ## Lines of a passthrough upstream and of the miner -/

/-- The response arm of `on_upstream_msg`: credit a submit that was accepted. -/
def creditResponse (now : Rat) (generation : Nat) (msg : RpcMessage) (i : Inner) :
    Inner × Credit :=
  match i.pending.lookup (idKey msg.id) with
  | none => (i, none)
  | some (g, diff) =>
    let i := { i with pending := i.pending.erase (idKey msg.id) }
    if g = generation ∧ msg.result = some (.bool true) then
      ({ i with
          hashrate := i.hashrate.recordAt now diff
          deliveredWork := i.deliveredWork + diff
          acceptedShares := i.acceptedShares + 1 },
        i.routing.orderId?.map fun o => (o, diff, 1))
    else (i, none)

/-- `on_upstream_msg`: the new state, the credit of the active order, and the
line to forward to the miner. -/
def onUpstreamMsg (now : Rat) (generation : Nat) (msg : RpcMessage) (i : Inner) :
    Inner × Credit × Option RpcMessage :=
  if generation ≠ i.active.generation then (i, none, none)
  else if msg.method = some "mining.set_difficulty" then
    match msg.firstParam.bind Value.asF64 with
    | some d => ({ i with currentDifficulty := d }, none, some msg)
    | none => (i, none, some msg)
  else if msg.method = none then
    let (i, credit) := creditResponse now generation msg i
    (i.flagLowRatio, credit, some msg)
  else (i, none, some msg)

/-- `on_miner_msg`: the new state and the order a submitted share counts for. -/
def onMinerMsg (msg : RpcMessage) (i : Inner) : Inner × Option String :=
  if msg.method = some "mining.authorize" then (i, none)
  else if msg.method = some "mining.submit" then
    let pending :=
      if i.translating then i.pending
      else i.pending.insert (idKey msg.id) (i.active.generation, i.currentDifficulty)
    let upWorker := upstreamWorker i.active.target.user i.label
    ({ i with pending, submittedShares := i.submittedShares + 1 }.sendUp
        (msg.setFirstParam (.str upWorker)),
      i.routing.orderId?)
  else if msg.method = some "mining.extranonce.subscribe" then
    ({ i with extranonceCapable := true }.sendUp msg, none)
  else if msg.method = some "mining.configure" then
    ({ i with configure := some msg }.sendUp msg, none)
  else (i.sendUp msg, none)

/-! ## The reader of a translated upstream -/

/-- `set_translate_difficulty`: `false` when the generation is stale. -/
def setTranslateDifficulty (generation : Nat) (diff : Rat) (i : Inner) : Inner × Bool :=
  if generation ≠ i.active.generation then (i, false)
  else ({ i with currentDifficulty := diff }, true)

/-- `send_or_stash`: the new state, and whether to queue the line now. -/
def sendOrStash (generation : Nat) (msg : RpcMessage) (i : Inner) : Inner × Bool :=
  if generation ≠ i.active.generation then (i, false)
  else if i.subscribed then (i, true)
  else ({ i with pendingPrelude := i.pendingPrelude ++ [⟨.reader generation, msg⟩] }, false)

/-- `credit_translate_accepted`: credit `count` shares at the difficulty in
force now. -/
def creditTranslateAccepted (now : Rat) (generation count : Nat) (i : Inner) :
    Inner × Credit :=
  if generation ≠ i.active.generation then (i, none)
  else
    let work := i.currentDifficulty * count
    if 0 < work then
      (({ i with
          hashrate := i.hashrate.recordAt now work
          deliveredWork := i.deliveredWork + work
          acceptedShares := i.acceptedShares + count } : Inner).flagLowRatio,
        i.routing.orderId?.map fun o => (o, work, count))
    else (i.flagLowRatio, none)

/-- `send_submit_result`: the answer to a translated `mining.submit`. -/
def submitResultLine (id : Option Value) (ok : Bool) : RpcMessage where
  id := id
  result := some (.bool ok)
  error := some (if ok then .null
    else .arr [.num (.int 20), .str "rejected", .null])

/-! ## What each operation leaves alone -/

/-- The fields that accounting may touch; everything else is unchanged. -/
def Inner.SameSession (i i' : Inner) : Prop :=
  i' = { i with
    currentDifficulty := i'.currentDifficulty
    pending := i'.pending
    hashrate := i'.hashrate
    deliveredWork := i'.deliveredWork
    acceptedShares := i'.acceptedShares
    acceptLowLogged := i'.acceptLowLogged }

theorem Inner.SameSession.refl (i : Inner) : i.SameSession i := rfl

/-- The session around the accounting fields, one equation per field. -/
theorem Inner.SameSession.fields {i i' : Inner} (h : i.SameSession i') :
    i'.active = i.active ∧ i'.generationCounter = i.generationCounter ∧
      i'.routing = i.routing ∧ i'.label = i.label ∧
      i'.pendingPrelude = i.pendingPrelude ∧ i'.translating = i.translating ∧
      i'.subscribed = i.subscribed ∧ i'.extranonceCapable = i.extranonceCapable := by
  unfold Inner.SameSession at h
  rw [h]
  exact ⟨rfl, rfl, rfl, rfl, rfl, rfl, rfl, rfl⟩

theorem Inner.SameSession.configure {i i' : Inner} (h : i.SameSession i') :
    i'.configure = i.configure := by
  unfold Inner.SameSession at h
  rw [h]

theorem Inner.flagLowRatio_same (i : Inner) : i.SameSession i.flagLowRatio := by
  unfold Inner.flagLowRatio
  split <;> rfl

/-- The flag touches nothing that accounting reads. -/
@[simp] theorem Inner.flagLowRatio_deliveredWork (i : Inner) :
    i.flagLowRatio.deliveredWork = i.deliveredWork := by
  unfold Inner.flagLowRatio
  split <;> rfl

@[simp] theorem Inner.flagLowRatio_currentDifficulty (i : Inner) :
    i.flagLowRatio.currentDifficulty = i.currentDifficulty := by
  unfold Inner.flagLowRatio
  split <;> rfl

@[simp] theorem Inner.flagLowRatio_pending (i : Inner) :
    i.flagLowRatio.pending = i.pending := by
  unfold Inner.flagLowRatio
  split <;> rfl

theorem Inner.SameSession.trans {i j k : Inner} (hij : i.SameSession j)
    (hjk : j.SameSession k) : i.SameSession k := by
  unfold Inner.SameSession at *
  rw [hjk, hij]

theorem creditResponse_same (now : Rat) (g : Nat) (msg : RpcMessage) (i : Inner) :
    i.SameSession (creditResponse now g msg i).1 := by
  unfold creditResponse
  split
  · rfl
  · split <;> rfl

/-- A pool line changes accounting only. -/
theorem onUpstreamMsg_same (now : Rat) (g : Nat) (msg : RpcMessage) (i : Inner) :
    i.SameSession (onUpstreamMsg now g msg i).1 := by
  unfold onUpstreamMsg
  split_ifs
  · rfl
  · split <;> rfl
  · exact (creditResponse_same now g msg i).trans (Inner.flagLowRatio_same _)
  · rfl

/-- A stale line is dropped and changes nothing. -/
theorem onUpstreamMsg_stale {now : Rat} {g : Nat} {msg : RpcMessage} {i : Inner}
    (h : g ≠ i.active.generation) : onUpstreamMsg now g msg i = (i, none, none) := by
  rw [onUpstreamMsg, if_pos h]

/-- A line of the active upstream is forwarded. -/
theorem onUpstreamMsg_forward {now : Rat} {g : Nat} {msg : RpcMessage} {i : Inner}
    (h : g = i.active.generation) : (onUpstreamMsg now g msg i).2.2 = some msg := by
  unfold onUpstreamMsg
  rw [if_neg (by simpa using h)]
  split_ifs
  · split <;> rfl
  · rfl
  · rfl

/-- The accounting difficulty after a line of the active upstream is the one
the line sets, if it sets one. -/
theorem onUpstreamMsg_currentDifficulty (now : Rat) {g : Nat} (msg : RpcMessage)
    {i : Inner} (h : g = i.active.generation) :
    (onUpstreamMsg now g msg i).1.currentDifficulty =
      msg.setDifficulty?.getD i.currentDifficulty := by
  unfold onUpstreamMsg RpcMessage.setDifficulty?
  rw [if_neg (by simpa using h)]
  split_ifs with hset hresp
  · cases msg.firstParam.bind Value.asF64 <;> rfl
  · simp only [Inner.flagLowRatio_currentDifficulty, Option.getD_none]
    unfold creditResponse
    split
    · rfl
    · split <;> rfl
  · rfl

/-- A translated line of a stale generation goes nowhere. -/
theorem sendOrStash_stale {g : Nat} {msg : RpcMessage} {i : Inner}
    (h : g ≠ i.active.generation) : sendOrStash g msg i = (i, false) := by
  rw [sendOrStash, if_pos h]

/-- After the subscribe a translated line is queued at once. -/
theorem sendOrStash_send {msg : RpcMessage} {i : Inner} (h : i.subscribed = true) :
    sendOrStash i.active.generation msg i = (i, true) := by
  rw [sendOrStash, if_neg (by simp), if_pos h]

/-- Before the subscribe a translated line joins the prelude. -/
theorem sendOrStash_stash {msg : RpcMessage} {i : Inner} (h : i.subscribed = false) :
    sendOrStash i.active.generation msg i =
      ({ i with pendingPrelude :=
          i.pendingPrelude ++ [⟨.reader i.active.generation, msg⟩] }, false) := by
  rw [sendOrStash, if_neg (by simp), if_neg (by simp [h])]

theorem creditTranslateAccepted_same (now : Rat) (g n : Nat) (i : Inner) :
    i.SameSession (creditTranslateAccepted now g n i).1 := by
  unfold creditTranslateAccepted
  split_ifs
  · rfl
  · dsimp only
    split
    · exact Inner.SameSession.trans (j := { i with
        hashrate := _, deliveredWork := _, acceptedShares := _ }) rfl
        (Inner.flagLowRatio_same _)
    · exact Inner.flagLowRatio_same i

theorem setTranslateDifficulty_same (g : Nat) (d : Rat) (i : Inner) :
    i.SameSession (setTranslateDifficulty g d i).1 := by
  unfold setTranslateDifficulty
  split <;> rfl

end RentalProxy.Sv1
