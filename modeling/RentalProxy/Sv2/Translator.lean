import RentalProxy.Sv2.Relay

/-!
# An SV1 pool behind an SV2 miner

The translator of `proto/sv2/relay.rs`: the proxy is the SV1 client of the pool
and makes up the SV2 channel that the miner sees.

* `connectSv1Upstream` is the handshake against the lines that the pool sends.
* `handleSv1Line` turns a line of the pool into calls to the session.  The
  session is called under its own lock, one `SessionCall` at a time.
* `translateSubmit` turns a share of the miner into the `mining.submit` that is
  written to the pool.

Parsing a `mining.notify` or a `mining.set_difficulty`, and hashing a coinbase
into a merkle root, is the work of the SV1 library (`Sv1Library`).  The counters
of the translator wrap at 32 and 64 bits; here they are natural numbers, and
`Sv2/Extranonce2.lean` has them at their widths.
-/

namespace RentalProxy.Sv2

/-! ## Hexadecimal text -/

/-- The value of a hexadecimal digit of either case. -/
def hexDigit (c : Char) : Option Nat :=
  if '0' ≤ c ∧ c ≤ '9' then some (c.toNat - '0'.toNat)
  else if 'a' ≤ c ∧ c ≤ 'f' then some (c.toNat - 'a'.toNat + 10)
  else if 'A' ≤ c ∧ c ≤ 'F' then some (c.toNat - 'A'.toNat + 10)
  else none

/-- `u32::from_str_radix(s, 16)`. -/
def parseHexU32 (s : String) : Option Nat := do
  let digits := if s.toList.head? = some '+' then s.toList.tail else s.toList
  if digits.isEmpty then none
  else
    let value ← digits.foldlM (fun acc c => (hexDigit c).map (acc * 16 + ·)) 0
    if value < 2 ^ 32 then some value else none

/-- The bytes of pairs of digits, `none` when a digit is left over. -/
def bytesOfHex : List Char → Option (List UInt8)
  | [] => some []
  | [_] => none
  | hi :: lo :: rest => do
    let h ← hexDigit hi
    let l ← hexDigit lo
    let bytes ← bytesOfHex rest
    some (UInt8.ofNat (h * 16 + l) :: bytes)

/-! ## The SV1 library -/

/-- A parsed `mining.notify`. -/
structure Notify where
  jobId : String
  prevHash : List UInt8
  coinBase1 : List UInt8
  coinBase2 : List UInt8
  merkleBranch : List (List UInt8)
  version : Nat
  bits : Nat
  time : Nat
  cleanJobs : Bool
deriving DecidableEq

/-- What the translator uses of the SV1 library. -/
structure Sv1Library where
  /-- `notify_from_line`. -/
  notify : RpcMessage → Option Notify
  /-- `set_difficulty_from_line`. -/
  setDifficulty : RpcMessage → Option Rat
  /-- `merkle_root_from_path`, of coinbase parts, extranonce and path. -/
  merkleRoot : List UInt8 → List UInt8 → List UInt8 → List (List UInt8) → Option (List UInt8)

/-! ## The handshake -/

/-- `Value::get` of an object. -/
def fieldOf (v : Value) (key : String) : Option Value :=
  match v with
  | .obj fields => (fields.find? fun f => decide (f.1 = key)).map Prod.snd
  | _ => none

/-- The version-rolling mask without an answer of the pool. -/
def versionRollingMask : Nat := 0x1fffe000

/-- `parse_version_mask`: `none` unless the pool agreed to version rolling. -/
def parseVersionMask (resp : RpcMessage) : Option Nat :=
  match resp.result.bind (fieldOf · "version-rolling") with
  | some (.bool true) =>
    let mask := ((resp.result.bind (fieldOf · "version-rolling.mask")).bind Value.asStr).bind
      parseHexU32
    some (mask.getD versionRollingMask)
  | _ => none

/-- `parse_subscribe_sv1`. -/
def parseSubscribeSv1 (resp : RpcMessage) : Option (String × Nat) := do
  let arr ← resp.result.bind Value.asArray
  if arr.length < 3 then none
  else
    let en1 ← (arr[1]?).bind Value.asStr
    let en2 ← (arr[2]?).bind Value.asU64
    some (en1, en2 % 2 ^ 16)

/-- `connect_sv1_upstream` against the lines the pool sends: `configure`,
`subscribe`, `authorize`. -/
def connectSv1Upstream (lib : Sv1Library) (lines : List RpcMessage) : Option Sv1UpConn := do
  let (cfg, seen, lines) ← Sv1.readResponse lines
  let (sub, seen', lines) ← Sv1.readResponse lines
  let (en1, extranonce2Size) ← parseSubscribeSv1 sub
  let (_, seen'', lines) ← Sv1.readResponse lines
  let extranonce1 ← bytesOfHex en1.toList
  let handshakeLines := seen ++ seen' ++ seen''
  some {
    extranonce1, extranonce2Size
    versionMask := parseVersionMask cfg
    initialDiff := (handshakeLines.reverse.findSome? lib.setDifficulty).getD 1
    handshakeLines
    reader := lines }

/-! ## Lines of the pool -/

/-- What a job needs to translate its shares back. -/
structure Sv1JobInfo where
  sv1JobId : String
  /-- Standard channels: the extranonce that the proxy chose. -/
  extranonce2 : Option (List UInt8)
deriving DecidableEq

/-- The state the reader and the writer of a translated upstream share. -/
structure Sv1UpState where
  versionMask : Option Nat
  userName : String
  extended : Bool
  extranonce1 : List UInt8
  extranonce2Size : Nat
  nextExtranonce2 : Nat
  nextJobId : Nat
  jobMap : AList fun _ : Nat => Sv1JobInfo
  nextSubmitId : Nat
  /-- Submit id to the sequence number of the miner's share. -/
  submitSeq : AList fun _ : Nat => Nat
  firstJobSent : Bool

namespace Sv1UpState

/-- The state of a connection that was just made. -/
def new (conn : Sv1UpConn) (userName : String) (extended : Bool) : Sv1UpState where
  versionMask := conn.versionMask
  userName
  extended
  extranonce1 := conn.extranonce1
  extranonce2Size := conn.extranonce2Size
  nextExtranonce2 := 0
  nextJobId := 1
  jobMap := ∅
  nextSubmitId := 1
  submitSeq := ∅
  firstJobSent := false

/-- The extranonce of the next Standard job: the counter, padded. -/
def rolledExtranonce2 (s : Sv1UpState) : List UInt8 :=
  leBytes (min s.extranonce2Size 8) s.nextExtranonce2 ++
    List.replicate (s.extranonce2Size - 8) 0

/-- Remember a new job under the next SV2 job id. -/
def recordJob (s : Sv1UpState) (sv1JobId : String) : Sv1UpState :=
  let jobs := if 64 ≤ s.jobMap.keys.length then ∅ else s.jobMap
  { s with
    nextJobId := s.nextJobId + 1
    firstJobSent := true
    nextExtranonce2 := if s.extended then s.nextExtranonce2 else s.nextExtranonce2 + 1
    jobMap := jobs.insert s.nextJobId
      ⟨sv1JobId, if s.extended then none else some s.rolledExtranonce2⟩ }

end Sv1UpState

/-- A call of the translating reader to the session. -/
inductive SessionCall where
  | sendTranslateFrame (frame : EitherFrame)
  | setTranslateDiff (diff : Rat)
  | creditTranslate
deriving DecidableEq

/-- The `SetNewPrevHash` that activates a future job. -/
def activation (notify : Notify) (downCid jobId : Nat) : SetNewPrevHash where
  channelId := downCid
  jobId
  prevHash := notify.prevHash
  minNtime := notify.time
  nbits := notify.bits

/-- `sv1_notify_to_sv2_job`: the parts of the coinbase go through as they are. -/
def sv1NotifyToSv2Job (notify : Notify) (downCid jobId : Nat) (asFuture rolling : Bool) :
    Option NewExtendedMiningJob :=
  if notify.merkleBranch.length ≤ 255 ∧ notify.coinBase1.length < 2 ^ 16 ∧
      notify.coinBase2.length < 2 ^ 16 then
    some {
      channelId := downCid
      jobId
      minNtime := if asFuture then none else some notify.time
      version := notify.version
      versionRollingAllowed := rolling
      merklePath := notify.merkleBranch
      coinbaseTxPrefix := notify.coinBase1
      coinbaseTxSuffix := notify.coinBase2 }
  else none

theorem eq_of_sv1NotifyToSv2Job {notify : Notify} {downCid jobId : Nat} {asFuture rolling : Bool}
    {job : NewExtendedMiningJob}
    (h : sv1NotifyToSv2Job notify downCid jobId asFuture rolling = some job) :
    job = {
      channelId := downCid
      jobId
      minNtime := if asFuture then none else some notify.time
      version := notify.version
      versionRollingAllowed := rolling
      merklePath := notify.merkleBranch
      coinbaseTxPrefix := notify.coinBase1
      coinbaseTxSuffix := notify.coinBase2 } := by
  rw [sv1NotifyToSv2Job, Option.ite_none_right_eq_some] at h
  exact (Option.some.inj h.2).symm

/-- `sv1_notify_to_sv2_standard_job`: the proxy folds the merkle root. -/
def sv1NotifyToSv2StandardJob (lib : Sv1Library) (notify : Notify) (downCid jobId : Nat)
    (extranonce1 extranonce2 : List UInt8) (asFuture : Bool) : Option NewMiningJob := do
  let root ← lib.merkleRoot notify.coinBase1 notify.coinBase2 (extranonce1 ++ extranonce2)
    notify.merkleBranch
  let merkleRoot ← u256 root
  some {
    channelId := downCid
    jobId
    minNtime := if asFuture then none else some notify.time
    version := notify.version
    merkleRoot }

/-- The job has the root of the coinbase with this extranonce. -/
theorem eq_of_sv1NotifyToSv2StandardJob {lib : Sv1Library} {notify : Notify}
    {downCid jobId : Nat} {extranonce1 extranonce2 : List UInt8} {asFuture : Bool}
    {job : NewMiningJob}
    (h : sv1NotifyToSv2StandardJob lib notify downCid jobId extranonce1 extranonce2 asFuture =
      some job) :
    ∃ root merkleRoot, lib.merkleRoot notify.coinBase1 notify.coinBase2
        (extranonce1 ++ extranonce2) notify.merkleBranch = some root ∧
      u256 root = some merkleRoot ∧ job = {
        channelId := downCid
        jobId
        minNtime := if asFuture then none else some notify.time
        version := notify.version
        merkleRoot } := by
  simp only [sv1NotifyToSv2StandardJob, Option.bind_eq_bind, Option.bind_eq_some_iff] at h
  obtain ⟨root, hroot, merkleRoot, hsize, hjob⟩ := h
  exact ⟨root, merkleRoot, hroot, hsize, (Option.some.inj hjob).symm⟩

/-- The notify arm of `handle_sv1_line`: a job, and its activation when it is
sent as a future job. -/
def translateNotify (lib : Sv1Library) (downCid : Nat) (notify : Notify) (s : Sv1UpState) :
    Sv1UpState × List SessionCall :=
  -- the first job is always a future one: the miner has no prev-hash yet
  let asFuture := notify.cleanJobs || !s.firstJobSent
  let job : Option Mining :=
    if s.extended then
      (sv1NotifyToSv2Job notify downCid s.nextJobId asFuture s.versionMask.isSome).map
        .newExtendedMiningJob
    else
      (sv1NotifyToSv2StandardJob lib notify downCid s.nextJobId s.extranonce1
        s.rolledExtranonce2 asFuture).map .newMiningJob
  let prev : List Mining :=
    if asFuture then [.setNewPrevHash (activation notify downCid s.nextJobId)] else []
  (s.recordJob notify.jobId,
    match job with
    | some j => (j :: prev).map fun m => .sendTranslateFrame (.built m)
    | none => [])

/-- The response arm of `handle_sv1_line`: the answer to a share. -/
def translateResponse (downCid : Nat) (line : RpcMessage) (s : Sv1UpState) :
    Sv1UpState × List SessionCall :=
  match line.id.bind Value.asU64 with
  | none => (s, [])
  | some id =>
    match s.submitSeq.lookup id with
    | none => (s, [])
    | some seq =>
      ({ s with submitSeq := s.submitSeq.erase id },
        if line.result = some (.bool true) then
          [.creditTranslate,
            .sendTranslateFrame (.built (.submitSharesSuccess downCid seq 1 1))]
        else [.sendTranslateFrame (.built (.submitSharesError downCid seq "rejected"))])

/-- `handle_sv1_line`. -/
def handleSv1Line (lib : Sv1Library) (downCid : Nat) (line : RpcMessage) (s : Sv1UpState) :
    Sv1UpState × List SessionCall :=
  match lib.notify line with
  | some notify => translateNotify lib downCid notify s
  | none =>
    match lib.setDifficulty line with
    | some diff => (s, .setTranslateDiff diff ::
        ((setTarget downCid (targetFromDifficulty diff)).map .sendTranslateFrame).toList)
    | none => if line.method.isSome then (s, []) else translateResponse downCid line s

/-! ## Shares of the miner -/

/-- The `mining.submit` of the SV1 library. -/
structure Sv1Submit where
  id : Nat
  userName : String
  jobId : String
  extranonce2 : List UInt8
  time : Nat
  nonce : Nat
  versionBits : Option Nat
deriving DecidableEq

/-- The share of a `SubmitSharesExtended` or `SubmitSharesStandard` frame. -/
def shareOf (decode : Decoder) (frame : Sv2Frame) : Option SubmitShares :=
  match decode frame.msgType frame.payload with
  | some (.submitShares share) => some share
  | _ => none

/-- One frame of `spawn_sv1_translate_writer`: the shared state after it, and
the line for the pool.  Only shares cross to the pool. -/
def translateSubmit (decode : Decoder) (frame : Sv2Frame) (s : Sv1UpState) :
    Sv1UpState × Option Sv1Submit :=
  match shareOf decode frame with
  | none => (s, none)
  | some share =>
    match s.jobMap.lookup share.jobId with
    | none => (s, none)
    | some info =>
      -- an Extended share carries its extranonce, a Standard one that of its job
      match share.extranonce.orElse fun _ => info.extranonce2 with
      | none => (s, none)
      | some extranonce2 =>
        ({ s with
            nextSubmitId := s.nextSubmitId + 1
            submitSeq := s.submitSeq.insert s.nextSubmitId share.sequenceNumber },
          (b032 extranonce2).map fun en2 => {
            id := s.nextSubmitId
            userName := s.userName
            jobId := info.sv1JobId
            extranonce2 := en2
            time := share.ntime
            nonce := share.nonce
            versionBits := s.versionMask.map (share.version &&& ·) })

/-! ## What the calls are about -/

/-- A notify makes a job and an activation for the channel. -/
theorem translateNotify_channel {lib : Sv1Library} {downCid : Nat} {notify : Notify}
    {s : Sv1UpState} {frame : EitherFrame}
    (h : .sendTranslateFrame frame ∈ (translateNotify lib downCid notify s).2) :
    frame.channelId? = some downCid := by
  unfold translateNotify at h
  dsimp only at h
  split at h
  · rename_i job hjob
    have hj : (EitherFrame.built job).channelId? = some downCid := by
      split at hjob
      · obtain ⟨_, hmk, rfl⟩ := Option.map_eq_some_iff.mp hjob
        obtain rfl := eq_of_sv1NotifyToSv2Job hmk
        rfl
      · obtain ⟨_, hmk, rfl⟩ := Option.map_eq_some_iff.mp hjob
        obtain ⟨_, _, _, _, rfl⟩ := eq_of_sv1NotifyToSv2StandardJob hmk
        rfl
    simp only [List.map_cons, List.mem_cons, SessionCall.sendTranslateFrame.injEq,
      List.mem_map] at h
    rcases h with rfl | ⟨m, hm, rfl⟩
    · exact hj
    · split at hm
      · rw [List.mem_singleton.mp hm]
        rfl
      · cases hm
  · cases h

/-- A response makes a share result for the channel. -/
theorem translateResponse_channel {downCid : Nat} {line : RpcMessage} {s : Sv1UpState}
    {frame : EitherFrame} (h : .sendTranslateFrame frame ∈ (translateResponse downCid line s).2) :
    frame.channelId? = some downCid := by
  unfold translateResponse at h
  repeat' split at h
  all_goals simp at h
  all_goals subst h; rfl

/-- Every frame that the reader sends is for its channel. -/
theorem handleSv1Line_channel {lib : Sv1Library} {downCid : Nat} {line : RpcMessage}
    {s : Sv1UpState} {frame : EitherFrame}
    (h : .sendTranslateFrame frame ∈ (handleSv1Line lib downCid line s).2) :
    frame.channelId? = some downCid := by
  unfold handleSv1Line at h
  split at h
  · exact translateNotify_channel h
  · split at h
    · simp only [List.mem_cons, reduceCtorEq, Option.mem_toList, setTarget, Option.map_map,
        Option.map_eq_some_iff, Function.comp, SessionCall.sendTranslateFrame.injEq,
        false_or] at h
      obtain ⟨_, _, rfl⟩ := h
      rfl
    · split at h
      · cases h
      · exact translateResponse_channel h

end RentalProxy.Sv2
