import RentalProxy.Translate

/-!
# SV2 frames

The frame plumbing of `proto/sv2/wire.rs` and the builders and parsers of
`proto/sv2/relay/codec.rs`.

A received frame is its message type and its payload bytes, and the relay
forwards it by rewriting the first four of them.  A frame that the proxy
builds itself is a typed message.  Decoding a payload into a typed message is
the work of the SV2 library, so every function that decodes takes the library's
decoder as an argument (`Decoder`).
-/

namespace RentalProxy.Sv2

/-- The message types the relay tells apart. -/
inductive MsgType where
  | openStandardMiningChannel
  | openStandardMiningChannelSuccess
  | openMiningChannelError
  | openExtendedMiningChannel
  | openExtendedMiningChannelSuccess
  | newMiningJob
  | updateChannel
  | updateChannelError
  | closeChannel
  | setExtranoncePrefix
  | submitSharesStandard
  | submitSharesExtended
  | submitSharesSuccess
  | submitSharesError
  | newExtendedMiningJob
  | setNewPrevHash
  | setTarget
  | other (code : Nat)
deriving DecidableEq

/-- A decoded frame: header and payload. -/
structure Sv2Frame where
  /-- The extension, and the bit that says that the message is for a channel. -/
  extensionType : Nat := 0
  msgType : MsgType
  payload : List UInt8
deriving DecidableEq

structure NewMiningJob where
  channelId : Nat
  jobId : Nat
  minNtime : Option Nat
  version : Nat
  merkleRoot : List UInt8
deriving DecidableEq

structure NewExtendedMiningJob where
  channelId : Nat
  jobId : Nat
  minNtime : Option Nat
  version : Nat
  versionRollingAllowed : Bool
  merklePath : List (List UInt8)
  coinbaseTxPrefix : List UInt8
  coinbaseTxSuffix : List UInt8
deriving DecidableEq

structure SetNewPrevHash where
  channelId : Nat
  jobId : Nat
  prevHash : List UInt8
  minNtime : Nat
  nbits : Nat
deriving DecidableEq

structure SubmitShares where
  channelId : Nat
  sequenceNumber : Nat
  jobId : Nat
  nonce : Nat
  ntime : Nat
  version : Nat
  /-- Extended channels only: the part the miner rolls. -/
  extranonce : Option (List UInt8)
deriving DecidableEq

/-- The typed mining messages that are built or parsed. -/
inductive Mining where
  | openStandardMiningChannel (requestId : Nat) (user : String) (nominalHashRate : Rat)
      (maxTarget : List UInt8)
  | openExtendedMiningChannel (requestId : Nat) (user : String) (nominalHashRate : Rat)
      (maxTarget : List UInt8) (minExtranonceSize : Nat)
  | openStandardMiningChannelSuccess (requestId channelId : Nat) (target : List UInt8)
      (extranoncePrefix : List UInt8) (groupChannelId : Nat)
  | openExtendedMiningChannelSuccess (requestId channelId : Nat) (target : List UInt8)
      (extranonceSize : Nat) (extranoncePrefix : List UInt8) (groupChannelId : Nat)
  | openMiningChannelError (requestId : Nat) (errorCode : String)
  | newMiningJob (job : NewMiningJob)
  | newExtendedMiningJob (job : NewExtendedMiningJob)
  | setNewPrevHash (prev : SetNewPrevHash)
  | setExtranoncePrefix (channelId : Nat) (extranoncePrefix : List UInt8)
  | setTarget (channelId : Nat) (maximumTarget : List UInt8)
  | submitShares (share : SubmitShares)
  | submitSharesSuccess (channelId lastSequenceNumber newSubmitsAcceptedCount
      newSharesSum : Nat)
  | submitSharesError (channelId sequenceNumber : Nat) (errorCode : String)
  | closeChannel (channelId : Nat) (reasonCode : String)
deriving DecidableEq

/-- A frame on its way to a transport: received and re-emitted, or built
here. -/
inductive EitherFrame where
  | received (frame : Sv2Frame)
  | built (msg : Mining)
deriving DecidableEq

/-- The SV2 library's `Mining::try_from((msg_type, payload))`. -/
abbrev Decoder := MsgType → List UInt8 → Option Mining

/-! ## Channel ids -/

/-- `read_channel_id`: the first four little-endian bytes. -/
def readChannelId (frame : Sv2Frame) : Option Nat :=
  if frame.payload.length < 4 then none else some (leNat (frame.payload.take 4))

/-- A channel id as its four bytes hold it. -/
def wireId (channelId : Nat) : Nat := channelId % 2 ^ 32

/-- `rewrite_channel_id`, a no-op on a short payload. -/
def rewriteChannelId (frame : Sv2Frame) (channelId : Nat) : Sv2Frame :=
  if frame.payload.length < 4 then frame
  else { frame with payload := leBytes 4 channelId ++ frame.payload.drop 4 }

/-- `is_channel_scoped`. -/
def isChannelScoped : MsgType → Bool
  | .newMiningJob | .newExtendedMiningJob | .setNewPrevHash | .setExtranoncePrefix
  | .setTarget | .submitSharesStandard | .submitSharesExtended | .submitSharesSuccess
  | .submitSharesError | .updateChannel | .updateChannelError | .closeChannel => true
  | _ => false

@[simp] theorem rewriteChannelId_msgType (frame : Sv2Frame) (cid : Nat) :
    (rewriteChannelId frame cid).msgType = frame.msgType := by
  unfold rewriteChannelId
  split <;> rfl

/-- A rewritten id reads back. -/
theorem readChannelId_rewrite {frame : Sv2Frame} (cid : Nat)
    (hlen : 4 ≤ frame.payload.length) :
    readChannelId (rewriteChannelId frame cid) = some (wireId cid) := by
  have hshort : ¬frame.payload.length < 4 := by omega
  have hlong : ¬(leBytes 4 cid ++ frame.payload.drop 4).length < 4 := by
    simp only [List.length_append, leBytes_length]
    omega
  rw [rewriteChannelId, if_neg hshort]
  simp only [readChannelId, if_neg hlong]
  have htake : (leBytes 4 cid ++ frame.payload.drop 4).take 4 = leBytes 4 cid := by
    rw [List.take_append_of_le_length (by simp), List.take_of_length_le (by simp)]
  have hpow : 256 ^ 4 = 2 ^ 32 := by norm_num
  rw [htake, leNat_leBytes, hpow, wireId]

/-- The payload after the id is untouched. -/
theorem rewriteChannelId_drop (frame : Sv2Frame) (cid : Nat) :
    (rewriteChannelId frame cid).payload.drop 4 = frame.payload.drop 4 := by
  unfold rewriteChannelId
  split
  · rfl
  · simp

/-! ## Opens -/

/-- The miner's channel-open request, kept to re-open on every upstream. -/
inductive OpenSpec where
  | standard (requestId : Nat) (nominalHashRate : Rat) (maxTarget : List UInt8)
  | extended (requestId : Nat) (nominalHashRate : Rat) (maxTarget : List UInt8)
      (minExtranonceSize : Nat)
deriving DecidableEq

namespace OpenSpec

/-- The miner's own request id. -/
def requestId : OpenSpec → Nat
  | .standard r .. | .extended r .. => r

def isExtended : OpenSpec → Bool
  | .standard .. => false
  | .extended .. => true

end OpenSpec

/-- An upstream's channel-open success. -/
structure ChannelInfo where
  requestId : Nat
  upChannelId : Nat
  extranoncePrefix : List UInt8
  target : List UInt8
  extranonceSize : Nat
  groupChannelId : Nat
deriving DecidableEq

/-- `Str0255::try_from`: at most 255 bytes. -/
def str0255 (s : String) : Option String := if s.utf8ByteSize ≤ 255 then some s else none

/-- `B032::try_from`: at most 32 bytes. -/
def b032 (bytes : List UInt8) : Option (List UInt8) :=
  if bytes.length ≤ 32 then some bytes else none

/-- `U256::try_from`: exactly 32 bytes. -/
def u256 (bytes : List UInt8) : Option (List UInt8) :=
  if bytes.length = 32 then some bytes else none

/-- `open_channel_upstream`. -/
def openChannelUpstream (spec : OpenSpec) (account : String) (requestId : Nat) :
    Option EitherFrame := do
  let user ← str0255 account
  match spec with
  | .extended _ rate maxTarget minSize =>
    let max ← u256 maxTarget
    some (.built (.openExtendedMiningChannel requestId user rate max minSize))
  | .standard _ rate maxTarget =>
    let max ← u256 maxTarget
    some (.built (.openStandardMiningChannel requestId user rate max))

/-- `open_success_downstream`. -/
def openSuccessDownstream (spec : OpenSpec) (downChannelId downGroupId : Nat)
    (info : ChannelInfo) : Option EitherFrame := do
  let target ← u256 info.target
  let extranoncePrefix ← b032 info.extranoncePrefix
  match spec with
  | .extended .. =>
    some (.built (.openExtendedMiningChannelSuccess spec.requestId downChannelId target
      info.extranonceSize extranoncePrefix downGroupId))
  | .standard .. =>
    some (.built (.openStandardMiningChannelSuccess spec.requestId downChannelId target
      extranoncePrefix info.groupChannelId))

/-- `set_extranonce_prefix`. -/
def setExtranoncePrefix (channelId : Nat) (bytes : List UInt8) : Option EitherFrame :=
  (b032 bytes).map fun p => .built (.setExtranoncePrefix channelId p)

/-- `set_target`. -/
def setTarget (channelId : Nat) (target : List UInt8) : Option EitherFrame :=
  (u256 target).map fun t => .built (.setTarget channelId t)

/-- `open_channel_error`. -/
def openChannelError (requestId : Nat) (reason : String) : Option EitherFrame :=
  (str0255 reason).map fun r => .built (.openMiningChannelError requestId r)

/-- `close_channel_upstream`. -/
def closeChannelUpstream (channelId : Nat) : Option EitherFrame :=
  (str0255 "member disconnected").map fun r => .built (.closeChannel channelId r)

/-! ## Parsers -/

variable (decode : Decoder)

/-- `parse_open_success`. -/
def parseOpenSuccess (frame : Sv2Frame) : Option ChannelInfo :=
  match decode frame.msgType frame.payload with
  | some (.openExtendedMiningChannelSuccess requestId channelId target size pre group) =>
    some { requestId, upChannelId := channelId, extranoncePrefix := pre, target,
           extranonceSize := size, groupChannelId := group }
  | some (.openStandardMiningChannelSuccess requestId channelId target pre group) =>
    some { requestId, upChannelId := channelId, extranoncePrefix := pre, target,
           extranonceSize := 0, groupChannelId := group }
  | _ => none

/-- `parse_open_error_request_id`. -/
def parseOpenErrorRequestId (frame : Sv2Frame) : Option Nat :=
  match decode frame.msgType frame.payload with
  | some (.openMiningChannelError requestId _) => some requestId
  | _ => none

/-- `parse_set_target`. -/
def parseSetTarget (frame : Sv2Frame) : Option (List UInt8) :=
  match decode frame.msgType frame.payload with
  | some (.setTarget _ target) => some target
  | _ => none

/-- `parse_accepted_count`. -/
def parseAcceptedCount (frame : Sv2Frame) : Option Nat :=
  match decode frame.msgType frame.payload with
  | some (.submitSharesSuccess _ _ count _) => some count
  | _ => none

/-- `parse_submit_success`. -/
def parseSubmitSuccess (frame : Sv2Frame) : Option (Nat × Nat) :=
  match decode frame.msgType frame.payload with
  | some (.submitSharesSuccess _ last count _) => some (last, count)
  | _ => none

/-- `parse_new_extended_job`. -/
def parseNewExtendedJob (frame : Sv2Frame) : Option NewExtendedMiningJob :=
  match decode frame.msgType frame.payload with
  | some (.newExtendedMiningJob job) => some job
  | _ => none

/-- `parse_set_new_prev_hash`. -/
def parseSetNewPrevHash (frame : Sv2Frame) : Option SetNewPrevHash :=
  match decode frame.msgType frame.payload with
  | some (.setNewPrevHash prev) => some prev
  | _ => none

/-- `parse_submit_error_seq`. -/
def parseSubmitErrorSeq (frame : Sv2Frame) : Option Nat :=
  match decode frame.msgType frame.payload with
  | some (.submitSharesError _ seq _) => some seq
  | _ => none

/-- The messages that give a miner work. -/
def MsgType.isWork : MsgType → Bool
  | .newMiningJob | .newExtendedMiningJob | .setNewPrevHash | .setTarget => true
  | _ => false

/-- The channel a frame is about: the rewritten id of a received frame, the
id field of a built one. -/
def EitherFrame.channelId? : EitherFrame → Option Nat
  | .received frame => if isChannelScoped frame.msgType then readChannelId frame else none
  | .built (.newMiningJob j) => some j.channelId
  | .built (.newExtendedMiningJob j) => some j.channelId
  | .built (.setNewPrevHash p) => some p.channelId
  | .built (.setExtranoncePrefix c _) => some c
  | .built (.setTarget c _) => some c
  | .built (.submitSharesSuccess c ..) => some c
  | .built (.submitSharesError c ..) => some c
  | .built (.closeChannel c _) => some c
  | _ => none

/-- The channel and the request of an OpenSuccess that the proxy built. -/
def EitherFrame.openSuccess? : EitherFrame → Option (Nat × Nat)
  | .built (.openExtendedMiningChannelSuccess req cid ..) => some (cid, req)
  | .built (.openStandardMiningChannelSuccess req cid ..) => some (cid, req)
  | _ => none

/-- An OpenSuccess is about no channel that the miner knows yet. -/
theorem EitherFrame.openSuccess?_of_channelId? {frame : EitherFrame} {cid : Nat}
    (h : frame.channelId? = some cid) : frame.openSuccess? = none := by
  cases frame with
  | received frame => rfl
  | built msg => cases msg <;> first | rfl | cases h

/-- Frames that give a miner work: a job, a prev-hash or a target. -/
def EitherFrame.isWork : EitherFrame → Bool
  | .received frame => frame.msgType.isWork
  | .built (.newMiningJob _) => true
  | .built (.newExtendedMiningJob _) => true
  | .built (.setNewPrevHash _) => true
  | .built (.setTarget ..) => true
  | _ => false

/-! ## The binary format -/

/-- A little-endian number of `count` bytes, and what follows. -/
def takeNat (count : Nat) (bytes : List UInt8) : Option (Nat × List UInt8) :=
  if bytes.length < count then none else some (leNat (bytes.take count), bytes.drop count)

/-- A byte string of at most 32 bytes behind its length byte, and what follows. -/
def takeBytes : List UInt8 → Option (List UInt8 × List UInt8)
  | [] => none
  | len :: bytes =>
    if bytes.length < len.toNat ∨ 32 < len.toNat then none
    else some (bytes.take len.toNat, bytes.drop len.toNat)

/-- A 256-bit number as its 32 bytes, and what follows. -/
def takeU256 (bytes : List UInt8) : Option (List UInt8 × List UInt8) :=
  if bytes.length < 32 then none else some (bytes.take 32, bytes.drop 32)

/-- A decoder of the messages that open a channel, set its target and answer
its shares.  The concrete runs use it in the place of the library's. -/
def wireDecoder : Decoder
  | .openExtendedMiningChannelSuccess, bytes => do
    let (requestId, bytes) ← takeNat 4 bytes
    let (channelId, bytes) ← takeNat 4 bytes
    let (target, bytes) ← takeU256 bytes
    let (size, bytes) ← takeNat 2 bytes
    let (pre, bytes) ← takeBytes bytes
    let (group, _) ← takeNat 4 bytes
    some (.openExtendedMiningChannelSuccess requestId channelId target size pre group)
  | .setTarget, bytes => do
    let (channelId, bytes) ← takeNat 4 bytes
    let (target, _) ← takeU256 bytes
    some (.setTarget channelId target)
  | .submitSharesSuccess, bytes => do
    let (channelId, bytes) ← takeNat 4 bytes
    let (last, bytes) ← takeNat 4 bytes
    let (count, bytes) ← takeNat 4 bytes
    let (sum, _) ← takeNat 8 bytes
    some (.submitSharesSuccess channelId last count sum)
  | .submitSharesExtended, bytes => do
    let (channelId, bytes) ← takeNat 4 bytes
    let (sequenceNumber, bytes) ← takeNat 4 bytes
    let (jobId, bytes) ← takeNat 4 bytes
    let (nonce, bytes) ← takeNat 4 bytes
    let (ntime, bytes) ← takeNat 4 bytes
    let (version, bytes) ← takeNat 4 bytes
    let (extranonce, _) ← takeBytes bytes
    some (.submitShares {
      channelId, sequenceNumber, jobId, nonce, ntime, version, extranonce := some extranonce })
  | _, _ => none

/-- What the types of the format promise of an OpenSuccess: a target has 32
bytes, an extranonce prefix at most 32. -/
def Decoder.Sized (decode : Decoder) : Prop :=
  ∀ frame info, parseOpenSuccess decode frame = some info →
    info.target.length = 32 ∧ info.extranoncePrefix.length ≤ 32

theorem takeBytes_length {bytes taken rest : List UInt8}
    (h : takeBytes bytes = some (taken, rest)) : taken.length ≤ 32 := by
  cases bytes with
  | nil => cases h
  | cons len bytes =>
    simp only [takeBytes] at h
    split at h <;> cases h
    rename_i hfits
    rw [List.length_take]
    omega

theorem takeU256_length {bytes taken rest : List UInt8} (h : takeU256 bytes = some (taken, rest)) :
    taken.length = 32 := by
  unfold takeU256 at h
  split at h <;> cases h
  rw [List.length_take]
  omega

theorem wireDecoder_sized : Decoder.Sized wireDecoder := by
  rintro ⟨_, msgType, payload⟩ info h
  unfold parseOpenSuccess at h
  split at h <;> cases h
  · rename_i hdecoded
    cases msgType <;> simp only [wireDecoder, Option.bind_eq_bind, Option.bind_eq_some_iff,
      Option.some.injEq, reduceCtorEq, and_false, exists_false] at hdecoded
    obtain ⟨_, _, _, _, ⟨_, _⟩, htarget, _, _, ⟨_, _⟩, hprefix, _, _, heq⟩ := hdecoded
    cases heq
    exact ⟨takeU256_length htarget, takeBytes_length hprefix⟩
  · rename_i hdecoded
    cases msgType <;> simp only [wireDecoder, Option.bind_eq_bind, Option.bind_eq_some_iff,
      Option.some.injEq, reduceCtorEq, and_false, exists_false] at hdecoded

/-- A share is decoded from a frame that says that it is one. -/
def Decoder.Tagged (decode : Decoder) : Prop :=
  ∀ msgType payload share, decode msgType payload = some (.submitShares share) →
    msgType = .submitSharesStandard ∨ msgType = .submitSharesExtended

theorem wireDecoder_tagged : Decoder.Tagged wireDecoder := by
  intro msgType payload share h
  cases msgType <;> simp only [wireDecoder, Option.bind_eq_bind, Option.bind_eq_some_iff,
    Option.some.injEq, reduceCtorEq, and_false, exists_false] at h
  exact Or.inr rfl

/-! ## What a pool sends about shares -/

/-- The frames that a pool sends for one channel, as far as accounting reads
them.  The count of a SubmitSharesSuccess has 32 bits. -/
structure PoolFrames (decode : Decoder) (channelId : Nat) where
  setTarget : Target → Sv2Frame
  /-- Shares up to this sequence number are answered, so many are accepted. -/
  success : Nat → Nat → Sv2Frame
  error : Nat → Sv2Frame
  setTarget_type : ∀ t, (setTarget t).msgType = .setTarget
  setTarget_channel : ∀ t, readChannelId (setTarget t) = some channelId
  setTarget_parse : ∀ t, parseSetTarget decode (setTarget t) = some t.1
  success_type : ∀ last count, (success last count).msgType = .submitSharesSuccess
  success_channel : ∀ last count, readChannelId (success last count) = some channelId
  success_parse : ∀ last count, count < 2 ^ 32 →
    ∃ seq, parseSubmitSuccess decode (success last count) = some (seq, count)
  error_type : ∀ seq, (error seq).msgType = .submitSharesError
  error_channel : ∀ seq, readChannelId (error seq) = some channelId

theorem parseAcceptedCount_of_success {decode : Decoder} {frame : Sv2Frame} {seq count : Nat}
    (h : parseSubmitSuccess decode frame = some (seq, count)) :
    parseAcceptedCount decode frame = some count := by
  unfold parseSubmitSuccess at h
  unfold parseAcceptedCount
  split at h
  · cases h
    rfl
  · cases h

/-- A little-endian number in front reads back. -/
theorem takeNat_leBytes (count n : Nat) (rest : List UInt8) :
    takeNat count (leBytes count n ++ rest) = some (n % 256 ^ count, rest) := by
  have hlen : (leBytes count n).length = count := leBytes_length count n
  unfold takeNat
  rw [if_neg (by simp [hlen]), List.take_left' hlen, List.drop_left' hlen, leNat_leBytes]

theorem takeU256_append {bytes : List UInt8} (h : bytes.length = 32) (rest : List UInt8) :
    takeU256 (bytes ++ rest) = some (bytes, rest) := by
  unfold takeU256
  rw [if_neg (by simp [h]), List.take_left' h, List.drop_left' h]

theorem readChannelId_leBytes (channelId : Nat) (msgType : MsgType) (rest : List UInt8) :
    readChannelId { msgType, payload := leBytes 4 channelId ++ rest } =
      some (wireId channelId) := by
  have hlen : (leBytes 4 channelId).length = 4 := leBytes_length 4 channelId
  unfold readChannelId
  rw [if_neg (by simp [hlen]), List.take_left' hlen, leNat_leBytes]
  rfl

/-- The frames in the binary format. -/
def wireFrames (channelId : Nat) : PoolFrames wireDecoder (wireId channelId) where
  setTarget t := { msgType := .setTarget, payload := leBytes 4 channelId ++ (t.1 ++ []) }
  success last count := {
    msgType := .submitSharesSuccess
    payload :=
      leBytes 4 channelId ++ (leBytes 4 last ++ (leBytes 4 count ++ (leBytes 8 count ++ []))) }
  error seq := { msgType := .submitSharesError, payload := leBytes 4 channelId ++ leBytes 4 seq }
  setTarget_type _ := rfl
  setTarget_channel _ := readChannelId_leBytes ..
  setTarget_parse t := by
    simp only [parseSetTarget, wireDecoder, Option.bind_eq_bind, takeNat_leBytes, Option.bind_some,
      takeU256_append t.2]
  success_type _ _ := rfl
  success_channel _ _ := readChannelId_leBytes ..
  success_parse last count hcount := by
    have hfits : count % 256 ^ 4 = count := Nat.mod_eq_of_lt (by omega)
    refine ⟨last % 256 ^ 4, ?_⟩
    simp only [parseSubmitSuccess, wireDecoder, Option.bind_eq_bind, takeNat_leBytes,
      Option.bind_some, hfits]
  error_type _ := rfl
  error_channel _ := readChannelId_leBytes ..

end RentalProxy.Sv2
