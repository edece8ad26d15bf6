import RentalProxy.Sv1.Tasks
import RentalProxy.Sv2.Translator

/-!
# An SV2 pool behind an SV1 miner

The translator of `proto/relay.rs`: the proxy has opened an Extended channel on
the pool and makes up the SV1 session that the miner sees.

* `translateSubmit` turns a `mining.submit` of the miner into the share that is
  written to the pool.
* `handleSv2Frame` turns a frame of the pool into calls to the session.  The
  session is called under its own lock, one `SessionCall` at a time.
* `SessionCall.events` are the steps of the reader task that make a call.

Parsing a `mining.submit` and building a share or a `mining.notify` is the work
of the SV2 library (`Sv2Library`).  Sequence numbers wrap at 32 bits, which no
connection reaches; here they are natural numbers.
-/

namespace RentalProxy.Sv1

open Sv2 (Decoder Sv2Frame SetNewPrevHash NewExtendedMiningJob SubmitShares Sv1Submit)

/-- What the translator uses of the SV2 library. -/
structure Sv2Library where
  /-- `client_to_server::Submit::try_from`. -/
  submit : RpcMessage → Option Sv1Submit
  /-- `build_sv2_submit_shares_extended_from_sv1_submit`, of a submit, the
  channel, the sequence number, the version of its job and the mask. -/
  share : Sv1Submit → Nat → Nat → Nat → Option Nat → Option SubmitShares
  /-- `sv2_job_to_sv1_notify` and `notify_to_line`. -/
  notifyLine : SetNewPrevHash → NewExtendedMiningJob → Bool → Option RpcMessage

/-- `u32::from_str`. -/
def parseU32 (s : String) : Option Nat :=
  let digits := if s.toList.head? = some '+' then s.toList.tail else s.toList
  if digits.isEmpty || digits.any (fun c => !c.isDigit) then none
  else
    let value := digits.foldl (fun acc c => acc * 10 + (c.toNat - '0'.toNat)) 0
    if value < 2 ^ 32 then some value else none

/-- `Sv2UpState`, with the two variables of the reader. -/
structure Sv2UpState where
  channelId : Nat
  nextSeq : Nat := 0
  latestVersion : Nat := 0
  jobVersions : AList (fun _ : Nat => Nat) := ∅
  /-- Sequence number to the miner's submit id, oldest first. -/
  pendingSubmits : List (Nat × Option Value) := []
  prev : Option SetNewPrevHash := none
  job : Option NewExtendedMiningJob := none

namespace Sv2UpState

/-- The version of the job that a submit names, else the latest one. -/
def versionOf (s : Sv2UpState) (jobId : String) : Nat :=
  ((parseU32 jobId).bind fun j => s.jobVersions.lookup j).getD s.latestVersion

/-- Remember the version of a new job. -/
def recordVersion (s : Sv2UpState) (job : NewExtendedMiningJob) : Sv2UpState :=
  let versions := if 64 ≤ s.jobVersions.keys.length then ∅ else s.jobVersions
  { s with
    jobVersions := versions.insert job.jobId job.version
    latestVersion := job.version }

end Sv2UpState

/-- A call of the translating reader to the session. -/
inductive SessionCall where
  | setTranslateDifficulty (diff : Rat)
  | sendOrStash (line : RpcMessage)
  | creditTranslateAccepted (count : Nat)
  | sendSubmitResult (id : Option Value) (ok : Bool)

/-- `drain_acked`: the ids that are answered, and what is left. -/
def drainAcked (lastSeq : Nat) : List (Nat × Option Value) →
    List (Option Value) × List (Nat × Option Value)
  | [] => ([], [])
  | (seq, id) :: rest =>
    if seq ≤ lastSeq then
      let (ids, left) := drainAcked lastSeq rest
      (id :: ids, left)
    else ([], (seq, id) :: rest)

/-- `remove_seq`: the id of a rejected share. -/
def removeSeq (seq : Nat) (q : List (Nat × Option Value)) :
    Option (Option Value) × List (Nat × Option Value) :=
  match q.find? fun p => decide (p.1 = seq) with
  | some p => (some p.2, q.eraseP fun p => decide (p.1 = seq))
  | none => (none, q)

/-- `emit_translate_notify`. -/
def emitTranslateNotify (lib : Sv2Library) (prev : SetNewPrevHash) (job : NewExtendedMiningJob)
    (clean : Bool) : List SessionCall :=
  ((lib.notifyLine prev job clean).map .sendOrStash).toList

/-- One frame of `spawn_sv2_translate_reader`. -/
def handleSv2Frame (decode : Decoder) (lib : Sv2Library) (frame : Sv2Frame) (s : Sv2UpState) :
    Sv2UpState × List SessionCall :=
  match frame.msgType with
  | .newExtendedMiningJob =>
    match Sv2.parseNewExtendedJob decode frame with
    | some job =>
      ({ s.recordVersion job with job := some job },
        match job.minNtime, s.prev with
        | some _, some prev => emitTranslateNotify lib prev job false
        -- a future job waits for the SetNewPrevHash that activates it
        | _, _ => [])
    | none => (s, [])
  | .setNewPrevHash =>
    match Sv2.parseSetNewPrevHash decode frame with
    | some prev =>
      ({ s with prev := some prev },
        match s.job with
        | some job => emitTranslateNotify lib prev job true
        | none => [])
    | none => (s, [])
  | .setTarget =>
    match Sv2.parseSetTarget decode frame with
    | some target =>
      let diff := difficultyFromTarget target
      (s, [.setTranslateDifficulty diff, .sendOrStash (setDifficultyLine diff)])
    | none => (s, [])
  | .submitSharesSuccess =>
    match Sv2.parseSubmitSuccess decode frame with
    | some (lastSeq, count) =>
      let (ids, left) := drainAcked lastSeq s.pendingSubmits
      ({ s with pendingSubmits := left },
        .creditTranslateAccepted count :: ids.map (.sendSubmitResult · true))
    | none => (s, [])
  | .submitSharesError =>
    match Sv2.parseSubmitErrorSeq decode frame with
    | some seq =>
      let (id, left) := removeSeq seq s.pendingSubmits
      ({ s with pendingSubmits := left }, (id.map (.sendSubmitResult · false)).toList)
    | none => (s, [])
  | _ => (s, [])

/-- One line of `spawn_sv2_translate_writer`: the shared state after it, and the
share for the pool.  Only shares cross to the pool. -/
def translateSubmit (lib : Sv2Library) (line : RpcMessage) (s : Sv2UpState) :
    Sv2UpState × Option SubmitShares :=
  if line.method = some "mining.submit" then
    match lib.submit line with
    | some submit =>
      ({ s with
          nextSeq := s.nextSeq + 1
          pendingSubmits := s.pendingSubmits ++ [(s.nextSeq, line.id)] },
        lib.share submit s.channelId s.nextSeq (s.versionOf submit.jobId)
          (submit.versionBits.map fun _ => Sv2.versionRollingMask))
    | none => (s, none)
  else (s, none)

/-- The steps of the reader of this generation that make a call, for a miner
that has subscribed. -/
def SessionCall.events (generation : Nat) (now : Rat) : SessionCall → List Event
  | .setTranslateDifficulty diff => [.translateDifficulty generation diff]
  | .sendOrStash line => [.translateLine generation line, .readerForward generation]
  | .creditTranslateAccepted count => [.translateCredit generation count now]
  | .sendSubmitResult id ok => [.translateResult generation id ok, .readerForward generation]

end RentalProxy.Sv1
