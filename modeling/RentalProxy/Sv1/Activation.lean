import RentalProxy.Sv1.Exchange
import RentalProxy.Lib.Logs

/-!
# Which job an activation brings

An SV2 pool may send several future jobs, and immediate ones among them, before it activates one
of them by its id.  The reader remembers one job, the one that it received last, and makes the
`mining.notify` of an activation of that one.

* `Received` is the history: the jobs and the activations of the pool.
* `View` is what a `mining.notify` tells the miner, and `Shows` what is asked of the library that
  builds it.
* `activated_job_is_emitted` says exactly when the notify of an activation is the one of the job
  that was activated.
-/

namespace RentalProxy.Sv1

open StepSystem
open Sv2 (Decoder Sv2Frame SetNewPrevHash NewExtendedMiningJob)

/-! ## What the miner is shown -/

/-- What a `mining.notify` tells the miner of a job and of its block. -/
structure View where
  jobId : Nat
  version : Nat
  coinBase1 : List UInt8
  coinBase2 : List UInt8
  merkleBranch : List (List UInt8)
  prevHash : List UInt8
deriving DecidableEq

/-- How the parts of an SV2 coinbase look in SV1, without the parts of BIP141. -/
abbrev StripCoinbase := List UInt8 → List UInt8 → List UInt8 × List UInt8

/-- The view of a job on a block. -/
def viewOf (strip : StripCoinbase) (prev : SetNewPrevHash) (job : NewExtendedMiningJob) :
    View where
  jobId := job.jobId
  version := job.version
  coinBase1 := (strip job.coinbaseTxPrefix job.coinbaseTxSuffix).1
  coinBase2 := (strip job.coinbaseTxPrefix job.coinbaseTxSuffix).2
  merkleBranch := job.merklePath
  prevHash := prev.prevHash

/-- The library builds its notifies of the job and the block that it is given. -/
def Sv2Library.Shows (lib : Sv2Library) (strip : StripCoinbase) (view : RpcMessage → Option View) :
    Prop :=
  ∀ prev job clean line, lib.notifyLine prev job clean = some line →
    view line = some (viewOf strip prev job)

/-- Every notify among the calls shows this. -/
def ShowsOnly (view : RpcMessage → Option View) (v : View) (calls : List SessionCall) : Prop :=
  ∀ line, .sendOrStash line ∈ calls → view line = some v

/-! ## The history -/

variable (decode : Decoder) (lib : Sv2Library)

/-- The job of a frame. -/
def jobOf (frame : Sv2Frame) : Option NewExtendedMiningJob :=
  if frame.msgType = .newExtendedMiningJob then Sv2.parseNewExtendedJob decode frame else none

/-- The activation of a frame. -/
def activationOf (frame : Sv2Frame) : Option SetNewPrevHash :=
  if frame.msgType = .setNewPrevHash then Sv2.parseSetNewPrevHash decode frame else none

/-- The frames that the reader has received. -/
def receivedSoFar (_ : Exchange) : ExchangeEvent → List Sv2Frame → List Sv2Frame
  | .frame frame, past => past ++ [frame]
  | _, past => past

/-- The job that was received last. -/
def latestJob (past : List Sv2Frame) : Option NewExtendedMiningJob :=
  Log.latest (jobOf decode) past

/-- The block in force. -/
def inForce (past : List Sv2Frame) : Option SetNewPrevHash := Log.latest (activationOf decode) past

/-- The future job that an activation names. -/
def namedJob (prev : SetNewPrevHash) (past : List Sv2Frame) : Option NewExtendedMiningJob :=
  Log.latest (fun frame => (jobOf decode frame).filter fun job =>
    decide (job.minNtime = none) && decide (job.jobId = prev.jobId)) past

/-- A connection that was just made runs to this state, with these frames. -/
def ExchangeReaches (x : Exchange × List Sv2Frame) : Prop :=
  ∃ channelId, Reachable (observed (exchangeStep decode lib) receivedSoFar)
    (.fresh channelId, []) x

variable {decode lib}

/-! ## What the reader does -/

/-- The reader takes the job and the block of a frame. -/
theorem handleSv2Frame_work (frame : Sv2Frame) (s : Sv2UpState) :
    (handleSv2Frame decode lib frame s).1.job = (jobOf decode frame).or s.job ∧
      (handleSv2Frame decode lib frame s).1.prev = (activationOf decode frame).or s.prev := by
  unfold handleSv2Frame jobOf activationOf
  split
  · rename_i htype
    simp only [htype, if_true, reduceCtorEq, if_false]
    cases Sv2.parseNewExtendedJob decode frame <;> exact ⟨rfl, rfl⟩
  · rename_i htype
    simp only [htype, if_true, reduceCtorEq, if_false]
    cases Sv2.parseSetNewPrevHash decode frame <;> exact ⟨rfl, rfl⟩
  · rename_i htype
    simp only [htype, reduceCtorEq, if_false]
    cases Sv2.parseSetTarget decode frame <;> exact ⟨rfl, rfl⟩
  · rename_i htype
    simp only [htype, reduceCtorEq, if_false]
    cases Sv2.parseSubmitSuccess decode frame <;> exact ⟨rfl, rfl⟩
  · rename_i htype
    simp only [htype, reduceCtorEq, if_false]
    cases Sv2.parseSubmitErrorSeq decode frame <;> exact ⟨rfl, rfl⟩
  · rename_i hjob hprev _ _ _
    rw [if_neg hjob, if_neg hprev]
    exact ⟨rfl, rfl⟩

/-- What is emitted for an activation: the job that is remembered. -/
theorem handleSv2Frame_activation {frame : Sv2Frame} {prev : SetNewPrevHash} (s : Sv2UpState)
    (h : activationOf decode frame = some prev) :
    (handleSv2Frame decode lib frame s).2 =
      s.job.elim [] fun job => emitTranslateNotify lib prev job true := by
  obtain ⟨htype, hparse⟩ := Option.ite_none_right_eq_some.mp h
  unfold handleSv2Frame
  simp only [htype, hparse]
  cases s.job <;> rfl

/-- What is emitted for an immediate job: the job, on the block that is remembered. -/
theorem handleSv2Frame_immediate {frame : Sv2Frame} {job : NewExtendedMiningJob} (s : Sv2UpState)
    (h : jobOf decode frame = some job) (himmediate : job.minNtime.isSome = true) :
    (handleSv2Frame decode lib frame s).2 =
      s.prev.elim [] fun prev => emitTranslateNotify lib prev job false := by
  obtain ⟨htype, hparse⟩ := Option.ite_none_right_eq_some.mp h
  obtain ⟨ntime, hntime⟩ := Option.isSome_iff_exists.mp himmediate
  unfold handleSv2Frame
  simp only [htype, hparse, hntime]
  cases s.prev <;> rfl

/-- The reader remembers the last job and the last activation. -/
theorem remembered {x : Exchange × List Sv2Frame} (h : ExchangeReaches decode lib x) :
    x.1.state.job = latestJob decode x.2 ∧ x.1.state.prev = inForce decode x.2 := by
  obtain ⟨channelId, hrun⟩ := h
  refine hrun.invariant (I := fun x => x.1.state.job = latestJob decode x.2 ∧
    x.1.state.prev = inForce decode x.2) ⟨rfl, rfl⟩ ?_
  rintro ⟨x, past⟩ e ⟨y, past'⟩ ⟨hjob, hprev⟩ _ hstep
  obtain ⟨hstep, rfl⟩ := observed_eq_some.mp hstep
  dsimp only at hstep hjob hprev ⊢
  cases e with
  | line line =>
    simp only [exchangeStep] at hstep
    split at hstep <;> cases hstep
    obtain ⟨hprev', hjob'⟩ := translateSubmit_work lib line x.state
    exact ⟨hjob'.trans hjob, hprev'.trans hprev⟩
  | write ok =>
    simp only [exchangeStep] at hstep
    split at hstep <;> cases hstep <;> exact ⟨hjob, hprev⟩
  | frame frame =>
    cases hstep
    obtain ⟨hjob', hprev'⟩ := @handleSv2Frame_work decode lib frame x.state
    rw [hjob', hprev', hjob, hprev]
    simp only [receivedSoFar, latestJob, inForce, Log.latest_append, Log.latest_singleton,
      and_self]

/-- What an emitted notify shows. -/
theorem showsOnly_emit {strip : StripCoinbase} {view : RpcMessage → Option View}
    (hshows : lib.Shows strip view) {prev : SetNewPrevHash} {job : NewExtendedMiningJob}
    {clean : Bool} {v : View} :
    ShowsOnly view v (emitTranslateNotify lib prev job clean) ↔
      viewOf strip prev job = v ∨ lib.notifyLine prev job clean = none := by
  unfold ShowsOnly emitTranslateNotify
  cases hline : lib.notifyLine prev job clean with
  | none => simp
  | some line => simp [hshows prev job clean line hline]

/-! ## The result -/

/-- In every state of every run.  The notify of an activation shows the future job that it names
exactly when the job that was received last looks the same, or cannot be shown.  The notify of an
immediate job shows this job on the block in force. -/
theorem activated_job_is_emitted {strip : StripCoinbase} {view : RpcMessage → Option View}
    (hshows : lib.Shows strip view) {x : Exchange × List Sv2Frame}
    (h : ExchangeReaches decode lib x) (frame : Sv2Frame) :
    (∀ prev job, activationOf decode frame = some prev → namedJob decode prev x.2 = some job →
      (ShowsOnly view (viewOf strip prev job) (handleSv2Frame decode lib frame x.1.state).2 ↔
        ∃ last, latestJob decode x.2 = some last ∧
          (viewOf strip prev last = viewOf strip prev job ∨
            lib.notifyLine prev last true = none))) ∧
    ∀ job, jobOf decode frame = some job → job.minNtime.isSome = true →
      ∀ line, .sendOrStash line ∈ (handleSv2Frame decode lib frame x.1.state).2 →
        ∃ prev, inForce decode x.2 = some prev ∧ view line = some (viewOf strip prev job) := by
  obtain ⟨hjob, hprev⟩ := remembered h
  constructor
  · intro prev job hactivation hnamed
    -- a job was received, the one that is named or a later one
    obtain ⟨last, hlast⟩ : ∃ last, latestJob decode x.2 = some last := by
      obtain ⟨f, hf, hnamed⟩ := Log.exists_of_latest hnamed
      exact Option.isSome_iff_exists.mp
        (Log.latest_isSome hf (Option.filter_eq_some_iff.mp hnamed).1)
    rw [handleSv2Frame_activation x.1.state hactivation, hjob, hlast, Option.elim_some,
      showsOnly_emit hshows]
    simp
  · intro job hof himmediate line hline
    rw [handleSv2Frame_immediate x.1.state hof himmediate, hprev] at hline
    cases hforce : inForce decode x.2 with
    | none =>
      rw [hforce] at hline
      cases hline
    | some prev =>
      rw [hforce] at hline
      refine ⟨prev, rfl, ?_⟩
      obtain ⟨_, hbuilt, heq⟩ := Option.map_eq_some_iff.mp (Option.mem_toList.mp hline)
      cases heq
      exact hshows prev job false line hbuilt

/-! ## A concrete pool -/

/-- A decoder of jobs without a coinbase and of activations. -/
def jobDecoder : Decoder
  | .newExtendedMiningJob, bytes => do
    let (channelId, bytes) ← Sv2.takeNat 4 bytes
    let (jobId, bytes) ← Sv2.takeNat 4 bytes
    let (isSome, bytes) ← Sv2.takeNat 1 bytes
    let (minNtime, bytes) ← Sv2.takeNat 4 bytes
    let (version, _) ← Sv2.takeNat 4 bytes
    some (.newExtendedMiningJob {
      channelId, jobId, version
      minNtime := if isSome = 0 then none else some minNtime
      versionRollingAllowed := true
      merklePath := [], coinbaseTxPrefix := [], coinbaseTxSuffix := [] })
  | .setNewPrevHash, bytes => do
    let (channelId, bytes) ← Sv2.takeNat 4 bytes
    let (jobId, bytes) ← Sv2.takeNat 4 bytes
    let (prevHash, bytes) ← Sv2.takeU256 bytes
    let (minNtime, bytes) ← Sv2.takeNat 4 bytes
    let (nbits, _) ← Sv2.takeNat 4 bytes
    some (.setNewPrevHash { channelId, jobId, prevHash, minNtime, nbits })
  | _, _ => none

/-- A future job, with its id for its version. -/
def plainJob (jobId : Nat) : NewExtendedMiningJob where
  channelId := 1
  jobId
  minNtime := none
  version := jobId
  versionRollingAllowed := true
  merklePath := []
  coinbaseTxPrefix := []
  coinbaseTxSuffix := []

/-- The frame of this job. -/
def plainJobFrame (jobId : Nat) : Sv2Frame :=
  { msgType := .newExtendedMiningJob
    payload := leBytes 4 1 ++ leBytes 4 jobId ++ [0] ++ leBytes 4 0 ++ leBytes 4 jobId }

/-- The hash of the one block of the concrete runs. -/
def genesisHash : List UInt8 := List.replicate 32 0

/-- The activation of a job on this block. -/
def plainActivation (jobId : Nat) : SetNewPrevHash := ⟨1, jobId, genesisHash, 0, 0⟩

/-- The frame of this activation. -/
def plainActivationFrame (jobId : Nat) : Sv2Frame :=
  { msgType := .setNewPrevHash
    payload := leBytes 4 1 ++ leBytes 4 jobId ++ genesisHash ++ leBytes 4 0 ++ leBytes 4 0 }

/-- A library that shows jobs without a coinbase, on this block. -/
def jobLibrary : Sv2Library where
  submit _ := none
  share _ _ _ _ _ := none
  notifyLine prev job _ :=
    if job.coinbaseTxPrefix = [] ∧ job.coinbaseTxSuffix = [] ∧ job.merklePath = [] ∧
        prev.prevHash = genesisHash then
      some {
        method := some "mining.notify"
        params := some (.arr [.num (.int job.jobId), .num (.int job.version)]) }
    else none

/-- What its notifies show. -/
def jobView (line : RpcMessage) : Option View :=
  match line.params with
  | some (.arr [.num (.int jobId), .num (.int version)]) => some {
      jobId := jobId.toNat, version := version.toNat
      coinBase1 := [], coinBase2 := [], merkleBranch := [], prevHash := genesisHash }
  | _ => none

theorem jobLibrary_shows : jobLibrary.Shows Prod.mk jobView := by
  intro prev job clean line hline
  simp only [jobLibrary, Option.ite_none_right_eq_some, Option.some.injEq] at hline
  obtain ⟨⟨ hprefix, hsuffix, hpath, hprev⟩, rfl⟩ := hline
  simp [jobView, viewOf, hprefix, hsuffix, hpath, hprev]

/-- The one future job that was sent is activated, and shown. -/
theorem activated_job_is_emitted_one :
    ∃ x, ExchangeReaches jobDecoder jobLibrary x ∧
      namedJob jobDecoder (plainActivation 1) x.2 = some (plainJob 1) ∧
      (handleSv2Frame jobDecoder jobLibrary (plainActivationFrame 1) x.1.state).2.length = 1 ∧
      ShowsOnly jobView (viewOf Prod.mk (plainActivation 1) (plainJob 1))
        (handleSv2Frame jobDecoder jobLibrary (plainActivationFrame 1) x.1.state).2 := by
  have hp : (run (observed (exchangeStep jobDecoder jobLibrary) receivedSoFar) (.fresh 1, [])
      [.frame (plainJobFrame 1)]).any (fun x =>
        decide (namedJob jobDecoder (plainActivation 1) x.2 = some (plainJob 1)) &&
        decide (latestJob jobDecoder x.2 = some (plainJob 1)) &&
        decide ((handleSv2Frame jobDecoder jobLibrary (plainActivationFrame 1)
          x.1.state).2.length = 1)) = true := by decide +kernel
  obtain ⟨x, hx, hp⟩ := (Option.any_eq_true ..).mp hp
  simp only [Bool.and_eq_true, decide_eq_true_eq] at hp
  obtain ⟨⟨hnamed, hlatest⟩, hlength⟩ := hp
  have hreaches : ExchangeReaches jobDecoder jobLibrary x := ⟨1, Run.of_run hx⟩
  refine ⟨x, hreaches, hnamed, hlength, ?_⟩
  have hshows := activated_job_is_emitted jobLibrary_shows hreaches (plainActivationFrame 1)
  exact (hshows.1 (plainActivation 1) (plainJob 1) (by decide +kernel) hnamed).mpr
    ⟨plainJob 1, hlatest, Or.inl rfl⟩

/-- Of two future jobs the first one is activated, and the second one is shown. -/
theorem other_job_is_emitted :
    ∃ x, ExchangeReaches jobDecoder jobLibrary x ∧
      activationOf jobDecoder (plainActivationFrame 1) = some (plainActivation 1) ∧
      namedJob jobDecoder (plainActivation 1) x.2 = some (plainJob 1) ∧
      ¬ShowsOnly jobView (viewOf Prod.mk (plainActivation 1) (plainJob 1))
        (handleSv2Frame jobDecoder jobLibrary (plainActivationFrame 1) x.1.state).2 := by
  have hactivation : activationOf jobDecoder (plainActivationFrame 1) =
      some (plainActivation 1) := by decide +kernel
  have hp : (run (observed (exchangeStep jobDecoder jobLibrary) receivedSoFar) (.fresh 1, [])
      [.frame (plainJobFrame 1), .frame (plainJobFrame 2)]).any (fun x =>
        decide (namedJob jobDecoder (plainActivation 1) x.2 = some (plainJob 1)) &&
        decide (x.1.state.job = some (plainJob 2))) = true := by decide +kernel
  obtain ⟨x, hx, hp⟩ := (Option.any_eq_true ..).mp hp
  simp only [Bool.and_eq_true, decide_eq_true_eq] at hp
  obtain ⟨hnamed, hlatest⟩ := hp
  refine ⟨x, ⟨1, Run.of_run hx⟩, hactivation, hnamed, ?_⟩
  rw [handleSv2Frame_activation x.1.state hactivation, hlatest, Option.elim_some,
    showsOnly_emit jobLibrary_shows]
  decide +kernel

end RentalProxy.Sv1
