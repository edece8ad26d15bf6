import RentalProxy.Sv1.JobVersions
import RentalProxy.Sv2.Headers

/-!
# The header of a share for an SV2 pool

Behind an SV2 pool the miner hashes a header that it makes of the notify it was shown, and the
pool checks one that it makes of its own job and of the translated share.

* `Translates` is what is asked of the library: a notify is of its job and its block, and a share
  is of its submit.
* `Converses` is a run of the connection with the lines that the miner was sent.
* `blockOf` is the block that the pool has put a job on.
* `shownHeader` and `shareHeader` are what the two sides hash.
* `shown_notify_hashes` is the result: they are the same header as long as the notify is of the
  pool's block and the writer still has the version of the job, or the latest job has the same bits
  outside what the miner rolls.  The notify is of the pool's block when the pool activates the job
  that it sent last (`ActivatesLast`).
-/

namespace RentalProxy.Sv1

open StepSystem BoundedTable
open Sv2 (Decoder Sv2Frame SetNewPrevHash NewExtendedMiningJob Sv1Submit SubmitShares Notify Header
  MerkleFold rolledVersion versionRollingMask)

/-! ## The library -/

/-- The notify `notify` is of this job on this block.  What it leaves out of the coinbase does not
count for the merkle root. -/
structure NotifyOf (fold : MerkleFold) (prev : SetNewPrevHash) (job : NewExtendedMiningJob)
    (notify : Notify) : Prop where
  jobId : notify.jobId = toString job.jobId
  prevHash : notify.prevHash = prev.prevHash
  merkleRoot : ∀ extranonce,
    fold (notify.coinBase1 ++ extranonce ++ notify.coinBase2) notify.merkleBranch =
      fold (job.coinbaseTxPrefix ++ extranonce ++ job.coinbaseTxSuffix) job.merklePath
  version : notify.version = job.version
  bits : notify.bits = prev.nbits

/-- The share `share` is of this submit, on this base version. -/
structure ShareOf (submit : Sv1Submit) (version : Nat) (mask : Option Nat)
    (share : SubmitShares) : Prop where
  jobId : parseU32 submit.jobId = some share.jobId
  nonce : share.nonce = submit.nonce
  ntime : share.ntime = submit.time
  version : share.version = rolledVersion version mask submit.versionBits
  extranonce : share.extranonce = some submit.extranonce2

/-- What the library does.  `read` is how a miner reads a line. -/
structure Sv2Library.Translates (lib : Sv2Library) (fold : MerkleFold)
    (read : RpcMessage → Option Notify) : Prop where
  /-- Only a `mining.notify` is read as one. -/
  method : ∀ {line notify}, read line = some notify → line.method = some "mining.notify"
  notify : ∀ {prev job clean line notify}, lib.notifyLine prev job clean = some line →
    read line = some notify → NotifyOf fold prev job notify
  share : ∀ {submit channelId seq version mask share},
    lib.share submit channelId seq version mask = some share → ShareOf submit version mask share

/-! ## What the miner was sent -/

/-- The line of a call. -/
def SessionCall.line? : SessionCall → Option RpcMessage
  | .sendOrStash line => some line
  | _ => none

variable (decode : Decoder) (lib : Sv2Library)

/-- The lines that the reader has sent. -/
def sentSoFar (x : Exchange × List Sv2Frame) : ExchangeEvent → List RpcMessage → List RpcMessage
  | .frame frame, sent =>
    sent ++ (handleSv2Frame decode lib frame x.1.state).2.filterMap SessionCall.line?
  | _, sent => sent

/-- A connection that was just made runs to this state, with these frames and these lines. -/
def Converses (x : Exchange × List Sv2Frame) (sent : List RpcMessage) : Prop :=
  ∃ channelId, Reachable
    (observed (observed (exchangeStep decode lib) receivedSoFar) (sentSoFar decode lib))
    ((.fresh channelId, []), []) (x, sent)

/-! ## The block of a job -/

/-- The block in force, and the block that the pool has put a job on. -/
structure Blocks where
  inForce : Option SetNewPrevHash
  own : Option SetNewPrevHash

/-- A frame of the pool.  An activation puts the job that it names on its block, and an immediate
job is on the block in force. -/
def Blocks.note (jobId : Nat) (b : Blocks) (frame : Sv2Frame) : Blocks :=
  match activationOf decode frame, jobOf decode frame with
  | some prev, _ => ⟨some prev, if prev.jobId = jobId then some prev else b.own⟩
  | none, some job =>
    if job.jobId = jobId ∧ job.minNtime.isSome then { b with own := b.inForce } else b
  | none, none => b

/-- The block that the pool has put this job on, if it has. -/
def blockOf (jobId : Nat) (past : List Sv2Frame) : Option SetNewPrevHash :=
  (past.foldl (Blocks.note decode jobId) ⟨none, none⟩).own

/-- The pool activates only the job that it sent last, and none that is on a block already. -/
def ActivatesLast (before : List Sv2Frame) (frame : Sv2Frame) : Prop :=
  ∀ prev, activationOf decode frame = some prev →
    (∀ job, latestJob decode before = some job → job.jobId = prev.jobId) ∧
      blockOf decode prev.jobId before = none

/-- The notify is of this block. -/
def OnBlock (notify : Notify) (block : SetNewPrevHash) : Prop :=
  notify.prevHash = block.prevHash ∧ notify.bits = block.nbits

/-! ## The two headers -/

variable (fold : MerkleFold) (extranonce1 : List UInt8)

/-- The header that the miner hashes for a submit.  It was told `extranonce1` for its subscribe and
the mask for its configure. -/
def shownHeader (notify : Notify) (submit : Sv1Submit) : Header where
  version := rolledVersion notify.version (some versionRollingMask) submit.versionBits
  prevHash := notify.prevHash
  merkleRoot := fold (notify.coinBase1 ++ (extranonce1 ++ submit.extranonce2) ++ notify.coinBase2)
    notify.merkleBranch
  ntime := submit.time
  nbits := notify.bits
  nonce := submit.nonce

/-- The header that the pool makes of its job, on this block, and of a share.  The extranonce of
the channel begins with `extranonce1`. -/
def shareHeader (prev : SetNewPrevHash) (job : NewExtendedMiningJob) (share : SubmitShares) :
    Option Header :=
  share.extranonce.map fun extranonce => {
    version := share.version
    prevHash := prev.prevHash
    merkleRoot := fold (job.coinbaseTxPrefix ++ (extranonce1 ++ extranonce) ++
      job.coinbaseTxSuffix) job.merklePath
    ntime := share.ntime
    nbits := prev.nbits
    nonce := share.nonce }

/-- What a miner that sends these bits leaves alone of a version. -/
def fixedPart (bits : Option Nat) (version : Nat) : Nat :=
  match bits with
  | none => version
  | some _ => Nat.ldiff version versionRollingMask

variable {decode lib fold extranonce1}

/-- Bits under a mask do not show which version they were put on, outside the mask. -/
theorem ldiff_or_inj {a b bits mask : Nat} :
    Nat.ldiff a mask ||| (bits &&& mask) = Nat.ldiff b mask ||| (bits &&& mask) ↔
      Nat.ldiff a mask = Nat.ldiff b mask := by
  constructor
  · intro h
    apply Nat.eq_of_testBit_eq
    intro i
    have hbit := congrArg (Nat.testBit · i) h
    simp only [Nat.testBit_or, Nat.testBit_ldiff, Nat.testBit_and] at hbit ⊢
    cases hmask : mask.testBit i with
    | true => simp
    | false => simpa [hmask] using hbit
  · intro h
    rw [h]

/-- Both sides make the same version exactly when they start from the same fixed part. -/
theorem rolledVersion_eq_iff {bits : Option Nat} {base version : Nat} :
    rolledVersion base (bits.map fun _ => versionRollingMask) bits =
        rolledVersion version (some versionRollingMask) bits ↔
      fixedPart bits base = fixedPart bits version := by
  cases bits with
  | none => exact Iff.rfl
  | some bits => exact ldiff_or_inj

/-- The headers of a notify and of its job differ in nothing but the block and the version. -/
theorem shareHeader_eq_iff {prev block : SetNewPrevHash} {job : NewExtendedMiningJob}
    {notify : Notify} {submit : Sv1Submit} {base : Nat} {share : SubmitShares}
    (hnotify : NotifyOf fold prev job notify)
    (hshare : ShareOf submit base (submit.versionBits.map fun _ => versionRollingMask) share) :
    shareHeader fold extranonce1 block job share =
        some (shownHeader fold extranonce1 notify submit) ↔
      OnBlock notify block ∧
        fixedPart submit.versionBits base = fixedPart submit.versionBits job.version := by
  rw [← rolledVersion_eq_iff, ← hnotify.version, ← hshare.version, shareHeader, shownHeader,
    hshare.extranonce, hnotify.merkleRoot, hshare.ntime, hshare.nonce, OnBlock]
  simp only [Option.map_some, Option.some.injEq, Header.mk.injEq, true_and, and_true]
  constructor
  · rintro ⟨hversion, hprev, hbits⟩
    exact ⟨⟨hprev.symm, hbits.symm⟩, hversion⟩
  · rintro ⟨⟨hprev, hbits⟩, hversion⟩
    exact ⟨hversion, hprev.symm, hbits.symm⟩

/-! ## The pool's blocks -/

theorem activationOf_of_job {frame : Sv2Frame} {job : NewExtendedMiningJob}
    (h : jobOf decode frame = some job) : activationOf decode frame = none := by
  obtain ⟨htype, _⟩ := Option.ite_none_right_eq_some.mp h
  rw [activationOf, if_neg (by rw [htype]; nofun)]

theorem jobOf_of_activation {frame : Sv2Frame} {prev : SetNewPrevHash}
    (h : activationOf decode frame = some prev) : jobOf decode frame = none := by
  obtain ⟨htype, _⟩ := Option.ite_none_right_eq_some.mp h
  rw [jobOf, if_neg (by rw [htype]; nofun)]

theorem blocks_inForce (jobId : Nat) (past : List Sv2Frame) :
    (past.foldl (Blocks.note decode jobId) ⟨none, none⟩).inForce = inForce decode past := by
  induction past using List.reverseRecOn with
  | nil => rfl
  | append_singleton past frame ih =>
    rw [List.foldl_append, List.foldl_cons, List.foldl_nil, inForce, Log.latest_append,
      Log.latest_singleton]
    change _ = (activationOf decode frame).or (inForce decode past)
    rw [← ih]
    unfold Blocks.note
    cases hactivation : activationOf decode frame with
    | some prev => rfl
    | none =>
      cases jobOf decode frame with
      | none => rfl
      | some job =>
        dsimp only
        split <;> rfl

theorem blockOf_activation {jobId : Nat} {past : List Sv2Frame} {frame : Sv2Frame}
    {prev : SetNewPrevHash} (h : activationOf decode frame = some prev) :
    blockOf decode jobId (past ++ [frame]) =
      if prev.jobId = jobId then some prev else blockOf decode jobId past := by
  simp only [blockOf, List.foldl_append, List.foldl_cons, List.foldl_nil, Blocks.note, h]

theorem blockOf_job {jobId : Nat} {past : List Sv2Frame} {frame : Sv2Frame}
    {job : NewExtendedMiningJob} (h : jobOf decode frame = some job) :
    blockOf decode jobId (past ++ [frame]) =
      if job.jobId = jobId ∧ job.minNtime.isSome then inForce decode past
      else blockOf decode jobId past := by
  simp only [blockOf, List.foldl_append, List.foldl_cons, List.foldl_nil, Blocks.note,
    activationOf_of_job h, h, ← blocks_inForce jobId past]
  split <;> rfl

theorem blockOf_other {jobId : Nat} {past : List Sv2Frame} {frame : Sv2Frame}
    (h : activationOf decode frame = none) (h' : jobOf decode frame = none) :
    blockOf decode jobId (past ++ [frame]) = blockOf decode jobId past := by
  simp only [blockOf, List.foldl_append, List.foldl_cons, List.foldl_nil, Blocks.note, h, h']

/-- A job stays on its block. -/
theorem blockOf_append {jobId : Nat} {block : SetNewPrevHash} {past new : List Sv2Frame}
    (hblock : blockOf decode jobId past = some block)
    (hlast : Log.Ordered (ActivatesLast decode) (past ++ new))
    (hfresh : ∀ job ∈ receivedJobs decode new, job.jobId ≠ jobId) :
    blockOf decode jobId (past ++ new) = some block := by
  induction new generalizing past with
  | nil => rwa [List.append_nil]
  | cons frame rest ih =>
    have hframe := hlast past frame rest rfl
    rw [List.append_cons] at hlast ⊢
    refine ih ?_ hlast fun job hjob => hfresh job ?_
    · cases hactivation : activationOf decode frame with
      | some prev =>
        rw [blockOf_activation hactivation, if_neg ?_, hblock]
        rintro rfl
        rw [(hframe prev hactivation).2] at hblock
        cases hblock
      | none =>
        cases hjob : jobOf decode frame with
        | none => rw [blockOf_other hactivation hjob, hblock]
        | some job =>
          rw [blockOf_job hjob, if_neg ?_, hblock]
          rintro ⟨hid, _⟩
          exact hfresh job (List.mem_filterMap.mpr ⟨frame, List.mem_cons_self, hjob⟩) hid
    · obtain ⟨f, hf, hof⟩ := List.mem_filterMap.mp hjob
      exact List.mem_filterMap.mpr ⟨f, List.mem_cons_of_mem _ hf, hof⟩

/-! ## The run -/

/-- What a frame brings is shown: an activation, or an immediate job. -/
def Brings (decode : Decoder) (frame : Sv2Frame) (prev : SetNewPrevHash)
    (job : NewExtendedMiningJob) : Prop :=
  activationOf decode frame = some prev ∨
    jobOf decode frame = some job ∧ job.minNtime.isSome = true

/-- A notify that is sent is of the job and the block that are remembered after the frame. -/
theorem handleSv2Frame_notify {frame : Sv2Frame} {s : Sv2UpState} {line : RpcMessage}
    (hline : line ∈ (handleSv2Frame decode lib frame s).2.filterMap SessionCall.line?)
    (hmethod : line.method = some "mining.notify") :
    ∃ prev job clean, (handleSv2Frame decode lib frame s).1.prev = some prev ∧
      (handleSv2Frame decode lib frame s).1.job = some job ∧ Brings decode frame prev job ∧
      lib.notifyLine prev job clean = some line := by
  have hemit : ∀ {prev job clean},
      line ∈ (emitTranslateNotify lib prev job clean).filterMap SessionCall.line? →
        lib.notifyLine prev job clean = some line := by
    intro prev job clean hmem
    unfold emitTranslateNotify at hmem
    cases hbuilt : lib.notifyLine prev job clean with
    | none => simp [hbuilt] at hmem
    | some built => simpa [hbuilt, SessionCall.line?, eq_comm] using hmem
  unfold handleSv2Frame at hline ⊢
  split at hline
  · rename_i htype
    cases hjob : Sv2.parseNewExtendedJob decode frame with
    | none => simp [hjob] at hline
    | some job =>
      simp only [hjob] at hline ⊢
      split at hline
      · rename_i prev hntime hprev
        have hof : jobOf decode frame = some job := by rw [jobOf, if_pos htype, hjob]
        exact ⟨prev, job, false, hprev, rfl, Or.inr ⟨hof, by rw [hntime]; rfl⟩, hemit hline⟩
      · simp at hline
  · rename_i htype
    cases hprev : Sv2.parseSetNewPrevHash decode frame with
    | none => simp [hprev] at hline
    | some prev =>
      simp only [hprev] at hline ⊢
      split at hline
      · rename_i job hjob
        have hof : activationOf decode frame = some prev := by
          rw [activationOf, if_pos htype, hprev]
        exact ⟨prev, job, true, rfl, hjob, Or.inl hof, hemit hline⟩
      · simp at hline
  · cases htarget : Sv2.parseSetTarget decode frame with
    | none => simp [htarget] at hline
    | some target =>
      -- the other line of the reader
      have hdiff : setDifficultyLine (difficultyFromTarget target) = line := by
        simpa [htarget, SessionCall.line?] using hline
      simp [← hdiff, setDifficultyLine] at hmethod
  · cases hsuccess : Sv2.parseSubmitSuccess decode frame with
    | none => simp [hsuccess] at hline
    | some success => simp [hsuccess, SessionCall.line?] at hline
  · cases herror : Sv2.parseSubmitErrorSeq decode frame with
    | none => simp [herror] at hline
    | some seq => simp [herror, SessionCall.line?] at hline
  · simp at hline

/-- The connection, without the lines. -/
theorem Converses.reaches {x : Exchange × List Sv2Frame} {sent : List RpcMessage}
    (h : Converses decode lib x sent) : ExchangeReaches decode lib x := by
  obtain ⟨channelId, hrun⟩ := h
  exact ⟨channelId, hrun.unobserved fun _ _ _ => trivial⟩

/-- This line was made when the last of these frames came, of the job that was received last and
of the block in force. -/
structure MadeAt (decode : Decoder) (lib : Sv2Library) (before : List Sv2Frame) (frame : Sv2Frame)
    (prev : SetNewPrevHash) (job : NewExtendedMiningJob) (line : RpcMessage) : Prop where
  latest : latestJob decode (before ++ [frame]) = some job
  force : inForce decode (before ++ [frame]) = some prev
  brings : Brings decode frame prev job
  line : ∃ clean, lib.notifyLine prev job clean = some line

/-- The line was made at one of these frames. -/
def MadeOf (decode : Decoder) (lib : Sv2Library) (past : List Sv2Frame) (line : RpcMessage) :
    Prop :=
  ∃ before frame after prev job, past = before ++ frame :: after ∧
    MadeAt decode lib before frame prev job line

/-- What was received stays received. -/
theorem MadeOf.append {past : List Sv2Frame} {line : RpcMessage} (h : MadeOf decode lib past line)
    (new : List Sv2Frame) : MadeOf decode lib (past ++ new) line := by
  obtain ⟨before, frame, after, prev, job, rfl, hmade⟩ := h
  exact ⟨before, frame, after ++ new, prev, job, by rw [List.append_assoc, List.cons_append], hmade⟩

/-- A notify puts a job on the block that the pool has put it on, when the pool activates the job
that it sent last. -/
theorem MadeAt.blockOf {before after : List Sv2Frame} {frame : Sv2Frame} {prev : SetNewPrevHash}
    {job : NewExtendedMiningJob} {line : RpcMessage}
    (h : MadeAt decode lib before frame prev job line)
    (hids : ((receivedJobs decode (before ++ frame :: after)).map (·.jobId)).Nodup)
    (hlast : Log.Ordered (ActivatesLast decode) (before ++ frame :: after)) :
    Sv1.blockOf decode job.jobId (before ++ frame :: after) = some prev := by
  have hlatest := h.latest
  have hforce := h.force
  rw [latestJob, Log.latest_append, Log.latest_singleton] at hlatest
  rw [inForce, Log.latest_append, Log.latest_singleton] at hforce
  have hnow : Sv1.blockOf decode job.jobId (before ++ [frame]) = some prev := by
    rcases h.brings with hactivation | ⟨hjob, himmediate⟩
    · rw [jobOf_of_activation hactivation, Option.none_or] at hlatest
      rw [blockOf_activation hactivation,
        if_pos ((hlast before frame after rfl prev hactivation).1 job hlatest).symm]
    · rw [activationOf_of_job hjob, Option.none_or] at hforce
      rw [blockOf_job hjob, if_pos ⟨rfl, himmediate⟩]
      exact hforce
  rw [List.append_cons] at hids hlast ⊢
  refine blockOf_append hnow hlast fun other hother heq => ?_
  -- the id is one of those before
  rw [receivedJobs, List.filterMap_append, List.map_append] at hids
  have hmem : job.jobId ∈ ((before ++ [frame]).filterMap (jobOf decode)).map (·.jobId) :=
    List.mem_map_of_mem (List.mem_filterMap.mpr (Log.exists_of_latest h.latest))
  exact List.disjoint_of_nodup_append hids hmem (heq ▸ List.mem_map_of_mem hother)

/-- Every notify that was sent was made of what was received. -/
theorem Converses.madeOf {x : Exchange × List Sv2Frame} {sent : List RpcMessage}
    (h : Converses decode lib x sent) {line : RpcMessage} (hline : line ∈ sent)
    (hmethod : line.method = some "mining.notify") : MadeOf decode lib x.2 line := by
  obtain ⟨channelId, hrun⟩ := h
  have hinv := hrun.invariant (I := fun z => ExchangeReaches decode lib z.1 ∧ ∀ line ∈ z.2,
    line.method = some "mining.notify" → MadeOf decode lib z.1.2 line)
    ⟨⟨channelId, .refl⟩, by simp⟩ ?_
  · exact hinv.2 line hline hmethod
  intro z e z' hz _ hstep
  obtain ⟨hstep, hsent⟩ := observed_eq_some.mp hstep
  obtain ⟨channelId, hreaches⟩ := hz.1
  have hreaches' : ExchangeReaches decode lib z'.1 := ⟨channelId, .tail hreaches hstep trivial⟩
  refine ⟨hreaches', fun line hline hmethod => ?_⟩
  obtain ⟨hexchange, hpast⟩ := observed_eq_some.mp hstep
  rw [hsent] at hline
  cases e with
  | line _ =>
    rw [show z'.1.2 = z.1.2 from hpast]
    exact hz.2 line hline hmethod
  | write _ =>
    rw [show z'.1.2 = z.1.2 from hpast]
    exact hz.2 line hline hmethod
  | frame frame =>
    have hpast : z'.1.2 = z.1.2 ++ [frame] := hpast
    rcases List.mem_append.mp hline with hline | hline
    · rw [hpast]
      exact (hz.2 line hline hmethod).append [frame]
    · obtain ⟨prev, job, clean, hprev, hjob, hbrings, hbuilt⟩ :=
        handleSv2Frame_notify hline hmethod
      obtain ⟨hlatest, hforce⟩ := remembered hreaches'
      have hstate : z'.1.1.state = (handleSv2Frame decode lib frame z.1.1.state).1 :=
        congrArg Exchange.state (Option.some.inj hexchange).symm
      rw [hstate, hjob, hpast] at hlatest
      rw [hstate, hprev, hpast] at hforce
      exact ⟨z.1.2, frame, [], prev, job, hpast, hlatest.symm, hforce.symm, hbrings, clean, hbuilt⟩

/-- The version that a share of this job is built on. -/
theorem versionOf_received {x : Exchange × List Sv2Frame} (h : ExchangeReaches decode lib x)
    {job : NewExtendedMiningJob} {before after : List NewExtendedMiningJob}
    (hreceived : receivedJobs decode x.2 = before ++ job :: after)
    (hids : ((receivedJobs decode x.2).map (·.jobId)).Nodup) (hid : job.jobId < 2 ^ 32) :
    x.1.state.versionOf (toString job.jobId) =
      if after.length ≤ ((receivedJobs decode x.2).length - 1) % 64 then job.version
      else latestVersion (receivedJobs decode x.2) := by
  have htracks := TracksJobs.of_reaches h
  have hentries : (receivedJobs decode x.2).map versionEntry =
      before.map versionEntry ++ (job.jobId, job.version) :: after.map versionEntry := by
    rw [hreceived, List.map_append, List.map_cons]
    rfl
  have hfresh : job.jobId ∉ (after.map versionEntry).map Prod.fst := by
    rw [hreceived, List.map_append, List.map_cons] at hids
    rw [List.map_map]
    exact (List.nodup_cons.mp hids.of_append_right).1
  have hne : receivedJobs decode x.2 ≠ [] := by simp [hreceived]
  have hkept := length_jobsInTable hids hne
  have hlookup := lookup_of_append 64 hentries hfresh
  rw [List.length_map, ← htracks.table] at hlookup
  unfold jobsInTable at hkept
  rw [Sv2UpState.versionOf, parseU32_toString hid, Option.bind_some, hlookup, htracks.latest, hkept]
  simp only [Nat.lt_succ_iff]
  split <;> rfl

/-! ## The result -/

/-- In every run of a connection to a pool that gives each job an id of its own.  Every notify that
the miner was sent is of a job of the pool, and of the block that the pool has put the job on when
the pool activates the jobs that it sent last.  A share for it names that job.  The miner has hashed
the header that the pool makes on its own block exactly when the notify is of that block, and the
job is among the last ones, back to where the table was emptied, or the latest job agrees with it
on what the miner leaves alone. -/
theorem shown_notify_hashes {read : RpcMessage → Option Notify} (hlib : lib.Translates fold read)
    {x : Exchange × List Sv2Frame} {sent : List RpcMessage} (h : Converses decode lib x sent)
    (hids : ((receivedJobs decode x.2).map (·.jobId)).Nodup)
    (hbound : ∀ job ∈ receivedJobs decode x.2, job.jobId < 2 ^ 32)
    {shown : RpcMessage} {notify : Notify} (hshown : shown ∈ sent)
    (hread : read shown = some notify) :
    ∃ job before after, receivedJobs decode x.2 = before ++ job :: after ∧
      (Log.Ordered (ActivatesLast decode) x.2 →
        ∃ block, blockOf decode job.jobId x.2 = some block ∧ OnBlock notify block) ∧
      ∀ {line submit share}, line.method = some "mining.submit" → lib.submit line = some submit →
        submit.jobId = notify.jobId → (translateSubmit lib line x.1.state).2 = some share →
        share.jobId = job.jobId ∧ ∀ extranonce1 block, blockOf decode job.jobId x.2 = some block →
          (shareHeader fold extranonce1 block job share =
              some (shownHeader fold extranonce1 notify submit) ↔
            OnBlock notify block ∧
              (after.length ≤ ((receivedJobs decode x.2).length - 1) % 64 ∨
                fixedPart submit.versionBits (latestVersion (receivedJobs decode x.2)) =
                  fixedPart submit.versionBits job.version)) := by
  obtain ⟨first, frame, rest, prev, job, hpast, hmade⟩ := h.madeOf hshown (hlib.method hread)
  obtain ⟨clean, hbuilt⟩ := hmade.line
  have hjob : job ∈ receivedJobs decode x.2 := by
    rw [hpast, List.append_cons, receivedJobs, List.filterMap_append]
    exact List.mem_append_left _ (List.mem_filterMap.mpr (Log.exists_of_latest hmade.latest))
  obtain ⟨before, after, hreceived⟩ := List.append_of_mem hjob
  have hnotify := hlib.notify hbuilt hread
  have hid := hbound job hjob
  refine ⟨job, before, after, hreceived,
    fun hlast => ⟨prev, ?_, hnotify.prevHash, hnotify.bits⟩, ?_⟩
  · rw [hpast] at hids hlast ⊢
    exact hmade.blockOf hids hlast
  intro line submit share hmethod hsubmit hnames htranslate
  rw [hnotify.jobId] at hnames
  have hbase := versionOf_received h.reaches hreceived hids hid
  have hbuiltShare : lib.share submit x.1.state.channelId x.1.state.nextSeq
      (x.1.state.versionOf (toString job.jobId))
      (submit.versionBits.map fun _ => versionRollingMask) = some share := by
    rw [← htranslate, ← hnames]
    simp only [translateSubmit, hmethod, hsubmit, if_true]
  have hshare := hlib.share hbuiltShare
  constructor
  · have hparse := hshare.jobId
    rw [hnames, parseU32_toString hid] at hparse
    exact (Option.some.inj hparse).symm
  · intro extranonce1 block _
    rw [shareHeader_eq_iff hnotify hshare, hbase]
    split
    · rename_i hkept
      exact and_congr_right fun _ => iff_of_true rfl (Or.inl hkept)
    · rename_i hgone
      simp [hgone]

/-- A library for jobs without a coinbase on one block, and for submits that name their job and
roll one bit. -/
def rollingLibrary : Sv2Library where
  submit line := match line.params with
    | some (.arr [.str jobId]) => some {
        id := 0, userName := "", jobId, extranonce2 := [1, 2, 3, 4]
        time := 7, nonce := 9, versionBits := some 0x2000 }
    | _ => none
  share submit channelId sequenceNumber version mask :=
    (parseU32 submit.jobId).map fun jobId => {
      channelId, sequenceNumber, jobId, nonce := submit.nonce, ntime := submit.time
      version := rolledVersion version mask submit.versionBits
      extranonce := some submit.extranonce2 }
  notifyLine prev job _ :=
    if job.coinbaseTxPrefix = [] ∧ job.coinbaseTxSuffix = [] ∧ job.merklePath = [] ∧
        prev.prevHash = genesisHash then
      some {
        method := some "mining.notify"
        params := some (.arr [.str (toString job.jobId), .num (.int job.version),
          .num (.int prev.nbits)]) }
    else none

/-- How its notifies are read. -/
def readNotify (line : RpcMessage) : Option Notify :=
  if line.method = some "mining.notify" then
    match line.params with
    | some (.arr [.str jobId, .num (.int version), .num (.int bits)]) => some {
        jobId, prevHash := genesisHash, coinBase1 := [], coinBase2 := [], merkleBranch := []
        version := version.toNat, bits := bits.toNat, time := 0, cleanJobs := true }
    | _ => none
  else none

theorem rollingLibrary_translates : rollingLibrary.Translates Sv2.plainFold readNotify where
  method := by
    intro line notify hread
    exact (Option.ite_none_right_eq_some.mp hread).1
  notify := by
    intro prev job clean line notify hline hread
    simp only [rollingLibrary, Option.ite_none_right_eq_some, Option.some.injEq] at hline
    obtain ⟨⟨hfirst, hsuffix, hpath, hprev⟩, rfl⟩ := hline
    cases hread
    exact ⟨rfl, hprev.symm, by simp [hfirst, hsuffix, hpath], by simp, by simp⟩
  share := by
    intro submit channelId seq version mask share hshare
    obtain ⟨jobId, hjobId, rfl⟩ := Option.map_eq_some_iff.mp hshare
    exact ⟨hjobId, rfl, rfl, rfl, rfl⟩

/-- A job is activated, and another one comes. -/
def activatedFirst : List Sv2Frame :=
  [plainJobFrame 1, plainActivationFrame 1, plainJobFrame 2]

theorem activatedFirst_ordered : Log.Ordered (ActivatesLast jobDecoder) activatedFirst := by
  have hjob : ∀ before jobId, jobId = 1 ∨ jobId = 2 →
      ActivatesLast jobDecoder before (plainJobFrame jobId) := by
    intro before jobId hid prev hactivation
    have hnone : activationOf jobDecoder (plainJobFrame jobId) = none := by
      rcases hid with rfl | rfl <;> decide +kernel
    rw [hnone] at hactivation
    cases hactivation
  refine ((Log.Ordered.nil.snoc (hjob [] 1 (Or.inl rfl))).snoc ?_).snoc (hjob _ 2 (Or.inr rfl))
  intro prev hactivation
  have hprev : activationOf jobDecoder (plainActivationFrame 1) = some (plainActivation 1) := by
    decide +kernel
  obtain rfl := Option.some.inj (hprev.symm.trans hactivation)
  have hlatest : latestJob jobDecoder [plainJobFrame 1] = some (plainJob 1) := by decide +kernel
  refine ⟨fun job hjob => ?_, by decide +kernel⟩
  obtain rfl := Option.some.inj (hlatest.symm.trans hjob)
  rfl

/-- A job is shown, another one comes, and the share for the first one is of the header that was
shown. -/
theorem shown_notify_hashes_rolled :
    ∃ x sent shown notify block job submit share,
      Converses jobDecoder rollingLibrary x sent ∧ shown ∈ sent ∧
      readNotify shown = some notify ∧ job.version ≠ latestVersion (receivedJobs jobDecoder x.2) ∧
      blockOf jobDecoder job.jobId x.2 = some block ∧
      (translateSubmit rollingLibrary (shareFor 1) x.1.state).2 = some share ∧
      shareHeader Sv2.plainFold [10, 11] block job share =
        some (shownHeader Sv2.plainFold [10, 11] notify submit) := by
  have hp : (run (observed (observed (exchangeStep jobDecoder rollingLibrary) receivedSoFar)
      (sentSoFar jobDecoder rollingLibrary)) ((.fresh 1, []), [])
      (activatedFirst.map .frame)).any (fun z => decide (z.1.2 = activatedFirst) &&
        (z.2.any fun shown => (readNotify shown).any fun notify => decide (notify.jobId = "1")) &&
        (translateSubmit rollingLibrary (shareFor 1) z.1.1.state).2.any fun share =>
          decide (share.jobId = 1)) = true := by decide +kernel
  obtain ⟨⟨x, sent⟩, hx, hp⟩ := (Option.any_eq_true ..).mp hp
  simp only [Bool.and_eq_true, decide_eq_true_eq, List.any_eq_true, Option.any_eq_true] at hp
  obtain ⟨⟨hpast, shown, hshown, notify, hread, hnames⟩, share, htranslate, hshare⟩ := hp
  have hreaches : Converses jobDecoder rollingLibrary x sent := ⟨1, Run.of_run hx⟩
  have hjobs : receivedJobs jobDecoder x.2 = [plainJob 1, plainJob 2] := by
    rw [hpast]
    decide +kernel
  obtain ⟨job, before, after, hreceived, hblock, hhashes⟩ := shown_notify_hashes
    rollingLibrary_translates hreaches (by rw [hjobs]; decide) (by rw [hjobs]; decide) hshown hread
  obtain ⟨block, hblock, hon⟩ := hblock (hpast ▸ activatedFirst_ordered)
  obtain ⟨hid, hiff⟩ := @hhashes (shareFor 1) _ _ rfl rfl hnames.symm htranslate
  rw [hjobs] at hreceived hiff
  have hjob : job = plainJob 1 := by
    have hmem : job ∈ [plainJob 1, plainJob 2] := by simp [hreceived]
    rw [hshare] at hid
    rcases List.mem_pair.mp hmem with rfl | rfl
    · rfl
    · cases hid
  have hlast : after.length ≤ ([plainJob 1, plainJob 2].length - 1) % 64 := by
    have hlength := congrArg List.length hreceived
    simp only [List.length_append, List.length_cons, List.length_nil] at hlength ⊢
    omega
  refine ⟨x, sent, shown, notify, block, job, _, share, hreaches, hshown, hread, ?_, hblock,
    htranslate, (hiff [10, 11] block hblock).mpr ⟨hon, Or.inl hlast⟩⟩
  rw [hjob, hjobs]
  decide

end RentalProxy.Sv1
