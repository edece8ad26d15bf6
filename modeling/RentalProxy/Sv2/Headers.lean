import RentalProxy.Sv2.Transitions
import Mathlib.Data.Nat.Bitwise

/-!
# The header of a translated share

The miner hashes a header that it makes of a job frame, and the SV1 pool checks one that it makes
of its notify and of the submit.  They are the same header.

* `Link` is one connection to an SV1 pool: the state that the reader and the writer share, and
  what went over the connection.  `linkStep` is a line of the pool or a frame of the miner.
* `minerHeader` and `poolHeader` are what the two sides hash.
* `Link.Ok` is the invariant: job `k + 1` is job and submits of the `k`-th notify.
* `share_means_header` is the result.
-/

namespace RentalProxy.Sv2

open StepSystem

/-! ## The connection -/

/-- The id of a job frame. -/
def Mining.jobId? : Mining → Option Nat
  | .newMiningJob job => some job.jobId
  | .newExtendedMiningJob job => some job.jobId
  | _ => none

/-- The job that a call of the reader sends. -/
def SessionCall.job? : SessionCall → Option Mining
  | .sendTranslateFrame (.built msg) => if msg.jobId?.isSome then some msg else none
  | _ => none

/-- One connection to an SV1 pool. -/
structure Link where
  state : Sv1UpState
  /-- The notifies of the pool, oldest first. -/
  notifies : List Notify
  /-- The jobs for the miner. -/
  jobs : List Mining
  /-- The shares that were passed on, and what the pool was sent for them. -/
  submits : List (SubmitShares × Sv1Submit)

/-- A connection that was just made. -/
def Link.fresh (conn : Sv1UpConn) (userName : String) (extended : Bool) : Link :=
  ⟨.new conn userName extended, [], [], []⟩

inductive LinkEvent where
  /-- The reader takes a line. -/
  | line (line : RpcMessage)
  /-- The writer takes a frame. -/
  | frame (frame : Sv2Frame)

variable (decode : Decoder) (lib : Sv1Library) (downCid : Nat)

/-- `handle_sv1_line` and the writer, in any order. -/
def linkStep (l : Link) : LinkEvent → Option Link
  | .line line =>
    let (state, calls) := handleSv1Line lib downCid line l.state
    some { l with
      state
      notifies := l.notifies ++ (lib.notify line).toList
      jobs := l.jobs ++ calls.filterMap SessionCall.job? }
  | .frame frame =>
    let (state, submit) := translateSubmit decode frame l.state
    some { l with
      state
      submits := l.submits ++ (match shareOf decode frame, submit with
        | some share, some s => [(share, s)]
        | _, _ => []) }

/-! ## Headers -/

/-- A block header. -/
structure Header where
  version : Nat
  prevHash : List UInt8
  merkleRoot : List UInt8
  ntime : Nat
  nbits : Nat
  nonce : Nat

/-- The bytes that are hashed. -/
def Header.bytes (h : Header) : List UInt8 :=
  leBytes 4 h.version ++ h.prevHash ++ h.merkleRoot ++ leBytes 4 h.ntime ++ leBytes 4 h.nbits ++
    leBytes 4 h.nonce

/-- Two hashes and four words. -/
theorem Header.bytes_length {h : Header} (hprev : h.prevHash.length = 32)
    (hroot : h.merkleRoot.length = 32) : h.bytes.length = 80 := by
  simp [Header.bytes, hprev, hroot]

/-- The merkle root of a coinbase transaction and a path. -/
abbrev MerkleFold := List UInt8 → List (List UInt8) → List UInt8

variable (fold : MerkleFold)

/-- The library folds the coinbase that it is given the parts of. -/
def Sv1Library.Folds (lib : Sv1Library) (fold : MerkleFold) : Prop :=
  ∀ coinBase1 coinBase2 extranonce path root,
    lib.merkleRoot coinBase1 coinBase2 extranonce path = some root →
      root = fold (coinBase1 ++ extranonce ++ coinBase2) path

/-- The header that the miner hashes for a share of a job, with the prev-hash and the nbits of a
notify.  On an Extended channel it folds the coinbase itself, with the prefix it was told. -/
def minerHeader (conn : Sv1UpConn) (notify : Notify) (job : Mining) (share : SubmitShares) :
    Option Header :=
  let header (merkleRoot : List UInt8) : Header := {
    version := share.version, prevHash := notify.prevHash, merkleRoot
    ntime := share.ntime, nbits := notify.bits, nonce := share.nonce }
  match job, share.extranonce with
  | .newExtendedMiningJob j, some extranonce => some (header
      (fold (j.coinbaseTxPrefix ++ (conn.extranonce1 ++ extranonce) ++ j.coinbaseTxSuffix)
        j.merklePath))
  | .newMiningJob j, none => some (header j.merkleRoot)
  | _, _ => none

/-- The version that a pool makes of the bits in a submit: the bits of the mask are the miner's,
and the others are the job's. -/
def rolledVersion (version : Nat) (mask bits : Option Nat) : Nat :=
  match mask, bits with
  | some m, some b => Nat.ldiff version m ||| (b &&& m)
  | _, _ => version

/-- The header that the pool makes of its notify and of a submit. -/
def poolHeader (conn : Sv1UpConn) (notify : Notify) (submit : Sv1Submit) : Header where
  version := rolledVersion notify.version conn.versionMask submit.versionBits
  prevHash := notify.prevHash
  merkleRoot := fold (notify.coinBase1 ++ (conn.extranonce1 ++ submit.extranonce2) ++
    notify.coinBase2) notify.merkleBranch
  ntime := submit.time
  nbits := notify.bits
  nonce := submit.nonce

/-- The version of a share: it differs from the job's only inside the mask that was negotiated,
and not at all when none was. -/
def AllowedVersion (mask : Option Nat) (jobVersion version : Nat) : Prop :=
  match mask with
  | some m => Nat.ldiff version m = Nat.ldiff jobVersion m
  | none => version = jobVersion

/-- The pool finds the version that the miner has rolled. -/
theorem rolledVersion_of_allowed {mask : Option Nat} {jobVersion version : Nat}
    (h : AllowedVersion mask jobVersion version) :
    rolledVersion jobVersion mask (mask.map (version &&& ·)) = version := by
  cases mask with
  | none => exact h.symm
  | some m =>
    have hsplit : Nat.ldiff version m ||| (version &&& m &&& m) = version := by
      refine Nat.eq_of_testBit_eq fun i => ?_
      simp only [Nat.testBit_or, Nat.testBit_ldiff, Nat.testBit_and]
      cases version.testBit i <;> cases m.testBit i <;> rfl
    simp only [rolledVersion, Option.map_some]
    rw [← show Nat.ldiff version m = Nat.ldiff jobVersion m from h, hsplit]

/-- The version of a job frame. -/
def Mining.jobVersion : Mining → Nat
  | .newMiningJob job => job.version
  | .newExtendedMiningJob job => job.version
  | _ => 0

/-! ## The invariant -/

/-- The extranonce that the proxy chooses for the Standard job of the `k`-th notify. -/
def rolledFor (conn : Sv1UpConn) (k : Nat) : List UInt8 :=
  leBytes (min conn.extranonce2Size 8) k ++ List.replicate (conn.extranonce2Size - 8) 0

/-- The job of the `k`-th notify. -/
def jobFor (conn : Sv1UpConn) (extended : Bool) (notify : Notify) (k : Nat) (asFuture : Bool) :
    Option Mining :=
  if extended then
    (sv1NotifyToSv2Job notify downCid (k + 1) asFuture conn.versionMask.isSome).map
      .newExtendedMiningJob
  else
    (sv1NotifyToSv2StandardJob lib notify downCid (k + 1) conn.extranonce1 (rolledFor conn k)
      asFuture).map .newMiningJob

/-- What is remembered of the job. -/
def jobInfoFor (conn : Sv1UpConn) (extended : Bool) (notify : Notify) (k : Nat) : Sv1JobInfo :=
  ⟨notify.jobId, if extended then none else some (rolledFor conn k)⟩

/-- What the pool is sent for a share of a job. -/
structure SubmitFor (conn : Sv1UpConn) (info : Sv1JobInfo) (share : SubmitShares)
    (submit : Sv1Submit) : Prop where
  jobId : submit.jobId = info.sv1JobId
  extranonce2 : (share.extranonce.orElse fun _ => info.extranonce2) = some submit.extranonce2
  time : submit.time = share.ntime
  nonce : submit.nonce = share.nonce
  versionBits : submit.versionBits = conn.versionMask.map (share.version &&& ·)

/-- Jobs are numbered as the notifies are, and jobs and submits are of their notify. -/
structure Link.Ok (conn : Sv1UpConn) (extended : Bool) (l : Link) : Prop where
  versionMask : l.state.versionMask = conn.versionMask
  extranonce1 : l.state.extranonce1 = conn.extranonce1
  extranonce2Size : l.state.extranonce2Size = conn.extranonce2Size
  kind : l.state.extended = extended
  next : l.state.nextJobId = l.notifies.length + 1
  rolled : extended = false → l.state.nextExtranonce2 = l.notifies.length
  jobs : ∀ job ∈ l.jobs, ∃ k notify asFuture, l.notifies[k]? = some notify ∧
    jobFor lib downCid conn extended notify k asFuture = some job
  known : ∀ id info, l.state.jobMap.lookup id = some info → ∃ k notify, id = k + 1 ∧
    l.notifies[k]? = some notify ∧ info = jobInfoFor conn extended notify k
  submits : ∀ p ∈ l.submits, ∃ k notify, p.1.jobId = k + 1 ∧ l.notifies[k]? = some notify ∧
    SubmitFor conn (jobInfoFor conn extended notify k) p.1 p.2

variable {decode lib downCid fold}

/-- What is there stays at its place. -/
theorem getElem?_append_of_some {xs ys : List Notify} {k : Nat} {n : Notify}
    (h : xs[k]? = some n) : (xs ++ ys)[k]? = some n := by
  obtain ⟨hk, _⟩ := List.getElem?_eq_some_iff.mp h
  rw [List.getElem?_append_left hk]
  exact h

/-- What is known of the notifies alone. -/
theorem Link.Ok.forget {conn : Sv1UpConn} {extended : Bool} {l : Link}
    (h : l.Ok lib downCid conn extended) :
    Link.Ok lib downCid conn extended ⟨l.state, l.notifies, [], []⟩ :=
  ⟨h.versionMask, h.extranonce1, h.extranonce2Size, h.kind, h.next, h.rolled, nofun, h.known,
    nofun⟩

theorem Link.fresh_ok (conn : Sv1UpConn) (userName : String) (extended : Bool) :
    (Link.fresh conn userName extended).Ok lib downCid conn extended :=
  ⟨rfl, rfl, rfl, rfl, rfl, fun _ => rfl, nofun, nofun, nofun⟩

/-- A line that is no notify makes no job, and changes only which submits are open. -/
theorem handleSv1Line_other {line : RpcMessage} {s : Sv1UpState} (h : lib.notify line = none) :
    (∃ open', (handleSv1Line lib downCid line s).1 = { s with submitSeq := open' }) ∧
      (handleSv1Line lib downCid line s).2.filterMap SessionCall.job? = [] := by
  unfold handleSv1Line
  simp only [h]
  split
  · rename_i diff _
    refine ⟨⟨s.submitSeq, rfl⟩, ?_⟩
    cases hframe : setTarget downCid (targetFromDifficulty diff) with
    | none => rfl
    | some frame =>
      obtain ⟨_, _, rfl⟩ := Option.map_eq_some_iff.mp hframe
      rfl
  · split
    · exact ⟨⟨s.submitSeq, rfl⟩, rfl⟩
    · unfold translateResponse
      split
      · exact ⟨⟨s.submitSeq, rfl⟩, rfl⟩
      · split
        · exact ⟨⟨s.submitSeq, rfl⟩, rfl⟩
        · refine ⟨⟨_, rfl⟩, ?_⟩
          split <;> rfl

/-- A frame of the miner changes only which submits are open. -/
theorem translateSubmit_state (decode : Decoder) (frame : Sv2Frame) (s : Sv1UpState) :
    ∃ id submits, (translateSubmit decode frame s).1 =
      { s with nextSubmitId := id, submitSeq := submits } := by
  unfold translateSubmit
  split
  · exact ⟨s.nextSubmitId, s.submitSeq, rfl⟩
  · split
    · exact ⟨s.nextSubmitId, s.submitSeq, rfl⟩
    · split
      · exact ⟨s.nextSubmitId, s.submitSeq, rfl⟩
      · exact ⟨_, _, rfl⟩

/-- The job of a notify is of the kind of the channel. -/
theorem jobFor_cases {conn : Sv1UpConn} {extended : Bool} {n : Notify} {k : Nat} {asFuture : Bool}
    {job : Mining} (h : jobFor lib downCid conn extended n k asFuture = some job) :
    (extended = true ∧ job = .newExtendedMiningJob {
      channelId := downCid
      jobId := k + 1
      minNtime := if asFuture then none else some n.time
      version := n.version
      versionRollingAllowed := conn.versionMask.isSome
      merklePath := n.merkleBranch
      coinbaseTxPrefix := n.coinBase1
      coinbaseTxSuffix := n.coinBase2 }) ∨
    (extended = false ∧ ∃ root merkleRoot, lib.merkleRoot n.coinBase1 n.coinBase2
        (conn.extranonce1 ++ rolledFor conn k) n.merkleBranch = some root ∧
      u256 root = some merkleRoot ∧ job = .newMiningJob {
        channelId := downCid
        jobId := k + 1
        minNtime := if asFuture then none else some n.time
        version := n.version
        merkleRoot }) := by
  unfold jobFor at h
  cases extended with
  | true =>
    obtain ⟨j, hj, rfl⟩ := Option.map_eq_some_iff.mp h
    exact Or.inl ⟨rfl, congrArg _ (eq_of_sv1NotifyToSv2Job hj)⟩
  | false =>
    obtain ⟨j, hj, rfl⟩ := Option.map_eq_some_iff.mp h
    obtain ⟨root, merkleRoot, hroot, hsize, hjob⟩ := eq_of_sv1NotifyToSv2StandardJob hj
    exact Or.inr ⟨rfl, root, merkleRoot, hroot, hsize, congrArg _ hjob⟩

/-- A job of a notify is numbered like the notify, and has its version. -/
theorem jobFor_spec {conn : Sv1UpConn} {extended : Bool} {n : Notify} {k : Nat} {asFuture : Bool}
    {job : Mining} (h : jobFor lib downCid conn extended n k asFuture = some job) :
    job.jobId? = some (k + 1) ∧ job.jobVersion = n.version := by
  rcases jobFor_cases h with ⟨_, rfl⟩ | ⟨_, _, _, _, _, rfl⟩
  · exact ⟨rfl, rfl⟩
  · exact ⟨rfl, rfl⟩

/-- A notify is numbered and remembered, and its job goes out with its activation. -/
theorem Link.Ok.translateNotify_eq {conn : Sv1UpConn} {extended : Bool} {l : Link}
    (h : l.Ok lib downCid conn extended) (n : Notify) :
    translateNotify lib downCid n l.state = (l.state.recordJob n.jobId,
      match jobFor lib downCid conn extended n l.notifies.length
        (n.cleanJobs || !l.state.firstJobSent) with
      | some job => (job :: if n.cleanJobs || !l.state.firstJobSent then
          [.setNewPrevHash (activation n downCid l.state.nextJobId)] else []).map
            fun m => .sendTranslateFrame (.built m)
      | none => []) := by
  have hrolled : extended = false →
      l.state.rolledExtranonce2 = rolledFor conn l.notifies.length := by
    intro hstandard
    unfold Sv1UpState.rolledExtranonce2 rolledFor
    rw [h.extranonce2Size, h.rolled hstandard]
  unfold translateNotify jobFor
  dsimp only
  rw [h.kind, h.versionMask, h.extranonce1, h.next]
  cases extended with
  | true => rfl
  | false => exact hrolled rfl ▸ rfl

/-- A notify makes at most its job. -/
theorem Link.Ok.notify {conn : Sv1UpConn} {extended : Bool} {l : Link}
    (h : l.Ok lib downCid conn extended) {line : RpcMessage} {n : Notify}
    (hnotify : lib.notify line = some n) :
    (handleSv1Line lib downCid line l.state).1 = l.state.recordJob n.jobId ∧
      ∀ job ∈ (handleSv1Line lib downCid line l.state).2.filterMap SessionCall.job?,
        ∃ asFuture, jobFor lib downCid conn extended n l.notifies.length asFuture = some job := by
  unfold handleSv1Line
  simp only [hnotify, h.translateNotify_eq n]
  refine ⟨trivial, fun job hjob => ⟨n.cleanJobs || !l.state.firstJobSent, ?_⟩⟩
  cases hj : jobFor lib downCid conn extended n l.notifies.length
      (n.cleanJobs || !l.state.firstJobSent) with
  | none =>
    rw [hj] at hjob
    cases hjob
  | some j =>
    rw [hj] at hjob
    -- the activation of the job is no job
    have hone : ((j :: if (n.cleanJobs || !l.state.firstJobSent) = true then
        [Mining.setNewPrevHash (activation n downCid l.state.nextJobId)] else []).map
          fun m => SessionCall.sendTranslateFrame (.built m)).filterMap SessionCall.job? = [j] := by
      have hid := (jobFor_spec hj).1
      rw [List.map_cons, List.filterMap_cons_some (b := j)]
      · split <;> rfl
      · simp [SessionCall.job?, hid]
    rw [hone] at hjob
    rw [List.mem_singleton.mp hjob]

namespace Link.Ok

variable {conn : Sv1UpConn} {extended : Bool} {l l' : Link}

/-- A notify goes through. -/
theorem line_notify (h : l.Ok lib downCid conn extended) {line : RpcMessage} {n : Notify}
    (hnotify : lib.notify line = some n)
    (hstep : linkStep decode lib downCid l (.line line) = some l') :
    l'.Ok lib downCid conn extended := by
  obtain ⟨hstate, hnew⟩ := h.notify hnotify
  simp only [linkStep, hnotify, Option.some.injEq] at hstep
  subst hstep
  have hlast : (l.notifies ++ [n])[l.notifies.length]? = some n := by simp
  refine ⟨?_, ?_, ?_, ?_, ?_, ?_, ?_, ?_, ?_⟩ <;> dsimp only [Option.toList_some]
  · rw [hstate]
    exact h.versionMask
  · rw [hstate]
    exact h.extranonce1
  · rw [hstate]
    exact h.extranonce2Size
  · rw [hstate]
    exact h.kind
  · rw [hstate, List.length_append]
    exact congrArg (· + 1) h.next
  · intro hstandard
    have hkind : l.state.extended = false := h.kind.trans hstandard
    rw [hstate, List.length_append]
    simp only [Sv1UpState.recordJob, hkind, Bool.false_eq_true, if_false]
    exact congrArg (· + 1) (h.rolled hstandard)
  · intro job hjob
    rcases List.mem_append.mp hjob with hold | hjob
    · obtain ⟨k, m, asFuture, hm, hfor⟩ := h.jobs job hold
      exact ⟨k, m, asFuture, getElem?_append_of_some hm, hfor⟩
    · obtain ⟨asFuture, hfor⟩ := hnew job hjob
      exact ⟨l.notifies.length, n, asFuture, hlast, hfor⟩
  · rw [hstate]
    intro id info hinfo
    simp only [Sv1UpState.recordJob] at hinfo
    by_cases hid : id = l.state.nextJobId
    · subst hid
      rw [AList.lookup_insert] at hinfo
      refine ⟨l.notifies.length, n, h.next, hlast, ?_⟩
      rw [← Option.some.inj hinfo, jobInfoFor, h.kind]
      cases extended with
      | true => rfl
      | false =>
        unfold Sv1UpState.rolledExtranonce2 rolledFor
        rw [h.extranonce2Size, h.rolled rfl]
    · rw [AList.lookup_insert_ne hid] at hinfo
      split at hinfo
      · cases hinfo
      · obtain ⟨k, m, hk, hm, heq⟩ := h.known id info hinfo
        exact ⟨k, m, hk, getElem?_append_of_some hm, heq⟩
  · intro p hp
    obtain ⟨k, m, hk, hm, hfor⟩ := h.submits p hp
    exact ⟨k, m, hk, getElem?_append_of_some hm, hfor⟩

/-- Any other line. -/
theorem line_other (h : l.Ok lib downCid conn extended) {line : RpcMessage}
    (hnotify : lib.notify line = none)
    (hstep : linkStep decode lib downCid l (.line line) = some l') :
    l'.Ok lib downCid conn extended := by
  obtain ⟨⟨open', hstate⟩, hnone⟩ :=
    @handleSv1Line_other lib downCid line l.state hnotify
  simp only [linkStep, hnotify, hnone, Option.some.injEq] at hstep
  subst hstep
  rw [Option.toList_none, List.append_nil, List.append_nil, hstate]
  exact ⟨h.versionMask, h.extranonce1, h.extranonce2Size, h.kind, h.next, h.rolled, h.jobs,
    h.known, h.submits⟩

/-- A frame of the miner. -/
theorem frame (h : l.Ok lib downCid conn extended) {frame : Sv2Frame}
    (hstep : linkStep decode lib downCid l (.frame frame) = some l') :
    l'.Ok lib downCid conn extended := by
  simp only [linkStep, Option.some.injEq] at hstep
  subst hstep
  obtain ⟨id, submits, hstate⟩ := translateSubmit_state decode frame l.state
  rw [hstate]
  refine ⟨h.versionMask, h.extranonce1, h.extranonce2Size, h.kind, h.next, h.rolled, h.jobs,
    h.known, ?_⟩
  intro p hp
  rcases List.mem_append.mp hp with hold | hnew
  · exact h.submits p hold
  · split at hnew
    · rename_i share s hshare hsubmit
      rw [List.mem_singleton.mp hnew]
      unfold translateSubmit at hsubmit
      simp only [hshare] at hsubmit
      split at hsubmit
      · cases hsubmit
      · rename_i info hinfo
        split at hsubmit
        · cases hsubmit
        · rename_i extranonce2 hextranonce2
          obtain ⟨en2, hsize, rfl⟩ := Option.map_eq_some_iff.mp hsubmit
          obtain ⟨k, n, hk, hn, rfl⟩ := h.known _ _ hinfo
          refine ⟨k, n, hk, hn, rfl, ?_, rfl, rfl, ?_⟩
          · unfold b032 at hsize
            split at hsize <;> cases hsize
            exact hextranonce2
          · rw [h.versionMask]
    · cases hnew

theorem step (h : l.Ok lib downCid conn extended) {e : LinkEvent}
    (hstep : linkStep decode lib downCid l e = some l') : l'.Ok lib downCid conn extended := by
  cases e with
  | line line =>
    cases hnotify : lib.notify line with
    | none => exact h.line_other hnotify hstep
    | some n => exact h.line_notify hnotify hstep
  | frame f => exact h.frame hstep

end Link.Ok

/-! ## The result -/

/-- The share of an Extended job carries the extranonce that the miner chose, the one of a
Standard job carries none. -/
def SubmitShares.OfKind (share : SubmitShares) (extended : Bool) : Prop :=
  share.extranonce.isSome = extended

/-- What the miner hashes for a share of the job of a notify: the extranonce is the one that goes
into the submit. -/
theorem minerHeader_of_job (hfold : lib.Folds fold) {conn : Sv1UpConn} {extended : Bool}
    {n : Notify} {k : Nat} {asFuture : Bool} {job : Mining} {share : SubmitShares}
    {extranonce2 : List UInt8} (hjob : jobFor lib downCid conn extended n k asFuture = some job)
    (hkind : share.OfKind extended)
    (hextranonce2 : (share.extranonce.orElse fun _ => (jobInfoFor conn extended n k).extranonce2) =
      some extranonce2) :
    minerHeader fold conn n job share = some {
      version := share.version
      prevHash := n.prevHash
      merkleRoot := fold (n.coinBase1 ++ (conn.extranonce1 ++ extranonce2) ++ n.coinBase2)
        n.merkleBranch
      ntime := share.ntime
      nbits := n.bits
      nonce := share.nonce } := by
  rcases jobFor_cases hjob with ⟨rfl, rfl⟩ | ⟨rfl, root, merkleRoot, hroot, hsize, rfl⟩
  · obtain ⟨extranonce, hextranonce⟩ := Option.isSome_iff_exists.mp hkind
    rw [hextranonce] at hextranonce2
    cases hextranonce2
    simp only [minerHeader, hextranonce]
  · have hnone : share.extranonce = none := by simpa [SubmitShares.OfKind] using hkind
    rw [hnone] at hextranonce2
    cases hextranonce2
    unfold u256 at hsize
    split at hsize <;> cases hsize
    simp only [minerHeader, hnone]
    rw [← hfold _ _ _ _ _ hroot]

/-- In every run of the reader and the writer, what the miner hashed for a share of a job is what
the pool makes of the submit and of the notify that its job id names. -/
theorem share_means_header (hfold : lib.Folds fold) {conn : Sv1UpConn} {userName : String}
    {extended : Bool} {l : Link}
    (hrun : Reachable (linkStep decode lib downCid) (.fresh conn userName extended) l)
    {share : SubmitShares} {submit : Sv1Submit} {job : Mining}
    (hsubmit : (share, submit) ∈ l.submits) (hjob : job ∈ l.jobs)
    (hid : job.jobId? = some share.jobId) (hkind : share.OfKind extended)
    (hversion : AllowedVersion conn.versionMask job.jobVersion share.version) :
    ∃ notify ∈ l.notifies, notify.jobId = submit.jobId ∧
      (minerHeader fold conn notify job share).map Header.bytes =
        some (poolHeader fold conn notify submit).bytes ∧
      ((l.notifies.map Notify.jobId).Nodup →
        ∀ n ∈ l.notifies, n.jobId = submit.jobId → n = notify) := by
  have hok : l.Ok lib downCid conn extended :=
    hrun.invariant (I := fun l => l.Ok lib downCid conn extended) (Link.fresh_ok ..)
      fun _ _ _ hl _ hstep => hl.step hstep
  obtain ⟨k, notify, hk, hnotify, hfor⟩ := hok.submits _ hsubmit
  obtain ⟨k', notify', asFuture, hnotify', hjobFor⟩ := hok.jobs job hjob
  -- share and job are of one notify
  have hsame : k' = k := by
    have hspec := Option.some.inj (hid.symm.trans (jobFor_spec hjobFor).1)
    have hk : share.jobId = k + 1 := hk
    omega
  subst hsame
  rw [hnotify] at hnotify'
  cases hnotify'
  have hmem := List.mem_of_getElem? hnotify
  have hname : notify.jobId = submit.jobId := hfor.jobId.symm
  refine ⟨notify, hmem, hname, ?_, fun hnodup n hn heq =>
    List.inj_on_of_nodup_map hnodup hn hmem (heq.trans hname.symm)⟩
  have hrolled := rolledVersion_of_allowed hversion
  rw [(jobFor_spec hjobFor).2, ← hfor.versionBits] at hrolled
  have hheader : minerHeader fold conn notify job share =
      some (poolHeader fold conn notify submit) := by
    rw [poolHeader, hrolled, hfor.time, hfor.nonce]
    exact minerHeader_of_job hfold hjobFor hkind hfor.extranonce2
  rw [hheader]
  rfl

/-! ## On a rig -/

/-- The driver of a translated upstream is a connection that was made and run. -/
def Linked (decode : Decoder) (lib : Sv1Library) (t : Translator) : Prop :=
  ∃ conn userName extended l,
    Reachable (linkStep decode lib t.downCid) (.fresh conn userName extended) l ∧
      l.state = t.state

/-- The tasks of a rig run the connection to its SV1 pool. -/
theorem linked_of_reaches {r : Rig} (h : Reaches decode lib r) :
    ∀ t, r.translator = some t → Linked decode lib t := by
  refine ReachesUnder.invariant (I := fun r => ∀ t, r.translator = some t → Linked decode lib t)
    h ?_ ?_
  · intro worker spec store idlePool now failed answer r₀ _ hstart t ht
    obtain ⟨_, _, _, _, _, hinstall⟩ := start_firstInstall hstart
    cases hinstall with
    | native => cases ht
    | @sv1 _ _ _ _ conn =>
      cases ht
      exact ⟨conn, _, _, _, .refl, rfl⟩
  · intro x e y hx _ hstep t ht
    cases transition_of_step hstep with
    | @minerFrame member frame hmember =>
      rw [(SameTasks.submitted _ _).translator] at ht
      exact hx t ht
    | @translateLine line cid written state htranslator =>
      cases ht
      obtain ⟨conn, userName, extended, l, hrun, hstate⟩ := hx _ htranslator
      subst hstate
      exact ⟨conn, userName, extended, _, .tail (e := .line line) hrun rfl trivial, rfl⟩
    | @translateWrite cid written state calls frame htranslator =>
      cases ht
      obtain ⟨conn, userName, extended, l, hrun, hstate⟩ := hx _ htranslator
      subst hstate
      exact ⟨conn, userName, extended, _, .tail (e := .frame frame) hrun rfl trivial, rfl⟩
    | translateCall htranslator =>
      rw [(translateCall_sameTasks ..).translator] at ht
      cases ht
      obtain ⟨conn, userName, extended, l, hrun, hstate⟩ := hx _ htranslator
      exact ⟨conn, userName, extended, l, hrun, hstate⟩
    | swapReopened hswap hlength => cases ht
    | swapTranslated hswap hconn =>
      cases ht
      exact ⟨_, _, _, _, .refl, rfl⟩
    | _ => exact hx t ht

/-! ## A concrete connection -/

/-- A fold for the concrete runs. -/
def plainFold : MerkleFold := fun coinbase _ => (coinbase ++ List.replicate 32 0).take 32

/-- A library that reads the id, the prev-hash, the length of the merkle branch and the clean flag
of a notify. -/
def notifyLibrary : Sv1Library where
  notify line := do
    if line.method ≠ some "mining.notify" then none
    else
      let params ← line.params.bind Value.asArray
      let jobId ← params[0]?.bind Value.asStr
      let prevHash ← params[1]?.bind Value.asU64
      let branch ← params[2]?.bind Value.asU64
      some {
        jobId, prevHash := List.replicate 32 (UInt8.ofNat prevHash), coinBase1 := [1]
        coinBase2 := [2], merkleBranch := List.replicate branch [], version := 0x20000000
        bits := 0, time := 0, cleanJobs := decide (params[3]? = some (.bool true)) }
  setDifficulty := RpcMessage.setDifficulty?
  merkleRoot coinBase1 coinBase2 extranonce path :=
    some (plainFold (coinBase1 ++ extranonce ++ coinBase2) path)

/-- A notify for this library. -/
def notifyLine (jobId : String) (prevHash branch : Nat) (clean : Bool) : RpcMessage where
  method := some "mining.notify"
  params := some (.arr [.str jobId, .num (.int prevHash), .num (.int branch), .bool clean])

/-- A pool with version rolling, of which a share has rolled one bit. -/
def rollingConn : Sv1UpConn where
  extranonce1 := [10, 11]
  extranonce2Size := 4
  versionMask := some versionRollingMask
  initialDiff := 1
  handshakeLines := []
  reader := []

/-- A share of job 1. -/
def rolledShare : Sv2Frame where
  msgType := .submitSharesExtended
  payload := leBytes 4 1 ++ leBytes 4 5 ++ leBytes 4 1 ++ leBytes 4 99 ++ leBytes 4 7 ++
    leBytes 4 0x20002000 ++ [4, 1, 2, 3, 4]

theorem notifyLibrary_folds : notifyLibrary.Folds plainFold := by
  intro coinBase1 coinBase2 extranonce path root hroot
  exact (Option.some.inj hroot).symm

/-- The share of a rolled version is passed on, and is of the same header. -/
theorem share_means_header_rolled :
    ∃ l share submit job, Reachable (linkStep wireDecoder notifyLibrary 1)
        (.fresh rollingConn "bc1p.rig" true) l ∧ (share, submit) ∈ l.submits ∧ job ∈ l.jobs ∧
      share.version ≠ job.jobVersion ∧ ∃ notify ∈ l.notifies, notify.jobId = submit.jobId ∧
        (minerHeader plainFold rollingConn notify job share).map Header.bytes =
          some (poolHeader plainFold rollingConn notify submit).bytes := by
  have hp : (run (linkStep wireDecoder notifyLibrary 1) (.fresh rollingConn "bc1p.rig" true)
      [.line (notifyLine "j1" 7 2 true), .frame rolledShare]).any (fun l =>
        l.submits.any fun p => l.jobs.any fun job => decide (job.jobId? = some p.1.jobId) &&
          p.1.extranonce.isSome && decide (p.1.version ≠ job.jobVersion) &&
          decide (Nat.ldiff p.1.version versionRollingMask =
            Nat.ldiff job.jobVersion versionRollingMask)) = true := by decide +kernel
  obtain ⟨l, hl, hp⟩ := (Option.any_eq_true ..).mp hp
  simp only [List.any_eq_true, Bool.and_eq_true, decide_eq_true_eq] at hp
  obtain ⟨⟨share, submit⟩, hsubmit, job, hjob, ⟨⟨hid, hkind⟩, hrolled⟩, hversion⟩ := hp
  have hrun := Run.of_run hl
  obtain ⟨notify, hmem, hname, hheader, _⟩ := share_means_header notifyLibrary_folds hrun hsubmit
    hjob hid hkind hversion
  exact ⟨l, share, submit, job, hrun, hsubmit, hjob, hrolled, notify, hmem, hname, hheader⟩

end RentalProxy.Sv2
