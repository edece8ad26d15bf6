import RentalProxy.Lib.BoundedTable
import RentalProxy.Lib.History
import RentalProxy.Sv2.Headers

/-!
# The extranonce of a Standard job

On a Standard channel the proxy rolls the extranonce: each notify takes the next value of a
counter, cut or padded to the size that the pool chose, also when its translation fails.  The
value is kept under the id of the job for the shares, which come back without one.

* `translatorStep` is the connection with its counters at their widths.  `reachable_of_link` says
  that it is the connection of `Sv2/Headers.lean` while no counter starts over, and `rolls_on_rig`
  that it is then the one of a rig.
* `RolledJob` is what became of a notify.
* `RollsJobs` is the invariant: the `k`-th notify has the `k`-th extranonce.
* `standard_extranonce2` is the result.
-/

namespace RentalProxy.Sv2

open StepSystem BoundedTable

/-! ## The connection -/

/-- The counters at their widths: they are advanced by `wrapping_add`. -/
def Sv1UpState.wrapped (s : Sv1UpState) : Sv1UpState :=
  { s with
    nextExtranonce2 := s.nextExtranonce2 % 2 ^ 64
    nextJobId := s.nextJobId % 2 ^ 32
    nextSubmitId := s.nextSubmitId % 2 ^ 64 }

variable (decode : Decoder) (lib : Sv1Library) (downCid : Nat)

/-- `handle_sv1_line` and the writer, in any order. -/
def translatorStep (s : Sv1UpState) : LinkEvent → Option Sv1UpState
  | .line line => some (handleSv1Line lib downCid line s).1.wrapped
  | .frame frame => some (translateSubmit decode frame s).1.wrapped

/-- A notify, and what became of it. -/
structure RolledJob where
  notify : Notify
  jobId : Nat
  /-- What the job map holds for the shares of the job when the notify was handled. -/
  extranonce2 : Option (List UInt8)
  /-- The job for the miner, none when the translation failed. -/
  sent : List Mining

/-- The notifies of a connection, oldest first. -/
def noteJob (s : Sv1UpState) (e : LinkEvent) (log : List RolledJob) : List RolledJob :=
  match e with
  | .line line =>
    match lib.notify line with
    | some notify =>
      let (after, calls) := handleSv1Line lib downCid line s
      log ++ [{
        notify
        jobId := s.nextJobId
        extranonce2 := (after.jobMap.lookup s.nextJobId).bind (·.extranonce2)
        sent := calls.filterMap SessionCall.job? }]
    | none => log
  | .frame _ => log

/-- What the job map keeps of a notify. -/
def RolledJob.entry (job : RolledJob) : Nat × Sv1JobInfo :=
  (job.jobId, ⟨job.notify.jobId, job.extranonce2⟩)

/-- The job was made with this extranonce, and the same one is stored for its shares. -/
structure RolledJob.MadeWith (conn : Sv1UpConn) (extranonce2 : List UInt8) (job : RolledJob) :
    Prop where
  stored : job.extranonce2 = some extranonce2
  sent : ∃ asFuture, job.sent = ((sv1NotifyToSv2StandardJob lib job.notify downCid job.jobId
    conn.extranonce1 extranonce2 asFuture).map Mining.newMiningJob).toList

/-- The `k`-th notify has the `k`-th extranonce, and the job map keeps the notifies. -/
structure RollsJobs (conn : Sv1UpConn) (log : List RolledJob) (s : Sv1UpState) : Prop where
  standard : s.extended = false
  extranonce1 : s.extranonce1 = conn.extranonce1
  extranonce2Size : s.extranonce2Size = conn.extranonce2Size
  rolled : s.nextExtranonce2 = log.length % 2 ^ 64
  jobs : ∀ (k : Nat) (job : RolledJob), log[k]? = some job →
    job.MadeWith lib downCid conn (rolledFor conn k)
  table : s.jobMap = (log.map RolledJob.entry).foldl (put 64) ∅

variable {decode lib downCid} {conn : Sv1UpConn} {log : List RolledJob} {s : Sv1UpState}

/-! ## The values -/

theorem rolledFor_length (conn : Sv1UpConn) (k : Nat) :
    (rolledFor conn k).length = conn.extranonce2Size := by
  rw [rolledFor, List.length_append, leBytes_length, List.length_replicate]
  omega

/-- Two values are the same only a whole round apart. -/
theorem rolledFor_ne {i j : Nat} (hij : i < j) (hround : j < i + 256 ^ min conn.extranonce2Size 8) :
    rolledFor conn i ≠ rolledFor conn j := by
  intro heq
  exact leBytes_ne hij hround (List.append_cancel_right heq)

/-- The counter starts over at a multiple of every round. -/
theorem RollsJobs.rolledExtranonce2_eq (h : RollsJobs lib downCid conn log s) :
    s.rolledExtranonce2 = rolledFor conn log.length := by
  have hround : 256 ^ min conn.extranonce2Size 8 ∣ 2 ^ 64 := by
    rw [show 2 ^ 64 = 256 ^ 8 by norm_num]
    apply Nat.pow_dvd_pow
    omega
  rw [Sv1UpState.rolledExtranonce2, rolledFor, h.extranonce2Size, h.rolled, leBytes_mod hround]

/-- The merkle root of the job is made with the stored extranonce. -/
theorem RolledJob.MadeWith.merkleRoot {job : RolledJob} {extranonce2 : List UInt8} {m : Mining}
    (h : job.MadeWith lib downCid conn extranonce2) (hm : m ∈ job.sent) :
    ∃ sent root, m = .newMiningJob sent ∧ sent.jobId = job.jobId ∧
      lib.merkleRoot job.notify.coinBase1 job.notify.coinBase2 (conn.extranonce1 ++ extranonce2)
        job.notify.merkleBranch = some root ∧
      u256 root = some sent.merkleRoot := by
  obtain ⟨asFuture, hsent⟩ := h.sent
  rw [hsent, Option.mem_toList, Option.map_eq_some_iff] at hm
  obtain ⟨sent, hjob, rfl⟩ := hm
  obtain ⟨root, merkleRoot, hroot, hsize, rfl⟩ := eq_of_sv1NotifyToSv2StandardJob hjob
  exact ⟨_, root, rfl, rfl, hroot, hsize⟩

/-! ## A step -/

/-- A notify on a Standard channel sends its translation. -/
theorem handleSv1Line_standard {line : RpcMessage} {n : Notify} (hnotify : lib.notify line = some n)
    (hstandard : s.extended = false) :
    (handleSv1Line lib downCid line s).1 = s.recordJob n.jobId ∧
      (handleSv1Line lib downCid line s).2.filterMap SessionCall.job? =
        ((sv1NotifyToSv2StandardJob lib n downCid s.nextJobId s.extranonce1 s.rolledExtranonce2
          (n.cleanJobs || !s.firstJobSent)).map Mining.newMiningJob).toList := by
  unfold handleSv1Line
  simp only [hnotify, translateNotify, hstandard, Bool.false_eq_true, if_false]
  refine ⟨trivial, ?_⟩
  cases sv1NotifyToSv2StandardJob lib n downCid s.nextJobId s.extranonce1 s.rolledExtranonce2
      (n.cleanJobs || !s.firstJobSent) with
  | none => rfl
  | some job => cases n.cleanJobs || !s.firstJobSent <;> rfl

namespace RollsJobs

/-- What a step leaves alone, with the counters at their widths. -/
theorem congr {s' : Sv1UpState} {id : Nat} {submits : AList fun _ : Nat => Nat}
    (h : RollsJobs lib downCid conn log s)
    (hstate : s' = { s with nextSubmitId := id, submitSeq := submits }) :
    RollsJobs lib downCid conn log s'.wrapped := by
  subst hstate
  refine ⟨h.standard, h.extranonce1, h.extranonce2Size, ?_, h.jobs, h.table⟩
  show s.nextExtranonce2 % 2 ^ 64 = log.length % 2 ^ 64
  rw [h.rolled, Nat.mod_mod]

/-- A notify takes the next extranonce. -/
theorem notify (h : RollsJobs lib downCid conn log s) {line : RpcMessage} {n : Notify}
    (hnotify : lib.notify line = some n) :
    RollsJobs lib downCid conn (noteJob lib downCid s (.line line) log)
      (handleSv1Line lib downCid line s).1.wrapped := by
  obtain ⟨hstate, hsent⟩ := @handleSv1Line_standard lib downCid s line n hnotify h.standard
  have hstored : (s.recordJob n.jobId).jobMap.lookup s.nextJobId =
      some ⟨n.jobId, some (rolledFor conn log.length)⟩ := by
    simp only [Sv1UpState.recordJob, AList.lookup_insert, h.standard, Bool.false_eq_true,
      if_false, h.rolledExtranonce2_eq]
  have hlog : noteJob lib downCid s (.line line) log =
      log ++ [⟨n, s.nextJobId, some (rolledFor conn log.length),
        (handleSv1Line lib downCid line s).2.filterMap SessionCall.job?⟩] := by
    simp only [noteJob, hnotify, hstate, hstored, Option.bind_some]
  rw [hlog, hstate]
  refine ⟨h.standard, h.extranonce1, h.extranonce2Size, ?_, ?_, ?_⟩
  · show (s.recordJob n.jobId).nextExtranonce2 % 2 ^ 64 = _
    simp only [Sv1UpState.recordJob, h.standard, Bool.false_eq_true, if_false, h.rolled,
      List.length_append, List.length_singleton]
    omega
  · intro k job hjob
    rcases Nat.lt_or_ge k log.length with hk | hk
    · rw [List.getElem?_append_left hk] at hjob
      exact h.jobs k job hjob
    · -- the last job is the one of this notify
      have hlast : k = log.length := by
        have := (List.getElem?_eq_some_iff.mp hjob).1
        rw [List.length_append, List.length_singleton] at this
        omega
      subst hlast
      rw [List.getElem?_append_right hk, Nat.sub_self] at hjob
      cases hjob
      refine ⟨rfl, n.cleanJobs || !s.firstJobSent, ?_⟩
      show (handleSv1Line lib downCid line s).2.filterMap SessionCall.job? = _
      rw [hsent, h.extranonce1, h.rolledExtranonce2_eq]
  · rw [List.map_append, List.foldl_append, ← h.table]
    show (s.recordJob n.jobId).jobMap = _
    simp only [Sv1UpState.recordJob, h.standard, Bool.false_eq_true, if_false,
      h.rolledExtranonce2_eq]
    rfl

theorem step (h : RollsJobs lib downCid conn log s) {e : LinkEvent} {s' : Sv1UpState}
    (hstep : translatorStep decode lib downCid s e = some s') :
    RollsJobs lib downCid conn (noteJob lib downCid s e log) s' := by
  cases e with
  | line line =>
    cases hstep
    cases hnotify : lib.notify line with
    | some n => exact h.notify hnotify
    | none =>
      obtain ⟨⟨submits, hstate⟩, _⟩ := @handleSv1Line_other lib downCid line s hnotify
      simp only [noteJob, hnotify]
      exact h.congr hstate
  | frame frame =>
    cases hstep
    obtain ⟨id, submits, hstate⟩ := translateSubmit_state decode frame s
    exact h.congr hstate

/-- The notifies of a run. -/
theorem of_reaches {userName : String}
    (hrun : Reachable (observed (translatorStep decode lib downCid) (noteJob lib downCid))
      (.new conn userName false, []) (s, log)) :
    RollsJobs lib downCid conn log s := by
  refine hrun.invariant (I := fun x => RollsJobs lib downCid conn x.2 x.1)
    ⟨rfl, rfl, rfl, rfl, ?_, rfl⟩ ?_
  · intro k job hjob
    cases hjob
  · intro x e y hx _ hstep
    obtain ⟨hstep, hlog⟩ := observed_eq_some.mp hstep
    rw [hlog]
    exact hx.step hstep

/-- What the job map holds under an id is of the last job with this id. -/
theorem last_of_lookup (h : RollsJobs lib downCid conn log s) {id : Nat} {info : Sv1JobInfo}
    (hinfo : s.jobMap.lookup id = some info) :
    ∃ before job after, log = before ++ job :: after ∧ job.jobId = id ∧
      (∀ later ∈ after, later.jobId ≠ id) ∧ info = ⟨job.notify.jobId, job.extranonce2⟩ := by
  rw [h.table] at hinfo
  obtain ⟨front, back, hentries, hfresh⟩ := exists_of_lookup hinfo
  obtain ⟨before, rest, rfl, _, hrest⟩ := List.map_eq_append_iff.mp hentries
  obtain ⟨job, after, rfl, hentry, rfl⟩ := List.map_eq_cons_iff.mp hrest
  obtain ⟨rfl, rfl⟩ := Prod.mk.inj hentry
  refine ⟨before, job, after, rfl, rfl, ?_, rfl⟩
  intro later hlater heq
  apply hfresh
  rw [List.map_map]
  exact List.mem_map.mpr ⟨later, hlater, heq⟩

end RollsJobs

/-! ## While no counter starts over -/

/-- No counter has reached its width. -/
structure Sv1UpState.InWidths (s : Sv1UpState) : Prop where
  extranonce2 : s.nextExtranonce2 < 2 ^ 64
  jobId : s.nextJobId < 2 ^ 32
  submitId : s.nextSubmitId < 2 ^ 64

theorem Sv1UpState.InWidths.wrapped (h : s.InWidths) : s.wrapped = s := by
  rw [Sv1UpState.wrapped, Nat.mod_eq_of_lt h.extranonce2, Nat.mod_eq_of_lt h.jobId,
    Nat.mod_eq_of_lt h.submitId]

/-- No counter goes back. -/
structure Sv1UpState.Advances (s s' : Sv1UpState) : Prop where
  extranonce2 : s.nextExtranonce2 ≤ s'.nextExtranonce2
  jobId : s.nextJobId ≤ s'.nextJobId
  submitId : s.nextSubmitId ≤ s'.nextSubmitId

theorem Sv1UpState.InWidths.of_advances {s' : Sv1UpState} (h : s'.InWidths)
    (hle : s.Advances s') : s.InWidths :=
  ⟨hle.extranonce2.trans_lt h.extranonce2, hle.jobId.trans_lt h.jobId,
    hle.submitId.trans_lt h.submitId⟩

theorem handleSv1Line_advances (line : RpcMessage) (s : Sv1UpState) :
    s.Advances (handleSv1Line lib downCid line s).1 := by
  cases hnotify : lib.notify line with
  | none =>
    obtain ⟨⟨_, hstate⟩, _⟩ := @handleSv1Line_other lib downCid line s hnotify
    rw [hstate]
    exact ⟨le_rfl, le_rfl, le_rfl⟩
  | some n =>
    have hstate : (handleSv1Line lib downCid line s).1 = s.recordJob n.jobId := by
      simp only [handleSv1Line, hnotify]
      rfl
    rw [hstate]
    refine ⟨?_, Nat.le_succ _, le_rfl⟩
    simp only [Sv1UpState.recordJob]
    split <;> omega

theorem translateSubmit_advances (frame : Sv2Frame) (s : Sv1UpState) :
    s.Advances (translateSubmit decode frame s).1 := by
  unfold translateSubmit
  split
  · exact ⟨le_rfl, le_rfl, le_rfl⟩
  · split
    · exact ⟨le_rfl, le_rfl, le_rfl⟩
    · split
      · exact ⟨le_rfl, le_rfl, le_rfl⟩
      · exact ⟨le_rfl, le_rfl, Nat.le_succ _⟩

/-- A step of the connection is a step of its state. -/
theorem linkStep_state {l l' : Link} {e : LinkEvent}
    (hstep : linkStep decode lib downCid l e = some l') :
    translatorStep decode lib downCid l.state e = some l'.state.wrapped ∧
      l.state.Advances l'.state := by
  cases e with
  | line line =>
    cases hstep
    exact ⟨rfl, handleSv1Line_advances line l.state⟩
  | frame frame =>
    cases hstep
    exact ⟨rfl, translateSubmit_advances frame l.state⟩

/-- A run of the connection on which no counter starts over is one with the widths. -/
theorem reachable_of_link {userName : String} {extended : Bool} {l : Link}
    (hrun : Reachable (linkStep decode lib downCid) (.fresh conn userName extended) l)
    (hwidths : l.state.InWidths) :
    Reachable (translatorStep decode lib downCid) (.new conn userName extended) l.state := by
  induction hrun with
  | refl => exact .refl
  | tail _ hnext _ ih =>
    obtain ⟨hstep, hadvances⟩ := linkStep_state hnext
    rw [hwidths.wrapped] at hstep
    exact .tail (ih (hwidths.of_advances hadvances)) hstep trivial

/-- The job map of a rig on an SV1 pool is that of a Standard channel's notifies. -/
theorem rolls_on_rig {r : Rig} (h : Reaches decode lib r) {t : Translator}
    (htranslator : r.translator = some t) (hstandard : t.state.extended = false)
    (hwidths : t.state.InWidths) :
    ∃ conn log, RollsJobs lib t.downCid conn log t.state := by
  obtain ⟨conn, userName, extended, l, hrun, hstate⟩ := linked_of_reaches h t htranslator
  have hok : l.Ok lib t.downCid conn extended :=
    hrun.invariant (I := fun l => l.Ok lib t.downCid conn extended) (Link.fresh_ok ..)
      fun _ _ _ hl _ hstep => hl.step hstep
  have hkind : extended = false := by rw [← hok.kind, hstate, hstandard]
  subst hkind
  rw [← hstate] at hwidths ⊢
  obtain ⟨log, hlog⟩ := (reachable_of_link hrun hwidths).exists_history (noteJob lib t.downCid) []
  exact ⟨conn, log, RollsJobs.of_reaches hlog⟩

/-! ## The result -/

/-- In every run on a Standard channel, failed translations included: the extranonce of a notify
has the size that the pool chose and is the one in the merkle root of its job, notifies less than
a round apart have different ones, and the job map holds under an id what the last job with this
id was made with. -/
theorem standard_extranonce2 {userName : String}
    (hrun : Reachable (observed (translatorStep decode lib downCid) (noteJob lib downCid))
      (.new conn userName false, []) (s, log)) :
    (∀ job ∈ log, ∃ extranonce2, extranonce2.length = conn.extranonce2Size ∧
      job.MadeWith lib downCid conn extranonce2 ∧
      ∀ m ∈ job.sent, ∃ sent root, m = .newMiningJob sent ∧ sent.jobId = job.jobId ∧
        lib.merkleRoot job.notify.coinBase1 job.notify.coinBase2
          (conn.extranonce1 ++ extranonce2) job.notify.merkleBranch = some root ∧
        u256 root = some sent.merkleRoot) ∧
    (∀ (i j : Nat) (a b : RolledJob), i < j → j < i + 256 ^ min conn.extranonce2Size 8 →
      log[i]? = some a → log[j]? = some b → a.extranonce2 ≠ b.extranonce2) ∧
    ∀ (id : Nat) (info : Sv1JobInfo), s.jobMap.lookup id = some info →
      ∃ before job after, log = before ++ job :: after ∧ job.jobId = id ∧
        (∀ later ∈ after, later.jobId ≠ id) ∧ info = ⟨job.notify.jobId, job.extranonce2⟩ := by
  have h := RollsJobs.of_reaches hrun
  refine ⟨?_, ?_, ?_⟩
  · intro job hjob
    obtain ⟨k, hk⟩ := List.mem_iff_getElem?.mp hjob
    have hmade := h.jobs k job hk
    exact ⟨rolledFor conn k, rolledFor_length conn k, hmade, fun m hm => hmade.merkleRoot hm⟩
  · intro i j a b hij hround ha hb heq
    rw [(h.jobs i a ha).stored, (h.jobs j b hb).stored] at heq
    exact rolledFor_ne hij hround (Option.some.inj heq)
  · intro id info hinfo
    exact h.last_of_lookup hinfo

/-- A pool with an extranonce that is longer than the counter. -/
def paddedConn : Sv1UpConn where
  extranonce1 := [10, 11]
  extranonce2Size := 10
  versionMask := none
  initialDiff := 1
  handshakeLines := []
  reader := []

/-- A library that has no merkle root for a notify without a branch. -/
def branchLibrary : Sv1Library :=
  { notifyLibrary with
    merkleRoot := fun coinBase1 coinBase2 extranonce path =>
      if path.isEmpty then none
      else notifyLibrary.merkleRoot coinBase1 coinBase2 extranonce path }

/-- Three notifies, of which the second has no translation. -/
theorem standard_extranonce2_padded :
    ∃ s log, Reachable (observed (translatorStep wireDecoder branchLibrary 1)
        (noteJob branchLibrary 1)) (.new paddedConn "bc1p.rig" false, []) (s, log) ∧
      log.map (fun job => (job.extranonce2, job.sent.length)) =
        [(some [0, 0, 0, 0, 0, 0, 0, 0, 0, 0], 1), (some [1, 0, 0, 0, 0, 0, 0, 0, 0, 0], 0),
          (some [2, 0, 0, 0, 0, 0, 0, 0, 0, 0], 1)] ∧
      (∀ job ∈ log, ∃ extranonce2, extranonce2.length = 10 ∧
        job.MadeWith branchLibrary 1 paddedConn extranonce2) ∧
      (∀ (i j : Nat) (a b : RolledJob), i < j → log[i]? = some a → log[j]? = some b →
        a.extranonce2 ≠ b.extranonce2) ∧
      ∃ job ∈ log, job.jobId = 3 ∧
        s.jobMap.lookup 3 = some ⟨job.notify.jobId, job.extranonce2⟩ := by
  have hp : (run (observed (translatorStep wireDecoder branchLibrary 1) (noteJob branchLibrary 1))
      (.new paddedConn "bc1p.rig" false, [])
      [.line (notifyLine "j1" 7 2 true), .line (notifyLine "j2" 7 0 false),
        .line (notifyLine "j3" 7 2 false)]).any (fun x =>
          decide (x.2.map (fun job => (job.extranonce2, job.sent.length)) =
            [(some [0, 0, 0, 0, 0, 0, 0, 0, 0, 0], 1), (some [1, 0, 0, 0, 0, 0, 0, 0, 0, 0], 0),
              (some [2, 0, 0, 0, 0, 0, 0, 0, 0, 0], 1)]) &&
            (x.1.jobMap.lookup 3).isSome) = true := by decide +kernel
  obtain ⟨⟨s, log⟩, hlog, hp⟩ := (Option.any_eq_true ..).mp hp
  simp only [Bool.and_eq_true, decide_eq_true_eq] at hp
  obtain ⟨hjobs, hthird⟩ := hp
  obtain ⟨info, hinfo⟩ := Option.isSome_iff_exists.mp hthird
  have hrun := Run.of_run hlog
  obtain ⟨hmade, hfresh, hlast⟩ := standard_extranonce2 hrun
  refine ⟨s, log, hrun, hjobs, ?_, ?_, ?_⟩
  · intro job hjob
    obtain ⟨extranonce2, hsize, hmade, _⟩ := hmade job hjob
    exact ⟨extranonce2, hsize, hmade⟩
  · intro i j a b hij ha hb
    have hlength : log.length = 3 := by simpa using congrArg List.length hjobs
    have hj := (List.getElem?_eq_some_iff.mp hb).1
    apply hfresh i j a b hij _ ha hb
    show j < i + 256 ^ 8
    omega
  · obtain ⟨before, job, after, hsplit, hid, _, hheld⟩ := hlast 3 info hinfo
    refine ⟨job, ?_, hid, hheld ▸ hinfo⟩
    rw [hsplit]
    exact List.mem_append_right before List.mem_cons_self

end RentalProxy.Sv2
