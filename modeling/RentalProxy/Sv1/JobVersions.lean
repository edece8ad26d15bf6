import RentalProxy.Lib.BoundedTable
import RentalProxy.Sv1.Activation

/-!
# The version of the job that a share is for

The writer to an SV2 pool rebuilds the version of a share from that of its job, which it finds in
a table of the jobs that were received.  A job that finds 64 ids in the table empties it first,
also of the jobs that the miner still works on; their shares take the version of the latest job.

* `receivedJobs` are the jobs of a connection, and `jobsInTable` those since the table was last
  emptied.
* `TracksJobs` is the invariant of the shared state.
* `base_version_iff` is the result: the base is the version of the job exactly when the table
  still has the job, or the latest job has its version.
* `length_jobsInTable` says when the table is emptied, for jobs with ids of their own.
-/

namespace RentalProxy.Sv1

open StepSystem BoundedTable
open Sv2 (Decoder Sv2Frame NewExtendedMiningJob Sv1Submit SubmitShares)

variable (decode : Decoder)

/-! ## The jobs -/

/-- The jobs of the frames that were received. -/
def receivedJobs (past : List Sv2Frame) : List NewExtendedMiningJob :=
  past.filterMap (jobOf decode)

/-- The entry of a job in the table. -/
def versionEntry (job : NewExtendedMiningJob) : Nat × Nat := (job.jobId, job.version)

/-- How many jobs have come since the table was last emptied. -/
def jobsInTable (jobs : List NewExtendedMiningJob) : Nat :=
  (since 64 (jobs.map versionEntry)).length

/-- The version that the latest job has. -/
def latestVersion (jobs : List NewExtendedMiningJob) : Nat :=
  (jobs.getLast?.map (·.version)).getD 0

/-- The base that the writer passes for the share of this line is `version`, whatever the library
builds of it. -/
def PassesBase (lib : Sv2Library) (line : RpcMessage) (s : Sv2UpState) (version : Nat) : Prop :=
  ∀ share, ∃ submit channelId seq mask,
    (translateSubmit { lib with share } line s).2 = share submit channelId seq version mask

/-- The shared state holds the versions of these jobs. -/
structure TracksJobs (jobs : List NewExtendedMiningJob) (s : Sv2UpState) : Prop where
  table : s.jobVersions = (jobs.map versionEntry).foldl (put 64) ∅
  latest : s.latestVersion = latestVersion jobs

variable {decode} {lib : Sv2Library}

/-! ## The shared state -/

theorem recordVersion_tracks {jobs : List NewExtendedMiningJob} {s : Sv2UpState}
    (h : TracksJobs jobs s) (job : NewExtendedMiningJob) :
    TracksJobs (jobs ++ [job]) (s.recordVersion job) where
  table := by
    rw [List.map_append, List.foldl_append, ← h.table]
    rfl
  latest := by simp [Sv2UpState.recordVersion, latestVersion]

/-- The reader records the job of a frame, and leaves the versions alone otherwise. -/
theorem handleSv2Frame_versions (frame : Sv2Frame) (s : Sv2UpState) :
    (handleSv2Frame decode lib frame s).1.jobVersions =
        ((jobOf decode frame).elim s fun job => s.recordVersion job).jobVersions ∧
      (handleSv2Frame decode lib frame s).1.latestVersion =
        ((jobOf decode frame).elim s fun job => s.recordVersion job).latestVersion := by
  unfold handleSv2Frame jobOf
  split
  · rename_i htype
    simp only [htype, if_true]
    cases Sv2.parseNewExtendedJob decode frame <;> exact ⟨rfl, rfl⟩
  · rename_i htype
    simp only [htype, reduceCtorEq, if_false]
    cases Sv2.parseSetNewPrevHash decode frame <;> exact ⟨rfl, rfl⟩
  · rename_i htype
    simp only [htype, reduceCtorEq, if_false]
    cases Sv2.parseSetTarget decode frame <;> exact ⟨rfl, rfl⟩
  · rename_i htype
    simp only [htype, reduceCtorEq, if_false]
    cases Sv2.parseSubmitSuccess decode frame <;> exact ⟨rfl, rfl⟩
  · rename_i htype
    simp only [htype, reduceCtorEq, if_false]
    cases Sv2.parseSubmitErrorSeq decode frame <;> exact ⟨rfl, rfl⟩
  · rename_i hjob _ _ _ _
    rw [if_neg hjob]
    exact ⟨rfl, rfl⟩

theorem TracksJobs.congr {jobs : List NewExtendedMiningJob} {s s' : Sv2UpState}
    (h : TracksJobs jobs s) (htable : s'.jobVersions = s.jobVersions)
    (hlatest : s'.latestVersion = s.latestVersion) : TracksJobs jobs s' :=
  ⟨htable.trans h.table, hlatest.trans h.latest⟩

/-- The state holds the versions of the jobs that were received. -/
theorem TracksJobs.of_reaches {x : Exchange × List Sv2Frame} (h : ExchangeReaches decode lib x) :
    TracksJobs (receivedJobs decode x.2) x.1.state := by
  obtain ⟨channelId, hrun⟩ := h
  refine hrun.invariant (I := fun x => TracksJobs (receivedJobs decode x.2) x.1.state)
    ⟨rfl, rfl⟩ ?_
  rintro ⟨x, past⟩ e ⟨y, past'⟩ hx _ hstep
  obtain ⟨hstep, rfl⟩ := observed_eq_some.mp hstep
  dsimp only at hstep hx ⊢
  cases e with
  | line line =>
    simp only [exchangeStep] at hstep
    split at hstep <;> cases hstep
    refine hx.congr ?_ ?_ <;>
    · rw [translateSubmit_state]
      split <;> rfl
  | write ok =>
    simp only [exchangeStep] at hstep
    split at hstep <;> cases hstep <;> exact hx
  | frame frame =>
    cases hstep
    obtain ⟨htable, hlatest⟩ := @handleSv2Frame_versions decode lib frame x.state
    rw [receivedSoFar, receivedJobs, List.filterMap_append]
    cases hjob : jobOf decode frame with
    | none =>
      rw [hjob] at htable hlatest
      simpa [hjob, receivedJobs] using hx.congr htable hlatest
    | some job =>
      rw [hjob] at htable hlatest
      simpa [hjob, receivedJobs] using (recordVersion_tracks hx job).congr htable hlatest

/-! ## The number of a job -/

/-- A job id is read back from its decimal digits. -/
theorem parseU32_toString {n : Nat} (h : n < 2 ^ 32) : parseU32 (toString n) = some n := by
  have hdigits : (toString n).toList = Nat.toDigits 10 n := Nat.toList_repr
  have hdigit : ∀ c ∈ Nat.toDigits 10 n, c.isDigit = true := fun c hc =>
    Nat.isDigit_of_mem_toDigits (by decide) (by decide) hc
  have hsign : (Nat.toDigits 10 n).head? ≠ some '+' := by
    intro hhead
    have hplus := hdigit '+' (List.mem_of_mem_head? hhead)
    revert hplus
    decide
  have hempty : (Nat.toDigits 10 n).isEmpty = false := by simp [Nat.toDigits_ne_nil]
  have hother : ((Nat.toDigits 10 n).any fun c => !c.isDigit) = false := by simpa using hdigit
  have hvalue : (Nat.toDigits 10 n).foldl
      (fun acc c => acc * 10 + (c.toNat - '0'.toNat)) 0 = n := by
    simp only [Nat.mul_comm _ 10]
    exact Nat.ofDigitChars_ten_toDigits
  simp only [parseU32, hdigits, if_neg hsign, hempty, hother, Bool.or_self, Bool.false_eq_true,
    if_false, hvalue, if_pos h]

/-- The base is what the table has for the job id that the share names, or the latest version. -/
theorem passesBase_iff {line : RpcMessage} {submit : Sv1Submit} {s : Sv2UpState} {version : Nat}
    (hmethod : line.method = some "mining.submit") (hsubmit : lib.submit line = some submit) :
    PassesBase lib line s version ↔ s.versionOf submit.jobId = version := by
  have hshare : ∀ share, (translateSubmit { lib with share } line s).2 =
      share submit s.channelId s.nextSeq (s.versionOf submit.jobId)
        (submit.versionBits.map fun _ => Sv2.versionRollingMask) := by
    intro share
    simp only [translateSubmit, hmethod, hsubmit, if_true]
  constructor
  · intro hpasses
    -- a library that shows the base
    obtain ⟨_, _, _, _, hbase⟩ :=
      hpasses fun _ _ _ version _ => some ⟨0, 0, 0, 0, 0, version, none⟩
    rw [hshare] at hbase
    exact congrArg SubmitShares.version (Option.some.inj hbase)
  · rintro rfl share
    exact ⟨_, _, _, _, hshare share⟩

/-! ## The result -/

/-- In every state of a connection, and for every job that was received and whose id was not used
again: a share that names it is built on its version exactly when the jobs since the table was
last emptied reach back to it, or the latest job has its version. -/
theorem base_version_iff {x : Exchange × List Sv2Frame} (h : ExchangeReaches decode lib x)
    {job : NewExtendedMiningJob} {before after : List NewExtendedMiningJob}
    (hreceived : receivedJobs decode x.2 = before ++ job :: after)
    (hfresh : ∀ j ∈ after, j.jobId ≠ job.jobId) (hid : job.jobId < 2 ^ 32)
    {line : RpcMessage} {submit : Sv1Submit} (hmethod : line.method = some "mining.submit")
    (hsubmit : lib.submit line = some submit) (hnames : submit.jobId = toString job.jobId) :
    PassesBase lib line x.1.state job.version ↔
      after.length < jobsInTable (receivedJobs decode x.2) ∨
        latestVersion (receivedJobs decode x.2) = job.version := by
  have htracks := TracksJobs.of_reaches h
  have hentries : (receivedJobs decode x.2).map versionEntry =
      before.map versionEntry ++ (job.jobId, job.version) :: after.map versionEntry := by
    rw [hreceived, List.map_append, List.map_cons]
    rfl
  have hids : job.jobId ∉ (after.map versionEntry).map Prod.fst := by
    rw [List.map_map]
    intro hmem
    obtain ⟨j, hj, hsame⟩ := List.mem_map.mp hmem
    exact hfresh j hj hsame
  have hlookup := lookup_of_append 64 hentries hids
  rw [List.length_map, ← htracks.table] at hlookup
  rw [passesBase_iff hmethod hsubmit, Sv2UpState.versionOf, hnames, parseU32_toString hid,
    Option.bind_some, hlookup, htracks.latest]
  unfold jobsInTable
  split
  · rename_i hkept
    exact iff_of_true rfl (Or.inl hkept)
  · rename_i hgone
    simp [hgone]

/-- A library for shares that only name their job. -/
def namingLibrary : Sv2Library where
  submit line := match line.params with
    | some (.arr [.str jobId]) => some {
        id := 0, userName := "", jobId, extranonce2 := []
        time := 0, nonce := 0, versionBits := none }
    | _ => none
  share _ channelId sequenceNumber version _ :=
    some ⟨channelId, sequenceNumber, 0, 0, 0, version, none⟩
  notifyLine _ _ _ := none

/-- A share for this library. -/
def shareFor (jobId : Nat) : RpcMessage where
  method := some "mining.submit"
  params := some (.arr [.str (toString jobId)])

/-- The connection after these jobs, with a test on it. -/
theorem exists_of_jobs (jobs : List Nat) {p : Exchange × List Sv2Frame → Bool}
    (h : (run (observed (exchangeStep jobDecoder namingLibrary) receivedSoFar) (.fresh 1, [])
      (jobs.map fun jobId => .frame (plainJobFrame jobId))).any p = true) :
    ∃ x, ExchangeReaches jobDecoder namingLibrary x ∧ p x = true := by
  obtain ⟨x, hx, hp⟩ := (Option.any_eq_true ..).mp h
  exact ⟨x, ⟨1, Run.of_run hx⟩, hp⟩

/-- The first of two jobs, with another version than the second. -/
theorem base_version_iff_two :
    ∃ x, ExchangeReaches jobDecoder namingLibrary x ∧
      receivedJobs jobDecoder x.2 = [plainJob 1, plainJob 2] ∧
      PassesBase namingLibrary (shareFor 1) x.1.state (plainJob 1).version := by
  obtain ⟨x, hx, hp⟩ := exists_of_jobs [1, 2]
    (p := fun x => decide (receivedJobs jobDecoder x.2 = [plainJob 1, plainJob 2]))
    (by decide +kernel)
  have hreceived : receivedJobs jobDecoder x.2 = [] ++ plainJob 1 :: [plainJob 2] :=
    of_decide_eq_true hp
  refine ⟨x, hx, hreceived, (base_version_iff hx hreceived (by decide) (by decide)
    rfl rfl rfl).mpr (Or.inl ?_)⟩
  rw [hreceived]
  decide

/-- The 65th job empties the table, and the share for the 64th one is built on its version. -/
theorem share_of_cleared_job_misbased :
    ∃ x before, ExchangeReaches jobDecoder namingLibrary x ∧
      receivedJobs jobDecoder x.2 = before ++ plainJob 64 :: [plainJob 65] ∧
      ¬PassesBase namingLibrary (shareFor 64) x.1.state (plainJob 64).version := by
  obtain ⟨x, hx, hp⟩ := exists_of_jobs ((List.range 65).map (· + 1))
    (p := fun x => decide (receivedJobs jobDecoder x.2 =
        ((List.range 63).map fun k => plainJob (k + 1)) ++ plainJob 64 :: [plainJob 65]) &&
      decide (x.1.state.versionOf (toString 64) = 65)) (by decide +kernel)
  simp only [Bool.and_eq_true, decide_eq_true_eq] at hp
  refine ⟨x, _, hx, hp.1, ?_⟩
  rw [@passesBase_iff namingLibrary (shareFor 64) _ _ _ rfl rfl]
  change ¬x.1.state.versionOf (toString 64) = 64
  rw [hp.2]
  decide

/-- With an id of its own for each job, the table is emptied by every 64th job after the first. -/
theorem length_jobsInTable {jobs : List NewExtendedMiningJob}
    (hids : (jobs.map (·.jobId)).Nodup) (hne : jobs ≠ []) :
    jobsInTable jobs = (jobs.length - 1) % 64 + 1 := by
  have hentries : ((jobs.map versionEntry).map Prod.fst).Nodup := by
    rw [List.map_map]
    exact hids
  rw [jobsInTable, length_since_of_nodup (by decide) hentries (by simpa using hne),
    List.length_map]

end RentalProxy.Sv1
