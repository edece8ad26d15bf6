import RentalProxy.Sv1.Redirects
import RentalProxy.Sv2.PrevHash

/-!
# The version bits that a miner is told it may roll

An SV1 miner is told a mask in the answer to its `mining.configure`.  The proxy makes the answer
up, with the standard mask, and asks no upstream: the miner's request is replayed to the
upstreams that a swap connects later, and what they answer is discarded.  Only while authorize
waits for `mining.extranonce.subscribe` is a `mining.configure` handed to the upstream, and the
upstream's own answer relayed.

An SV2 miner is told by a flag on each job.  The proxy asks an SV1 upstream when it connects, and
the flag says whether the answer was a mask, and not which one.

`grantedMask` is what the lines of an upstream grant, and `version_grants` says what the miner is
told, and exactly when the upstream backs it.
-/

namespace RentalProxy

open StepSystem
open Sv2 (Decoder Sv1Library parseVersionMask versionRollingMask fieldOf parseHexU32)

/-! ## What an upstream grants -/

/-- The lines of one upstream. -/
def linesFrom (generation : Nat) (sent : List (Nat × RpcMessage)) : List RpcMessage :=
  (sent.filter fun p => decide (p.1 = generation)).map Prod.snd

/-- The mask in a line that speaks of version rolling: `mining.set_version_mask`, or the answer to
a `mining.configure`. -/
def grantIn (msg : RpcMessage) : Option (Option Nat) :=
  if msg.method = some "mining.set_version_mask" then
    some ((msg.firstParam.bind Value.asStr).bind parseHexU32)
  else if msg.method = none ∧ (msg.result.bind (fieldOf · "version-rolling")).isSome = true then
    some (parseVersionMask msg)
  else none

/-- The mask that an upstream grants, after these lines. -/
def grantedMask (lines : List RpcMessage) : Option Nat := (Log.latest grantIn lines).join

/-- The line answers a request. -/
def isResponse (msg : RpcMessage) : Bool := decide (msg.method = none)

/-- The mask in the first answer of an upstream, which is the one to a `mining.configure` when
that is asked first. -/
def negotiatedMask (lines : List RpcMessage) : Option Nat :=
  (lines.find? isResponse).bind parseVersionMask

/-- Every bit of the mask is granted. -/
def Backed (granted : Option Nat) (mask : Nat) : Prop := Nat.ldiff mask (granted.getD 0) = 0

instance (granted : Option Nat) (mask : Nat) : Decidable (Backed granted mask) :=
  inferInstanceAs (Decidable (_ = 0))

theorem linesFrom_append (g : Nat) (sent new : List (Nat × RpcMessage)) :
    linesFrom g (sent ++ new) = linesFrom g sent ++ linesFrom g new := by
  simp [linesFrom]

theorem linesFrom_own (g : Nat) (lines : List RpcMessage) :
    linesFrom g (lines.map (g, ·)) = lines := by
  simp only [linesFrom]
  induction lines with
  | nil => rfl
  | cons line rest ih => simpa using ih

theorem linesFrom_eq_nil {g : Nat} {sent : List (Nat × RpcMessage)} (h : ∀ p ∈ sent, p.1 ≠ g) :
    linesFrom g sent = [] := by
  simp only [linesFrom, List.map_eq_nil_iff, List.filter_eq_nil_iff, decide_eq_true_eq]
  exact h

/-! ## SV1 miners -/

namespace Sv1

/-- The mask in an answer to a `mining.configure`. -/
def toldMask (l : Line) : Option Nat := if l.msg.method = none then parseVersionMask l.msg else none

/-- The masks that the miner was told. -/
def Relay.toldMasks (r : Relay) : List Nat := r.toMiner.filterMap toldMask

/-- The masks in the answers that the proxy made up. -/
def Relay.ownMasks (r : Relay) : List Nat :=
  (r.toMiner.filter fun l => decide (l.source = .reply)).filterMap toldMask

/-- The masks in the answers of upstreams that were relayed. -/
def Relay.relayedMasks (r : Relay) : List Nat :=
  (r.toMiner.filter fun l => decide (l.source ≠ .reply)).filterMap toldMask

/-- Every bit that the miner was told of is granted by the active upstream. -/
def GrantsBacked (x : Relay × List (Nat × RpcMessage)) : Prop :=
  ∀ mask ∈ x.1.toldMasks, Backed (grantedMask (linesFrom x.1.inner.active.generation x.2)) mask

/-- The mask was granted by the upstream that sent it. -/
def GrantedBySender (sent : List (Nat × RpcMessage)) (mask : Nat) : Prop :=
  ∃ p ∈ sent, grantIn p.2 = some (some mask)

theorem Relay.mem_toldMasks {r : Relay} {mask : Nat} :
    mask ∈ r.toldMasks ↔ mask ∈ r.ownMasks ∨ mask ∈ r.relayedMasks := by
  simp only [Relay.toldMasks, Relay.ownMasks, Relay.relayedMasks, List.mem_filterMap,
    List.mem_filter, decide_eq_true_eq]
  constructor
  · rintro ⟨l, hl, hmask⟩
    by_cases hsource : l.source = .reply
    · exact Or.inl ⟨l, ⟨hl, hsource⟩, hmask⟩
    · exact Or.inr ⟨l, ⟨hl, hsource⟩, hmask⟩
  · rintro (⟨l, ⟨hl, _⟩, hmask⟩ | ⟨l, ⟨hl, _⟩, hmask⟩) <;> exact ⟨l, hl, hmask⟩

theorem grantIn_of_toldMask {l : Line} {mask : Nat} (h : toldMask l = some mask) :
    grantIn l.msg = some (some mask) := by
  obtain ⟨hmethod, hmask⟩ := Option.ite_none_right_eq_some.mp h
  have hrolling : (l.msg.result.bind (fieldOf · "version-rolling")).isSome = true := by
    unfold parseVersionMask at hmask
    split at hmask
    · rename_i hfield
      rw [hfield]
      rfl
    · cases hmask
  rw [grantIn, if_neg (by rw [hmethod]; nofun), if_pos ⟨hmethod, hrolling⟩, hmask]

theorem parseVersionMask_configureResult (id : Option Value) :
    parseVersionMask (okReply id configureResult) = some versionRollingMask := by
  rfl

/-- A line that tells a mask is an answer of the proxy, with the standard one, or was sent by a
passthrough upstream. -/
def Line.TellsMask (sent : List (Nat × RpcMessage)) (l : Line) : Prop :=
  ∀ mask, toldMask l = some mask → l.source = .reply ∧ mask = versionRollingMask ∨
    l.source ≠ .reply ∧ l.SentIn sent

theorem Line.SentIn.tellsMask {sent : List (Nat × RpcMessage)} {l : Line} (h : l.SentIn sent) :
    l.TellsMask sent := by
  refine fun mask _ => Or.inr ⟨?_, h⟩
  obtain ⟨g, hsource | hsource, _⟩ := h <;> rw [hsource] <;> nofun

/-- A line without a mask. -/
theorem tellsMask_of_none {sent : List (Nat × RpcMessage)} {l : Line} (h : toldMask l = none) :
    l.TellsMask sent := by
  intro mask hmask
  rw [h] at hmask
  cases hmask

theorem toldMask_of_method {l : Line} {method : String} (h : l.msg.method = some method) :
    toldMask l = none := by
  rw [toldMask, if_neg (by rw [h]; nofun)]

/-- The prelude after an install is what the new pool sent, or one difficulty. -/
theorem tellsMask_of_prelude {sent : List (Nat × RpcMessage)} {raw : RawUpstream} {g : Nat}
    {target t : UpstreamTarget} {configure : Option RpcMessage} {name : String}
    {answer : PoolAnswer} {ro : Routing} {i : Inner} {l : Line}
    (hraw : connectRaw target configure name answer = some raw)
    (hsent : ∀ msg ∈ answer.passthroughLines (some raw), (g, msg) ∈ sent)
    (hl : l ∈ (installRaw raw g t ro i).1.pendingPrelude) : l.TellsMask sent := by
  rcases prelude_cases hraw hl with ⟨hsource, hmsg⟩ | ⟨d, hmsg⟩
  · exact Line.SentIn.tellsMask ⟨g, Or.inl hsource, hsent l.msg hmsg⟩
  · exact tellsMask_of_none (toldMask_of_method (by rw [hmsg]; rfl))

section Notifies

variable {decode : Decoder} {lib : Sv2Library}
  (hnotify : ∀ prev job clean line, lib.notifyLine prev job clean = some line →
    line.method = some "mining.notify")

include hnotify

theorem tellsMask_of_writes {r : Relay} {e : Event} {sent : List (Nat × RpcMessage)} {l : Line}
    (hguard : Translates decode lib e) (hl : l ∈ r.writes e) : l.TellsMask (sentBy r e sent) := by
  cases e with
  | minerConfigure msg =>
    rw [List.mem_singleton.mp hl]
    intro mask hmask
    change parseVersionMask (okReply msg.id configureResult) = some mask at hmask
    rw [parseVersionMask_configureResult] at hmask
    exact Or.inl ⟨rfl, (Option.some.inj hmask).symm⟩
  | minerExtranonceSubscribe | minerAuthorize | minerReject | minerClientReconnect |
    translateResult =>
    rw [List.mem_singleton.mp hl]
    exact tellsMask_of_none rfl
  | upstreamLine g msg now =>
    simp only [Relay.writes] at hl
    split at hl
    · rename_i hg
      rw [List.mem_singleton.mp hl, sentBy, if_pos hg]
      exact Line.SentIn.tellsMask
        ⟨g, Or.inr rfl, List.mem_append_right _ (List.mem_singleton_self _)⟩
    · cases hl
  | translateLine g msg =>
    rw [List.mem_singleton.mp hl]
    rcases translated_method hnotify hguard with hmethod | hmethod <;>
      exact tellsMask_of_none (toldMask_of_method hmethod)
  | minerSubscribeReply | swapRepoint =>
    simp only [Relay.writes] at hl
    split at hl
    · rw [List.mem_singleton.mp hl]
      exact tellsMask_of_none rfl
    · cases hl
  | swapConnect answer =>
    simp only [Relay.writes] at hl
    split at hl
    · rename_i snap hswap
      split at hl
      · rename_i raw hraw
        refine tellsMask_of_prelude hraw (fun msg hmsg => ?_) hl
        simp only [sentBy, hswap, hraw]
        exact List.mem_append_right _ (List.mem_map_of_mem hmsg)
      · cases hl
    · cases hl
  | _ => cases hl

/-- What the lines for the miner tell. -/
theorem tellsMask_of_heard {x : Relay × List (Nat × RpcMessage)}
    (h : HeardReaches (Translates decode lib) x) :
    ∀ l ∈ x.1.toMiner, l.TellsMask x.2 := by
  have hlines : ∀ l, x.1.Holds l → l.TellsMask x.2 := by
    refine h.lines (P := fun sent l => l.TellsMask sent) ?_ ?_ ?_
    · intro target peer answer raw l hraw hl
      refine tellsMask_of_prelude hraw (fun msg hmsg => ?_) hl
      rw [sentAtStart, hraw]
      exact List.mem_map_of_mem hmsg
    · intro r e sent l hl mask hmask
      rcases hl mask hmask with hown | ⟨hsource, g, hof, hmem⟩
      · exact Or.inl hown
      · exact Or.inr ⟨hsource, g, hof, sentBy_mono r e sent hmem⟩
    · exact fun r e sent l hguard hl => tellsMask_of_writes hnotify hguard hl
  exact fun l hl => hlines l (Or.inl hl)

/-- The proxy makes up the standard mask only. -/
theorem ownMasks_standard {x : Relay × List (Nat × RpcMessage)}
    (h : HeardReaches (Translates decode lib) x) :
    ∀ mask ∈ x.1.ownMasks, mask = versionRollingMask := by
  intro mask hmask
  obtain ⟨l, hl, hof⟩ := List.mem_filterMap.mp hmask
  obtain ⟨hqueued, hsource⟩ := List.mem_filter.mp hl
  rcases tellsMask_of_heard hnotify h l hqueued mask hof with ⟨_, hstandard⟩ | ⟨hother, _⟩
  · exact hstandard
  · exact absurd (of_decide_eq_true hsource) hother

/-- A relayed mask was granted by the upstream that sent it. -/
theorem relayedMasks_granted {x : Relay × List (Nat × RpcMessage)}
    (h : HeardReaches (Translates decode lib) x) :
    ∀ mask ∈ x.1.relayedMasks, GrantedBySender x.2 mask := by
  intro mask hmask
  obtain ⟨l, hl, hof⟩ := List.mem_filterMap.mp hmask
  obtain ⟨hqueued, hsource⟩ := List.mem_filter.mp hl
  rcases tellsMask_of_heard hnotify h l hqueued mask hof with ⟨hreply, _⟩ | ⟨_, g, _, hmem⟩
  · exact absurd hreply (of_decide_eq_true hsource)
  · exact ⟨(g, l.msg), hmem, grantIn_of_toldMask hof⟩

/-- What the miner was told is backed exactly when the active upstream grants the standard mask, if
the proxy has told it, and every mask that was relayed. -/
theorem grantsBacked_iff {x : Relay × List (Nat × RpcMessage)}
    (h : HeardReaches (Translates decode lib) x) : GrantsBacked x ↔
      (x.1.ownMasks = [] ∨
        Backed (grantedMask (linesFrom x.1.inner.active.generation x.2)) versionRollingMask) ∧
      ∀ mask ∈ x.1.relayedMasks,
        Backed (grantedMask (linesFrom x.1.inner.active.generation x.2)) mask := by
  have hstandard := ownMasks_standard hnotify h
  constructor
  · intro hbacked
    refine ⟨?_, fun mask hmask => hbacked mask (Relay.mem_toldMasks.mpr (Or.inr hmask))⟩
    cases hown : x.1.ownMasks with
    | nil => exact Or.inl rfl
    | cons mask rest =>
      have hmem : mask ∈ x.1.ownMasks := by
        rw [hown]
        exact List.mem_cons_self
      rw [← hstandard mask hmem]
      exact Or.inr (hbacked mask (Relay.mem_toldMasks.mpr (Or.inl hmem)))
  · rintro ⟨hown, hrelayed⟩ mask hmask
    rcases Relay.mem_toldMasks.mp hmask with hmem | hmem
    · rcases hown with hnone | hgranted
      · rw [hnone] at hmem
        cases hmem
      · rw [hstandard mask hmem]
        exact hgranted
    · exact hrelayed mask hmem

end Notifies

end Sv1

/-! ## SV2 miners -/

namespace Sv2

/-- An Extended job that the translator has built. -/
def EitherFrame.extendedJob? : EitherFrame → Option NewExtendedMiningJob
  | .built (.newExtendedMiningJob job) => some job
  | _ => none

/-- The jobs of the active upstream that were queued to members. -/
def Rig.jobsSent (r : Rig) : List NewExtendedMiningJob :=
  r.sent.filterMap fun q =>
    if q.source = .reader r.inner.active.generation then q.frame.extendedJob? else none

/-- What the SV1 upstreams sent so far, by generation: to the connect, and while active. -/
def heardBy (lib : Sv1Library) (r : Rig) (e : Event) (sent : List (Nat × RpcMessage)) :
    List (Nat × RpcMessage) :=
  match e with
  | .swapTranslated lines => match r.swap with
    | .translating plan _ _ => match connectSv1Upstream lib lines with
      | some _ => sent ++ lines.map (plan.snapshot.generation, ·)
      | none => sent
    | _ => sent
  | .translateLine line => sent ++ [(r.inner.active.generation, line)]
  | _ => sent

/-- What the first upstream sent to the connect. -/
def heardAtStart : InitialAnswer → List (Nat × RpcMessage)
  | .unreachable | .native => []
  | .sv1 lines => lines.map (0, ·)

/-- The rigs that can be reached, with what their SV1 upstreams sent. -/
def HeardReaches (decode : Decoder) (lib : Sv1Library) (x : Rig × List (Nat × RpcMessage)) :
    Prop :=
  ∃ worker spec store idlePool now failed answer r₀, store.OneActive ∧
    start lib worker spec store idlePool now failed answer = some r₀ ∧
    Run (observed (step decode lib) (heardBy lib)) (fun _ _ => True) (r₀, heardAtStart answer) x

/-- Every bit that a job allows is granted by the active upstream. -/
def GrantsBacked (x : Rig × List (Nat × RpcMessage)) : Prop :=
  ∀ job ∈ x.1.jobsSent, job.versionRollingAllowed = true →
    Backed (grantedMask (linesFrom x.1.inner.active.generation x.2)) versionRollingMask

/-- The driver keeps the answer to its `mining.configure`, and allows rolling as it says. -/
structure RollsAs (generation : Nat) (sent : List (Nat × RpcMessage)) (t : Translator)
    (jobs : List NewExtendedMiningJob) : Prop where
  asked : ∃ answer, (linesFrom generation sent).find? isResponse = some answer ∧
    t.state.versionMask = parseVersionMask answer
  calls : ∀ frame, .sendTranslateFrame frame ∈ t.calls → ∀ job ∈ frame.extendedJob?,
    job.versionRollingAllowed = t.state.versionMask.isSome
  jobs : ∀ job ∈ jobs, job.versionRollingAllowed = t.state.versionMask.isSome

/-- The invariant. -/
structure Rolling (r : Rig) (sent : List (Nat × RpcMessage)) : Prop where
  generations : ∀ p ∈ sent, p.1 ≤ r.inner.active.generation
  driver : ∀ t, r.translator = some t → RollsAs r.inner.active.generation sent t r.jobsSent

variable {decode : Decoder} {lib : Sv1Library}

/-! ### What the translator makes of a line -/

/-- The response that the handshake reads is the first one. -/
theorem readResponse_find {lines seen left : List RpcMessage} {msg : RpcMessage}
    (h : Sv1.readResponse lines = some (msg, seen, left)) :
    lines.find? isResponse = some msg := by
  induction lines generalizing seen with
  | nil => cases h
  | cons line rest ih =>
    rw [Sv1.readResponse] at h
    rw [List.find?_cons]
    by_cases hresponse : line.method = none
    · rw [if_pos hresponse] at h
      cases h
      simp [isResponse, hresponse]
    · rw [if_neg hresponse] at h
      obtain ⟨⟨resp, seen', left'⟩, hrest, heq⟩ := Option.map_eq_some_iff.mp h
      cases heq
      simpa [isResponse, hresponse] using ih hrest

/-- The mask of a connection is in the first answer of the pool. -/
theorem connectSv1Upstream_versionMask {lines : List RpcMessage} {conn : Sv1UpConn}
    (h : connectSv1Upstream lib lines = some conn) :
    ∃ answer, lines.find? isResponse = some answer ∧
      conn.versionMask = parseVersionMask answer := by
  simp only [connectSv1Upstream, Option.bind_eq_bind, Option.bind_eq_some_iff] at h
  obtain ⟨⟨cfg, seen, left⟩, hread, _, _, _, _, _, _, _, _, hconn⟩ := h
  cases hconn
  exact ⟨cfg, readResponse_find hread, rfl⟩

/-- A line changes no mask. -/
theorem handleSv1Line_versionMask (downCid : Nat) (line : RpcMessage) (s : Sv1UpState) :
    (handleSv1Line lib downCid line s).1.versionMask = s.versionMask := by
  cases hnotify : lib.notify line with
  | none =>
    obtain ⟨⟨_, hstate⟩, _⟩ := @handleSv1Line_other lib downCid line s hnotify
    rw [hstate]
  | some n =>
    simp only [handleSv1Line, hnotify, translateNotify]
    rfl

/-- A job allows rolling when a mask was negotiated. -/
theorem handleSv1Line_rolling {downCid : Nat} {line : RpcMessage} {s : Sv1UpState}
    {frame : EitherFrame} {job : NewExtendedMiningJob}
    (h : .sendTranslateFrame frame ∈ (handleSv1Line lib downCid line s).2)
    (hjob : frame.extendedJob? = some job) :
    job.versionRollingAllowed = s.versionMask.isSome := by
  have hframe : frame = .built (.newExtendedMiningJob job) := by
    unfold EitherFrame.extendedJob? at hjob
    split at hjob <;> cases hjob
    rfl
  subst hframe
  cases hnotify : lib.notify line with
  | none =>
    obtain ⟨_, hnone⟩ := @handleSv1Line_other lib downCid line s hnotify
    exact absurd (List.filterMap_eq_nil_iff.mp hnone _ h)
      (by simp [SessionCall.job?, Mining.jobId?])
  | some n =>
    simp only [handleSv1Line, hnotify, translateNotify] at h
    split at h
    · rename_i first hfirst
      simp only [List.map_cons, List.mem_cons, SessionCall.sendTranslateFrame.injEq,
        EitherFrame.built.injEq, List.mem_map] at h
      rcases h with rfl | ⟨m, hm, hbuilt⟩
      · split at hfirst
        · obtain ⟨_, hbuilt, heq⟩ := Option.map_eq_some_iff.mp hfirst
          cases heq
          obtain ⟨_, hmk⟩ := Option.ite_none_right_eq_some.mp hbuilt
          cases hmk
          rfl
        · obtain ⟨_, _, heq⟩ := Option.map_eq_some_iff.mp hfirst
          cases heq
      · split at hm
        · rw [List.mem_singleton.mp hm] at hbuilt
          cases hbuilt
        · cases hm
    · cases h

/-! ### The invariant -/

/-- Frames that are no job of the active upstream change no job. -/
theorem jobsSent_append {r r' : Rig} {new : List Queued} (hsent : r'.sent = r.sent ++ new)
    (hgen : r'.inner.active.generation = r.inner.active.generation)
    (hnew : ∀ q ∈ new, ∀ g, q.source = .reader g → q.frame.extendedJob? = none) :
    r'.jobsSent = r.jobsSent := by
  unfold Rig.jobsSent
  rw [hsent, hgen, List.filterMap_append]
  refine List.append_right_eq_self.mpr (List.filterMap_eq_nil_iff.mpr fun q hq => ?_)
  split
  · rename_i hsource
    exact hnew q hq _ hsource
  · rfl

/-- A connection that was just made, to a pool of which there is no job yet. -/
theorem RollsAs.fresh {g : Nat} {sent : List (Nat × RpcMessage)} {t : Translator}
    {lines : List RpcMessage} {conn : Sv1UpConn} {userName : String} {extended : Bool}
    (hconn : connectSv1Upstream lib lines = some conn)
    (hstate : t.state = .new conn userName extended) (hcalls : t.calls = [])
    (hsent : linesFrom g sent = lines) : RollsAs g sent t [] := by
  obtain ⟨answer, hanswer, hmask⟩ := connectSv1Upstream_versionMask hconn
  refine ⟨⟨answer, by rw [hsent, hanswer], by rw [hstate, ← hmask]; rfl⟩, ?_, by simp⟩
  rw [hcalls]
  exact fun frame hframe => by cases hframe

namespace Rolling

variable {r r' : Rig} {sent : List (Nat × RpcMessage)}

/-- A step of another task. -/
theorem quiet (h : Rolling r sent) {new : List Queued} (hsent : r'.sent = r.sent ++ new)
    (hnew : ∀ q ∈ new, ∀ g, q.source = .reader g → q.frame.extendedJob? = none)
    (hgen : r'.inner.active.generation = r.inner.active.generation)
    (htranslator : r'.translator = r.translator) : Rolling r' sent := by
  refine ⟨by rw [hgen]; exact h.generations, fun t ht => ?_⟩
  rw [hgen, jobsSent_append hsent hgen hnew]
  exact h.driver t (htranslator.symm.trans ht)

/-- A step that queues nothing. -/
theorem same (h : Rolling r sent) (hsent : r'.sent = r.sent)
    (hgen : r'.inner.active.generation = r.inner.active.generation)
    (htranslator : r'.translator = r.translator) : Rolling r' sent :=
  h.quiet (by rw [hsent, List.append_nil]) (List.forall_mem_nil _) hgen htranslator

/-- The install of a native pool. -/
theorem native (h : Rolling r sent) (hnone : r'.translator = none)
    (hgen : r.inner.active.generation ≤ r'.inner.active.generation) : Rolling r' sent := by
  refine ⟨fun p hp => (h.generations p hp).trans hgen, fun t ht => ?_⟩
  rw [hnone] at ht
  cases ht

/-- The install of a translated pool, of a generation that is new. -/
theorem translated (h : Rolling r sent) {g : Nat} {lines : List RpcMessage} {conn : Sv1UpConn}
    {t : Translator} {userName : String} {extended : Bool}
    (hconn : connectSv1Upstream lib lines = some conn) (ht : r'.translator = some t)
    (hstate : t.state = .new conn userName extended) (hcalls : t.calls = [])
    (hgen : r'.inner.active.generation = g) (hnew : r.inner.active.generation < g)
    (hsent : r'.sent = r.sent) (hreaders : ∀ q ∈ r.sent, q.source ≠ .reader g) :
    Rolling r' (sent ++ lines.map (g, ·)) := by
  have hlines : linesFrom g (sent ++ lines.map (g, ·)) = lines := by
    rw [linesFrom_append, linesFrom_own, linesFrom_eq_nil, List.nil_append]
    exact fun p hp => ((h.generations p hp).trans_lt hnew).ne
  have hjobs : r'.jobsSent = [] := by
    unfold Rig.jobsSent
    rw [hsent, hgen]
    exact List.filterMap_eq_nil_iff.mpr fun q hq => if_neg (hreaders q hq)
  refine ⟨?_, fun t' ht' => ?_⟩
  · rw [hgen]
    intro p hp
    rcases List.mem_append.mp hp with hold | hown
    · exact ((h.generations p hold).trans_lt hnew).le
    · obtain ⟨_, _, rfl⟩ := List.mem_map.mp hown
      exact le_rfl
  · rw [ht] at ht'
    cases ht'
    rw [hgen, hjobs]
    exact .fresh hconn hstate hcalls hlines

/-- The reader takes a line. -/
theorem line (h : Rolling r sent) {cid written : Nat} {state : Sv1UpState} {line : RpcMessage}
    (htranslator : r.translator = some ⟨cid, state, [], written⟩) :
    Rolling { r with translator := some ⟨cid, (handleSv1Line lib cid line state).1,
      (handleSv1Line lib cid line state).2, written⟩ }
      (sent ++ [(r.inner.active.generation, line)]) := by
  refine ⟨fun p hp => ?_, fun t ht => ?_⟩
  · rcases List.mem_append.mp hp with hold | hnew
    · exact h.generations p hold
    · rw [List.mem_singleton.mp hnew]
  · cases ht
    obtain ⟨⟨answer, hanswer, hmask⟩, _, hjobs⟩ := h.driver _ htranslator
    refine ⟨⟨answer, ?_, ?_⟩, fun frame hframe job hjob => ?_, ?_⟩
    · rw [linesFrom_append, List.find?_append, hanswer]
      rfl
    · rw [handleSv1Line_versionMask]
      exact hmask
    · rw [handleSv1Line_versionMask]
      exact handleSv1Line_rolling hframe hjob
    · rw [handleSv1Line_versionMask]
      exact hjobs

/-- The reader makes a call. -/
theorem call (h : Rolling r sent) {cid written member : Nat} {now : Rat} {state : Sv1UpState}
    {call : SessionCall} {calls : List SessionCall}
    (htranslator : r.translator = some ⟨cid, state, call :: calls, written⟩) :
    Rolling ({ r with translator := some ⟨cid, state, calls, written⟩ }.translateCall call cid
      member now) sent := by
  obtain ⟨new, hsent, hnew⟩ := translateCall_sends
    { r with translator := some ⟨cid, state, calls, written⟩ } call cid member now
  have hgen := (translateCall_sameRig { r with
    translator := some ⟨cid, state, calls, written⟩ } call cid member now).upstream.generation
  have htasks := translateCall_sameTasks
    { r with translator := some ⟨cid, state, calls, written⟩ } call cid member now
  obtain ⟨hasked, hcalls, hjobs⟩ := h.driver _ htranslator
  refine ⟨by rw [hgen]; exact h.generations, fun t ht => ?_⟩
  rw [htasks.translator] at ht
  cases ht
  rw [hgen]
  refine ⟨hasked, fun frame hframe => hcalls frame (List.mem_cons_of_mem _ hframe), ?_⟩
  intro job hjob
  unfold Rig.jobsSent at hjob
  rw [hsent, hgen, List.filterMap_append, List.mem_append] at hjob
  rcases hjob with hold | hjob
  · exact hjobs job hold
  · obtain ⟨q, hq, hof⟩ := List.mem_filterMap.mp hjob
    obtain ⟨_, frame, rfl, rfl⟩ := hnew q hq
    rw [if_pos rfl] at hof
    exact hcalls frame List.mem_cons_self job hof

/-- The writer takes a frame. -/
theorem write (h : Rolling r sent) {cid written : Nat} {state : Sv1UpState} {frame : Sv2Frame}
    {calls : List SessionCall} (htranslator : r.translator = some ⟨cid, state, calls, written⟩) :
    Rolling { r with
      translator := some ⟨cid, (translateSubmit decode frame state).1, calls, written + 1⟩ }
      sent := by
  refine ⟨h.generations, fun t ht => ?_⟩
  cases ht
  obtain ⟨hasked, hcalls, hjobs⟩ := h.driver _ htranslator
  obtain ⟨id, submits, hstate⟩ := translateSubmit_state decode frame state
  have hmask : (translateSubmit decode frame state).1.versionMask = state.versionMask := by
    rw [hstate]
  refine ⟨?_, ?_, ?_⟩
  · rw [hmask]
    exact hasked
  · rw [hmask]
    exact hcalls
  · rw [hmask]
    exact hjobs

/-- A step that takes nothing from an SV1 upstream. -/
theorem other (h : Rolling r sent) (hknown : Known r) {e : Event}
    (ht : Transition decode lib r e r') (hline : ∀ line, e ≠ .translateLine line)
    (hlines : ∀ lines, e ≠ .swapTranslated lines) : Rolling r' sent := by
  cases ht with
  | attach hnative =>
    exact h.same rfl (forwardOpen_upstream ..).generation rfl
  | openChannel hmember =>
    refine h.quiet rfl ?_ (openChannel_upstream ..).generation rfl
    intro q hq g hreader
    obtain ⟨_, _, rfl⟩ := List.mem_map.mp hq
    cases hreader
  | @minerFrame member frame hmember =>
    have hsent := Rig.submitted_sent { r with inner := (minerFrame frame r.inner).1 }
      (minerFrame frame r.inner).2
    refine h.same hsent ?_ (SameTasks.submitted _ _).translator
    rw [Rig.submitted_inner]
    exact (minerFrame_upstream ..).generation
  | upstreamFrame hnative =>
    refine h.quiet rfl ?_ (onUpstreamFrame_upstream ..).generation rfl
    intro q hq g' hreader
    obtain ⟨s, hs, rfl⟩ := List.mem_map.mp hq
    dsimp only
    cases hframe : s.frame with
    | received f => rfl
    | built msg =>
      cases msg with
      | newExtendedMiningJob job =>
        -- work of a native pool goes through as it was received
        obtain ⟨_, _, _, _, _, hreceived⟩ := (onUpstreamFrame_sends hs).2 (by rw [hframe]; rfl)
        rw [hframe] at hreceived
        cases hreceived
      | _ => rfl
  | translateLine htranslator => exact absurd rfl (hline _)
  | translateCall htranslator => exact h.call htranslator
  | translateWrite htranslator => exact h.write htranslator
  | @swapReopened infos plan hswap hlength =>
    exact h.native rfl (hknown.generations.plan plan (Or.inl hswap)).1.le
  | swapTranslated hswap hconn => exact absurd rfl (hlines _)
  | repoint hswap hframe =>
    refine h.quiet rfl ?_ rfl rfl
    intro q hq g hreader
    obtain ⟨_, _, rfl⟩ := List.mem_map.mp hq
    cases hreader
  | notice hswap =>
    refine h.quiet rfl ?_ rfl rfl
    intro q hq g hreader
    obtain ⟨_, _, rfl⟩ := List.mem_map.mp hq
    cases hreader
  | _ => exact h.same rfl rfl rfl

theorem step (h : Rolling r sent) (hknown : Known r) {e : Event}
    (hstep : Sv2.step decode lib r e = some r') : Rolling r' (heardBy lib r e sent) := by
  cases e with
  | translateLine line =>
    simp only [Sv2.step] at hstep
    split at hstep
    · rename_i htranslator
      cases hstep
      exact h.line htranslator
    · cases hstep
  | swapTranslated lines =>
    simp only [Sv2.step] at hstep
    split at hstep
    · rename_i plan channel members hswap
      split at hstep
      · rename_i conn hconn
        cases hstep
        have hnew := (hknown.generations.plan plan (Or.inr ⟨_, _, hswap⟩)).1
        simp only [heardBy, hswap, hconn]
        refine h.translated hconn rfl rfl rfl rfl hnew rfl fun q hq hreader => ?_
        exact absurd (hknown.generations.readers q hq _ hreader) (not_le.mpr hnew)
      · rename_i hconn
        cases hstep
        simp only [heardBy, hswap, hconn]
        exact h.same rfl rfl rfl
    · cases hstep
  | _ =>
    exact h.other hknown (transition_of_step hstep) (fun _ he => by cases he)
      (fun _ he => by cases he)

theorem of_start {worker : String} {spec : OpenSpec} {store : OrderStore}
    {idlePool : Option UpstreamTarget} {now : Int} {failed : Option InitialAnswer}
    {answer : InitialAnswer} (h : start lib worker spec store idlePool now failed answer = some r) :
    Rolling r (heardAtStart answer) := by
  obtain ⟨_, _, _, _, _, hinstall⟩ := start_firstInstall h
  cases hinstall with
  | native => exact ⟨List.forall_mem_nil _, fun t ht => by cases ht⟩
  | @sv1 _ _ _ lines _ _ _ hconn =>
    refine ⟨fun p hp => ?_, fun t ht => ?_⟩
    · obtain ⟨_, _, rfl⟩ := List.mem_map.mp hp
      exact le_rfl
    · cases ht
      exact .fresh hconn rfl rfl (linesFrom_own 0 lines)

end Rolling

/-! ### What the miner is told -/

theorem HeardReaches.rolling {x : Rig × List (Nat × RpcMessage)} (h : HeardReaches decode lib x) :
    Rolling x.1 x.2 := by
  obtain ⟨worker, spec, store, idlePool, now, failed, answer, r₀, hone, hstart, hrun⟩ := h
  have hboth : Reaches decode lib x.1 ∧ Rolling x.1 x.2 := by
    refine hrun.invariant (I := fun y => Reaches decode lib y.1 ∧ Rolling y.1 y.2) ?_ ?_
    · exact ⟨⟨worker, spec, store, idlePool, now, failed, answer, r₀, hone, hstart, .refl⟩,
        .of_start hstart⟩
    · rintro ⟨r, sent⟩ e ⟨r', sent'⟩ ⟨hreaches, hrolling⟩ _ hnext
      obtain ⟨hstep, rfl⟩ := observed_eq_some.mp hnext
      refine ⟨?_, hrolling.step (.of_reaches hreaches) hstep⟩
      obtain ⟨_, _, _, _, _, _, _, _, hone, hstart, hrun⟩ := hreaches
      exact ⟨_, _, _, _, _, _, _, _, hone, hstart, .tail hrun hstep trivial⟩
  exact hboth.2

/-- A job allows rolling exactly when the active upstream negotiated a mask. -/
theorem jobsSent_negotiated {x : Rig × List (Nat × RpcMessage)} (h : HeardReaches decode lib x)
    (ht : x.1.translator.isSome = true) : ∀ job ∈ x.1.jobsSent, job.versionRollingAllowed =
      (negotiatedMask (linesFrom x.1.inner.active.generation x.2)).isSome := by
  obtain ⟨t, ht⟩ := Option.isSome_iff_exists.mp ht
  obtain ⟨⟨answer, hanswer, hmask⟩, _, hjobs⟩ := h.rolling.driver t ht
  rw [negotiatedMask, hanswer, Option.bind_some, ← hmask]
  exact hjobs

/-- What the jobs allow is backed exactly when there is no job, no mask was negotiated, or the
active upstream grants the standard mask. -/
theorem grantsBacked_iff {x : Rig × List (Nat × RpcMessage)} (h : HeardReaches decode lib x)
    (ht : x.1.translator.isSome = true) : GrantsBacked x ↔ x.1.jobsSent = [] ∨
      negotiatedMask (linesFrom x.1.inner.active.generation x.2) = none ∨
      Backed (grantedMask (linesFrom x.1.inner.active.generation x.2)) versionRollingMask := by
  have hjobs := jobsSent_negotiated h ht
  constructor
  · intro hbacked
    cases hsent : x.1.jobsSent with
    | nil => exact Or.inl rfl
    | cons job rest =>
      have hjob : job ∈ x.1.jobsSent := by
        rw [hsent]
        exact List.mem_cons_self
      cases hmask : negotiatedMask (linesFrom x.1.inner.active.generation x.2) with
      | none => exact Or.inr (Or.inl rfl)
      | some mask =>
        exact Or.inr (Or.inr (hbacked job hjob (by rw [hjobs job hjob, hmask]; rfl)))
  · rintro (hnone | hnone | hgranted) job hjob hallowed
    · rw [hnone] at hjob
      cases hjob
    · rw [hjobs job hjob, hnone] at hallowed
      cases hallowed
    · exact hgranted

end Sv2

/-! ## Concrete upstreams -/

/-- The answer to the first request, with this mask. -/
def maskAnswer (mask : String) : RpcMessage where
  id := some (.num (.int 1))
  result := some (.obj [("version-rolling", .bool true), ("version-rolling.mask", .str mask)])

/-- An SV1 pool that grants this mask when it is asked first. -/
def maskHandshake (mask : String) : List RpcMessage :=
  [maskAnswer mask,
    { id := some (.num (.int 2)), result := some (.arr [.arr [], .str "0a0b", .num (.int 4)]) },
    { id := some (.num (.int 3)), result := some (.bool true) }]

/-- An SV1 miner asks for version rolling. -/
def configureRequest : RpcMessage :=
  .request (.num (.int 1)) "mining.configure" (.arr [.arr [.str "version-rolling"], .obj []])

def minerAsks : Sv1.Event := .minerConfigure configureRequest

/-- A test on the session, and on what its upstreams sent, that a schedule ends in. -/
theorem exists_of_session (es : List Sv1.Event)
    (hguard : ∀ e ∈ es, Sv1.Translates Sv1.jobDecoder Sv1.jobLibrary e)
    {p : Sv1.Relay × List (Nat × RpcMessage) → Bool}
    (h : ((Sv1.eagerSession 1).bind fun r => run (observed Sv1.step Sv1.sentBy)
      (r, Sv1.sentAtStart ⟨"pool:3333", "bc1q", "", none⟩ (Sv1.eagerPool 1)) es).any p = true) :
    ∃ x, Sv1.HeardReaches (Sv1.Translates Sv1.jobDecoder Sv1.jobLibrary) x ∧ p x = true := by
  obtain ⟨x, hx, hp⟩ := (Option.any_eq_true ..).mp h
  obtain ⟨r₀, hstart, hrun⟩ := Option.bind_eq_some_iff.mp hx
  exact ⟨x, ⟨_, _, _, _, r₀, hstart, .of_run_forall (fun e he _ => hguard e he) hrun⟩, hp⟩

/-- A test on the rig, and on what its upstreams sent, that a schedule ends in.  The idle pool
grants this mask. -/
theorem exists_of_rig (mask : String) (es : List Sv2.Event)
    {p : Sv2.Rig × List (Nat × RpcMessage) → Bool}
    (h : ((Sv2.start Sv2.notifyLibrary "bc1q.rig" (Sv2.extendedOpen 7) {} (some Sv2.sellerPool) 0
      none (.sv1 (maskHandshake mask))).bind fun r =>
        run (observed (Sv2.step Sv2.wireDecoder Sv2.notifyLibrary) (Sv2.heardBy Sv2.notifyLibrary))
          (r, Sv2.heardAtStart (.sv1 (maskHandshake mask))) es).any p = true) :
    ∃ x, Sv2.HeardReaches Sv2.wireDecoder Sv2.notifyLibrary x ∧ p x = true := by
  obtain ⟨x, hx, hp⟩ := (Option.any_eq_true ..).mp h
  obtain ⟨r₀, hstart, hrun⟩ := Option.bind_eq_some_iff.mp hx
  exact ⟨x, ⟨_, _, {}, _, _, _, _, r₀, List.Pairwise.nil, hstart, .of_run hrun⟩, hp⟩

/-! ## The result -/

/-- The proxy tells an SV1 miner of the standard mask only, whatever the upstream grants, and relays
masks that an upstream has granted.  An SV2 miner is allowed to roll exactly when the SV1 upstream
negotiated a mask.  Both are backed exactly when the active upstream grants what the miner was
told. -/
theorem version_grants :
    (∀ (decode : Decoder) (lib : Sv1.Sv2Library),
      (∀ prev job clean line, lib.notifyLine prev job clean = some line →
        line.method = some "mining.notify") →
      ∀ x, Sv1.HeardReaches (Sv1.Translates decode lib) x → x.1.inner.translating = false →
        (∀ mask ∈ x.1.toldMasks, mask = versionRollingMask ∨ Sv1.GrantedBySender x.2 mask) ∧
        (∀ mask ∈ x.1.ownMasks, mask = versionRollingMask) ∧
        (∀ mask ∈ x.1.relayedMasks, Sv1.GrantedBySender x.2 mask) ∧
        (Sv1.GrantsBacked x ↔
          (x.1.ownMasks = [] ∨
            Backed (grantedMask (linesFrom x.1.inner.active.generation x.2)) versionRollingMask) ∧
          ∀ mask ∈ x.1.relayedMasks,
            Backed (grantedMask (linesFrom x.1.inner.active.generation x.2)) mask)) ∧
    ∀ decode lib x, Sv2.HeardReaches decode lib x → x.1.translator.isSome = true →
      (∀ job ∈ x.1.jobsSent, job.versionRollingAllowed =
        (negotiatedMask (linesFrom x.1.inner.active.generation x.2)).isSome) ∧
      (Sv2.GrantsBacked x ↔ x.1.jobsSent = [] ∨
        negotiatedMask (linesFrom x.1.inner.active.generation x.2) = none ∨
        Backed (grantedMask (linesFrom x.1.inner.active.generation x.2)) versionRollingMask) := by
  refine ⟨fun decode lib hnotify x h _ => ?_,
    fun _ _ _ h ht => ⟨Sv2.jobsSent_negotiated h ht, Sv2.grantsBacked_iff h ht⟩⟩
  have hown := Sv1.ownMasks_standard hnotify h
  have hrelayed := Sv1.relayedMasks_granted hnotify h
  exact ⟨fun mask hmask => (Sv1.Relay.mem_toldMasks.mp hmask).imp (hown mask) (hrelayed mask), hown,
    hrelayed, Sv1.grantsBacked_iff hnotify h⟩

/-- The miner asks, and is moved to a pool that grants the standard mask.  Another one asks while
authorize waits, and is told what its pool grants.  A rig works for a pool that grants the standard
mask. -/
theorem version_grants_standard :
    (∃ x, Sv1.HeardReaches (Sv1.Translates Sv1.jobDecoder Sv1.jobLibrary) x ∧
      x.1.toldMasks = [versionRollingMask] ∧ Sv1.GrantsBacked x) ∧
    (∃ x, Sv1.HeardReaches (Sv1.Translates Sv1.jobDecoder Sv1.jobLibrary) x ∧
      x.1.toldMasks = [0x00ffe000] ∧ Sv1.GrantsBacked x) ∧
    ∃ x, Sv2.HeardReaches Sv2.wireDecoder Sv2.notifyLibrary x ∧ x.1.jobsSent ≠ [] ∧
      Sv2.GrantsBacked x := by
  have hsv1 := version_grants.1 Sv1.jobDecoder Sv1.jobLibrary Sv1.jobLibrary_notifyLine
  refine ⟨?_, ?_, ?_⟩
  · obtain ⟨x, hx, hp⟩ := exists_of_session
      ([minerAsks, .swapBegin ⟨"buyer:3333", "bc1p", "", none⟩ .idle,
        .swapConnect ⟨some (maskHandshake "1fffe000"), none⟩]) (by simp [minerAsks, Sv1.Translates])
      (p := fun x => decide (x.1.inner.translating = false) &&
        decide (x.1.toldMasks = [versionRollingMask]) && decide (x.1.relayedMasks = []) &&
        decide (Backed (grantedMask (linesFrom x.1.inner.active.generation x.2))
          versionRollingMask)) (by decide +kernel)
    simp only [Bool.and_eq_true, decide_eq_true_eq] at hp
    obtain ⟨⟨⟨hpassthrough, htold⟩, hrelayed⟩, hgranted⟩ := hp
    refine ⟨x, hx, htold, (hsv1 x hx hpassthrough).2.2.2.mpr ⟨Or.inr hgranted, ?_⟩⟩
    rw [hrelayed]
    exact List.forall_mem_nil _
  · obtain ⟨x, hx, hp⟩ := exists_of_session
      ([.minerMsg configureRequest, .upstreamLine 1 (maskAnswer "00ffe000") 0, .readerForward 1])
      (by simp [Sv1.Translates])
      (p := fun x => decide (x.1.inner.translating = false) &&
        decide (x.1.toldMasks = [0x00ffe000]) && decide (x.1.ownMasks = []) &&
        decide (x.1.relayedMasks = [0x00ffe000]) &&
        decide (Backed (grantedMask (linesFrom x.1.inner.active.generation x.2)) 0x00ffe000))
      (by decide +kernel)
    simp only [Bool.and_eq_true, decide_eq_true_eq] at hp
    obtain ⟨⟨⟨⟨hpassthrough, htold⟩, hown⟩, hrelayed⟩, hgranted⟩ := hp
    refine ⟨x, hx, htold, (hsv1 x hx hpassthrough).2.2.2.mpr ⟨Or.inl hown, ?_⟩⟩
    rw [hrelayed]
    exact List.forall_mem_singleton.mpr hgranted
  · obtain ⟨x, hx, hp⟩ := exists_of_rig "1fffe000"
      ([.translateLine (Sv2.notifyLine "j1" 7 2 true), .translateCall 1 0, .translateCall 1 0])
      (p := fun x => x.1.translator.isSome && decide (x.1.jobsSent ≠ []) &&
        decide (Backed (grantedMask (linesFrom x.1.inner.active.generation x.2))
          versionRollingMask)) (by decide +kernel)
    simp only [Bool.and_eq_true, decide_eq_true_eq] at hp
    exact ⟨x, hx, hp.1.2, ((version_grants.2 _ _ x hx hp.1.1).2).mpr (Or.inr (Or.inr hp.2))⟩

/-- The first upstream of an SV1 miner was asked for nothing, and the miner is told of the standard
mask.  A rig may roll where its upstream grants only a part of the mask. -/
theorem version_grant_is_not_backed :
    (∃ x, Sv1.HeardReaches (Sv1.Translates Sv1.jobDecoder Sv1.jobLibrary) x ∧
      x.1.inner.translating = false ∧ x.1.toldMasks = [versionRollingMask] ∧
      grantedMask (linesFrom x.1.inner.active.generation x.2) = none ∧ ¬Sv1.GrantsBacked x) ∧
    ∃ x, Sv2.HeardReaches Sv2.wireDecoder Sv2.notifyLibrary x ∧ x.1.translator.isSome = true ∧
      grantedMask (linesFrom x.1.inner.active.generation x.2) = some 0x00ffe000 ∧
      ¬Sv2.GrantsBacked x := by
  constructor
  · obtain ⟨x, hx, hp⟩ := exists_of_session [minerAsks] (by simp [minerAsks, Sv1.Translates])
      (p := fun x => decide (x.1.inner.translating = false) &&
        decide (x.1.toldMasks = [versionRollingMask]) &&
        decide (grantedMask (linesFrom x.1.inner.active.generation x.2) = none)) (by decide +kernel)
    simp only [Bool.and_eq_true, decide_eq_true_eq] at hp
    refine ⟨x, hx, hp.1.1, hp.1.2, hp.2, fun hbacked => ?_⟩
    have hmask := hbacked versionRollingMask (by rw [hp.1.2]; exact List.mem_singleton_self _)
    rw [hp.2] at hmask
    exact absurd hmask (by decide +kernel)
  · obtain ⟨x, hx, hp⟩ := exists_of_rig "00ffe000"
      ([.translateLine (Sv2.notifyLine "j1" 7 2 true), .translateCall 1 0, .translateCall 1 0])
      (p := fun x => x.1.translator.isSome &&
        decide (grantedMask (linesFrom x.1.inner.active.generation x.2) = some 0x00ffe000) &&
        x.1.jobsSent.any Sv2.NewExtendedMiningJob.versionRollingAllowed) (by decide +kernel)
    simp only [Bool.and_eq_true, decide_eq_true_eq, List.any_eq_true] at hp
    obtain ⟨⟨htranslator, hgranted⟩, job, hjob, hallowed⟩ := hp
    refine ⟨x, hx, htranslator, hgranted, fun hbacked => ?_⟩
    have hmask := hbacked job hjob hallowed
    rw [hgranted] at hmask
    exact absurd hmask (by decide +kernel)

end RentalProxy
