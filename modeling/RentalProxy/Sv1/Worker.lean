import RentalProxy.Sv1.Tasks

/-!
# The worker a passthrough session mines under

A pool checks the worker of a share against the worker that was authorized on
the connection.  The proxy authorizes when it connects, under a name it makes
from the target and the label of that moment, and it names the worker of every
share when it forwards it, from the target and the label of now.

`submit_name_iff` says when the two names agree: the upstream was connected by
a swap, and the label has kept its worker part since.  The bootstrap upstream is
authorized under the bare account, so on a session that keeps it no share
carries the authorized name (`bootstrap_worker_mismatch`).
-/

namespace RentalProxy.Sv1

open StepSystem

/-! ## Names -/

private theorem suffix_ne_bare (suffix : String) :
    "." ++ (suffix ++ "-bp-proxy") ≠ ".bp-proxy" := by
  intro h
  have hlen := congrArg String.length h
  have htag : "-bp-proxy".length = 9 := by decide
  have hbare : ".bp-proxy".length = 9 := by decide
  have hdot : ".".length = 1 := by decide
  simp only [String.length_append, htag, hbare, hdot] at hlen
  omega

/-- The name keeps the account and the worker part of the label. -/
theorem upstreamWorker_eq_iff (account l l' : String) :
    upstreamWorker account l = upstreamWorker account l' ↔ workerSuffix l = workerSuffix l' := by
  unfold upstreamWorker
  rcases workerSuffix l with _ | s <;> rcases workerSuffix l' with _ | s'
  · simp
  · simpa using (suffix_ne_bare s').symm
  · simpa using suffix_ne_bare s
  · simp

/-- The name is never the bare account. -/
theorem upstreamWorker_ne_account (account l : String) : upstreamWorker account l ≠ account := by
  intro h
  have hlen := congrArg String.length h
  have hbare : ".bp-proxy".length = 9 := by decide
  have hdot : ".".length = 1 := by decide
  unfold upstreamWorker at hlen
  split at hlen
  · simp only [String.length_append, hdot] at hlen
    omega
  · simp only [String.length_append, hbare] at hlen
    omega

/-! ## The name on the connection -/

/-- The line authorizes a worker. -/
def isAuthorize (msg : RpcMessage) : Bool := decide (msg.method = some "mining.authorize")

/-- The worker that was authorized on the connection. -/
def ActiveUpstream.authorizedAs (a : ActiveUpstream) : Option Value :=
  (a.toUp.find? isAuthorize).bind RpcMessage.firstParam

/-- The name the active upstream was connected under. -/
def Relay.connectName (r : Relay) : String :=
  match r.connectedLabel with
  | none => r.inner.active.target.user
  | some label => upstreamWorker r.inner.active.target.user label

/-- A remembered `configure` is one, and on a passthrough upstream the
authorized worker is the name of the connect. -/
structure WorkerInv (r : Relay) : Prop where
  configure : ∀ c ∈ r.inner.configure, isAuthorize c = false
  connecting : ∀ snap, r.swap = .connecting snap → ∀ c ∈ snap.configure, isAuthorize c = false
  authorized : r.inner.translating = false →
    r.inner.active.authorizedAs = some (.str r.connectName)

/-- The handshake authorizes one worker. -/
theorem connectUpstream_authorizes {target : UpstreamTarget} {configure : Option RpcMessage}
    {name : String} {lines : List RpcMessage} {conn : UpstreamConn}
    (hconfigure : ∀ c ∈ configure, isAuthorize c = false)
    (h : connectUpstream target configure name lines = some conn) :
    (conn.write.find? isAuthorize).bind RpcMessage.firstParam = some (.str name) := by
  have hwrite : conn.write =
      configure.toList ++ [subscribeRequest, authorizeRequest name target.password] := by
    unfold connectUpstream at h
    cases configure <;>
      simp only [Option.bind_eq_bind, Option.bind_eq_some_iff, Option.some.injEq] at h <;>
      obtain ⟨_, _, _, _, _, _, _, _, hconn⟩ := h <;>
      rw [← hconn]
  have hskip : configure.toList.find? isAuthorize = none := by
    simp only [List.find?_eq_none, Option.mem_toList]
    intro c hc
    simp [hconfigure c hc]
  rw [hwrite, List.find?_append, hskip]
  rfl

/-- More lines on the connection do not change who was authorized. -/
theorem authorizedAs_append {a : ActiveUpstream} {line : RpcMessage} {v : Value}
    (h : a.authorizedAs = some v) :
    { a with toUp := a.toUp ++ [line] }.authorizedAs = some v := by
  unfold ActiveUpstream.authorizedAs at h ⊢
  obtain ⟨msg, hfind, hparam⟩ := Option.bind_eq_some_iff.mp h
  simp [List.find?_append, hfind, hparam]

/-- What a line of the miner does to the connection. -/
theorem onMinerMsg_active (msg : RpcMessage) (i : Inner) :
    (onMinerMsg msg i).1.active = i.active ∨
      ∃ line, (onMinerMsg msg i).1.active =
        { i.active with toUp := i.active.toUp ++ [line] } := by
  unfold onMinerMsg
  split_ifs
  · exact Or.inl rfl
  all_goals exact Or.inr ⟨_, rfl⟩

theorem onMinerMsg_translating (msg : RpcMessage) (i : Inner) :
    (onMinerMsg msg i).1.translating = i.translating := by
  unfold onMinerMsg
  split_ifs <;> rfl

/-- A line of the miner is remembered as its `configure` only if it is one. -/
theorem onMinerMsg_configure (msg : RpcMessage) (i : Inner) :
    (onMinerMsg msg i).1.configure = i.configure ∨
      msg.method = some "mining.configure" ∧ (onMinerMsg msg i).1.configure = some msg := by
  unfold onMinerMsg
  split_ifs with hauth hsubmit htrans hext hconfigure
  · exact Or.inl rfl
  · exact Or.inl rfl
  · exact Or.inl rfl
  · exact Or.inl rfl
  · exact Or.inr ⟨hconfigure, rfl⟩
  · exact Or.inl rfl

/-- A step of anyone but the miner and the swap leaves the connection alone. -/
theorem WorkerInv.of_frame {r r' : Relay} (h : WorkerInv r)
    (hactive : r'.inner.active = r.inner.active)
    (hsv1 : r'.inner.translating = r.inner.translating)
    (hconfigure : r'.inner.configure = r.inner.configure)
    (hswap : ∀ snap, r'.swap = .connecting snap → r.swap = .connecting snap)
    (hlabel : r'.connectedLabel = r.connectedLabel) : WorkerInv r' where
  configure := by
    rw [hconfigure]
    exact h.configure
  connecting := fun snap hs => h.connecting snap (hswap snap hs)
  authorized := by
    unfold Relay.connectName
    rw [hactive, hsv1, hlabel]
    exact h.authorized

/-- The step lemma. -/
theorem WorkerInv.step {r r' : Relay} {e : Event} (h : WorkerInv r)
    (hstep : Sv1.step r e = some r') : WorkerInv r' := by
  cases e with
  | minerConfigure msg =>
    simp only [Sv1.step] at hstep
    split at hstep
    · split at hstep
      · rename_i hmethod
        cases hstep
        refine ⟨?_, h.connecting, h.authorized⟩
        intro c hc
        cases hc
        simp [isAuthorize, hmethod]
      · cases hstep
    · cases hstep
  | minerMsg msg =>
    simp only [Sv1.step] at hstep
    split at hstep <;> cases hstep
    refine ⟨?_, h.connecting, ?_⟩
    · intro c hc
      rcases onMinerMsg_configure msg r.inner with hsame | ⟨hmethod, hmsg⟩
      · exact h.configure c (hsame ▸ hc)
      · rw [Option.mem_def, hmsg, Option.some.injEq] at hc
        simp [← hc, isAuthorize, hmethod]
    · intro hsv1
      have hauth := h.authorized (by rw [← onMinerMsg_translating msg]; exact hsv1)
      unfold Relay.connectName at hauth ⊢
      rcases onMinerMsg_active msg r.inner with hsame | ⟨line, hline⟩
      · simp only [hsame]
        exact hauth
      · simp only [hline]
        exact authorizedAs_append hauth
  | swapBegin target routing =>
    simp only [Sv1.step] at hstep
    split at hstep <;> cases hstep
    refine ⟨h.configure, ?_, h.authorized⟩
    rintro snap ⟨⟩ c hc
    exact h.configure c hc
  | swapConnect answer =>
    simp only [Sv1.step] at hstep
    split at hstep
    · rename_i snap hswap
      split at hstep <;> cases hstep
      · exact h.of_frame rfl rfl rfl (by simp) rfl
      · rename_i raw hraw
        cases raw with
        | sv2 up =>
          exact ⟨h.configure, by simp [Relay.install], by simp [Relay.install, installRaw]⟩
        | sv1 conn =>
          obtain ⟨lines, _, hconn⟩ := connectRaw_sv1 hraw
          refine ⟨h.configure, by simp [Relay.install], fun _ => ?_⟩
          exact connectUpstream_authorizes (h.connecting snap hswap) hconn
    · cases hstep
  | upstreamLine g msg now =>
    simp only [Sv1.step] at hstep
    split at hstep <;> cases hstep
    have hsame := onUpstreamMsg_same now g msg r.inner
    exact h.of_frame hsame.fields.1 hsame.fields.2.2.2.2.2.1 hsame.configure (fun _ hs => hs) rfl
  | translateCredit g n now =>
    simp only [Sv1.step] at hstep
    split at hstep <;> cases hstep
    have hsame := creditTranslateAccepted_same now g n r.inner
    exact h.of_frame hsame.fields.1 hsame.fields.2.2.2.2.2.1 hsame.configure (fun _ hs => hs) rfl
  | translateDifficulty g d =>
    simp only [Sv1.step] at hstep
    split at hstep <;> cases hstep
    have hsame := setTranslateDifficulty_same g d r.inner
    exact h.of_frame hsame.fields.1 hsame.fields.2.2.2.2.2.1 hsame.configure (fun _ hs => hs) rfl
  | translateLine g msg =>
    simp only [Sv1.step] at hstep
    split at hstep <;> cases hstep
    unfold sendOrStash
    split_ifs <;> exact h.of_frame rfl rfl rfl (fun _ hs => hs) rfl
  | attachOrder | setDefault =>
    cases hstep
    exact h.of_frame rfl rfl rfl (fun _ hs => hs) rfl
  | _ =>
    simp only [Sv1.step] at hstep
    split at hstep <;> cases hstep <;>
      first
      | exact h.of_frame rfl rfl rfl (fun _ hs => hs) rfl
      | exact h.of_frame rfl rfl rfl (by simp) rfl

/-- The bootstrap session. -/
theorem WorkerInv.start {target : UpstreamTarget} {peer : String} {orders : WorkBuffer}
    {answer : PoolAnswer} {r : Relay} (h : start target peer orders answer = some r) :
    WorkerInv r := by
  simp only [Sv1.start, Option.map_eq_some_iff] at h
  obtain ⟨raw, hraw, rfl⟩ := h
  cases raw with
  | sv2 up => exact ⟨by simp [installRaw, bootstrap], by simp, by simp [installRaw]⟩
  | sv1 conn =>
    obtain ⟨lines, _, hconn⟩ := connectRaw_sv1 hraw
    exact ⟨by simp [installRaw, bootstrap], by simp,
      fun _ => connectUpstream_authorizes (by simp) hconn⟩

/-! ## The name on a share -/

/-- The step forwarded a line whose first parameter is the worker that was
authorized on the connection. -/
def SubmitsAsAuthorized (r r' : Relay) : Prop :=
  ∃ line name, r'.inner.active.toUp = r.inner.active.toUp ++ [line] ∧
    line.firstParam = some name ∧ r'.inner.active.authorizedAs = some name

/-- A share carries the authorized worker exactly when a swap connected the
upstream, the label has kept its worker part since, and the share names a
worker at all. -/
theorem submit_name_iff {r r' : Relay} {msg : RpcMessage} (hreach : Reaches r)
    (hsv1 : r.inner.translating = false) (hsubmit : msg.method = some "mining.submit")
    (hstep : step r (.minerMsg msg) = some r') :
    SubmitsAsAuthorized r r' ↔
      (∃ label ∈ r.connectedLabel, workerSuffix label = workerSuffix r.inner.label) ∧
        msg.firstParam.isSome := by
  have hinv : WorkerInv r :=
    hreach.invariant (fun _ _ _ _ _ h => .start h) fun _ _ _ hx _ h => hx.step h
  set name := upstreamWorker r.inner.active.target.user r.inner.label
  have hinner : r'.inner.active = { r.inner.active with
      toUp := r.inner.active.toUp ++ [msg.setFirstParam (.str name)] } := by
    simp only [step] at hstep
    split at hstep <;> cases hstep
    simp [onMinerMsg, hsubmit, Inner.sendUp, name]
  have hauth : r'.inner.active.authorizedAs = some (.str r.connectName) := by
    rw [hinner]
    exact authorizedAs_append (hinv.authorized hsv1)
  have hforward : SubmitsAsAuthorized r r' ↔
      msg.firstParam.isSome ∧ r.connectName = name := by
    unfold SubmitsAsAuthorized
    rw [hauth, hinner]
    constructor
    · rintro ⟨line, v, hline, hparam, hname⟩
      obtain rfl : line = msg.setFirstParam (.str name) := by simpa using hline.symm
      rw [RpcMessage.firstParam_setFirstParam, Option.map_eq_some_iff] at hparam
      obtain ⟨w, hw, rfl⟩ := hparam
      simpa [hw] using hname
    · rintro ⟨hsome, hname⟩
      obtain ⟨w, hw⟩ := Option.isSome_iff_exists.mp hsome
      exact ⟨_, .str name, rfl, by simp [RpcMessage.firstParam_setFirstParam, hw], by simp [hname]⟩
  rw [hforward, and_comm]
  refine and_congr_left fun _ => ?_
  unfold Relay.connectName
  cases r.connectedLabel with
  | none => simpa using (upstreamWorker_ne_account _ _).symm
  | some label => simpa using upstreamWorker_eq_iff _ label r.inner.label

/-- A share of worker `rig.1`. -/
def rigSubmit : RpcMessage :=
  .request (.num (.int 7)) "mining.submit" (.arr [.str "rig.1", .str "job"])

/-- After a swap the share carries the authorized name. -/
theorem submit_name_iff_after_swap :
    ∃ r r', Reaches r ∧ step r (.minerMsg rigSubmit) = some r' ∧ SubmitsAsAuthorized r r' := by
  obtain ⟨r₀, hstart, hrun⟩ := run_of_eager (G := fun _ _ => True) 1
    ([.minerAuthorize "rig.1" none, .swapBegin ⟨"buyer:3333", "bc1p", "", none⟩ .idle,
      .swapConnect (eagerPool 1)]) rfl
  have hreach : Reaches _ := ⟨_, _, _, _, r₀, hstart, hrun⟩
  exact ⟨_, _, hreach, rfl,
    (@submit_name_iff _ _ rigSubmit hreach rfl rfl rfl).mpr ⟨⟨"rig.1", rfl, rfl⟩, rfl⟩⟩

/-- A worker whose pool is the one of the handshake: the connection stays
authorized under the bare account. -/
theorem bootstrap_worker_mismatch :
    ∃ r r', Reaches r ∧ r.inner.translating = false ∧ step r (.minerMsg rigSubmit) = some r' ∧
      r'.inner.active.authorizedAs = some (.str "bc1q") ∧
      (r'.inner.active.toUp.getLast?.bind RpcMessage.firstParam) =
        some (.str "bc1q.1-bp-proxy") ∧ ¬SubmitsAsAuthorized r r' := by
  obtain ⟨r₀, hstart, hrun⟩ := run_of_eager (G := fun _ _ => True) 1
    ([.minerAuthorize "rig.1" none]) rfl
  refine ⟨_, _, ⟨_, _, _, _, r₀, hstart, hrun⟩, rfl, rfl, rfl, rfl, ?_⟩
  rintro ⟨line, name, hline, hparam, hname⟩
  obtain rfl := List.singleton_inj.mp (List.append_cancel_left hline)
  revert hname
  rw [← hparam]
  decide

end RentalProxy.Sv1
