import RentalProxy.SessionTraffic

/-!
# What the tasks know of the sessions

A handler that works on a session, the rig table and the reapers name it by an id and a worker.
`Sound` says that the names are right in every state: nobody works on a session that is not there,
and its label has not changed since.  `Gated` says that a gate is held by one of them at a time.

Steps are taken apart: each part of a step keeps `Sound`, and `Sound.step` puts them together.
-/

namespace RentalProxy

open Sv2 (placeholder attachMember detachMember firstMember)

/-! ## What the calls do to label and members -/

namespace Sv2

variable {reach : Reach} {spec : OpenSpec} {target : UpstreamTarget} {routing : Routing}
  {i j : Inner}

/-- The label and the members of a session that has just connected are those of the placeholder. -/
theorem Inner.installSv2Initial_keeps (i : Inner) :
    (AnySession.sv2 i).Keeps (.sv2 (i.installSv2Initial spec target routing).1) := by
  unfold Inner.installSv2Initial
  dsimp only
  split <;> exact ⟨rfl, rfl, rfl, rfl⟩

theorem Inner.installSv1TranslateInitial_keeps {conn : Sv1UpConn} (i : Inner) :
    (AnySession.sv2 i).Keeps (.sv2 (i.installSv1TranslateInitial spec conn target routing).1) := by
  unfold Inner.installSv1TranslateInitial
  dsimp only
  split <;> exact ⟨rfl, rfl, rfl, rfl⟩

theorem Reach.connectAndInstallInitial_keeps (i : Inner) :
    (AnySession.sv2 i).Keeps (.sv2 (reach.connectAndInstallInitial spec target routing i).1) := by
  unfold Reach.connectAndInstallInitial
  split
  · exact i.installSv2Initial_keeps
  · exact i.installSv1TranslateInitial_keeps
  · exact ⟨rfl, rfl, rfl, rfl⟩

theorem Reach.connectFresh_keeps (order : Option Order) (i : Inner) :
    (AnySession.sv2 i).Keeps (.sv2 (reach.connectFresh spec order target routing i).1) := by
  have hfirst := @connectAndInstallInitial_keeps reach spec target routing i
  unfold Reach.connectFresh
  split
  · rename_i heq
    rw [heq] at hfirst
    exact hfirst
  · rename_i left heq
    rw [heq] at hfirst
    split
    · have hsecond := @connectAndInstallInitial_keeps reach spec ‹_› routing left
      exact ⟨hsecond.isSv2.trans hfirst.isSv2, hsecond.label.trans hfirst.label,
        hsecond.members.trans hfirst.members, hsecond.nextMemberId.trans hfirst.nextMemberId⟩
    · exact hfirst

theorem attachMember_eq {member : Nat} (h : attachMember spec i = some (j, member)) :
    j.label = i.label ∧ member = i.nextMemberId ∧ j.members = i.members ++ [i.nextMemberId] ∧
      j.nextMemberId = i.nextMemberId + 1 := by
  unfold attachMember at h
  split at h
  · cases h
  · cases h
    have hmembers := forwardOpen_members i.nextMemberId spec i.addMember.1
    exact ⟨forwardOpen_label .., rfl, hmembers.members, hmembers.nextMemberId⟩

end Sv2

namespace Registration

namespace State

/-- A fresh session has the label of the connection, and serves its first member. -/
theorem freshSession_keeps {reach : Sv2.Reach} {worker : String} {o : Opening} {j : Sv2.Inner}
    {ok : Bool} (h : freshSession reach worker o = some (j, ok)) :
    (AnySession.sv2 j).label = worker ∧ j.members = [firstMember] ∧
      j.nextMemberId = firstMember + 1 := by
  obtain ⟨⟨target, routing⟩, _, hfresh⟩ := Option.map_eq_some_iff.mp h
  have hkeeps := @Sv2.Reach.connectFresh_keeps reach o.spec target routing o.order
    (placeholder target routing o.pool worker)
  rw [show reach.connectFresh o.spec o.order target routing
    (placeholder target routing o.pool worker) = (j, ok) from hfresh] at hkeeps
  exact ⟨hkeeps.label, hkeeps.members, hkeeps.nextMemberId⟩

/-! ## Who is who -/

/-- The protocol and the label of a session. -/
def view (s : State) (c : Nat) : Option (Bool × String) :=
  (s.session c).map fun x => (x.isSv2, x.label)

/-- A session that an SV2 connection has registered under this name. -/
def Rig (s : State) (r : Nat) (worker : String) : Prop :=
  s.view r = some (true, worker) ∧ r ∈ s.authorized

theorem Rig.of_label {s : State} {r : Nat} {worker : String} {i : Sv2.Inner}
    (h : s.Rig r worker) (hsession : s.session r = some (.sv2 i)) : s.Rig r i.label :=
  ⟨by rw [view, hsession]; rfl, h.2⟩

/-- What a handler knows about the session that it works on. -/
def Stands (s : State) (c : Nat) : Handler → Prop
  | .closed => True
  | .relaying | .leaving => (∃ label, s.view c = some (false, label)) ∧ c ∉ s.torn
  | .registering worker => s.view c = some (false, worker) ∧ c ∉ s.torn
  | .opening .. | .gated .. | .connecting .. =>
    s.view c = none ∧ c ∉ s.authorized ∧ c ∉ s.torn
  | .found worker _ r => (s.view c = none ∧ c ∉ s.authorized ∧ c ∉ s.torn) ∧ s.Rig r worker
  | .installed worker => s.view c = some (true, worker) ∧ c ∉ s.authorized ∧ c ∉ s.torn
  | .registered worker => s.Rig c worker
  | .serving r _ | .detached r => ∃ worker, s.Rig r worker
  | .resting r worker | .removing r worker => s.Rig r worker

/-- Every handler and every table names sessions as they are. -/
structure Sound (s : State) : Prop where
  fresh : ∀ c, s.accepted ≤ c →
    s.handler c = .closed ∧ s.view c = none ∧ c ∉ s.authorized ∧ c ∉ s.torn
  stands : ∀ c, s.Stands c (s.handler c)
  rigs : ∀ worker r, s.rigs worker = some r → s.Rig r worker
  reapers : ∀ k p, s.reaper k = some p → s.Rig p.rig p.worker

variable {s s' : State} {c d r : Nat} {e : Event}

theorem view_put (s : State) (c d : Nat) (x : AnySession) :
    (s.put c x).view d = if d = c then some (x.isSv2, x.label) else s.view d := by
  unfold view put
  dsimp only
  rw [Function.update_apply]
  split <;> rfl

/-- A session that keeps its label looks the same. -/
theorem view_put_same {x y : AnySession} (hsession : s.session c = some x)
    (hsv2 : y.isSv2 = x.isSv2) (hlabel : y.label = x.label) : (s.put c y).view = s.view := by
  funext d
  rw [view_put]
  split
  · rename_i h
    rw [h, view, hsession, Option.map_some, hsv2, hlabel]
  · rfl

/-- What a handler knows outlives the steps of the others: only rigs are torn down by others. -/
theorem Stands.mono {hd : Handler} (h : s.Stands d hd) (hview : s'.view d = s.view d)
    (hauthorized : d ∈ s'.authorized → d ∈ s.authorized)
    (htorn : d ∈ s'.torn → d ∈ s.torn ∨ ∃ worker, s.Rig d worker)
    (hrig : ∀ r worker, s.Rig r worker → s'.Rig r worker) : s'.Stands d hd := by
  have hsv1 : ∀ label, s.view d = some (false, label) → d ∉ s.torn → d ∉ s'.torn := by
    intro label hlabel hnot hin
    rcases htorn hin with hold | ⟨worker, hworker⟩
    · exact hnot hold
    · rw [hworker.1] at hlabel
      cases hlabel
  have hunlisted : d ∉ s.authorized → d ∉ s.torn → d ∉ s'.torn := by
    intro hnot hold hin
    rcases htorn hin with hin | ⟨worker, hworker⟩
    · exact hold hin
    · exact hnot hworker.2
  cases hd with
  | closed => trivial
  | relaying | leaving =>
    obtain ⟨⟨label, hlabel⟩, hnot⟩ := h
    exact ⟨⟨label, hview.trans hlabel⟩, hsv1 label hlabel hnot⟩
  | registering worker => exact ⟨hview.trans h.1, hsv1 worker h.1 h.2⟩
  | opening _ _ | gated _ _ | connecting _ _ =>
    exact ⟨hview.trans h.1, fun hin => h.2.1 (hauthorized hin), hunlisted h.2.1 h.2.2⟩
  | found worker _ r =>
    obtain ⟨⟨hnone, hnot, hold⟩, hr⟩ := h
    exact ⟨⟨hview.trans hnone, fun hin => hnot (hauthorized hin), hunlisted hnot hold⟩,
      hrig r worker hr⟩
  | installed worker =>
    exact ⟨hview.trans h.1, fun hin => h.2.1 (hauthorized hin), hunlisted h.2.1 h.2.2⟩
  | registered worker => exact hrig _ _ h
  | serving r _ | detached r => exact h.imp fun _ hr => hrig _ _ hr
  | resting r worker | removing r worker => exact hrig _ _ h

/-- The step leaves the connection and its own session as they are. -/
structure Leaves (s s' : State) (d : Nat) : Prop where
  handler : s'.handler d = s.handler d
  view : s'.view d = s.view d
  authorized : d ∈ s'.authorized → d ∈ s.authorized
  torn : d ∈ s'.torn → d ∈ s.torn ∨ ∃ worker, s.Rig d worker

theorem Sound.of_leaves (h : Sound s) (haccepted : s.accepted ≤ s'.accepted)
    (hrig : ∀ r worker, s.Rig r worker → s'.Rig r worker)
    (hleaves : ∀ d, s.Leaves s' d ∨ d < s'.accepted ∧ s'.Stands d (s'.handler d))
    (hrigs : ∀ worker r, s'.rigs worker = some r → s'.Rig r worker)
    (hreapers : ∀ k p, s'.reaper k = some p → s'.Rig p.rig p.worker) : Sound s' where
  fresh d hd := by
    rcases hleaves d with hleaves | ⟨hlt, _⟩
    · obtain ⟨hhandler, hview, hauthorized, htorn⟩ := h.fresh d (haccepted.trans hd)
      refine ⟨hleaves.handler.trans hhandler, hleaves.view.trans hview,
        fun hin => hauthorized (hleaves.authorized hin), fun hin => ?_⟩
      rcases hleaves.torn hin with hin | ⟨worker, hworker⟩
      · exact htorn hin
      · exact hauthorized hworker.2
    · omega
  stands d := by
    rcases hleaves d with hleaves | ⟨_, hstands⟩
    · rw [hleaves.handler]
      exact (h.stands d).mono hleaves.view hleaves.authorized hleaves.torn hrig
    · exact hstands
  rigs := hrigs
  reapers := hreapers

/-! ## The parts of a step -/

theorem Sound.stands_of (h : Sound s) {before : Handler} (hhandler : s.handler c = before) :
    s.Stands c before := hhandler ▸ h.stands c

theorem Sound.lt_accepted (h : Sound s) (hopen : s.handler c ≠ .closed) : c < s.accepted := by
  by_contra hge
  exact hopen (h.fresh c (by omega)).1

/-- A handler moves on, in a state that keeps what the others know. -/
theorem Sound.goto (h : Sound s) (hd : Handler) (hlt : c < s.accepted) (hstands : s.Stands c hd) :
    Sound (s.goto c hd) := by
  refine h.of_leaves (le_refl _) (fun _ _ hr => hr) (fun d => ?_) h.rigs h.reapers
  by_cases hd : d = c
  · subst hd
    refine Or.inr ⟨hlt, ?_⟩
    rw [goto_handler, Function.update_self]
    exact hstands
  · exact Or.inl ⟨Function.update_of_ne hd _ _, rfl, id, Or.inl⟩

theorem Sound.put (h : Sound s) {x y : AnySession} (hsession : s.session c = some x)
    (hsv2 : y.isSv2 = x.isSv2) (hlabel : y.label = x.label) : Sound (s.put c y) := by
  have hview := view_put_same hsession hsv2 hlabel
  have hrig : ∀ r worker, s.Rig r worker → (s.put c y).Rig r worker := fun r worker hr =>
    ⟨(congrFun hview r).trans hr.1, hr.2⟩
  exact h.of_leaves (le_refl _) hrig (fun d => Or.inl ⟨rfl, congrFun hview d, id, Or.inl⟩)
    (fun worker r hr => hrig r worker (h.rigs worker r hr))
    fun k p hp => hrig _ _ (h.reapers k p hp)

/-- The session of a handler that has no session yet, or the label of an SV1 session. -/
theorem Sound.rename (h : Sound s) (hclosed : s.handler c = .closed)
    (hview : ∀ worker, s.view c ≠ some (true, worker)) (x : AnySession) (hlt : c < s.accepted) :
    Sound (s.put c x) := by
  have hother : ∀ d, d ≠ c → (s.put c x).view d = s.view d := fun d hd => by
    rw [view_put, if_neg hd]
  have hrig : ∀ r worker, s.Rig r worker → (s.put c x).Rig r worker := by
    intro r worker hr
    have hne : r ≠ c := by
      rintro rfl
      exact hview worker hr.1
    exact ⟨(hother r hne).trans hr.1, hr.2⟩
  refine h.of_leaves (le_refl _) hrig (fun d => ?_)
    (fun worker r hr => hrig r worker (h.rigs worker r hr))
    fun k p hp => hrig _ _ (h.reapers k p hp)
  by_cases hd : d = c
  · subst hd
    refine Or.inr ⟨hlt, ?_⟩
    change (s.put d x).Stands d (s.handler d)
    rw [hclosed]
    trivial
  · exact Or.inl ⟨rfl, hother d hd, id, Or.inl⟩

theorem Sound.enlist (h : Sound s) (hclosed : s.handler c = .closed) (hlt : c < s.accepted)
    (worker : String) : Sound (s.enlist c worker) := by
  have hrig : ∀ r w, s.Rig r w → (s.enlist c worker).Rig r w := fun r w hr =>
    ⟨hr.1, List.mem_cons_of_mem _ hr.2⟩
  refine h.of_leaves (le_refl _) hrig (fun d => ?_) (fun w r hr => hrig r w (h.rigs w r hr))
    fun k p hp => hrig _ _ (h.reapers k p hp)
  by_cases hd : d = c
  · subst hd
    refine Or.inr ⟨hlt, ?_⟩
    change (s.enlist d worker).Stands d (s.handler d)
    rw [hclosed]
    trivial
  · exact Or.inl ⟨rfl, rfl, fun hin => (List.mem_cons.mp hin).resolve_left hd, Or.inl⟩

/-- A session is torn down by its own handler, or it is a rig. -/
theorem Sound.delist (h : Sound s) (worker : String)
    (hown : (s.handler c = .closed ∧ c < s.accepted) ∨ ∃ w, s.Rig c w) :
    Sound (s.delist c worker) := by
  refine h.of_leaves (le_refl _) (fun _ _ hr => hr) (fun d => ?_) h.rigs h.reapers
  by_cases hd : d = c
  · subst hd
    rcases hown with ⟨hclosed, hlt⟩ | hrig
    · refine Or.inr ⟨hlt, ?_⟩
      change (s.delist d worker).Stands d (s.handler d)
      rw [hclosed]
      trivial
    · exact Or.inl ⟨rfl, rfl, id, fun _ => Or.inr hrig⟩
  · exact Or.inl ⟨rfl, rfl, id, fun hin => Or.inl ((List.mem_cons.mp hin).resolve_left hd)⟩

theorem Sound.setGate (h : Sound s) (worker : String) (holder : Option Holder) :
    Sound (s.setGate worker holder) :=
  ⟨h.fresh, fun c => (h.stands c).mono rfl id Or.inl fun _ _ hr => hr, h.rigs, h.reapers⟩

theorem Sound.setReaper (h : Sound s) (k : Nat) (reaper : Option Reaper)
    (hreaper : ∀ p, reaper = some p → s.Rig p.rig p.worker) : Sound (s.setReaper k reaper) where
  fresh := h.fresh
  stands c := (h.stands c).mono rfl id Or.inl fun _ _ hr => hr
  rigs := h.rigs
  reapers j p hp := by
    rw [setReaper_reaper, Function.update_apply] at hp
    split at hp
    · exact hreaper p hp
    · exact h.reapers j p hp

theorem insertIfAbsent_rigs {worker w : String} {rig : Nat}
    (h : (s.insertIfAbsent worker rig).rigs w = some r) :
    (s.rigs worker = none ∧ w = worker ∧ r = rig) ∨ s.rigs w = some r := by
  unfold State.insertIfAbsent at h
  dsimp only at h
  split at h
  · rename_i hnone
    rw [Function.update_apply] at h
    split at h
    · exact Or.inl ⟨hnone, ‹_›, (Option.some.inj h).symm⟩
    · exact Or.inr h
  · exact Or.inr h

theorem removeRig_rigs {worker w : String} {rig : Nat}
    (h : (s.removeRig worker rig).rigs w = some r) :
    (w ≠ worker ∨ r ≠ rig) ∧ s.rigs w = some r := by
  unfold State.removeRig at h
  dsimp only at h
  split at h
  · rw [Function.update_apply] at h
    split at h
    · cases h
    · exact ⟨Or.inl ‹_›, h⟩
  · rename_i hne
    refine ⟨?_, h⟩
    by_contra hsame
    rw [not_or, not_not, not_not] at hsame
    obtain ⟨rfl, rfl⟩ := hsame
    exact hne h

theorem removeRig_rigs_of_ne {worker w : String} {rig : Nat} (hne : w ≠ worker ∨ r ≠ rig)
    (h : s.rigs w = some r) : (s.removeRig worker rig).rigs w = some r := by
  unfold State.removeRig
  dsimp only
  split
  · rename_i hrig
    have hw : w ≠ worker := by
      rintro rfl
      rcases hne with hw | hr
      · exact hw rfl
      · exact hr (Option.some.inj (h.symm.trans hrig))
    rw [Function.update_of_ne hw, h]
  · exact h

theorem insertIfAbsent_rigs_of_some {worker w : String} {rig : Nat} (h : s.rigs w = some r) :
    (s.insertIfAbsent worker rig).rigs w = some r := by
  unfold State.insertIfAbsent
  dsimp only
  split
  · rename_i hnone
    have hw : w ≠ worker := by
      rintro rfl
      cases h.symm.trans hnone
    rw [Function.update_of_ne hw, h]
  · exact h

theorem Sound.insertIfAbsent (h : Sound s) {worker : String} (hrig : s.Rig c worker) :
    Sound (s.insertIfAbsent worker c) where
  fresh := h.fresh
  stands d := (h.stands d).mono rfl id Or.inl fun _ _ hr => hr
  rigs w r hr := by
    rcases insertIfAbsent_rigs hr with ⟨_, rfl, rfl⟩ | hold
    · exact hrig
    · exact h.rigs w r hold
  reapers := h.reapers

theorem Sound.removeRig (h : Sound s) (worker : String) (r : Nat) :
    Sound (s.removeRig worker r) where
  fresh := h.fresh
  stands d := (h.stands d).mono rfl id Or.inl fun _ _ hr => hr
  rigs w r hr := h.rigs w r (removeRig_rigs hr).2
  reapers := h.reapers

theorem Sound.accept (h : Sound s) {hd : Handler} (hstands : s.Stands s.accepted hd) :
    Sound (s.accept hd) := by
  refine h.of_leaves (Nat.le_succ _) (fun _ _ hr => hr) (fun d => ?_) h.rigs h.reapers
  by_cases hd : d = s.accepted
  · subst hd
    refine Or.inr ⟨Nat.lt_succ_self _, ?_⟩
    rw [accept_handler, Function.update_self]
    exact hstands.mono rfl id Or.inl fun _ _ hr => hr
  · exact Or.inl ⟨Function.update_of_ne hd _ _, rfl, id, Or.inl⟩

theorem Sound.close (h : Sound s) (hopen : s.handler c ≠ .closed) : Sound (s.goto c .closed) :=
  h.goto .closed (h.lt_accepted hopen) trivial

theorem closed_handler (s : State) (c : Nat) : (s.goto c .closed).handler c = .closed := by
  rw [goto_handler, Function.update_self]

/-- A handler moves on, and nothing else that the handlers know of has changed. -/
theorem Sound.advance (h : Sound s) {before after : Handler} (hhandler : s.handler c = before)
    (hopen : before ≠ .closed) (hstands : s.Stands c before → s.Stands c after) :
    Sound (s.goto c after) :=
  h.goto after (h.lt_accepted (hhandler ▸ hopen)) (hstands (hhandler ▸ h.stands c))

/-- A step keeps the names. -/
theorem Sound.step (h : Sound s) (ht : Transition s e s') : Sound s' := by
  have lt : ∀ {c before}, s.handler c = before → before ≠ .closed → c < s.accepted :=
    fun hhandler hopen => h.lt_accepted (hhandler ▸ hopen)
  cases ht with
  | handshake i =>
    obtain ⟨_, hview, _, htorn⟩ := h.fresh s.accepted (le_refl _)
    have haccept : Sound (s.accept .closed) := h.accept trivial
    have hnamed := haccept.rename (c := s.accepted)
      (by rw [accept_handler, Function.update_self])
      (fun worker hw => by cases hview.symm.trans hw) (.sv1 i) (Nat.lt_succ_self _)
    have hstart := hnamed.goto (c := s.accepted) .relaying (Nat.lt_succ_self _)
      ⟨⟨i.label, by rw [view_put, if_pos rfl]; rfl⟩, htorn⟩
    simpa only [State.accept, State.put, State.goto, Function.update_idem] using hstart
  | @authorize c worker i hhandler hsession =>
    obtain ⟨⟨label, hlabel⟩, htorn⟩ := h.stands_of hhandler
    have hlt := lt hhandler (by nofun)
    have hnamed := (h.close (hhandler ▸ by nofun)).rename (c := c) (closed_handler s c)
      (fun worker hw => by cases hlabel.symm.trans hw) (.sv1 { i with label := worker }) hlt
    have hnext := hnamed.goto (c := c) (.registering worker) hlt
      ⟨by rw [view_put, if_pos rfl]; rfl, htorn⟩
    simpa only [State.put, State.goto, Function.update_idem] using hnext
  | @refuse c worker hhandler => exact h.advance hhandler (by nofun) id
  | @insert c worker hhandler =>
    obtain ⟨hview, htorn⟩ := h.stands_of hhandler
    have hlt := lt hhandler (by nofun)
    have hlisted := (h.close (hhandler ▸ by nofun)).enlist (closed_handler s c) hlt worker
    have hnext := hlisted.goto (c := c) .relaying hlt ⟨⟨worker, hview⟩, htorn⟩
    simpa only [State.enlist, State.goto, Function.update_idem] using hnext
  | @hangUp c hhandler => exact h.advance hhandler (by nofun) id
  | @deregister c i hhandler hsession =>
    have hlt := lt hhandler (by nofun)
    exact (h.close (hhandler ▸ by nofun)).delist i.label
      (Or.inl ⟨closed_handler s c, hlt⟩)
  | openChannel => exact h.accept (h.fresh s.accepted (le_refl _)).2
  | @enter c worker o hhandler hfree =>
    exact (h.setGate worker (some (.handler c))).advance hhandler (by nofun) id
  | @look c worker o r hhandler hrig =>
    exact h.advance hhandler (by nofun) fun hstands => ⟨hstands, h.rigs worker r hrig⟩
  | @lookNone c worker o hhandler => exact h.advance hhandler (by nofun) id
  | @bundle c r member worker o i j hhandler hsession hattach =>
    have hkept := h.put (y := .sv2 j) hsession rfl (Sv2.attachMember_eq hattach).1
    exact (hkept.setGate worker none).advance hhandler (by nofun) fun hstands =>
      ⟨worker, hstands.2⟩
  | @standalone c r worker o hhandler => exact h.advance hhandler (by nofun) And.left
  | @connect c worker o reach j hhandler hfresh =>
    obtain ⟨hview, hauthorized, htorn⟩ := h.stands_of hhandler
    have hlt := lt hhandler (by nofun)
    have hnamed := (h.close (hhandler ▸ by nofun)).rename (c := c) (closed_handler s c)
      (fun worker hw => by cases hview.symm.trans hw) (.sv2 j) hlt
    have hnext := hnamed.goto (c := c) (.installed worker) hlt
      ⟨by rw [view_put, if_pos rfl]; rw [(freshSession_keeps hfresh).1]; rfl, hauthorized,
        htorn⟩
    simpa only [State.put, State.goto, Function.update_idem] using hnext
  | @abandon c worker o reach j hhandler hfresh hhalf =>
    have hview := (h.stands_of hhandler).1
    have hlt := lt hhandler (by nofun)
    have hnamed := (h.close (hhandler ▸ by nofun)).rename (c := c) (closed_handler s c)
      (fun worker hw => by cases hview.symm.trans hw) (.sv2 j) hlt
    exact hnamed.setGate worker none
  | @connectFailed c worker o reach hhandler =>
    exact (h.setGate worker none).advance hhandler (by nofun) fun _ => trivial
  | @register c worker hhandler =>
    have hlt := lt hhandler (by nofun)
    have hlisted := (h.close (hhandler ▸ by nofun)).enlist (closed_handler s c) hlt worker
    have hnext := hlisted.goto (c := c) (.registered worker) hlt
      ⟨(h.stands_of hhandler).1, List.mem_cons_self⟩
    simpa only [State.enlist, State.goto, Function.update_idem] using hnext
  | @publish c worker s₁ hhandler hrig =>
    have hown := h.stands_of hhandler
    rcases hrig with rfl | rfl
    · exact (h.setGate worker none).advance hhandler (by nofun) fun hstands => ⟨worker, hstands⟩
    · exact ((h.insertIfAbsent hown).setGate worker none).advance
        hhandler (by nofun) fun hstands => ⟨worker, hstands⟩
  | @leave c r member i hhandler hsession =>
    have hkept := h.put (y := .sv2 (detachMember member i).1) hsession rfl rfl
    refine hkept.advance hhandler (by nofun) fun hstands => ?_
    split
    · exact hstands
    · trivial
  | @checkTarget c r i hhandler hsession hrig =>
    exact h.advance hhandler (by nofun) fun ⟨_, hr⟩ => hr.of_label hsession
  | @checkOther c r i hhandler hsession hrig =>
    exact h.advance hhandler (by nofun) fun ⟨_, hr⟩ => hr.of_label hsession
  | @rest c r worker hhandler =>
    have hcount : Sound { s with
        idleToken := Function.update s.idleToken r (s.idleToken r + 1)
        spawned := s.spawned + 1 } :=
      ⟨h.fresh, fun d => (h.stands d).mono rfl id Or.inl fun _ _ hr => hr, h.rigs, h.reapers⟩
    have hspawned := hcount.setReaper s.spawned (some ⟨r, worker, s.idleToken r + 1, .asleep⟩)
      fun p hp => Option.some.inj hp ▸ h.stands_of hhandler
    exact hspawned.advance hhandler (by nofun) fun _ => trivial
  | @remove c r worker hhandler =>
    exact (h.delist worker (Or.inr ⟨worker, h.stands_of hhandler⟩)).advance hhandler (by nofun)
      fun _ => trivial
  | @wake k p hreaper hstage hfree =>
    exact (h.setGate p.worker (some (.reaper k))).setReaper _ _ fun q hq =>
      Option.some.inj hq ▸ h.reapers k p hreaper
  | @giveUp k p i hreaper hstage hsession hbusy =>
    exact (h.setGate p.worker none).setReaper _ _ fun q hq => by cases hq
  | @inspect k p i hreaper hstage hsession hmembers htoken =>
    exact h.setReaper _ _ fun q hq => Option.some.inj hq ▸ h.reapers k p hreaper
  | @unlist k p hreaper hstage =>
    exact (h.removeRig p.worker p.rig).setReaper _ _ fun q hq =>
      Option.some.inj hq ▸ h.reapers k p hreaper
  | @reap k p hreaper hstage =>
    have hgone := h.delist p.worker (Or.inr ⟨p.worker, h.reapers k p hreaper⟩)
    exact (hgone.setGate p.worker none).setReaper _ _ fun q hq => by cases hq
  | @traffic c x y hsession hkeeps => exact h.put hsession hkeeps.isSv2 hkeeps.label

/-! ## The gates -/

end State

/-- The gate that a handler holds. -/
def Handler.gate? : Handler → Option String
  | .gated worker _ | .found worker _ _ | .connecting worker _ | .installed worker
  | .registered worker => some worker
  | _ => none

namespace State

/-- A gate is held by one handler or reaper. -/
structure Gated (s : State) : Prop where
  handlers : ∀ c worker, (s.handler c).gate? = some worker → s.gate worker = some (.handler c)
  reapers : ∀ k p, s.reaper k = some p → p.stage ≠ .asleep → s.gate p.worker = some (.reaper k)

/-- A task changes only a gate that it holds, or that is free. -/
theorem Gated.of_task (h : Gated s) (task : Holder)
    (hgate : ∀ worker, s'.gate worker = s.gate worker ∨ s.gate worker = none ∨
      s.gate worker = some task)
    (hhandlers : ∀ c worker, (s'.handler c).gate? = some worker →
      s'.gate worker = some (.handler c) ∨
        ((s.handler c).gate? = some worker ∧ task ≠ .handler c))
    (hreapers : ∀ k p, s'.reaper k = some p → p.stage ≠ .asleep →
      s'.gate p.worker = some (.reaper k) ∨ (s.reaper k = some p ∧ task ≠ .reaper k)) :
    Gated s' where
  handlers c worker hc := by
    rcases hhandlers c worker hc with hheld | ⟨hheld, hother⟩
    · exact hheld
    · have hbefore := h.handlers c worker hheld
      rcases hgate worker with hsame | hfree | htask
      · exact hsame.trans hbefore
      · cases hbefore.symm.trans hfree
      · cases hbefore.symm.trans htask
        exact absurd rfl hother
  reapers k p hk hstage := by
    rcases hreapers k p hk hstage with hheld | ⟨hheld, hother⟩
    · exact hheld
    · have hbefore := h.reapers k p hheld hstage
      rcases hgate p.worker with hsame | hfree | htask
      · exact hsame.trans hbefore
      · cases hbefore.symm.trans hfree
      · cases hbefore.symm.trans htask
        exact absurd rfl hother

/-- A handler moves on and holds the gate that it held, or none. -/
theorem Gated.moved (h : Gated s) {before hd : Handler} (hbefore : s.handler c = before)
    (hhandler : s'.handler = Function.update s.handler c hd) (hgate : s'.gate = s.gate)
    (hreaper : s'.reaper = s.reaper) (hheld : hd.gate? = none ∨ hd.gate? = before.gate?) :
    Gated s' where
  handlers d worker hd' := by
    rw [hhandler, Function.update_apply] at hd'
    rw [hgate]
    split at hd'
    · rename_i hdc
      subst hdc
      rcases hheld with hnone | hsame
      · cases hd'.symm.trans hnone
      · exact h.handlers d worker (hbefore ▸ hsame.symm.trans hd')
    · exact h.handlers d worker hd'
  reapers k p hk := by
    rw [hgate]
    exact h.reapers k p (hreaper ▸ hk)

/-- A handler releases the gate that it holds. -/
theorem Gated.release (h : Gated s) {worker : String} {before hd : Handler}
    (hbefore : s.handler c = before) (hhandler : s'.handler = Function.update s.handler c hd)
    (hgate : s'.gate = Function.update s.gate worker none) (hreaper : s'.reaper = s.reaper)
    (hheld : before.gate? = some worker) (hnone : hd.gate? = none) : Gated s' := by
  refine h.of_task (.handler c) (fun w => ?_) (fun d w hw => Or.inr ?_) fun k p hk _ =>
    Or.inr ⟨hreaper ▸ hk, by nofun⟩
  · rw [hgate, Function.update_apply]
    split
    · rename_i hw
      exact Or.inr (Or.inr (hw ▸ h.handlers c worker (hbefore ▸ hheld)))
    · exact Or.inl rfl
  · rw [hhandler, Function.update_apply] at hw
    split at hw
    · cases hw.symm.trans hnone
    · rename_i hne
      exact ⟨hw, fun heq => hne (Holder.handler.inj heq).symm⟩

/-- A reaper releases the gate that it holds. -/
theorem Gated.finish (h : Gated s) {k : Nat} {p : Reaper} (hreaper : s.reaper k = some p)
    (hstage : p.stage ≠ .asleep) : Gated ((s.setGate p.worker none).setReaper k none) := by
  refine h.of_task (.reaper k) (fun w => ?_) (fun d w hw => Or.inr ⟨hw, by nofun⟩)
    fun j q hj hq => Or.inr ?_
  · by_cases hw : w = p.worker
    · subst hw
      exact Or.inr (Or.inr (h.reapers k p hreaper hstage))
    · exact Or.inl (Function.update_of_ne hw _ _)
  · rw [setReaper_reaper, Function.update_apply] at hj
    split at hj
    · cases hj
    · rename_i hne
      exact ⟨hj, fun heq => hne (Holder.reaper.inj heq).symm⟩

/-- A reaper goes on, with the gate that it holds. -/
theorem Gated.proceed (h : Gated s) {k : Nat} {p : Reaper} (hreaper : s.reaper k = some p)
    (hstage : p.stage ≠ .asleep) (stage : ReaperStage) :
    Gated (s.setReaper k (some { p with stage })) where
  handlers := h.handlers
  reapers j q hj hq := by
    rw [setReaper_reaper, Function.update_apply] at hj
    split at hj
    · rename_i hjk
      cases hj
      exact hjk ▸ h.reapers k p hreaper hstage
    · exact h.reapers j q hj hq

/-- A step keeps the gates. -/
theorem Gated.step (h : Gated s) (ht : Transition s e s') : Gated s' := by
  cases ht with
  | @enter c worker o hhandler hfree =>
    refine h.of_task (.handler c) (fun w => ?_) (fun d w hw => ?_) fun k p hk _ =>
      Or.inr ⟨hk, by nofun⟩
    · by_cases hw : w = worker
      · exact Or.inr (Or.inl (hw ▸ hfree))
      · exact Or.inl (Function.update_of_ne hw _ _)
    · rw [goto_handler, Function.update_apply] at hw
      split at hw
      · rename_i hdc
        cases hw
        exact Or.inl (hdc ▸ Function.update_self ..)
      · rename_i hne
        exact Or.inr ⟨hw, fun heq => hne (Holder.handler.inj heq).symm⟩
  | @wake k p hreaper hstage hfree =>
    refine h.of_task (.reaper k) (fun w => ?_) (fun d w hw => Or.inr ⟨hw, by nofun⟩)
      fun j q hj _ => ?_
    · by_cases hw : w = p.worker
      · exact Or.inr (Or.inl (hw ▸ hfree))
      · exact Or.inl (Function.update_of_ne hw _ _)
    · rw [setReaper_reaper, Function.update_apply] at hj
      split at hj
      · rename_i hjk
        cases hj
        exact Or.inl (hjk ▸ Function.update_self ..)
      · rename_i hne
        exact Or.inr ⟨hj, fun heq => hne (Holder.reaper.inj heq).symm⟩
  | handshake | openChannel => exact h.moved rfl rfl rfl rfl (Or.inl rfl)
  | leave hhandler =>
    refine h.moved hhandler rfl rfl rfl (Or.inl ?_)
    split <;> rfl
  | @rest c r worker hhandler =>
    have hnext : Gated (s.goto c .closed) := h.moved hhandler rfl rfl rfl (Or.inl rfl)
    refine ⟨hnext.handlers, fun k p hk hstage => ?_⟩
    change Function.update s.reaper s.spawned _ k = some p at hk
    rw [Function.update_apply] at hk
    split at hk
    · cases hk
      exact absurd rfl hstage
    · exact h.reapers k p hk hstage
  | bundle hhandler | abandon hhandler | connectFailed hhandler =>
    exact h.release hhandler rfl rfl rfl rfl rfl
  | publish hhandler hrig =>
    rcases hrig with rfl | rfl <;> exact h.release hhandler rfl rfl rfl rfl rfl
  | giveUp hreaper hstage => exact h.finish hreaper (by rw [hstage]; nofun)
  | reap hreaper hstage =>
    have hnext := h.finish hreaper (by rw [hstage]; nofun)
    exact ⟨hnext.handlers, hnext.reapers⟩
  | inspect hreaper hstage => exact h.proceed hreaper (by rw [hstage]; nofun) .expired
  | unlist hreaper hstage =>
    have hnext := h.proceed hreaper (by rw [hstage]; nofun) .unlisted
    exact ⟨hnext.handlers, hnext.reapers⟩
  | traffic => exact ⟨h.handlers, h.reapers⟩
  | look hhandler | lookNone hhandler | standalone hhandler | connect hhandler
  | register hhandler => exact h.moved hhandler rfl rfl rfl (Or.inr rfl)
  | authorize hhandler | refuse hhandler | insert hhandler | hangUp hhandler
  | deregister hhandler | checkTarget hhandler | checkOther hhandler | remove hhandler =>
    exact h.moved hhandler rfl rfl rfl (Or.inl rfl)

end State

end Registration

end RentalProxy
