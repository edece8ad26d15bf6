import RentalProxy.SessionNames

/-!
# The life of a rig

A session of the SV2 relay goes through phases: it is registered and not yet published, it is the
rig of its worker, it serves one connection alone, and at last it is off: nobody mines on it and
nobody can join.  `Manned` says which phase goes with which handlers and reapers; a session is torn
down when it is off.
-/

namespace RentalProxy

open Sv2 (attachMember detachMember firstMember)

namespace Registration

/-- The session that a handler works on. -/
def Handler.works? : Handler → Option Nat
  | .found _ _ r | .serving r _ | .detached r | .resting r _ | .removing r _ => some r
  | _ => none

/-- The handler is not between building a session and serving its member. -/
def Handler.isPlain : Handler → Bool
  | .installed _ | .registered _ | .serving .. => false
  | _ => true

namespace State

variable {s s' : State} {c d r : Nat} {worker : String} {e : Event}

/-! ## The phases -/

def members (s : State) (r : Nat) : List Nat := ((s.session r).map AnySession.members).getD []

def nextMemberId (s : State) (r : Nat) : Nat :=
  ((s.session r).map AnySession.nextMemberId).getD 0

/-- The session is registered, and nobody but its own handler knows it. -/
structure Unpublished (s : State) (r : Nat) (worker : String) : Prop where
  handler : s.handler r = .registered worker
  rigs : s.rigs worker ≠ some r
  others : ∀ c, (s.handler c).works? ≠ some r

/-- The session is the rig of its worker. -/
structure Published (s : State) (r : Nat) (worker : String) : Prop where
  rigs : s.rigs worker = some r
  handler : s.handler r ≠ .registered worker

/-- The session serves the connection that built it, and no other. -/
structure Alone (s : State) (r : Nat) (worker : String) : Prop where
  handler : s.handler r = .serving r firstMember
  members : s.members r = [firstMember]
  rigs : s.rigs worker ≠ some r
  others : ∀ c, (s.handler c).works? = some r → c = r

/-- Nobody mines on the session, and nobody can join. -/
structure Off (s : State) (r : Nat) (worker : String) : Prop where
  members : s.members r = []
  rigs : s.rigs worker ≠ some r

/-- One of the phases. -/
def Phase (s : State) (r : Nat) (worker : String) : Prop :=
  s.Unpublished r worker ∨ s.Published r worker ∨ s.Alone r worker ∨ s.Off r worker

/-- Handlers, reapers and phases go together. -/
structure Manned (s : State) : Prop where
  serving : ∀ c r m, s.handler c = .serving r m → m ∈ s.members r ∧ m < s.nextMemberId r
  unique : ∀ c d r m, s.handler c = .serving r m → s.handler d = .serving r m → c = d
  first : ∀ c worker, s.handler c = .installed worker ∨ s.handler c = .registered worker →
    s.members c = [firstMember] ∧ s.nextMemberId c = firstMember + 1
  found : ∀ c worker o r, s.handler c = .found worker o r → s.rigs worker = some r
  phase : ∀ r worker, s.Rig r worker → s.Phase r worker
  torn : ∀ r worker, s.Rig r worker → r ∈ s.torn → s.Off r worker
  removing : ∀ c r worker, s.handler c = .removing r worker → s.Off r worker
  expired : ∀ k p, s.reaper k = some p → p.stage = .expired → s.members p.rig = []
  unlisted : ∀ k p, s.reaper k = some p → p.stage = .unlisted → s.Off p.rig p.worker

theorem Off.congr (h : s.Off r worker) (hmembers : s'.members r = s.members r)
    (hrigs : s'.rigs worker = s.rigs worker) : s'.Off r worker :=
  ⟨hmembers.trans h.members, fun hr => h.rigs (hrigs.symm.trans hr)⟩

/-- The phase does not change unless the session or its handler does, or somebody joins. -/
theorem Phase.keep (h : s.Phase r worker) (hhandler : s'.handler r = s.handler r)
    (hmembers : s'.members r = s.members r)
    (hrigs : s'.rigs worker = some r ↔ s.rigs worker = some r)
    (hothers : ∀ d, (s'.handler d).works? = some r →
      (s.handler d).works? = some r ∨ s.rigs worker = some r) : s'.Phase r worker := by
  rcases h with hun | hpub | halone | hoff
  · exact Or.inl ⟨hhandler.trans hun.handler, fun hr => hun.rigs (hrigs.mp hr),
      fun d hd => (hothers d hd).elim (hun.others d) hun.rigs⟩
  · exact Or.inr (Or.inl ⟨hrigs.mpr hpub.rigs, hhandler ▸ hpub.handler⟩)
  · exact Or.inr (Or.inr (Or.inl ⟨hhandler.trans halone.handler, hmembers.trans halone.members,
      fun hr => halone.rigs (hrigs.mp hr),
      fun d hd => (hothers d hd).elim (halone.others d) (absurd · halone.rigs)⟩))
  · exact Or.inr (Or.inr (Or.inr ⟨hmembers.trans hoff.members, fun hr => hoff.rigs (hrigs.mp hr)⟩))

theorem members_of_session {i : Sv2.Inner} (h : s.session r = some (.sv2 i)) :
    s.members r = i.members := by
  rw [members, h]
  rfl

theorem nextMemberId_of_session {i : Sv2.Inner} (h : s.session r = some (.sv2 i)) :
    s.nextMemberId r = i.nextMemberId := by
  rw [nextMemberId, h]
  rfl

/-- A rig that changes inside, and a handler that moves on, make no rig. -/
theorem rig_of_put_goto {i j : Sv2.Inner} {hd : Handler} (hsession : s.session r = some (.sv2 i))
    (hlabel : j.label = i.label) {q : Nat} {w : String}
    (hq : ((s.put r (.sv2 j)).goto c hd).Rig q w) : s.Rig q w :=
  ⟨view_put_same (y := .sv2 j) hsession rfl hlabel ▸ hq.1, hq.2⟩

theorem members_put (s : State) (c d : Nat) (x : AnySession) :
    (s.put c x).members d = if d = c then x.members else s.members d := by
  unfold members
  rw [put_session, Function.update_apply]
  split <;> rfl

theorem nextMemberId_put (s : State) (c d : Nat) (x : AnySession) :
    (s.put c x).nextMemberId d = if d = c then x.nextMemberId else s.nextMemberId d := by
  unfold nextMemberId
  rw [put_session, Function.update_apply]
  split <;> rfl

theorem Rig.inj {w : String} (h : s.Rig r worker) (h' : s.Rig r w) : w = worker := by
  have heq := h'.1.symm.trans h.1
  rw [Option.some.injEq, Prod.mk.injEq] at heq
  exact heq.2

/-- A session that somebody works on is registered. -/
theorem Sound.rig_of_works (h : Sound s) (hworks : (s.handler c).works? = some r) :
    ∃ worker, s.Rig r worker := by
  have hstands := h.stands c
  generalize s.handler c = hd at hworks hstands
  cases hd <;> cases hworks
  · exact ⟨_, hstands.2⟩
  · exact hstands
  · exact hstands
  · exact ⟨_, hstands⟩
  · exact ⟨_, hstands⟩

/-- A rig that somebody works on, or that its worker has, is past its first phase. -/
theorem Manned.published (h : Manned s) (hrig : s.Rig r worker) (hrigs : s.rigs worker = some r) :
    s.Published r worker := by
  rcases h.phase r worker hrig with hun | hpub | halone | hoff
  · exact absurd hrigs hun.rigs
  · exact hpub
  · exact absurd hrigs halone.rigs
  · exact absurd hrigs hoff.rigs

theorem Manned.unpublished (h : Manned s) (hrig : s.Rig r worker)
    (hhandler : s.handler r = .registered worker) : s.Unpublished r worker := by
  rcases h.phase r worker hrig with hun | hpub | halone | hoff
  · exact hun
  · exact absurd hhandler hpub.handler
  · cases hhandler.symm.trans halone.handler
  · have hfirst := (h.first r worker (Or.inr hhandler)).1
    rw [hoff.members] at hfirst
    cases hfirst

/-! ## The parts of a step -/

/-- A step that changes none of what is at stake. -/
theorem Manned.of_eq (h : Manned s) (hhandler : s'.handler = s.handler) (hrigs : s'.rigs = s.rigs)
    (hreaper : s'.reaper = s.reaper) (htorn : s'.torn = s.torn) (hmembers : s'.members = s.members)
    (hnext : s'.nextMemberId = s.nextMemberId)
    (hrig : ∀ r worker, s'.Rig r worker → s.Rig r worker) : Manned s' where
  serving := by rw [hhandler, hmembers, hnext]; exact h.serving
  unique := by rw [hhandler]; exact h.unique
  first := by rw [hhandler, hmembers, hnext]; exact h.first
  found := by rw [hhandler, hrigs]; exact h.found
  phase r worker hr := (h.phase r worker (hrig r worker hr)).keep (congrFun hhandler r)
    (congrFun hmembers r) (by rw [hrigs]) fun d hd => Or.inl (hhandler ▸ hd)
  torn r worker hr hin := (h.torn r worker (hrig r worker hr) (htorn ▸ hin)).congr
    (congrFun hmembers r) (congrFun hrigs worker)
  removing c r worker hc := (h.removing c r worker (hhandler ▸ hc)).congr
    (congrFun hmembers r) (congrFun hrigs worker)
  expired := by rw [hreaper, hmembers]; exact h.expired
  unlisted k p hk hp := (h.unlisted k p (hreaper ▸ hk) hp).congr
    (congrFun hmembers p.rig) (congrFun hrigs p.worker)

/-- What the handlers are after one has moved on. -/
theorem goto_cases {hd hd' : Handler} (h : (s.goto c hd).handler d = hd') :
    (d = c ∧ hd = hd') ∨ (d ≠ c ∧ s.handler d = hd') := by
  rw [goto_handler, Function.update_apply] at h
  split at h
  · exact Or.inl ⟨‹_›, h⟩
  · exact Or.inr ⟨‹_›, h⟩

/-- A handler is in a state that the step does not lead to: it has been in it before. -/
theorem handler_of_goto {hd hd' : Handler} (h : (s.goto c hd).handler d = hd') (hne : hd ≠ hd') :
    d ≠ c ∧ s.handler d = hd' :=
  (goto_cases h).resolve_left fun hnew => hne hnew.2

/-- No two handlers serve one member after a step that serves nobody. -/
theorem Manned.unique_goto (h : Manned s) {hd : Handler} (hserving : ∀ r m, hd ≠ .serving r m)
    {a b m : Nat} (ha : (s.goto c hd).handler a = .serving r m)
    (hb : (s.goto c hd).handler b = .serving r m) : a = b := by
  obtain ⟨_, holda⟩ := handler_of_goto ha (hserving r m)
  obtain ⟨_, holdb⟩ := handler_of_goto hb (hserving r m)
  exact h.unique a b r m holda holdb

/-- A handler moves on that has not registered a session, or has left it. -/
theorem Manned.goto (h : Manned s) {before : Handler} (hd : Handler)
    (hbefore : s.handler c = before) (hplain : before.isPlain = true)
    (hplain' : hd.isPlain = true ∨ ∃ worker, hd = .installed worker)
    (hfirst : ∀ worker, hd = .installed worker →
      s.members c = [firstMember] ∧ s.nextMemberId c = firstMember + 1)
    (hfound : ∀ worker o r, hd = .found worker o r → s.rigs worker = some r)
    (hremoving : ∀ r worker, hd = .removing r worker → s.Off r worker)
    (hworks : ∀ r worker, s.Rig r worker → hd.works? = some r →
      before.works? = some r ∨ s.rigs worker = some r) : Manned (s.goto c hd) := by
  have hserving : ∀ r m, hd ≠ .serving r m := by
    rintro r m rfl
    rcases hplain' with hplain' | ⟨_, hplain'⟩ <;> cases hplain'
  have hregistered : ∀ w, hd ≠ .registered w := by
    rintro w rfl
    rcases hplain' with hplain' | ⟨_, hplain'⟩ <;> cases hplain'
  refine ⟨?_, ?_, ?_, ?_, ?_, ?_, ?_, h.expired, ?_⟩
  · intro d r m hd'
    obtain ⟨_, hold⟩ := handler_of_goto hd' (hserving r m)
    exact h.serving d r m hold
  · intro a b r m ha hb
    exact h.unique_goto hserving ha hb
  · intro d w hd'
    rcases hd' with hd' | hd'
    · rcases goto_cases hd' with ⟨rfl, hnew⟩ | ⟨_, hold⟩
      · exact hfirst w hnew
      · exact h.first d w (Or.inl hold)
    · obtain ⟨_, hold⟩ := handler_of_goto hd' (hregistered w)
      exact h.first d w (Or.inr hold)
  · intro d w o r hd'
    rcases goto_cases hd' with ⟨_, hnew⟩ | ⟨_, hold⟩
    · exact hfound w o r hnew
    · exact h.found d w o r hold
  · intro r w hr
    by_cases hrc : r = c
    · subst hrc
      rcases h.phase r w hr with hun | hpub | halone | hoff
      · cases hbefore.symm.trans hun.handler
        cases hplain
      · refine Or.inr (Or.inl ⟨hpub.rigs, fun hreg => ?_⟩)
        obtain ⟨_, hold⟩ := handler_of_goto hreg (hregistered w)
        exact hpub.handler hold
      · cases hbefore.symm.trans halone.handler
        cases hplain
      · exact Or.inr (Or.inr (Or.inr (hoff.congr rfl rfl)))
    · refine (h.phase r w hr).keep (Function.update_of_ne hrc _ _) rfl Iff.rfl fun d hd' => ?_
      rcases @goto_cases s c d hd _ rfl with ⟨rfl, hnew⟩ | ⟨_, hold⟩
      · exact hbefore ▸ hworks r w hr (hnew ▸ hd')
      · exact Or.inl (hold ▸ hd')
  · exact fun r w hr hin => (h.torn r w hr hin).congr rfl rfl
  · intro d r w hd'
    rcases goto_cases hd' with ⟨_, hnew⟩ | ⟨_, hold⟩
    · exact (hremoving r w hnew).congr rfl rfl
    · exact (h.removing d r w hold).congr rfl rfl
  · exact fun k p hk hp => (h.unlisted k p hk hp).congr rfl rfl

/-- A session is torn down when it is off. -/
theorem Manned.delist (h : Manned s) (worker : String) (hoff : ∀ w, s.Rig r w → s.Off r w) :
    Manned (s.delist r worker) where
  serving := h.serving
  unique := h.unique
  first := h.first
  found := h.found
  phase d w hd := (h.phase d w hd).keep rfl rfl Iff.rfl fun _ => Or.inl
  torn d w hd hin := by
    rcases List.mem_cons.mp hin with rfl | hin
    · exact (hoff w hd).congr rfl rfl
    · exact (h.torn d w hd hin).congr rfl rfl
  removing c r w hc := (h.removing c r w hc).congr rfl rfl
  expired := h.expired
  unlisted k p hk hp := (h.unlisted k p hk hp).congr rfl rfl

theorem Manned.setReaper (h : Manned s) (k : Nat) (reaper : Option Reaper)
    (hexpired : ∀ p, reaper = some p → p.stage = .expired → s.members p.rig = [])
    (hunlisted : ∀ p, reaper = some p → p.stage = .unlisted → s.Off p.rig p.worker) :
    Manned (s.setReaper k reaper) where
  serving := h.serving
  unique := h.unique
  first := h.first
  found := h.found
  phase d w hd := (h.phase d w hd).keep rfl rfl Iff.rfl fun _ => Or.inl
  torn d w hd hin := (h.torn d w hd hin).congr rfl rfl
  removing c r w hc := (h.removing c r w hc).congr rfl rfl
  expired j p hj hp := by
    rw [setReaper_reaper, Function.update_apply] at hj
    split at hj
    · exact hexpired p hj hp
    · exact h.expired j p hj hp
  unlisted j p hj hp := by
    rw [setReaper_reaper, Function.update_apply] at hj
    split at hj
    · exact (hunlisted p hj hp).congr rfl rfl
    · exact (h.unlisted j p hj hp).congr rfl rfl

/-- A rig leaves `sv2_rigs` while it has no members and nobody has found it. -/
theorem Manned.removeRig (h : Manned s) (worker : String) (hempty : s.members r = [])
    (hfound : ∀ c o, s.handler c ≠ .found worker o r) : Manned (s.removeRig worker r) where
  serving := h.serving
  unique := h.unique
  first := h.first
  found d w o q hd := by
    by_cases hsame : w = worker ∧ q = r
    · obtain ⟨rfl, rfl⟩ := hsame
      exact absurd hd (hfound d o)
    · exact removeRig_rigs_of_ne (by tauto) (h.found d w o q hd)
  phase q w hq := by
    by_cases hsame : w = worker ∧ q = r
    · obtain ⟨rfl, rfl⟩ := hsame
      exact Or.inr (Or.inr (Or.inr ⟨hempty, fun hw => by simpa using (removeRig_rigs hw).1⟩))
    · exact (h.phase q w hq).keep rfl rfl
        ⟨fun hw => (removeRig_rigs hw).2, removeRig_rigs_of_ne (by tauto)⟩ fun _ => Or.inl
  torn q w hq hin := ⟨(h.torn q w hq hin).members, fun hw =>
    (h.torn q w hq hin).rigs (removeRig_rigs hw).2⟩
  removing d q w hd := ⟨(h.removing d q w hd).members, fun hw =>
    (h.removing d q w hd).rigs (removeRig_rigs hw).2⟩
  expired := h.expired
  unlisted k p hk hp := ⟨(h.unlisted k p hk hp).members, fun hw =>
    (h.unlisted k p hk hp).rigs (removeRig_rigs hw).2⟩

/-- The members of a session that is no rig do not matter. -/
theorem Manned.put_other (h : Manned s) (hsound : Sound s) (x : AnySession)
    (hrig : ∀ w, ¬s.Rig c w) (hrig' : ∀ w, ¬(s.put c x).Rig c w)
    (hinstalled : ∀ w, s.handler c ≠ .installed w) : Manned (s.put c x) := by
  have hkept : ∀ r w, s.Rig r w → (s.put c x).members r = s.members r ∧
      (s.put c x).nextMemberId r = s.nextMemberId r := by
    intro r w hr
    have hrc : r ≠ c := fun hrc => hrig w (hrc ▸ hr)
    exact ⟨by rw [members_put, if_neg hrc], by rw [nextMemberId_put, if_neg hrc]⟩
  have hback : ∀ r w, (s.put c x).Rig r w → s.Rig r w := by
    intro r w hr
    have hrc : r ≠ c := fun hrc => hrig' w (hrc ▸ hr)
    exact ⟨((view_put s c r x).trans (if_neg hrc)).symm.trans hr.1, hr.2⟩
  refine ⟨?_, h.unique, ?_, h.found, ?_, ?_, ?_, ?_, ?_⟩
  · intro d r m hd
    obtain ⟨w, hr⟩ : ∃ w, s.Rig r w := hsound.stands_of hd
    rw [(hkept r w hr).1, (hkept r w hr).2]
    exact h.serving d r m hd
  · intro d w hd
    have hdc : d ≠ c := by
      rintro rfl
      rcases hd with hd | hd
      · exact hinstalled w hd
      · exact hrig w (hsound.stands_of hd)
    rw [members_put, if_neg hdc, nextMemberId_put, if_neg hdc]
    exact h.first d w hd
  · intro r w hr
    have hr := hback r w hr
    exact (h.phase r w hr).keep rfl (hkept r w hr).1 Iff.rfl fun _ => Or.inl
  · intro r w hr hin
    have hr := hback r w hr
    exact (h.torn r w hr hin).congr (hkept r w hr).1 rfl
  · intro d r w hd
    have hr : s.Rig r w := hsound.stands_of hd
    exact (h.removing d r w hd).congr (hkept r w hr).1 rfl
  · intro k p hk hp
    rw [(hkept p.rig p.worker (hsound.reapers k p hk)).1]
    exact h.expired k p hk hp
  · exact fun k p hk hp =>
      (h.unlisted k p hk hp).congr (hkept p.rig p.worker (hsound.reapers k p hk)).1 rfl

/-- A fresh session is registered. -/
theorem Manned.register (h : Manned s) (hsound : Sound s)
    (hhandler : s.handler c = .installed worker) :
    Manned ((s.enlist c worker).goto c (.registered worker)) := by
  obtain ⟨hview, hnot, htorn⟩ := hsound.stands_of hhandler
  have hback : ∀ r w, r ≠ c → ((s.enlist c worker).goto c (.registered worker)).Rig r w →
      s.Rig r w := fun r w hrc hr => ⟨hr.1, (List.mem_cons.mp hr.2).resolve_left hrc⟩
  have hown : ∀ w, ((s.enlist c worker).goto c (.registered worker)).Rig c w → w = worker := by
    intro w hr
    have heq := hr.1.symm.trans hview
    rw [Option.some.injEq, Prod.mk.injEq] at heq
    exact heq.2
  refine ⟨?_, ?_, ?_, ?_, ?_, ?_, ?_, h.expired, ?_⟩
  · intro d r m hd
    obtain ⟨_, hold⟩ := handler_of_goto hd (by simp)
    exact h.serving d r m hold
  · intro a b r m ha hb
    exact h.unique_goto (by simp) ha hb
  · intro d w hd
    rcases hd with hd | hd
    · obtain ⟨_, hold⟩ := handler_of_goto hd (by simp)
      exact h.first d w (Or.inl hold)
    · rcases goto_cases hd with ⟨rfl, hnew⟩ | ⟨_, hold⟩
      · exact h.first d worker (Or.inl hhandler)
      · exact h.first d w (Or.inr hold)
  · intro d w o r hd
    obtain ⟨_, hold⟩ := handler_of_goto hd (by simp)
    exact h.found d w o r hold
  · intro r w hr
    by_cases hrc : r = c
    · subst hrc
      obtain rfl := hown w hr
      refine Or.inl ⟨Function.update_self .., fun hrigs => hnot (hsound.rigs w r hrigs).2,
        fun d hd => ?_⟩
      rcases goto_cases rfl with ⟨_, hnew⟩ | ⟨_, hold⟩
      · rw [← hnew] at hd
        cases hd
      · rw [← hold] at hd
        obtain ⟨_, hrig⟩ := hsound.rig_of_works hd
        exact hnot hrig.2
    · refine (h.phase r w (hback r w hrc hr)).keep (Function.update_of_ne hrc _ _) rfl Iff.rfl
        fun d hd => ?_
      rcases goto_cases rfl with ⟨_, hnew⟩ | ⟨_, hold⟩
      · rw [← hnew] at hd
        cases hd
      · exact Or.inl (hold ▸ hd)
  · intro r w hr hin
    have hrc : r ≠ c := by
      rintro rfl
      exact htorn hin
    exact (h.torn r w (hback r w hrc hr) hin).congr rfl rfl
  · intro d r w hd
    obtain ⟨_, hold⟩ := handler_of_goto hd (by simp)
    exact (h.removing d r w hold).congr rfl rfl
  · exact fun k p hk hp => (h.unlisted k p hk hp).congr rfl rfl

/-- A registered session is published, or serves its connection alone. -/
theorem Manned.publish (h : Manned s) (hsound : Sound s)
    (hhandler : s.handler c = .registered worker) {s₁ : State}
    (hrig : s₁ = s ∨ s₁ = s.insertIfAbsent worker c) :
    Manned (s₁.goto c (.serving c firstMember)) := by
  have hown := hsound.stands_of hhandler
  have hun := h.unpublished hown hhandler
  obtain ⟨hmembers, hnext⟩ := h.first c worker (Or.inr hhandler)
  obtain ⟨hsame, hview, hauthorized, hkept, hkept', hreaper, htorn⟩ :
      s₁.handler = s.handler ∧ s₁.view = s.view ∧ s₁.authorized = s.authorized ∧
        s₁.members = s.members ∧ s₁.nextMemberId = s.nextMemberId ∧ s₁.reaper = s.reaper ∧
          s₁.torn = s.torn := by
    rcases hrig with rfl | rfl <;> exact ⟨rfl, rfl, rfl, rfl, rfl, rfl, rfl⟩
  have hrigs : ∀ w r, s.rigs w = some r → s₁.rigs w = some r := by
    intro w r hr
    rcases hrig with rfl | rfl
    · exact hr
    · exact insertIfAbsent_rigs_of_some hr
  have hrigs' : ∀ w r, r ≠ c → s₁.rigs w = some r → s.rigs w = some r := by
    intro w r hrc hr
    rcases hrig with rfl | rfl
    · exact hr
    · exact (insertIfAbsent_rigs hr).resolve_left fun hnew => hrc hnew.2.2
  have hcases : ∀ d hd, (s₁.goto c (.serving c firstMember)).handler d = hd →
      (d = c ∧ .serving c firstMember = hd) ∨ (d ≠ c ∧ s.handler d = hd) := fun d hd h =>
    hsame ▸ goto_cases h
  have hstays : ∀ {d hd}, (s₁.goto c (.serving c firstMember)).handler d = hd →
      .serving c firstMember ≠ hd → s.handler d = hd := fun h hne =>
    hsame ▸ (handler_of_goto h hne).2
  -- the session is on, so nobody takes it down
  have hon : ∀ r w, s.Off r w → r ≠ c := by
    rintro r w hoff rfl
    cases hoff.members.symm.trans hmembers
  have hoff : ∀ r w, s.Off r w → (s₁.goto c (.serving c firstMember)).Off r w := fun r w hoff =>
    ⟨(congrFun hkept r).trans hoff.members, fun hr => hoff.rigs (hrigs' w r (hon r w hoff) hr)⟩
  have hback : ∀ r w, (s₁.goto c (.serving c firstMember)).Rig r w → s.Rig r w := fun r w hr =>
    ⟨hview ▸ hr.1, hauthorized ▸ hr.2⟩
  refine ⟨?_, ?_, ?_, ?_, ?_, ?_, ?_, ?_, ?_⟩
  · intro d r m hd
    change m ∈ s₁.members r ∧ m < s₁.nextMemberId r
    rw [hkept, hkept']
    rcases hcases d _ hd with ⟨_, hnew⟩ | ⟨_, hold⟩
    · cases hnew
      rw [hmembers, hnext]
      exact ⟨List.mem_singleton_self _, Nat.lt_succ_self _⟩
    · exact h.serving d r m hold
  · intro a b r m ha hb
    rcases hcases a _ ha with ⟨rfl, hnew⟩ | ⟨_, holda⟩ <;>
      rcases hcases b _ hb with ⟨rfl, hnew'⟩ | ⟨_, holdb⟩
    · rfl
    · cases hnew
      exact absurd (congrArg Handler.works? holdb) (hun.others b)
    · cases hnew'
      exact absurd (congrArg Handler.works? holda) (hun.others a)
    · exact h.unique a b r m holda holdb
  · intro d w hd
    change s₁.members d = _ ∧ s₁.nextMemberId d = _
    rw [hkept, hkept']
    exact h.first d w (hd.imp (fun hd => hstays hd (by simp)) fun hd => hstays hd (by simp))
  · intro d w o r hd
    exact hrigs w r (h.found d w o r (hstays hd (by simp)))
  · intro r w hr
    by_cases hrc : r = c
    · subst hrc
      have hself : (s₁.goto r (.serving r firstMember)).handler r = .serving r firstMember :=
        Function.update_self ..
      by_cases hpub : s₁.rigs w = some r
      · exact Or.inr (Or.inl ⟨hpub, by rw [hself]; nofun⟩)
      · refine Or.inr (Or.inr (Or.inl ⟨hself, (congrFun hkept r).trans hmembers, hpub,
          fun d hd => ?_⟩))
        rcases hcases d _ rfl with ⟨hdr, _⟩ | ⟨_, hold⟩
        · exact hdr
        · exact absurd (hold ▸ hd) (hun.others d)
    · refine (h.phase r w (hback r w hr)).keep
        ((Function.update_of_ne hrc _ _).trans (congrFun hsame r)) (congrFun hkept r)
        ⟨hrigs' w r hrc, hrigs w r⟩ fun d hd => ?_
      rcases hcases d _ rfl with ⟨_, hnew⟩ | ⟨_, hold⟩
      · rw [← hnew] at hd
        exact absurd (Option.some.inj hd).symm hrc
      · exact Or.inl (hold ▸ hd)
  · exact fun r w hr hin => hoff r w (h.torn r w (hback r w hr) (htorn ▸ hin))
  · intro d r w hd
    exact hoff r w (h.removing d r w (hstays hd (by simp)))
  · exact fun k p hk hp => (congrFun hkept p.rig).trans (h.expired k p (hreaper ▸ hk) hp)
  · exact fun k p hk hp => hoff _ _ (h.unlisted k p (hreaper ▸ hk) hp)

/-- A member joins the rig of its worker. -/
theorem Manned.bundle (h : Manned s) (hsound : Sound s) (hgated : Gated s) {o : Opening}
    {i j : Sv2.Inner} {m : Nat} (hhandler : s.handler c = .found worker o r)
    (hsession : s.session r = some (.sv2 i)) (hattach : attachMember o.spec i = some (j, m)) :
    Manned ((s.put r (.sv2 j)).goto c (.serving r m)) := by
  obtain ⟨⟨_, hnot, _⟩, hrig⟩ := hsound.stands_of hhandler
  have hrigs := h.found c worker o r hhandler
  have hpub := h.published hrig hrigs
  have hgate := hgated.handlers c worker (hhandler ▸ rfl)
  obtain ⟨hlabel, hm, hmembers, hnext⟩ := Sv2.attachMember_eq hattach
  rw [← nextMemberId_of_session hsession] at hm hnext hmembers
  rw [← members_of_session hsession] at hmembers
  subst hm
  have hback : ∀ q w, ((s.put r (.sv2 j)).goto c (.serving r (s.nextMemberId r))).Rig q w →
      s.Rig q w := fun _ _ => rig_of_put_goto hsession hlabel
  have hkept : ∀ q, q ≠ r → (s.put r (.sv2 j)).members q = s.members q ∧
      (s.put r (.sv2 j)).nextMemberId q = s.nextMemberId q := fun q hq =>
    ⟨by rw [members_put, if_neg hq], by rw [nextMemberId_put, if_neg hq]⟩
  have hjoined : (s.put r (.sv2 j)).members r = s.members r ++ [s.nextMemberId r] ∧
      (s.put r (.sv2 j)).nextMemberId r = s.nextMemberId r + 1 :=
    ⟨by rw [members_put, if_pos rfl]; exact hmembers,
      by rw [nextMemberId_put, if_pos rfl]; exact hnext⟩
  -- the rig is published, so it is not off
  have hoff : ∀ q w, s.Rig q w → s.Off q w →
      ((s.put r (.sv2 j)).goto c (.serving r (s.nextMemberId r))).Off q w := by
    intro q w hq hoff
    have hqr : q ≠ r := by
      rintro rfl
      obtain rfl := hrig.inj hq
      exact hoff.rigs hrigs
    exact hoff.congr (hkept q hqr).1 rfl
  refine ⟨?_, ?_, ?_, ?_, ?_, ?_, ?_, ?_, ?_⟩
  · intro d q n hd
    change n ∈ (s.put r (.sv2 j)).members q ∧ n < (s.put r (.sv2 j)).nextMemberId q
    rcases goto_cases hd with ⟨_, hnew⟩ | ⟨_, hold⟩
    · cases hnew
      rw [hjoined.1, hjoined.2]
      exact ⟨List.mem_append_right _ List.mem_cons_self, Nat.lt_succ_self _⟩
    · obtain ⟨hin, hlt⟩ := h.serving d q n hold
      by_cases hqr : q = r
      · subst hqr
        rw [hjoined.1, hjoined.2]
        exact ⟨List.mem_append_left _ hin, by omega⟩
      · rw [(hkept q hqr).1, (hkept q hqr).2]
        exact ⟨hin, hlt⟩
  · intro a b q n ha hb
    rcases goto_cases ha with ⟨rfl, hnew⟩ | ⟨_, holda⟩ <;>
      rcases goto_cases hb with ⟨rfl, hnew'⟩ | ⟨_, holdb⟩
    · rfl
    · cases hnew
      have hlt := (h.serving b _ _ holdb).2
      omega
    · cases hnew'
      have hlt := (h.serving a _ _ holda).2
      omega
    · exact h.unique a b q n holda holdb
  · intro d w hd
    have hold : s.handler d = .installed w ∨ s.handler d = .registered w :=
      hd.imp (fun hd => (handler_of_goto hd (by simp)).2)
        fun hd => (handler_of_goto hd (by simp)).2
    have hdr : d ≠ r := by
      rintro rfl
      rcases hold with hold | hold
      · exact (hsound.stands_of hold).2.1 hrig.2
      · obtain rfl := hrig.inj (hsound.stands_of hold)
        exact hpub.handler hold
    change (s.put r (.sv2 j)).members d = _ ∧ (s.put r (.sv2 j)).nextMemberId d = _
    rw [(hkept d hdr).1, (hkept d hdr).2]
    exact h.first d w hold
  · intro d w o q hd
    obtain ⟨_, hold⟩ := handler_of_goto hd (by simp)
    exact h.found d w o q hold
  · intro q w hq'
    have hq := hback q w hq'
    have hqc : q ≠ c := by
      rintro rfl
      exact hnot hq.2
    by_cases hqr : q = r
    · subst hqr
      obtain rfl := hrig.inj hq
      refine Or.inr (Or.inl ⟨hrigs, fun hreg => hpub.handler ?_⟩)
      exact (Function.update_of_ne hqc _ _).symm.trans hreg
    · refine (h.phase q w hq).keep (Function.update_of_ne hqc _ _) (hkept q hqr).1 Iff.rfl
        fun d hd => ?_
      rcases @goto_cases (s.put r (.sv2 j)) c d _ _ rfl with ⟨_, hnew⟩ | ⟨_, hold⟩
      · rw [← hnew] at hd
        exact absurd (Option.some.inj hd).symm hqr
      · exact Or.inl (hold ▸ hd)
  · exact fun q w hq hin => hoff q w (hback q w hq) (h.torn q w (hback q w hq) hin)
  · intro d q w hd
    obtain ⟨_, hold⟩ := handler_of_goto hd (by simp)
    exact hoff q w (hsound.stands_of hold) (h.removing d q w hold)
  · -- a reaper that holds the gate works on another rig
    intro k p hk hp
    have hpr : p.rig ≠ r := by
      intro hpr
      have hworker := hrig.inj (hpr ▸ hsound.reapers k p hk)
      have hheld := hgated.reapers k p hk (by rw [hp]; nofun)
      rw [hworker, hgate] at hheld
      cases hheld
    exact (hkept p.rig hpr).1.trans (h.expired k p hk hp)
  · exact fun k p hk hp => hoff p.rig p.worker (hsound.reapers k p hk) (h.unlisted k p hk hp)

/-- The phase of a session after a member of `r` has left.  A session that was alone is off. -/
theorem Phase.leave {q m : Nat} {w : String} (h : s.Phase q w)
    (hserving : s.handler c = .serving r m) (hhandler : q ≠ c → s'.handler q = s.handler q)
    (hregistered : s'.handler q = .registered w → s.handler q = .registered w)
    (hrigs : s'.rigs = s.rigs) (hkept : q ≠ r → s'.members q = s.members q)
    (hleft : s'.members r = (s.members r).filter fun n => decide (n ≠ m))
    (hothers : ∀ d, (s'.handler d).works? = some q → (s.handler d).works? = some q) :
    s'.Phase q w := by
  rcases h with hun | hpub | halone | hoff
  · have hqc : q ≠ c := by
      rintro rfl
      cases hun.handler.symm.trans hserving
    exact Or.inl ⟨(hhandler hqc).trans hun.handler, hrigs ▸ hun.rigs,
      fun d hd => hun.others d (hothers d hd)⟩
  · exact Or.inr (Or.inl ⟨hrigs ▸ hpub.rigs, fun hr => hpub.handler (hregistered hr)⟩)
  · by_cases hqr : q = r
    · subst hqr
      obtain rfl := halone.others c (hserving ▸ rfl)
      cases halone.handler.symm.trans hserving
      refine Or.inr (Or.inr (Or.inr ⟨hleft.trans ?_, hrigs ▸ halone.rigs⟩))
      rw [halone.members]
      simp
    · have hqc : q ≠ c := by
        rintro rfl
        cases halone.handler.symm.trans hserving
        exact hqr rfl
      exact Or.inr (Or.inr (Or.inl ⟨(hhandler hqc).trans halone.handler,
        (hkept hqr).trans halone.members, hrigs ▸ halone.rigs,
        fun d hd => halone.others d (hothers d hd)⟩))
  · refine Or.inr (Or.inr (Or.inr ⟨?_, hrigs ▸ hoff.rigs⟩))
    by_cases hqr : q = r
    · subst hqr
      rw [hleft, hoff.members]
      rfl
    · exact (hkept hqr).trans hoff.members

/-- A member leaves. -/
theorem Manned.leave (h : Manned s) (hsound : Sound s) {i j : Sv2.Inner} {m : Nat} {hd : Handler}
    (hhandler : s.handler c = .serving r m) (hsession : s.session r = some (.sv2 i))
    (hlabel : j.label = i.label) (hnext : j.nextMemberId = i.nextMemberId)
    (hmembers : j.members = i.members.filter fun n => decide (n ≠ m))
    (hdone : hd = .detached r ∨ hd = .closed) : Manned ((s.put r (.sv2 j)).goto c hd) := by
  obtain ⟨worker, hrig⟩ := hsound.stands_of hhandler
  have hworks : (s.handler c).works? = some r := hhandler ▸ rfl
  rw [← members_of_session hsession] at hmembers
  rw [← nextMemberId_of_session hsession] at hnext
  have hback : ∀ q w, ((s.put r (.sv2 j)).goto c hd).Rig q w → s.Rig q w :=
    fun _ _ => rig_of_put_goto hsession hlabel
  have hkept : ∀ q, q ≠ r → (s.put r (.sv2 j)).members q = s.members q := fun q hq => by
    rw [members_put, if_neg hq]
  have hkept' : ∀ q, (s.put r (.sv2 j)).nextMemberId q = s.nextMemberId q := fun q => by
    rw [nextMemberId_put]
    split
    · rename_i hqr
      exact hqr ▸ hnext
    · rfl
  have hleft : (s.put r (.sv2 j)).members r = (s.members r).filter fun n => decide (n ≠ m) := by
    rw [members_put, if_pos rfl]
    exact hmembers
  have hempty : ∀ q, s.members q = [] → (s.put r (.sv2 j)).members q = [] := by
    intro q hq
    by_cases hqr : q = r
    · subst hqr
      rw [hleft, hq]
      rfl
    · rw [hkept q hqr, hq]
  have hoff : ∀ q w, s.Off q w → ((s.put r (.sv2 j)).goto c hd).Off q w := fun q w hoff =>
    ⟨hempty q hoff.members, hoff.rigs⟩
  -- the handler that moves on serves nobody and works on nothing else
  have hstays : ∀ {d hd'}, ((s.put r (.sv2 j)).goto c hd).handler d = hd' → hd' ≠ .detached r →
      hd' ≠ .closed → d ≠ c ∧ s.handler d = hd' := by
    intro d hd' hd₁ hdetached hclosed
    refine handler_of_goto hd₁ ?_
    rintro rfl
    exact hdone.elim hdetached hclosed
  refine ⟨?_, ?_, ?_, ?_, ?_, ?_, ?_, ?_, ?_⟩
  · intro d q n hd'
    obtain ⟨hdc, hold⟩ := hstays hd' (by simp) (by simp)
    obtain ⟨hn, hlt⟩ := h.serving d q n hold
    refine ⟨?_, (hkept' q).symm ▸ hlt⟩
    change n ∈ (s.put r (.sv2 j)).members q
    by_cases hqr : q = r
    · subst hqr
      rw [hleft]
      refine List.mem_filter.mpr ⟨hn, decide_eq_true fun hnm => ?_⟩
      subst hnm
      exact hdc (h.unique d c q n hold hhandler)
    · rw [hkept q hqr]
      exact hn
  · intro a b q n ha hb
    obtain ⟨_, holda⟩ := hstays ha (by simp) (by simp)
    obtain ⟨_, holdb⟩ := hstays hb (by simp) (by simp)
    exact h.unique a b q n holda holdb
  · intro d w hd'
    have hold : s.handler d = .installed w ∨ s.handler d = .registered w :=
      hd'.imp (fun hd' => (hstays hd' (by simp) (by simp)).2)
        fun hd' => (hstays hd' (by simp) (by simp)).2
    have hdr : d ≠ r := by
      rintro rfl
      rcases hold with hold | hold
      · exact (hsound.stands_of hold).2.1 hrig.2
      · exact (h.unpublished (hsound.stands_of hold) hold).others c hworks
    change (s.put r (.sv2 j)).members d = _ ∧ (s.put r (.sv2 j)).nextMemberId d = _
    rw [hkept d hdr, hkept']
    exact h.first d w hold
  · intro d w o q hd'
    obtain ⟨_, hold⟩ := hstays hd' (by simp) (by simp)
    exact h.found d w o q hold
  · intro q w hq
    refine (h.phase q w (hback q w hq)).leave hhandler (fun hqc => Function.update_of_ne hqc _ _)
      (fun hreg => (hstays hreg (by simp) (by simp)).2) rfl (hkept q) hleft fun d hd' => ?_
    rcases @goto_cases (s.put r (.sv2 j)) c d hd _ rfl with ⟨rfl, hnew⟩ | ⟨_, hold⟩
    · rw [← hnew] at hd'
      rcases hdone with rfl | rfl
      · exact hworks.trans hd'
      · cases hd'
    · exact hold ▸ hd'
  · exact fun q w hq hin' => hoff q w (h.torn q w (hback q w hq) hin')
  · intro d q w hd'
    obtain ⟨_, hold⟩ := hstays hd' (by simp) (by simp)
    exact hoff q w (h.removing d q w hold)
  · exact fun k p hk hp => hempty p.rig (h.expired k p hk hp)
  · exact fun k p hk hp => hoff _ _ (h.unlisted k p hk hp)

/-- A handler that holds no session moves on. -/
theorem Manned.advance (h : Manned s) {before : Handler} (hd : Handler)
    (hbefore : s.handler c = before) (hplain : before.isPlain = true) (hplain' : hd.isPlain = true)
    (hworks : hd.works? = none) : Manned (s.goto c hd) := by
  refine h.goto _ hbefore hplain (Or.inl hplain') ?_ ?_ ?_ ?_
  · rintro w rfl
    cases hplain'
  · rintro w o r rfl
    cases hworks
  · rintro r w rfl
    cases hworks
  · exact fun r w _ hr => by cases hworks.symm.trans hr

/-- A handler whose last member has left finds out who takes the session down. -/
theorem Manned.settle (h : Manned s) {hd : Handler} (hbefore : s.handler c = .detached r)
    (hnext : hd = .resting r worker ∨ (hd = .removing r worker ∧ s.Off r worker)) :
    Manned (s.goto c hd) := by
  refine h.goto _ hbefore rfl (Or.inl ?_) (fun w hw => ?_) (fun w o q hw => ?_) (fun q w hw => ?_)
    fun q w _ hworks => Or.inl ?_ <;>
      rcases hnext with rfl | ⟨rfl, hoff⟩
  · rfl
  · rfl
  · cases hw
  · cases hw
  · cases hw
  · cases hw
  · cases hw
  · cases hw
    exact hoff
  · exact hworks
  · exact hworks

/-- A session that is no rig of its worker any more is off once its last member has left. -/
theorem Manned.off_of_detached (h : Manned s) (hrig : s.Rig r worker)
    (hhandler : s.handler c = .detached r) (hrigs : s.rigs worker ≠ some r) : s.Off r worker := by
  have hworks : (s.handler c).works? = some r := hhandler ▸ rfl
  rcases h.phase r worker hrig with hun | hpub | halone | hoff
  · exact absurd hworks (hun.others c)
  · exact absurd hpub.rigs hrigs
  · obtain rfl := halone.others c hworks
    cases hhandler.symm.trans halone.handler
  · exact hoff

theorem not_rig_of_sv1 {label : String} (hview : s.view c = some (false, label)) (w : String) :
    ¬s.Rig c w := fun hr => by cases hview.symm.trans hr.1

/-- A step keeps handlers, reapers and phases together. -/
theorem Manned.step (h : Manned s) (hsound : Sound s) (hgated : Gated s)
    (ht : Transition s e s') : Manned s' := by
  cases ht with
  | handshake i =>
    obtain ⟨hclosed, _, hnot, _⟩ := hsound.fresh s.accepted (le_refl _)
    have hput := h.put_other (c := s.accepted) hsound (.sv1 i) (fun _ hr => hnot hr.2)
      (fun _ hr => hnot hr.2) (by rw [hclosed]; nofun)
    exact (hput.advance .relaying hclosed rfl rfl rfl).of_eq rfl rfl rfl rfl rfl rfl
      fun _ _ hr => hr
  | @authorize c worker i hhandler hsession =>
    obtain ⟨⟨label, hview⟩, _⟩ := hsound.stands_of hhandler
    have hput := h.put_other (c := c) hsound (.sv1 { i with label := worker })
      (not_rig_of_sv1 hview)
      (not_rig_of_sv1 ((view_put s c c _).trans (if_pos rfl)))
      (by rw [hhandler]; nofun)
    exact hput.advance _ hhandler rfl rfl rfl
  | refuse hhandler | hangUp hhandler => exact h.advance _ hhandler rfl rfl rfl
  | @insert c worker hhandler =>
    have hview := (hsound.stands_of hhandler).1
    have hlisted : Manned (s.enlist c worker) := h.of_eq rfl rfl rfl rfl rfl rfl fun r w hr => by
      have hrc : r ≠ c := by
        rintro rfl
        cases hview.symm.trans hr.1
      exact ⟨hr.1, (List.mem_cons.mp hr.2).resolve_left hrc⟩
    exact hlisted.advance _ hhandler rfl rfl rfl
  | @deregister c i hhandler hsession =>
    obtain ⟨⟨label, hview⟩, _⟩ := hsound.stands_of hhandler
    exact (h.delist _ fun w hr => absurd hr (not_rig_of_sv1 hview w)).advance _ hhandler rfl rfl rfl
  | @openChannel worker o =>
    obtain ⟨hclosed, _, _, _⟩ := hsound.fresh s.accepted (le_refl _)
    exact (h.advance (.opening worker o) hclosed rfl rfl rfl).of_eq rfl rfl rfl rfl rfl rfl
      fun _ _ hr => hr
  | @enter c worker o hhandler hfree =>
    exact (h.advance (.gated worker o) hhandler rfl rfl rfl).of_eq rfl rfl rfl rfl rfl rfl
      fun _ _ hr => hr
  | @look c worker o r hhandler hrig =>
    refine h.goto (.found worker o r) hhandler rfl (Or.inl rfl) nofun (fun w o' q heq => ?_) nofun
      fun q w hq hworks => Or.inr ?_
    · cases heq
      exact hrig
    · cases hworks
      obtain rfl := (hsound.rigs worker r hrig).inj hq
      exact hrig
  | lookNone hhandler | standalone hhandler => exact h.advance _ hhandler rfl rfl rfl
  | @bundle c r m worker o i j hhandler hsession hattach =>
    exact (h.bundle hsound hgated hhandler hsession hattach).of_eq rfl rfl rfl rfl rfl rfl
      fun _ _ hr => hr
  | @connect c worker o reach j hhandler hfresh =>
    obtain ⟨_, hnot, _⟩ := hsound.stands_of hhandler
    obtain ⟨_, hmembers, hnext⟩ := freshSession_keeps hfresh
    have hput := h.put_other (c := c) hsound (.sv2 j) (fun _ hr => hnot hr.2)
      (fun _ hr => hnot hr.2) (by rw [hhandler]; nofun)
    refine hput.goto (.installed worker) hhandler rfl (Or.inr ⟨worker, rfl⟩)
      (fun w _ => ⟨?_, ?_⟩) (fun _ _ _ heq => by cases heq) (fun _ _ heq => by cases heq)
      fun _ _ _ hworks => by cases hworks
    · rw [members_put, if_pos rfl]
      exact hmembers
    · rw [nextMemberId_put, if_pos rfl]
      exact hnext
  | @abandon c worker o reach j hhandler =>
    have hnot := (hsound.stands_of hhandler).2.1
    have hput := h.put_other (c := c) hsound (.sv2 j) (fun _ hr => hnot hr.2)
      (fun _ hr => hnot hr.2) (by rw [hhandler]; nofun)
    exact (hput.advance .closed hhandler rfl rfl rfl).of_eq rfl rfl rfl rfl rfl rfl
      fun _ _ hr => hr
  | connectFailed hhandler =>
    exact (h.advance .closed hhandler rfl rfl rfl).of_eq rfl rfl rfl rfl rfl rfl
      fun _ _ hr => hr
  | register hhandler => exact h.register hsound hhandler
  | publish hhandler hrig =>
    exact (h.publish hsound hhandler hrig).of_eq rfl rfl rfl rfl rfl rfl fun _ _ hr => hr
  | @leave c r m i hhandler hsession =>
    refine h.leave hsound hhandler hsession rfl rfl rfl ?_
    split
    · exact Or.inl rfl
    · exact Or.inr rfl
  | @checkTarget c r i hhandler hsession hrig =>
    exact h.settle hhandler (Or.inl rfl)
  | @checkOther c r i hhandler hsession hrig =>
    obtain ⟨_, hr⟩ := hsound.stands_of hhandler
    exact h.settle hhandler
      (Or.inr ⟨rfl, h.off_of_detached (hr.of_label hsession) hhandler hrig⟩)
  | @rest c r worker hhandler =>
    have hspawned := h.setReaper s.spawned (some ⟨r, worker, s.idleToken r + 1, .asleep⟩)
      (fun p hp hstage => by cases hp; cases hstage) fun p hp hstage => by cases hp; cases hstage
    exact (hspawned.advance .closed hhandler rfl rfl rfl).of_eq rfl rfl rfl rfl rfl rfl
      fun _ _ hr => hr
  | @remove c r worker hhandler =>
    have hrig := hsound.stands_of hhandler
    have hgone := h.delist worker fun w hr => by
      obtain rfl := hrig.inj hr
      exact h.removing c r w hhandler
    exact hgone.advance _ hhandler rfl rfl rfl
  | @wake k p hreaper hstage hfree =>
    have hset := h.setReaper k (some { p with stage := .awake })
      (fun q hq hstage => by cases hq; cases hstage) fun q hq hstage => by cases hq; cases hstage
    exact hset.of_eq rfl rfl rfl rfl rfl rfl fun _ _ hr => hr
  | @giveUp k p i hreaper hstage hsession hbusy =>
    exact (h.setReaper k none nofun nofun).of_eq rfl rfl rfl rfl rfl rfl
      fun _ _ hr => hr
  | @inspect k p i hreaper hstage hsession hmembers htoken =>
    refine h.setReaper _ _ (fun q hq _ => ?_) fun q hq hstage => by cases hq; cases hstage
    cases hq
    exact (members_of_session hsession).trans hmembers
  | @unlist k p hreaper hstage =>
    have hempty := h.expired k p hreaper hstage
    have hgate := hgated.reapers k p hreaper (by rw [hstage]; nofun)
    have hgone := h.removeRig p.worker hempty fun c o hc => by
      cases hgate.symm.trans (hgated.handlers c p.worker (hc ▸ rfl))
    refine hgone.setReaper _ _ (fun q hq hstage => by cases hq; cases hstage) fun q hq _ => ?_
    cases hq
    exact ⟨hempty, fun hr => by simpa using (removeRig_rigs hr).1⟩
  | @reap k p hreaper hstage =>
    have hrig := hsound.reapers k p hreaper
    have hgone := h.delist p.worker fun w hr => by
      obtain rfl := hrig.inj hr
      exact h.unlisted k p hreaper hstage
    exact (hgone.setReaper k none nofun nofun).of_eq rfl rfl rfl rfl rfl rfl
      fun _ _ hr => hr
  | @traffic c x y hsession hkeeps =>
    have hview := view_put_same hsession hkeeps.isSv2 hkeeps.label
    refine h.of_eq rfl rfl rfl rfl (funext fun d => ?_) (funext fun d => ?_) fun r w hr =>
      ⟨hview ▸ hr.1, hr.2⟩
    · rw [members_put]
      split
      · rename_i hdc
        rw [hdc, members, hsession, hkeeps.members]
        rfl
      · rfl
    · rw [nextMemberId_put]
      split
      · rename_i hdc
        rw [hdc, nextMemberId, hsession, hkeeps.nextMemberId]
        rfl
      · rfl

end State

end Registration

end RentalProxy
