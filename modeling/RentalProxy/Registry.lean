import RentalProxy.Session
import RentalProxy.Lib.Tables
import Mathlib.Algebra.BigOperators.Group.Finset.Basic

/-!
# The registry of live sessions

`registry.rs` maps a worker to the sessions that mine under its name.  The status of a worker sums
over them, so a session that is listed twice, or left behind, counts as hashrate that is not there.

* `Registry` is the table.  Sessions are told apart by an id, as `ptr_eq` does.
* `aggregate` is the sum, and `Registry.aggregatedStatus_sumsOver` says what it sums when every
  session is listed once.
-/

namespace RentalProxy

/-! ## The status of a rig -/

/-- The API's view of a session, or of a rig. -/
structure SessionStatus where
  worker : String
  routing : String
  orderId : Option String
  upstreamUrl : String
  hashrateHs : Rat
  deliveredWork : Rat
  acceptedShares : Nat
  submittedShares : Nat
  acceptRatio : Rat
  acceptRatioLow : Bool
  protocol : String

/-- The statuses of the sessions of a rig as one.  It reads as rented when one of them does. -/
def aggregate (parts : List SessionStatus) : Option SessionStatus :=
  let leadIdx := (parts.findIdx? fun p => decide (p.routing = "rented")).getD 0
  let acceptedShares := (parts.map SessionStatus.acceptedShares).sum
  let submittedShares := (parts.map SessionStatus.submittedShares).sum
  parts[leadIdx]?.map fun lead => { lead with
    hashrateHs := (parts.map SessionStatus.hashrateHs).sum
    deliveredWork := (parts.map SessionStatus.deliveredWork).sum
    acceptedShares
    submittedShares
    acceptRatio := acceptRatio acceptedShares submittedShares
    acceptRatioLow := acceptRatioLow acceptedShares submittedShares }

/-- The metrics of the rig are those of the sessions, each counted once. -/
structure SessionStatus.SumsOver (rig : SessionStatus) (status : Nat → SessionStatus)
    (sessions : Finset Nat) : Prop where
  hashrateHs : rig.hashrateHs = ∑ c ∈ sessions, (status c).hashrateHs
  deliveredWork : rig.deliveredWork = ∑ c ∈ sessions, (status c).deliveredWork
  acceptedShares : rig.acceptedShares = ∑ c ∈ sessions, (status c).acceptedShares
  submittedShares : rig.submittedShares = ∑ c ∈ sessions, (status c).submittedShares

theorem aggregate_eq_none {parts : List SessionStatus} : aggregate parts = none ↔ parts = [] := by
  unfold aggregate
  dsimp only
  rw [Option.map_eq_none_iff, List.getElem?_eq_none_iff]
  constructor
  · intro h
    by_contra hne
    have hpos := List.length_pos_of_ne_nil hne
    cases hlead : parts.findIdx? fun p => decide (p.routing = "rented") with
    | none => simp only [hlead, Option.getD_none] at h; omega
    | some n =>
      have hlt := (List.findIdx?_eq_some_iff_getElem.mp hlead).1
      simp only [hlead, Option.getD_some] at h
      omega
  · rintro rfl
    simp

/-- Sessions that are listed once are counted once. -/
theorem aggregate_sumsOver {status : Nat → SessionStatus} {sessions : List Nat}
    {rig : SessionStatus} (hnodup : sessions.Nodup)
    (h : aggregate (sessions.map status) = some rig) : rig.SumsOver status sessions.toFinset := by
  obtain ⟨lead, _, rfl⟩ := Option.map_eq_some_iff.mp h
  constructor <;> rw [List.sum_toFinset _ hnodup] <;> exact congrArg List.sum List.map_map

/-! ## The table -/

/-- The sessions of each worker. -/
structure Registry where
  inner : AList fun _ : String => List Nat
  /-- The entry of a worker goes with its last session. -/
  nonempty : ∀ worker, inner.lookup worker ≠ some []

namespace Registry

def empty : Registry := ⟨∅, fun _ h => by rw [AList.lookup_empty] at h; cases h⟩

/-- `get_all`. -/
def getAll (m : Registry) (worker : String) : List Nat := (m.inner.lookup worker).getD []

/-- `insert`: a session that is there already is added once more. -/
def insert (m : Registry) (worker : String) (session : Nat) : Registry where
  inner := m.inner.insert worker (m.getAll worker ++ [session])
  nonempty w h := by
    rcases KeyedTable.lookup_insert_cases h with ⟨_, hnil⟩ | ⟨_, hold⟩
    · exact List.append_ne_nil_of_right_ne_nil _ (List.cons_ne_nil _ _) hnil.symm
    · exact m.nonempty w hold

/-- `remove_if`. -/
def removeIf (m : Registry) (worker : String) (session : Nat) : Registry where
  inner :=
    let rest := (m.getAll worker).filter fun s => decide (s ≠ session)
    if rest = [] then m.inner.erase worker else m.inner.insert worker rest
  nonempty w h := by
    dsimp only at h
    split at h
    · exact m.nonempty w (KeyedTable.lookup_of_lookup_erase h).2
    · rename_i hrest
      rcases KeyedTable.lookup_insert_cases h with ⟨_, hnil⟩ | ⟨_, hold⟩
      · exact hrest hnil.symm
      · exact m.nonempty w hold

/-- `aggregated_status`; `status` is what each session answers when it is asked. -/
def aggregatedStatus (m : Registry) (status : Nat → SessionStatus) (worker : String) :
    Option SessionStatus :=
  let sessions := m.getAll worker
  if sessions = [] then none else aggregate (sessions.map status)

@[simp] theorem getAll_empty (worker : String) : empty.getAll worker = [] := rfl

theorem getAll_insert (m : Registry) (worker w : String) (session : Nat) :
    (m.insert worker session).getAll w =
      if w = worker then m.getAll worker ++ [session] else m.getAll w := by
  unfold getAll insert
  dsimp only
  split
  · rename_i h
    rw [h, AList.lookup_insert, Option.getD_some]
    rfl
  · rename_i h
    rw [AList.lookup_insert_ne h]

theorem getAll_removeIf (m : Registry) (worker w : String) (session : Nat) :
    (m.removeIf worker session).getAll w =
      if w = worker then (m.getAll worker).filter fun s => decide (s ≠ session)
      else m.getAll w := by
  rw [getAll, removeIf]
  dsimp only
  split
  · rename_i hrest
    split
    · rename_i h
      rw [h, AList.lookup_erase, hrest, Option.getD_none]
    · rename_i h
      rw [AList.lookup_erase_ne h, getAll]
  · split
    · rename_i h
      rw [h, AList.lookup_insert, Option.getD_some]
    · rename_i h
      rw [AList.lookup_insert_ne h, getAll]

/-- How often a session is listed under a worker. -/
def occurrences (m : Registry) (session : Nat) (worker : String) : Nat :=
  (m.getAll worker).count session

@[simp] theorem occurrences_empty (session : Nat) (worker : String) :
    empty.occurrences session worker = 0 := rfl

theorem occurrences_insert (m : Registry) (worker w : String) (session c : Nat) :
    (m.insert worker session).occurrences c w =
      m.occurrences c w + if c = session ∧ w = worker then 1 else 0 := by
  unfold occurrences
  rw [getAll_insert]
  by_cases hw : w = worker
  · subst hw
    simp only [if_true, List.count_append, List.count_singleton, and_true, beq_iff_eq,
      eq_comm (a := session)]
  · simp only [hw, if_false, and_false, Nat.add_zero]

theorem occurrences_removeIf (m : Registry) (worker w : String) (session c : Nat) :
    (m.removeIf worker session).occurrences c w =
      if c = session ∧ w = worker then 0 else m.occurrences c w := by
  unfold occurrences
  rw [getAll_removeIf]
  by_cases hw : w = worker
  · subst hw
    by_cases hc : c = session
    · subst hc
      simp only [if_true, and_self]
      exact List.count_eq_zero.mpr fun h => by simp at h
    · simp only [if_true, hc, false_and, if_false]
      exact List.count_filter (by simpa using hc)
  · simp only [hw, if_false, and_false]

/-- A rig whose sessions are listed once sums each of them once. -/
theorem aggregatedStatus_sumsOver {m : Registry} {worker : String} {sessions : Finset Nat}
    (h : ∀ c, m.occurrences c worker = if c ∈ sessions then 1 else 0)
    (status : Nat → SessionStatus) :
    match m.aggregatedStatus status worker with
    | none => sessions = ∅
    | some rig => rig.SumsOver status sessions := by
  have hnodup : (m.getAll worker).Nodup := by
    refine List.nodup_iff_count_le_one.mpr fun c => ?_
    have hc := h c
    unfold occurrences at hc
    split at hc <;> omega
  have hset : (m.getAll worker).toFinset = sessions := by
    ext c
    rw [List.mem_toFinset, ← List.count_pos_iff]
    have hc := h c
    unfold occurrences at hc
    split at hc <;> simp_all
  unfold aggregatedStatus
  dsimp only
  split
  · rename_i hnone
    split at hnone
    · rename_i hnil
      rw [← hset, hnil, List.toFinset_nil]
    · rename_i hne
      exact absurd (List.map_eq_nil_iff.mp (aggregate_eq_none.mp hnone)) hne
  · rename_i rig hsome
    split at hsome
    · cases hsome
    · rw [← hset]
      exact aggregate_sumsOver hnodup hsome

end Registry

end RentalProxy
