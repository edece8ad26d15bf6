import RentalProxy.Lib.Survivors
import RentalProxy.Lib.Tables
import RentalProxy.Orders
import Mathlib.Data.Prod.Lex
import Mathlib.Data.List.Sigma

/-!
# The migration to one active order

Migration `0004` ends all but the newest active order of every worker, and then creates the unique
index.  The `UPDATE` looks for a newer order in the table that it is changing.

* `OrdersTable` is the table of `0001` by rowid, and `migrate` is the migration.  A `Visit` is one
  row of the `UPDATE`, and says which of the changes before it are seen.
* `Changed` is what the `UPDATE` can do to a table, and `Changed.visit_survivors` says that each
  of its visits is a visit of `Survivors` to the active orders.
* `migrate_keeps_newest` is the result, and `migrate_oneActive` gives the index that the other
  modules rely on.
-/

namespace RentalProxy

open Survivors (Above greatest Pass)

/-! ## The table -/

/-- One row of the `orders` table of `0001`. -/
structure OrderRow where
  id : String
  worker : String
  targetUrl : String
  targetUser : String
  targetPassword : String := ""
  targetAuthority : Option String := none
  createdMs : Int
  /-- `0` when open-ended. -/
  untilMs : Int := 0
  status : OrderStatus
  deliveredWork : Rat := 0
  acceptedShares : Int := 0
  submittedShares : Int := 0
  pricePerThDay : Rat := 0
  /-- `0` when unlimited. -/
  budget : Rat := 0
deriving DecidableEq

/-- `OrderRow::into_order`, where `0005` and `0006` have added their columns. -/
def OrderRow.toOrder (r : OrderRow) : Order where
  id := r.id
  worker := r.worker
  target := ⟨r.targetUrl, r.targetUser, r.targetPassword, r.targetAuthority⟩
  createdMs := r.createdMs
  untilMs := r.untilMs
  status := r.status
  deliveredWork := r.deliveredWork
  acceptedShares := (r.acceptedShares % 2 ^ 64).toNat
  submittedShares := (r.submittedShares % 2 ^ 64).toNat
  pricePerThDay := r.pricePerThDay
  budget := r.budget

/-- The rows by rowid. -/
abbrev OrdersTable := AList fun _ : Int => OrderRow

/-- The condition of the inner `SELECT`. -/
def OrderRow.isNewer (newerId : Int) (newer : OrderRow) (rowid : Int) (row : OrderRow) : Bool :=
  decide (newer.worker = row.worker) && decide (newer.status = .active) &&
    (decide (row.createdMs < newer.createdMs) ||
      decide (newer.createdMs = row.createdMs) && decide (rowid < newerId))

namespace OrdersTable

/-- The primary key. -/
def PrimaryKey (t : OrdersTable) : Prop :=
  ∀ a b rowA rowB, t.lookup a = some rowA → t.lookup b = some rowB → rowA.id = rowB.id → a = b

/-- The rows, as the store reads them. -/
def toStore (t : OrdersTable) : OrderStore where
  rows := t.entries.map fun e => e.2.toOrder

/-! ## The migration -/

/-- One row of the `UPDATE`, and the rowids whose changes are seen there. -/
structure Visit where
  rowid : Int
  sees : Int → Bool

/-- What a visit reads under a rowid. -/
def view (original current : OrdersTable) (sees : Int → Bool) (rowid : Int) : Option OrderRow :=
  if sees rowid then current.lookup rowid else original.lookup rowid

/-- The `EXISTS` of the `UPDATE`. -/
def existsNewer (rowids : List Int) (read : Int → Option OrderRow) (rowid : Int)
    (row : OrderRow) : Bool :=
  rowids.any fun newerId =>
    match read newerId with
    | some newer => newer.isNewer newerId rowid row
    | none => false

/-- The `UPDATE` at one row. -/
def visit (original current : OrdersTable) (v : Visit) : OrdersTable :=
  match view original current v.sees v.rowid with
  | some row =>
    if row.status = .active ∧
        existsNewer original.keys (view original current v.sees) v.rowid row = true then
      current.insert v.rowid { row with status := .ended }
    else current
  | none => current

/-- The `UPDATE`. -/
def endDuplicates (t : OrdersTable) (visits : List Visit) : OrdersTable :=
  visits.foldl (visit t) t

/-- No two rows have one key in the unique index. -/
def IndexFits (t : OrdersTable) : Prop :=
  t.entries.Pairwise fun a b =>
    ¬(a.2.worker = b.2.worker ∧ a.2.status = .active ∧ b.2.status = .active)

instance (t : OrdersTable) : Decidable t.IndexFits :=
  inferInstanceAs (Decidable (t.entries.Pairwise _))

/-- `CREATE UNIQUE INDEX`.  It fails on rows that do not fit. -/
def createIndex (t : OrdersTable) : Option OrdersTable :=
  if t.IndexFits then some t else none

/-- Migration `0004`. -/
def migrate (t : OrdersTable) (visits : List Visit) : Option OrdersTable :=
  createIndex (t.endDuplicates visits)

/-! ## What it is for -/

/-- The row is an active order of the worker. -/
def ActiveOf (t : OrdersTable) (worker : String) (rowid : Int) : Prop :=
  ∃ row, t.lookup rowid = some row ∧ row.worker = worker ∧ row.status = .active

/-- When the order of a row was made, and its rowid: rows are ordered by these. -/
def age (t : OrdersTable) (rowid : Int) : Int ×ₗ Int :=
  toLex (((t.lookup rowid).map OrderRow.createdMs).getD 0, rowid)

/-- The greatest active order of the worker. -/
def Newest (t : OrdersTable) (worker : String) (rowid : Int) : Prop :=
  t.ActiveOf worker rowid ∧ ∀ other, t.ActiveOf worker other → t.age other ≤ t.age rowid

/-! ## The changes -/

variable {t current : OrdersTable} {rowid newerId : Int} {row newer : OrderRow} {worker : String}
  {sees : Int → Bool} {visits : List Visit}

/-- The status of some active rows has changed to ended. -/
def Changed (t current : OrdersTable) : Prop :=
  ∀ rowid, current.lookup rowid = t.lookup rowid ∨
    ∃ row, t.lookup rowid = some row ∧ row.status = .active ∧
      current.lookup rowid = some { row with status := .ended }

/-- The rowids of active rows. -/
def actives (read : Int → Option OrderRow) : Set Int :=
  {rowid | ∃ row, read rowid = some row ∧ row.status = .active}

/-- The worker of a row. -/
def workerOf (t : OrdersTable) (rowid : Int) : Option String :=
  (t.lookup rowid).map OrderRow.worker

theorem mem_keys_of_lookup (h : t.lookup rowid = some row) : rowid ∈ t.keys :=
  AList.mem_keys.mp (AList.lookup_isSome.mp (by rw [h]; rfl))

theorem Changed.refl (t : OrdersTable) : Changed t t := fun _ => Or.inl rfl

/-- An active row is as it was. -/
theorem Changed.lookup_of_active (h : Changed t current) (hrow : current.lookup rowid = some row)
    (hactive : row.status = .active) : t.lookup rowid = some row := by
  rcases h rowid with hsame | ⟨old, _, _, hended⟩
  · rw [← hsame, hrow]
  · rw [hended] at hrow
    cases hrow
    cases hactive

theorem Changed.workerOf_eq (h : Changed t current) (rowid : Int) :
    workerOf current rowid = workerOf t rowid := by
  unfold workerOf
  rcases h rowid with hsame | ⟨row, hrow, _, hended⟩
  · rw [hsame]
  · rw [hended, hrow]
    rfl

/-- No row is new. -/
theorem Changed.exists_of_lookup (h : Changed t current)
    (hrow : current.lookup rowid = some row) :
    ∃ old, t.lookup rowid = some old ∧ old.id = row.id := by
  rcases h rowid with hsame | ⟨old, hold, _, hended⟩
  · exact ⟨row, by rw [← hsame, hrow], rfl⟩
  · rw [hended] at hrow
    cases hrow
    exact ⟨old, hold, rfl⟩

/-- An active row of a view is as it was. -/
theorem Changed.lookup_of_view (h : Changed t current)
    (hrow : view t current sees rowid = some row) (hactive : row.status = .active) :
    t.lookup rowid = some row := by
  unfold view at hrow
  split at hrow
  · exact h.lookup_of_active hrow hactive
  · exact hrow

/-- A view has the rows that are still active. -/
theorem Changed.actives_subset_view (h : Changed t current) (sees : Int → Bool) :
    actives (current.lookup ·) ⊆ actives (view t current sees) := by
  rintro rowid ⟨row, hrow, hactive⟩
  refine ⟨row, ?_, hactive⟩
  unfold view
  split
  · exact hrow
  · exact h.lookup_of_active hrow hactive

theorem Changed.actives_view_subset (h : Changed t current) (sees : Int → Bool) :
    actives (view t current sees) ⊆ actives (t.lookup ·) := fun _ ⟨row, hrow, hactive⟩ =>
  ⟨row, h.lookup_of_view hrow hactive, hactive⟩

/-- The condition of the inner `SELECT`, by the age of the rows. -/
theorem isNewer_iff (hnewer : t.lookup newerId = some newer) (hrow : t.lookup rowid = some row) :
    newer.isNewer newerId rowid row = true ↔
      newer.status = .active ∧ Above t.workerOf t.age newerId rowid := by
  simp only [OrderRow.isNewer, Above, workerOf, age, hnewer, hrow, Option.map_some,
    Option.getD_some, Prod.Lex.toLex_lt_toLex, Bool.and_eq_true, Bool.or_eq_true,
    decide_eq_true_eq, Option.some.injEq, eq_comm (a := newer.createdMs)]
  tauto

/-- What the `EXISTS` of the `UPDATE` finds. -/
theorem Changed.existsNewer_iff (h : Changed t current)
    (hrow : t.lookup rowid = some row) :
    existsNewer t.keys (view t current sees) rowid row = true ↔
      ∃ j ∈ actives (view t current sees), Above t.workerOf t.age j rowid := by
  rw [existsNewer, List.any_eq_true]
  constructor
  · rintro ⟨j, _, hj⟩
    split at hj
    · rename_i newer hnewer
      have hactive : newer.status = .active := by
        simp only [OrderRow.isNewer, Bool.and_eq_true, decide_eq_true_eq] at hj
        exact hj.1.2
      exact ⟨j, ⟨newer, hnewer, hactive⟩,
        ((isNewer_iff (h.lookup_of_view hnewer hactive) hrow).mp hj).2⟩
    · cases hj
  · rintro ⟨j, ⟨newer, hnewer, hactive⟩, habove⟩
    have hold := h.lookup_of_view hnewer hactive
    refine ⟨j, mem_keys_of_lookup hold, ?_⟩
    rw [hnewer]
    exact (isNewer_iff hold hrow).mpr ⟨hactive, habove⟩

/-! ## A visit -/

theorem actives_insert_ended (current : OrdersTable) (rowid : Int) (row : OrderRow) :
    actives ((current.insert rowid { row with status := .ended }).lookup ·) =
      actives (current.lookup ·) \ {rowid} := by
  ext j
  by_cases hj : j = rowid
  · subst hj
    simp [actives]
  · simp [actives, AList.lookup_insert_ne hj, hj]

theorem Changed.visit (h : Changed t current) (v : Visit) :
    Changed t (OrdersTable.visit t current v) := by
  unfold OrdersTable.visit
  split
  · rename_i row hrow
    split_ifs with hends
    · intro j
      by_cases hj : j = v.rowid
      · subst hj
        right
        exact ⟨row, h.lookup_of_view hrow hends.1, hends.1, AList.lookup_insert _⟩
      · rw [AList.lookup_insert_ne hj]
        exact h j
    · exact h
  · exact h

/-- A row of the `UPDATE` is a visit to the active orders, which looks at its view of them. -/
theorem Changed.visit_survivors (h : Changed t current) (v : Visit) :
    Survivors.Visit t.workerOf t.age (actives (t.lookup ·)) v.rowid (actives (current.lookup ·))
      (actives ((OrdersTable.visit t current v).lookup ·)) := by
  have hs := h.actives_subset_view v.sees
  have hview := h.actives_view_subset v.sees
  unfold OrdersTable.visit
  split
  · rename_i row hrow
    split_ifs with hends
    · rw [actives_insert_ended]
      refine .out hs hview ⟨row, hrow, hends.1⟩ ?_
      exact (h.existsNewer_iff (h.lookup_of_view hrow hends.1)).mp hends.2
    · refine .stay hs hview fun ⟨same, hsame, hactive⟩ j hj habove => hends ?_
      rw [hrow] at hsame
      cases hsame
      exact ⟨hactive, (h.existsNewer_iff (h.lookup_of_view hrow hactive)).mpr ⟨j, hj, habove⟩⟩
  · rename_i hnone
    refine .stay hs hview fun ⟨same, hsame, _⟩ => ?_
    rw [hnone] at hsame
    cases hsame

/-! ## The whole `UPDATE` -/

theorem Changed.foldl (h : Changed t current) (visits : List Visit) :
    Changed t (visits.foldl (OrdersTable.visit t) current) := by
  induction visits generalizing current with
  | nil => exact h
  | cons v visits ih => exact ih (h.visit v)

theorem changed_endDuplicates (t : OrdersTable) (visits : List Visit) :
    Changed t (t.endDuplicates visits) := (Changed.refl t).foldl visits

theorem Changed.pass (h : Changed t current) (visits : List Visit) :
    Pass t.workerOf t.age (actives (t.lookup ·)) (visits.map Visit.rowid)
      (actives (current.lookup ·))
      (actives ((visits.foldl (OrdersTable.visit t) current).lookup ·)) := by
  induction visits generalizing current with
  | nil => exact .nil _
  | cons v visits ih => exact .cons (h.visit_survivors v) (ih (h.visit v))

theorem finite_actives (t : OrdersTable) : (actives (t.lookup ·)).Finite := by
  refine t.keys.finite_toSet.subset ?_
  rintro rowid ⟨row, (hrow : t.lookup rowid = some row), _⟩
  exact mem_keys_of_lookup hrow

theorem age_injective (t : OrdersTable) : Function.Injective t.age := fun _ _ h =>
  congrArg (fun a => (ofLex a).2) h

theorem activeOf_iff :
    t.ActiveOf worker rowid ↔ rowid ∈ actives (t.lookup ·) ∧ t.workerOf rowid = some worker := by
  constructor
  · rintro ⟨row, hrow, rfl, hactive⟩
    exact ⟨⟨row, hrow, hactive⟩, by rw [workerOf, hrow]; rfl⟩
  · rintro ⟨⟨row, (hrow : t.lookup rowid = some row), hactive⟩, hworker⟩
    rw [workerOf, hrow] at hworker
    exact ⟨row, hrow, Option.some.inj hworker, hactive⟩

theorem newest_iff : t.Newest worker rowid ↔
    rowid ∈ greatest t.workerOf t.age (actives (t.lookup ·)) ∧
      t.workerOf rowid = some worker := by
  simp only [Newest, activeOf_iff, greatest, Above, Set.mem_ofPred_eq]
  constructor
  · rintro ⟨⟨hactive, hworker⟩, hmax⟩
    refine ⟨⟨hactive, fun j hj habove => ?_⟩, hworker⟩
    exact absurd habove.2 (hmax j ⟨hj, habove.1.trans hworker⟩).not_gt
  · rintro ⟨⟨hactive, hmax⟩, hworker⟩
    refine ⟨⟨hactive, hworker⟩, fun j hj => not_lt.mp fun hlt => ?_⟩
    exact hmax j hj.1 ⟨hj.2.trans hworker.symm, hlt⟩

/-- The active orders are visited. -/
def Visits (t : OrdersTable) (visits : List Visit) : Prop :=
  ∀ rowid ∈ actives (t.lookup ·), rowid ∈ visits.map Visit.rowid

/-- A scan of the table visits them. -/
theorem visits_of_keys (h : ∀ rowid ∈ t.keys, rowid ∈ visits.map Visit.rowid) :
    t.Visits visits := by
  rintro rowid ⟨row, (hrow : t.lookup rowid = some row), _⟩
  exact h rowid (mem_keys_of_lookup hrow)

/-- The active orders after the `UPDATE`. -/
theorem activeOf_endDuplicates (hvisits : t.Visits visits) :
    (t.endDuplicates visits).ActiveOf worker rowid ↔ t.Newest worker rowid := by
  rw [activeOf_iff, newest_iff, (changed_endDuplicates t visits).workerOf_eq,
    ← ((Changed.refl t).pass visits).eq_greatest (finite_actives t) hvisits]
  rfl

/-- A row that is not the newest of active ones is ended, and nothing else of it changes. -/
theorem lookup_endDuplicates_ended (hvisits : t.Visits visits) (hrow : t.lookup rowid = some row)
    (hactive : row.status = .active) (hnot : ¬t.Newest row.worker rowid) :
    (t.endDuplicates visits).lookup rowid = some { row with status := .ended } := by
  rcases changed_endDuplicates t visits rowid with hsame | ⟨old, hold, _, hended⟩
  · rw [hrow] at hsame
    exact absurd ((activeOf_endDuplicates hvisits).mp ⟨row, hsame, rfl, hactive⟩) hnot
  · rw [hrow] at hold
    cases hold
    exact hended

/-- Every other row stays as it is. -/
theorem lookup_endDuplicates_same (hvisits : t.Visits visits)
    (hkeep : ∀ row, t.lookup rowid = some row → row.status = .active →
      t.Newest row.worker rowid) :
    (t.endDuplicates visits).lookup rowid = t.lookup rowid := by
  rcases changed_endDuplicates t visits rowid with hsame | ⟨row, hrow, hactive, hended⟩
  · exact hsame
  · obtain ⟨after, hafter, _, hstill⟩ :=
      (activeOf_endDuplicates hvisits).mpr (hkeep row hrow hactive)
    rw [hended] at hafter
    cases hafter
    cases hstill

/-- Two newest orders of a worker are one. -/
theorem Newest.unique {other : Int} (h : t.Newest worker rowid) (h' : t.Newest worker other) :
    rowid = other := by
  obtain ⟨hgreatest, hworker⟩ := newest_iff.mp h
  obtain ⟨hgreatest', hworker'⟩ := newest_iff.mp h'
  exact Survivors.eq_of_greatest t.age_injective hgreatest hgreatest' (hworker.trans hworker'.symm)

/-- A worker with an active order has a newest one. -/
theorem ActiveOf.exists_newest (h : t.ActiveOf worker rowid) :
    ∃ newest, t.Newest worker newest := by
  obtain ⟨hactive, hworker⟩ := activeOf_iff.mp h
  obtain ⟨m, hm, hmworker⟩ : ∃ m ∈ greatest t.workerOf t.age (actives (t.lookup ·)),
      t.workerOf m = t.workerOf rowid := Survivors.exists_greatest (finite_actives t) hactive
  exact ⟨m, newest_iff.mpr ⟨hm, hmworker.trans hworker⟩⟩

/-- The index fits where every worker has one active row. -/
theorem indexFits_of_unique (h : ∀ worker rowid other, t.ActiveOf worker rowid →
    t.ActiveOf worker other → rowid = other) : t.IndexFits := by
  refine (List.nodupKeys_iff_pairwise.mp t.nodupKeys).imp_of_mem ?_
  rintro ⟨a, rowA⟩ ⟨b, rowB⟩ ha hb hne ⟨hworker, hactiveA, hactiveB⟩
  exact hne (h rowB.worker a b ⟨rowA, AList.mem_lookup_iff.mpr ha, hworker, hactiveA⟩
    ⟨rowB, AList.mem_lookup_iff.mpr hb, rfl, hactiveB⟩)

theorem indexFits_endDuplicates (hvisits : t.Visits visits) :
    (t.endDuplicates visits).IndexFits := by
  refine indexFits_of_unique fun worker rowid other ha hb => ?_
  exact ((activeOf_endDuplicates hvisits).mp ha).unique ((activeOf_endDuplicates hvisits).mp hb)

theorem migrate_eq (hvisits : t.Visits visits) :
    t.migrate visits = some (t.endDuplicates visits) := by
  rw [migrate, createIndex, if_pos (indexFits_endDuplicates hvisits)]

/-! ## The result -/

/-- The migration succeeds, whatever order the rows are visited in and whatever is seen of the
changes.  Each worker with an active order keeps the newest one, the other active orders are
ended, and nothing else changes. -/
theorem migrate_keeps_newest (t : OrdersTable) (visits : List Visit) (hvisits : t.Visits visits) :
    ∃ migrated, t.migrate visits = some migrated ∧
      (∀ worker rowid, t.ActiveOf worker rowid → ∃ newest, t.Newest worker newest ∧
        ∀ other, migrated.ActiveOf worker other ↔ other = newest) ∧
      (∀ rowid row, t.lookup rowid = some row → row.status = .active →
        ¬t.Newest row.worker rowid →
        migrated.lookup rowid = some { row with status := .ended }) ∧
      (∀ rowid, (∀ row, t.lookup rowid = some row → row.status = .active →
        t.Newest row.worker rowid) → migrated.lookup rowid = t.lookup rowid) := by
  refine ⟨t.endDuplicates visits, migrate_eq hvisits, ?_, ?_, ?_⟩
  · intro worker rowid hactive
    obtain ⟨newest, hnewest⟩ := hactive.exists_newest
    refine ⟨newest, hnewest, fun other => ?_⟩
    rw [activeOf_endDuplicates hvisits]
    constructor
    · intro hother
      exact hother.unique hnewest
    · rintro rfl
      exact hnewest
  · exact fun rowid row => lookup_endDuplicates_ended hvisits
  · exact fun rowid => lookup_endDuplicates_same hvisits

/-- Two orders of one worker made at the same time, one of it that has ended, and one of another
worker. -/
def tied : OrdersTable :=
  List.toAList [⟨1, row "o1" "a" 5 .active⟩, ⟨2, row "o2" "a" 5 .active⟩,
    ⟨3, row "o3" "a" 9 .ended⟩, ⟨4, row "o4" "b" 1 .active⟩]
where
  row (id worker : String) (createdMs : Int) (status : OrderStatus) : OrderRow :=
    { id, worker, targetUrl := "pool:1", targetUser := "buyer", createdMs, status }

/-- The rows from the last one on, where the first ones see no change and the others all. -/
def backwards : List Visit :=
  [4, 3, 2, 1].map fun rowid => { rowid, sees := fun _ => decide (rowid ≤ 2) }

theorem migrate_keeps_newest_of_tied :
    ((tied.migrate backwards).map fun m => [1, 2, 3, 4].map fun rowid =>
      (m.lookup rowid).map OrderRow.status) =
        some [some .ended, some .active, some .ended, some .active] ∧
    ∃ migrated newest, tied.migrate backwards = some migrated ∧ tied.Newest "a" newest ∧
      ∀ other, migrated.ActiveOf "a" other ↔ other = newest := by
  refine ⟨by decide +kernel, ?_⟩
  obtain ⟨migrated, hmigrate, hkeeps, _⟩ :=
    migrate_keeps_newest tied backwards (visits_of_keys (by decide))
  obtain ⟨newest, hnewest, honly⟩ := hkeeps "a" 1 ⟨_, rfl, rfl, rfl⟩
  exact ⟨migrated, newest, hmigrate, hnewest, honly⟩

/-! ## The index of the store -/

/-- After the migration the store has the index that its statements keep. -/
theorem migrate_oneActive (hid : t.PrimaryKey) (hvisits : t.Visits visits)
    (h : t.migrate visits = some current) : current.toStore.OneActive := by
  rw [migrate_eq hvisits] at h
  cases h
  have hchanged := changed_endDuplicates t visits
  rw [OrderStore.OneActive, toStore, List.pairwise_map]
  refine ((List.nodupKeys_iff_pairwise.mp (AList.nodupKeys _)).and
    (indexFits_endDuplicates hvisits)).imp_of_mem ?_
  rintro ⟨a, rowA⟩ ⟨b, rowB⟩ ha hb ⟨hne, hfits⟩
  refine ⟨fun hsame => hne ?_, hfits⟩
  obtain ⟨oldA, hA, hidA⟩ := hchanged.exists_of_lookup (AList.mem_lookup_iff.mpr ha)
  obtain ⟨oldB, hB, hidB⟩ := hchanged.exists_of_lookup (AList.mem_lookup_iff.mpr hb)
  exact hid a b oldA oldB hA hB (hidA.trans (hsame.trans hidB.symm))

end OrdersTable

end RentalProxy
