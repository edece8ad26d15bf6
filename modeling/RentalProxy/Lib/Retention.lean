import RentalProxy.Lib.BoundedTable
import Mathlib.Algebra.Order.Ring.Int
import Mathlib.Data.Int.Interval
import Mathlib.Data.List.Sort

/-!
# Tables that forget by time

The keys of the table are pairs of a name and a time.  Entries are written by the time of their key,
and now and then all entries before some time are dropped.

* `prune` drops the entries before a time, and `since` reads those of a name from a time on.
* `Retains` says that the entries from a time on are the ones written last.  `Retains.insert` and
  `Retains.prune` keep it, and `Retains.mem_since` reads it off.
* `length_le_of_aligned` bounds how many times there can be on a grid.
-/

namespace Retention

variable {ν T α : Type*} [DecidableEq ν] [LinearOrder T]

/-- The entries from `floor` on. -/
def prune (m : AList fun _ : ν × T => α) (floor : T) : AList fun _ : ν × T => α where
  entries := m.entries.filter fun e => decide (floor ≤ e.1.2)
  nodupKeys := m.nodupKeys.sublist List.filter_sublist

/-- The entries of a name from a time on, the oldest first. -/
def since (m : AList fun _ : ν × T => α) (name : ν) (floor : T) : List (T × α) :=
  ((m.entries.filter fun e => decide (e.1.1 = name) && decide (floor ≤ e.1.2)).map
    fun e => (e.1.2, e.2)).insertionSort fun a b => a.1 ≤ b.1

variable {m : AList fun _ : ν × T => α} {name : ν} {time floor : T} {a : α}

theorem lookup_prune (m : AList fun _ : ν × T => α) (name : ν) (time floor : T) :
    (prune m floor).lookup (name, time) = if floor ≤ time then m.lookup (name, time) else none := by
  refine Option.ext fun a => ?_
  have hentry : (prune m floor).lookup (name, time) = some a ↔
      ⟨(name, time), a⟩ ∈ m.entries ∧ floor ≤ time := by
    rw [← Option.mem_def, AList.mem_lookup_iff]
    show ⟨(name, time), a⟩ ∈ m.entries.filter _ ↔ _
    rw [List.mem_filter, decide_eq_true_eq]
  rw [hentry, ← AList.mem_lookup_iff, Option.mem_def]
  by_cases h : floor ≤ time <;> simp [h]

theorem mem_since : (time, a) ∈ since m name floor ↔
    floor ≤ time ∧ m.lookup (name, time) = some a := by
  rw [since, List.mem_insertionSort, List.mem_map]
  constructor
  · rintro ⟨⟨⟨n, t⟩, b⟩, hmem, heq⟩
    cases heq
    obtain ⟨hentry, htest⟩ := List.mem_filter.mp hmem
    obtain ⟨hname, hfloor⟩ := Bool.and_eq_true_iff.mp htest
    obtain rfl : n = name := of_decide_eq_true hname
    exact ⟨of_decide_eq_true hfloor, AList.mem_lookup_iff.mpr hentry⟩
  · rintro ⟨hfloor, hlookup⟩
    refine ⟨⟨(name, time), a⟩, List.mem_filter.mpr ⟨AList.mem_lookup_iff.mp hlookup, ?_⟩, rfl⟩
    simp [hfloor]

/-- The times of a name. -/
def times (m : AList fun _ : ν × T => α) (name : ν) : List T :=
  (m.entries.filter fun e => decide (e.1.1 = name)).map fun e => e.1.2

omit [LinearOrder T] in
theorem length_times (m : AList fun _ : ν × T => α) (name : ν) :
    (times m name).length = (m.entries.filter fun e => decide (e.1.1 = name)).length :=
  List.length_map _

theorem exists_of_mem_times (h : time ∈ times m name) : ∃ a, m.lookup (name, time) = some a := by
  obtain ⟨⟨⟨n, t⟩, a⟩, hmem, rfl⟩ := List.mem_map.mp h
  obtain ⟨hentry, hname⟩ := List.mem_filter.mp hmem
  obtain rfl : n = name := of_decide_eq_true hname
  exact ⟨a, AList.mem_lookup_iff.mpr hentry⟩

omit [LinearOrder T] in
/-- No time comes twice. -/
theorem times_nodup (m : AList fun _ : ν × T => α) (name : ν) : (times m name).Nodup := by
  refine List.Nodup.map_on ?_ (m.nodupKeys.nodup.filter _)
  intro x hx y hy htime
  obtain ⟨hx, hxname⟩ := List.mem_filter.mp hx
  obtain ⟨hy, hyname⟩ := List.mem_filter.mp hy
  have hname : x.1.1 = y.1.1 := by
    rw [of_decide_eq_true hxname, of_decide_eq_true hyname]
  exact m.nodupKeys.eq_of_fst_eq hx hy (Prod.ext hname htime)

/-- What is read of a name are some of its times. -/
theorem since_nodup (m : AList fun _ : ν × T => α) (name : ν) (floor : T) :
    ((since m name floor).map Prod.fst).Nodup := by
  have hperm := (List.perm_insertionSort (fun a b : T × α => a.1 ≤ b.1) ((m.entries.filter
    fun e => decide (e.1.1 = name) && decide (floor ≤ e.1.2)).map fun e => (e.1.2, e.2))).map
      Prod.fst
  refine hperm.nodup_iff.mpr (List.Nodup.sublist ?_ (times_nodup m name))
  rw [List.map_map]
  refine List.Sublist.map _ ?_
  refine List.monotone_filter_right _ fun e he => ?_
  exact (Bool.and_eq_true_iff.mp he).1

/-- The times ascend. -/
theorem since_pairwise (m : AList fun _ : ν × T => α) (name : ν) (floor : T) :
    (since m name floor).Pairwise fun a b => a.1 < b.1 := by
  have htrans : IsTrans (T × α) fun a b => a.1 ≤ b.1 := ⟨fun _ _ _ h h' => le_trans h h'⟩
  have htotal : Std.Total fun a b : T × α => a.1 ≤ b.1 := ⟨fun a b => le_total a.1 b.1⟩
  have hsorted : (since m name floor).Pairwise fun a b => a.1 ≤ b.1 :=
    List.pairwise_insertionSort _ _
  have hne : (since m name floor).Pairwise fun a b => a.1 ≠ b.1 :=
    List.pairwise_map.mp (since_nodup m name floor)
  exact (hsorted.and hne).imp fun h => lt_of_le_of_ne h.1 h.2

/-! ## What is kept -/

/-- From `floor` on, the table holds what was written last. -/
def Retains (m : AList fun _ : ν × T => α) (written : List ((ν × T) × α)) (floor : T) : Prop :=
  ∀ name time, floor ≤ time → m.lookup (name, time) = BoundedTable.latest (name, time) written

namespace Retains

variable {written : List ((ν × T) × α)}

theorem insert (h : Retains m written floor) (name : ν) (time : T) (a : α) :
    Retains (m.insert (name, time) a) (written ++ [((name, time), a)]) floor := by
  intro n t ht
  rw [BoundedTable.latest_append_singleton]
  by_cases hkey : (name, time) = (n, t)
  · rw [if_pos hkey, ← hkey, AList.lookup_insert]
  · rw [if_neg hkey, AList.lookup_insert_ne (Ne.symm hkey), h n t ht]

/-- What is dropped lies before the time that matters. -/
theorem prune {cut : T} (h : Retains m written floor) (hcut : cut ≤ floor) :
    Retains (prune m cut) written floor := by
  intro n t ht
  rw [lookup_prune, if_pos (le_trans hcut ht), h n t ht]

theorem mono {later : T} (h : Retains m written floor) (hle : floor ≤ later) :
    Retains m written later :=
  fun n t ht => h n t (le_trans hle ht)

/-- What is read from a time on is what was written last. -/
theorem mem_since (h : Retains m written floor) {start : T} (hstart : floor ≤ start) :
    (time, a) ∈ since m name start ↔
      start ≤ time ∧ BoundedTable.latest (name, time) written = some a := by
  rw [Retention.mem_since]
  constructor
  · rintro ⟨hle, hlookup⟩
    exact ⟨hle, by rw [← h name time (le_trans hstart hle), hlookup]⟩
  · rintro ⟨hle, hlatest⟩
    exact ⟨hle, by rw [h name time (le_trans hstart hle), hlatest]⟩

end Retains

/-! ## Times on a grid -/

/-- Multiples of `step` between two bounds. -/
theorem length_le_of_aligned {step low high : Int} (hstep : 0 < step) {times : List Int}
    (hnodup : times.Nodup) (h : ∀ t ∈ times, low ≤ t ∧ t ≤ high ∧ step ∣ t) :
    times.length ≤ ((high - low) / step + 1).toNat := by
  have hsub : (times.map (· / step)).toFinset ⊆ Finset.Icc (-(-low / step)) (high / step) := by
    intro q hq
    obtain ⟨t, ht, rfl⟩ := List.mem_map.mp (List.mem_toFinset.mp hq)
    obtain ⟨hlow, hhigh, hdvd⟩ := h t ht
    have hneg : -t / step = -(t / step) := Int.neg_ediv_of_dvd hdvd
    have hle : -t / step ≤ -low / step := Int.ediv_le_ediv hstep (by omega)
    refine Finset.mem_Icc.mpr ⟨by omega, Int.ediv_le_ediv hstep hhigh⟩
  have hinj : (times.map (· / step)).Nodup := by
    refine hnodup.map_on fun x hx y hy hxy => ?_
    rw [← Int.ediv_mul_cancel (h x hx).2.2, ← Int.ediv_mul_cancel (h y hy).2.2, hxy]
  have hcard := Finset.card_le_card hsub
  rw [List.toFinset_card_of_nodup hinj, List.length_map, Int.card_Icc] at hcard
  have hspan : (high / step + -low / step) * step ≤ high - low := by
    have hhigh := Int.ediv_mul_le high (Int.ne_of_gt hstep)
    have hlow := Int.ediv_mul_le (-low) (Int.ne_of_gt hstep)
    rw [Int.add_mul]
    omega
  have hquotient := Int.le_ediv_of_mul_le hstep hspan
  omega

end Retention
