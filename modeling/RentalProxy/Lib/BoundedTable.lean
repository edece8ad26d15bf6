import Mathlib.Data.List.AList
import Mathlib.Data.List.Dedup
import Mathlib.Data.List.Induction

/-!
# Tables that are emptied when they are full

A table with a bound on its keys that never drops a single entry: `put` empties a full table, and
then enters the new key.

* `since` are the entries since the table was last emptied, and `lookup_foldl_put` says that the
  table holds just these.
* `exists_of_lookup` reads off it that what is there is the last entry for its key, and
  `lookup_of_append` when a key that was not entered again is still there.
* `length_since_of_nodup` says when the table is emptied, if no key is entered twice.
-/

namespace BoundedTable

variable {κ β : Type*} [DecidableEq κ] (cap : Nat)

/-- Enter a key.  A table that is full is emptied first. -/
def put (t : AList fun _ : κ => β) (p : κ × β) : AList fun _ : κ => β :=
  (if cap ≤ t.keys.length then ∅ else t).insert p.1 p.2

/-- The entries since the table was last emptied. -/
def since (ps : List (κ × β)) : List (κ × β) :=
  ps.foldl (fun w p => if cap ≤ (w.map Prod.fst).dedup.length then [p] else w ++ [p]) []

/-- The last value that the entries have for a key. -/
def latest (k : κ) (ps : List (κ × β)) : Option β :=
  (ps.reverse.find? fun p => decide (p.1 = k)).map Prod.snd

variable {cap} {ps : List (κ × β)}

theorem since_append_singleton (ps : List (κ × β)) (p : κ × β) :
    since cap (ps ++ [p]) = if cap ≤ ((since cap ps).map Prod.fst).dedup.length then [p]
      else since cap ps ++ [p] := by
  rw [since, List.foldl_append]
  rfl

/-- Only entries at the front are gone. -/
theorem since_suffix (ps : List (κ × β)) : since cap ps <:+ ps := by
  induction ps using List.reverseRecOn with
  | nil => exact List.suffix_rfl
  | append_singleton ps p ih =>
    rw [since_append_singleton]
    split
    · exact List.suffix_append ps [p]
    · obtain ⟨front, hfront⟩ := ih
      exact ⟨front, by rw [← List.append_assoc, hfront]⟩

theorem latest_append_singleton (k : κ) (ps : List (κ × β)) (p : κ × β) :
    latest k (ps ++ [p]) = if p.1 = k then some p.2 else latest k ps := by
  simp only [latest, List.reverse_append, List.reverse_cons, List.reverse_nil, List.nil_append,
    List.singleton_append, List.find?_cons]
  by_cases hk : p.1 = k <;> simp [hk]

/-- The key is that of an entry. -/
theorem latest_isSome {k : κ} : (latest k ps).isSome = true ↔ k ∈ ps.map Prod.fst := by
  simp [latest]

/-- What was entered last, with no later entry for its key. -/
theorem latest_of_append {k : κ} {v : β} {before after : List (κ × β)}
    (hfresh : k ∉ after.map Prod.fst) : latest k (before ++ (k, v) :: after) = some v := by
  have hnone : after.reverse.find? (fun p => decide (p.1 = k)) = none := by
    rw [List.find?_eq_none]
    intro p hp hk
    exact hfresh (List.mem_map.mpr ⟨p, List.mem_reverse.mp hp, of_decide_eq_true hk⟩)
  simp [latest, List.find?_append, hnone]

/-- The value is that of the last entry for the key. -/
theorem exists_of_latest {k : κ} {v : β} (h : latest k ps = some v) :
    ∃ before after, ps = before ++ (k, v) :: after ∧ k ∉ after.map Prod.fst := by
  induction ps using List.reverseRecOn with
  | nil => cases h
  | append_singleton ps p ih =>
    rw [latest_append_singleton] at h
    split at h
    · rename_i hk
      refine ⟨ps, [], ?_, List.not_mem_nil⟩
      rw [← hk, ← Option.some.inj h]
    · rename_i hk
      obtain ⟨before, after, rfl, hfresh⟩ := ih h
      refine ⟨before, after ++ [p], by simp, ?_⟩
      simp only [List.map_append, List.map_cons, List.map_nil, List.mem_append,
        List.mem_singleton, not_or]
      exact ⟨hfresh, fun h => hk h.symm⟩

/-- The table holds the entries since it was last emptied. -/
theorem lookup_foldl_put (ps : List (κ × β)) (k : κ) :
    (ps.foldl (put cap) ∅).lookup k = latest k (since cap ps) := by
  induction ps using List.reverseRecOn generalizing k with
  | nil => rfl
  | append_singleton ps p ih =>
    have hkeys : (ps.foldl (put cap) ∅).keys.length =
        ((since cap ps).map Prod.fst).dedup.length := by
      refine List.Perm.length_eq ((List.perm_ext_iff_of_nodup (AList.keys_nodup _)
        (List.nodup_dedup _)).mpr fun j => ?_)
      rw [List.mem_dedup, ← latest_isSome, ← ih j, AList.lookup_isSome]
      rfl
    rw [List.foldl_append, List.foldl_cons, List.foldl_nil, put, hkeys, since_append_singleton]
    split
    · rw [show [p] = [] ++ [p] from rfl, latest_append_singleton]
      by_cases hk : p.1 = k
      · rw [if_pos hk, ← hk, AList.lookup_insert]
      · rw [if_neg hk, AList.lookup_insert_ne (fun h => hk h.symm)]
        rfl
    · rw [latest_append_singleton]
      by_cases hk : p.1 = k
      · rw [if_pos hk, ← hk, AList.lookup_insert]
      · rw [if_neg hk, AList.lookup_insert_ne (fun h => hk h.symm), ih]

/-- What the table holds is the last entry for its key. -/
theorem exists_of_lookup {k : κ} {v : β} (h : (ps.foldl (put cap) ∅).lookup k = some v) :
    ∃ before after, ps = before ++ (k, v) :: after ∧ k ∉ after.map Prod.fst := by
  rw [lookup_foldl_put] at h
  obtain ⟨before, after, hsince, hfresh⟩ := exists_of_latest h
  obtain ⟨front, hfront⟩ : since cap ps <:+ ps := since_suffix ps
  refine ⟨front ++ before, after, ?_, hfresh⟩
  rw [List.append_assoc, ← hsince, hfront]

/-- A key that was not entered again is there exactly while the entries since the table was last
emptied reach back to it. -/
theorem lookup_of_append (cap : Nat) {k : κ} {v : β} {before after : List (κ × β)}
    (hps : ps = before ++ (k, v) :: after) (hfresh : k ∉ after.map Prod.fst) :
    (ps.foldl (put cap) ∅).lookup k =
      if after.length < (since cap ps).length then some v else none := by
  have hsince : since cap ps <:+ ps := since_suffix ps
  have htail : (k, v) :: after <:+ ps := ⟨before, hps.symm⟩
  rw [lookup_foldl_put]
  split
  · rename_i hlong
    obtain ⟨front, hfront⟩ := List.suffix_of_suffix_length_le htail hsince hlong
    rw [← hfront, latest_of_append hfresh]
  · rename_i hshort
    have hafter : since cap ps <:+ after :=
      List.suffix_of_suffix_length_le hsince ((List.suffix_cons _ _).trans htail) (by omega)
    rw [← Option.not_isSome_iff_eq_none, latest_isSome]
    exact fun hmem => hfresh ((hafter.sublist.map Prod.fst).subset hmem)

/-- With keys of their own, the entries are counted in rounds of `cap`. -/
theorem length_since_of_nodup (hcap : 0 < cap) (h : (ps.map Prod.fst).Nodup) (hne : ps ≠ []) :
    (since cap ps).length = (ps.length - 1) % cap + 1 := by
  induction ps using List.reverseRecOn with
  | nil => exact absurd rfl hne
  | append_singleton ps p ih =>
    rw [List.map_append, List.nodup_append] at h
    have hdedup : ((since cap ps).map Prod.fst).dedup.length = (since cap ps).length := by
      rw [List.Nodup.dedup (h.1.sublist ((since_suffix ps).sublist.map Prod.fst)),
        List.length_map]
    rw [since_append_singleton, hdedup]
    rcases List.eq_nil_or_concat ps with rfl | ⟨qs, q, rfl⟩
    · simp [since]
    · have hlength := ih h.1 (by simp)
      simp only [List.length_append, List.length_singleton, Nat.add_sub_cancel,
        List.concat_eq_append] at hlength ⊢
      have hround := Nat.mod_lt qs.length hcap
      split
      · -- the round is over
        have hlast : qs.length + 1 = cap * (qs.length / cap + 1) := by
          rw [Nat.mul_add, Nat.mul_one]
          have := Nat.div_add_mod qs.length cap
          omega
        rw [List.length_singleton, hlast, Nat.mul_mod_right]
      · rename_i hroom
        have hnext : (qs.length + 1) % cap = qs.length % cap + 1 := by
          conv_lhs => rw [← Nat.div_add_mod qs.length cap, Nat.add_assoc, Nat.mul_add_mod]
          exact Nat.mod_eq_of_lt (by omega)
        rw [List.length_append, List.length_singleton, hlength, hnext]

end BoundedTable
