import Mathlib.Data.Set.Finite.Lemmas

/-!
# Keeping the greatest of every group

A pass goes over a set and takes out what has a greater element of its group in the set.  It goes
in any order, and it may look for the greater element in what the set was before, or in what is
left of it, or in anything between the two.

* `greatest` is what has no greater element.  A step never takes it out (`Visit.greatest_subset`),
  so what is greatest is found wherever the pass looks, and everything below it goes.
* `Pass.eq_greatest` is the result: a pass over the whole set leaves exactly the greatest elements.
* `exists_greatest` and `eq_of_greatest`: each group has one of them, and no two where no two
  elements have one key.
-/

namespace Survivors

variable {ι G K : Type*} [LinearOrder K] {group : ι → G} {key : ι → K}
  {original s s' final : Set ι} {i j : ι} {visited : List ι}

/-- A greater element of the group. -/
def Above (group : ι → G) (key : ι → K) (j i : ι) : Prop :=
  group j = group i ∧ key i < key j

/-- What has no greater element. -/
def greatest (group : ι → G) (key : ι → K) (s : Set ι) : Set ι :=
  {i | i ∈ s ∧ ∀ j ∈ s, ¬Above group key j i}

/-- A visit to one element.  It looks at a view of the set. -/
inductive Visit (group : ι → G) (key : ι → K) (original : Set ι) (i : ι) :
    Set ι → Set ι → Prop where
  | out {s view : Set ι} (hs : s ⊆ view) (hview : view ⊆ original) (hi : i ∈ view)
      (habove : ∃ j ∈ view, Above group key j i) : Visit group key original i s (s \ {i})
  | stay {s view : Set ι} (hs : s ⊆ view) (hview : view ⊆ original)
      (hkeep : i ∈ view → ∀ j ∈ view, ¬Above group key j i) : Visit group key original i s s

/-- Visits, one after another. -/
inductive Pass (group : ι → G) (key : ι → K) (original : Set ι) :
    List ι → Set ι → Set ι → Prop where
  | nil (s : Set ι) : Pass group key original [] s s
  | cons {i : ι} {visited : List ι} {s s' final : Set ι} (hvisit : Visit group key original i s s')
      (hpass : Pass group key original visited s' final) :
      Pass group key original (i :: visited) s final

/-- Each group of a finite set has a greatest element. -/
theorem exists_greatest (hfin : s.Finite) (hi : i ∈ s) :
    ∃ m ∈ greatest group key s, group m = group i := by
  obtain ⟨m, ⟨hm, hmi⟩, hmax⟩ := Set.exists_max_image {j | j ∈ s ∧ group j = group i} key
    (hfin.subset fun j hj => hj.1) ⟨i, hi, rfl⟩
  refine ⟨m, ⟨hm, fun j hj hjm => ?_⟩, hmi⟩
  exact absurd hjm.2 (hmax j ⟨hj, hjm.1.trans hmi⟩).not_gt

/-- Where no two elements have one key, it is the only one. -/
theorem eq_of_greatest (hkey : Function.Injective key) (hi : i ∈ greatest group key s)
    (hj : j ∈ greatest group key s) (hgroup : group i = group j) : i = j := by
  have hle : key i ≤ key j := not_lt.mp fun hlt => hj.2 i hi.1 ⟨hgroup, hlt⟩
  have hge : key j ≤ key i := not_lt.mp fun hlt => hi.2 j hj.1 ⟨hgroup.symm, hlt⟩
  exact hkey (le_antisymm hle hge)

/-- In a finite set, what is not greatest has a greatest element above it. -/
theorem exists_greatest_above (hfin : s.Finite) (hi : i ∈ s) (hnot : i ∉ greatest group key s) :
    ∃ m ∈ greatest group key s, Above group key m i := by
  obtain ⟨m, hm, hmi⟩ : ∃ m ∈ greatest group key s, group m = group i := exists_greatest hfin hi
  have habove : ∃ j ∈ s, Above group key j i := by
    by_contra hnone
    exact hnot ⟨hi, fun j hj hji => hnone ⟨j, hj, hji⟩⟩
  obtain ⟨j, hj, hji⟩ := habove
  have hjm : key j ≤ key m := not_lt.mp fun hlt => hm.2 j hj ⟨hji.1.trans hmi.symm, hlt⟩
  exact ⟨m, hm, hmi, hji.2.trans_le hjm⟩

theorem Visit.subset (h : Visit group key original i s s') : s' ⊆ s := by
  cases h with
  | out => exact Set.sdiff_subset
  | stay => exact subset_rfl

/-- A visit takes nothing out that is greatest. -/
theorem Visit.greatest_subset (h : Visit group key original i s s')
    (hs : greatest group key original ⊆ s) : greatest group key original ⊆ s' := by
  cases h with
  | stay => exact hs
  | out _ hview _ habove =>
    obtain ⟨j, hj, hji⟩ := habove
    refine fun m hm => ⟨hs hm, ?_⟩
    rintro rfl
    exact hm.2 j (hview hj) hji

/-- An element that is visited stays only if it is greatest. -/
theorem Visit.mem_greatest (hfin : original.Finite) (h : Visit group key original i s s')
    (hs : greatest group key original ⊆ s) (hi : i ∈ s') : i ∈ greatest group key original := by
  cases h with
  | out => exact absurd rfl hi.2
  | stay hsview hview hkeep =>
    by_contra hnot
    obtain ⟨j, hj, hji⟩ := exists_greatest_above hfin (hview (hsview hi)) hnot
    exact hkeep (hsview hi) j (hsview (hs hj)) hji

theorem Pass.subset (h : Pass group key original visited s final) : final ⊆ s := by
  induction h with
  | nil => exact subset_rfl
  | cons hvisit _ ih => exact ih.trans hvisit.subset

theorem Pass.greatest_subset (h : Pass group key original visited s final)
    (hs : greatest group key original ⊆ s) : greatest group key original ⊆ final := by
  induction h with
  | nil => exact hs
  | cons hvisit _ ih => exact ih (hvisit.greatest_subset hs)

theorem Pass.mem_greatest (hfin : original.Finite) (h : Pass group key original visited s final)
    (hs : greatest group key original ⊆ s) (hi : i ∈ visited) (hfinal : i ∈ final) :
    i ∈ greatest group key original := by
  induction h with
  | nil => cases hi
  | cons hvisit hpass ih =>
    rcases List.mem_cons.mp hi with rfl | hrest
    · exact hvisit.mem_greatest hfin hs (hpass.subset hfinal)
    · exact ih (hvisit.greatest_subset hs) hrest hfinal

/-- A pass over the whole set leaves the greatest elements, whatever its order and its views. -/
theorem Pass.eq_greatest (hfin : original.Finite)
    (h : Pass group key original visited original final) (hall : ∀ i ∈ original, i ∈ visited) :
    final = greatest group key original := by
  have hgreatest : greatest group key original ⊆ original := fun m hm => hm.1
  refine Set.Subset.antisymm (fun i hi => ?_) (h.greatest_subset hgreatest)
  exact h.mem_greatest hfin hgreatest (hall i (h.subset hi)) hi

end Survivors
