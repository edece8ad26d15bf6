import Mathlib.Data.List.Forall2
import Mathlib.Data.List.Infix

/-!
# Wildcard patterns

Patterns of `LIKE`: literals, a wildcard for any one character and one for any sequence.  Two
characters are compared by `eq`, which may ignore the case.

`matches_append` is the main rule: a pattern in two parts matches what can be cut into two parts
that match.  From it, a pattern that ends with the wildcard for any sequence is a prefix test
(`matches_append_many`), and without wildcards a pattern matches what is alike
(`matches_map_lit`).
-/

namespace Like

variable {α : Type*}

/-- One place of a pattern. -/
inductive Token (α : Type*) where
  /-- Any sequence. -/
  | many
  /-- Any one character. -/
  | one
  | lit (a : α)

variable (eq : α → α → Bool)

/-- The pattern matches the text. -/
def Matches : List (Token α) → List α → Bool
  | [], s => s.isEmpty
  | .many :: ps, s => s.tails.any (Matches ps)
  | .one :: _, [] => false
  | .one :: ps, _ :: s => Matches ps s
  | .lit _ :: _, [] => false
  | .lit a :: ps, b :: s => eq a b && Matches ps s

/-- The place may stand for this one character. -/
def Token.covers : Token α → α → Bool
  | .many, _ | .one, _ => true
  | .lit a, b => eq a b

variable {eq} {ps qs : List (Token α)} {s : List α}

theorem matches_many :
    Matches eq (.many :: ps) s = true ↔
      ∃ front rest, s = front ++ rest ∧ Matches eq ps rest = true := by
  simp only [Matches, List.any_eq_true, List.mem_tails]
  constructor
  · rintro ⟨rest, ⟨front, hfront⟩, hrest⟩
    exact ⟨front, rest, hfront.symm, hrest⟩
  · rintro ⟨front, rest, rfl, hrest⟩
    exact ⟨rest, List.suffix_append front rest, hrest⟩

/-- A pattern in two parts. -/
theorem matches_append : Matches eq (ps ++ qs) s = true ↔
    ∃ front rest, s = front ++ rest ∧ Matches eq ps front = true ∧
      Matches eq qs rest = true := by
  induction ps generalizing s with
  | nil =>
    constructor
    · exact fun h => ⟨[], s, rfl, rfl, h⟩
    · rintro ⟨front, rest, rfl, hfront, hrest⟩
      rw [List.isEmpty_iff.mp hfront]
      exact hrest
  | cons p ps ih =>
    cases p with
    | many =>
      rw [List.cons_append, matches_many]
      constructor
      · rintro ⟨front, rest, rfl, hrest⟩
        obtain ⟨mid, tail, rfl, hmid, htail⟩ := ih.mp hrest
        exact ⟨front ++ mid, tail, (List.append_assoc ..).symm,
          matches_many.mpr ⟨front, mid, rfl, hmid⟩, htail⟩
      · rintro ⟨front, rest, rfl, hfront, hrest⟩
        obtain ⟨head, mid, rfl, hmid⟩ := matches_many.mp hfront
        exact ⟨head, mid ++ rest, List.append_assoc .., ih.mpr ⟨mid, rest, rfl, hmid, hrest⟩⟩
    | one =>
      cases s with
      | nil => simp [Matches]
      | cons b s =>
        rw [List.cons_append, Matches, ih]
        constructor
        · rintro ⟨front, rest, rfl, hfront, hrest⟩
          exact ⟨b :: front, rest, rfl, hfront, hrest⟩
        · rintro ⟨_ | ⟨c, front⟩, rest, heq, hfront, hrest⟩
          · cases hfront
          · cases heq
            exact ⟨front, rest, rfl, hfront, hrest⟩
    | lit a =>
      cases s with
      | nil => simp [Matches]
      | cons b s =>
        rw [List.cons_append, Matches, Bool.and_eq_true, ih]
        constructor
        · rintro ⟨heq, front, rest, rfl, hfront, hrest⟩
          exact ⟨b :: front, rest, rfl, by rw [Matches, heq, hfront]; rfl, hrest⟩
        · rintro ⟨_ | ⟨c, front⟩, rest, heq, hfront, hrest⟩
          · cases hfront
          · cases heq
            rw [Matches, Bool.and_eq_true] at hfront
            exact ⟨hfront.1, front, rest, rfl, hfront.2, hrest⟩

/-- With the wildcard for any sequence at the end, a pattern is a prefix test. -/
theorem matches_append_many : Matches eq (ps ++ [.many]) s = true ↔
    ∃ front rest, s = front ++ rest ∧ Matches eq ps front = true := by
  rw [matches_append]
  constructor
  · rintro ⟨front, rest, hs, hfront, _⟩
    exact ⟨front, rest, hs, hfront⟩
  · rintro ⟨front, rest, hs, hfront⟩
    exact ⟨front, rest, hs, hfront,
      matches_many.mpr ⟨rest, [], (List.append_nil rest).symm, rfl⟩⟩

/-- Without wildcards a pattern matches what is alike. -/
theorem matches_map_lit {l : List α} :
    Matches eq (l.map .lit) s = true ↔ List.Forall₂ (fun a b => eq a b = true) l s := by
  induction l generalizing s with
  | nil => cases s <;> simp [Matches]
  | cons a l ih => cases s <;> simp [Matches, ih]

/-- A text of the length of the pattern, each character of which its place may stand for. -/
theorem matches_of_forall₂ (h : List.Forall₂ (fun p a => p.covers eq a = true) ps s) :
    Matches eq ps s = true := by
  induction h with
  | nil => rfl
  | @cons p a ps s hcovers _ ih =>
    cases p with
    | many => exact matches_many.mpr ⟨[a], s, rfl, ih⟩
    | one => exact ih
    | lit b =>
      rw [Matches, Bool.and_eq_true]
      exact ⟨hcovers, ih⟩

end Like
