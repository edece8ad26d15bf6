import RentalProxy.FrozenRigs
import RentalProxy.Lib.Like
import RentalProxy.Text

/-!
# The rigs of a seller

`list_for_seller` hands the address of a seller to `LIKE`, as it comes from the request.  The
wildcards in it are wildcards of the pattern, and letters match in either case; so the list can
have the rigs of other sellers.

* `SellerStore.listForSeller` is the query, `OwnedBy` what its comment says of a rig.
* `Resembles` is the pattern that the address stands for, and `sqlLike_dotted` what the query
  makes of it.
* `seller_sees_own_rigs_iff` is the result: for a table and an address, and for an address with
  every table.
-/

namespace RentalProxy

open Like (Token Matches)

/-! ## The query -/

/-- The place of a pattern that a character is. -/
def likeToken (c : Char) : Token Char :=
  if c = '%' then .many else if c = '_' then .one else .lit c

/-- ASCII letters are compared without case. -/
def likeEq (a b : Char) : Bool := decide (a.toLower = b.toLower)

/-- `s LIKE pattern`. -/
def sqlLike (pattern s : String) : Bool :=
  Matches likeEq (pattern.toList.map likeToken) s.toList

/-- The rows that `SellerStore::list_for_seller` returns. -/
def SellerStore.listForSeller (s : SellerStore) (address : String) :
    List (Sigma fun _ : String => SellerRig) :=
  s.entries.filter fun e => decide (e.1 = address) || sqlLike (address ++ ".%") e.1

/-! ## The property and its condition -/

/-- The worker is the address, or starts with `address.`. -/
def OwnedBy (address worker : String) : Prop :=
  worker = address ∨ (address ++ ".").toList <+: worker.toList

instance (address : String) : DecidablePred (OwnedBy address) := fun _ =>
  inferInstanceAs (Decidable (_ ∨ _))

/-- The seller is shown his own rigs, and no others. -/
def SellerStore.ShowsOwn (s : SellerStore) (address : String) : Prop :=
  s.listForSeller address = s.entries.filter fun e => decide (OwnedBy address e.1)

/-- The address as a pattern matches the text: up to the case of letters, and up to its
wildcards. -/
def Resembles (address : String) (s : List Char) : Prop :=
  Matches likeEq (address.toList.map likeToken) s = true

/-- No worker of another seller has, in front of one of its dots, what the address resembles. -/
def SellerStore.NoLookalike (s : SellerStore) (address : String) : Prop :=
  ∀ e ∈ s.entries, ∀ front rest, e.1.toList = front ++ '.' :: rest → Resembles address front →
    OwnedBy address e.1

/-- An address without wildcards and letters. -/
def PlainAddress (address : String) : Prop :=
  ∀ c ∈ address.toList, c ≠ '%' ∧ c ≠ '_' ∧ c.isAlpha = false

/-! ## The pattern -/

theorem likeToken_covers (c : Char) : (likeToken c).covers likeEq c = true := by
  unfold likeToken
  split_ifs <;> simp [Token.covers, likeEq]

/-- Every character is covered by its own place. -/
theorem covers_self (cs : List Char) :
    List.Forall₂ (fun p a => Token.covers likeEq p a = true) (cs.map likeToken) cs := by
  rw [List.forall₂_map_left_iff, List.forall₂_same]
  exact fun c _ => likeToken_covers c

/-- An address resembles itself. -/
theorem resembles_self (address : String) : Resembles address address.toList :=
  Like.matches_of_forall₂ (covers_self _)

/-- What the query makes of the address. -/
theorem sqlLike_dotted {address worker : String} : sqlLike (address ++ ".%") worker = true ↔
    ∃ front rest, worker.toList = front ++ '.' :: rest ∧ Resembles address front := by
  have htokens : (address ++ ".%").toList.map likeToken =
      (address.toList.map likeToken ++ [.lit '.']) ++ [.many] := by
    rw [String.toList_append, List.map_append, List.append_assoc]
    rfl
  have hdot : ∀ s, Matches likeEq [.lit '.'] s = true ↔ s = ['.'] := by
    intro s
    rw [show [Token.lit '.'] = ['.'].map Token.lit from rfl, Like.matches_map_lit]
    constructor
    · rintro (_ | ⟨heq, _ | _⟩)
      rw [Text.eq_of_toLower (by decide) (of_decide_eq_true heq).symm]
      rfl
    · rintro rfl
      exact .cons (by decide) .nil
  rw [sqlLike, htokens, Like.matches_append_many]
  constructor
  · rintro ⟨front, rest, hworker, hfront⟩
    obtain ⟨name, dot, rfl, hname, hone⟩ := Like.matches_append.mp hfront
    rw [(hdot dot).mp hone] at hworker
    exact ⟨name, rest, by rw [hworker]; simp, hname⟩
  · rintro ⟨name, rest, hworker, hname⟩
    exact ⟨name ++ ['.'], rest, by rw [hworker]; simp,
      Like.matches_append.mpr ⟨name, ['.'], rfl, hname, (hdot _).mpr rfl⟩⟩

/-- The own rigs are always among those of the query. -/
theorem OwnedBy.listed {address worker : String} (h : OwnedBy address worker) :
    (decide (worker = address) || sqlLike (address ++ ".%") worker) = true := by
  rcases h with rfl | ⟨rest, hrest⟩
  · simp
  · rw [Bool.or_eq_true]
    refine Or.inr (sqlLike_dotted.mpr ⟨address.toList, rest, ?_, resembles_self address⟩)
    rw [← hrest, String.toList_append, List.append_assoc]
    rfl

/-- The list is right exactly when no worker of another seller is alike. -/
theorem SellerStore.showsOwn_iff {s : SellerStore} {address : String} :
    s.ShowsOwn address ↔ s.NoLookalike address := by
  constructor
  · intro hshows e he front rest hworker hfront
    have hlisted : e ∈ s.listForSeller address := by
      refine List.mem_filter.mpr ⟨he, ?_⟩
      rw [sqlLike_dotted.mpr ⟨front, rest, hworker, hfront⟩, Bool.or_true]
    rw [hshows] at hlisted
    exact of_decide_eq_true (List.mem_filter.mp hlisted).2
  · intro hown
    refine List.filter_congr fun e he => ?_
    by_cases howned : OwnedBy address e.1
    · rw [howned.listed, decide_eq_true howned]
    · rw [decide_eq_false howned, Bool.or_eq_false_iff, decide_eq_false_iff_not]
      refine ⟨fun heq => howned (Or.inl heq), ?_⟩
      rw [← Bool.not_eq_true, sqlLike_dotted]
      rintro ⟨front, rest, hworker, hfront⟩
      exact howned (hown e he front rest hworker hfront)

/-! ## The addresses -/

/-- A plain address resembles nothing but itself. -/
theorem PlainAddress.eq_of_resembles {address : String} (h : PlainAddress address)
    {s : List Char} (hs : Resembles address s) : s = address.toList := by
  have htokens : address.toList.map likeToken = address.toList.map .lit := by
    refine List.map_congr_left fun c hc => ?_
    obtain ⟨hmany, hone, _⟩ := h c hc
    rw [likeToken, if_neg hmany, if_neg hone]
  rw [Resembles, htokens, Like.matches_map_lit] at hs
  unfold PlainAddress at h
  generalize address.toList = cs at h hs
  induction hs with
  | nil => rfl
  | cons heq _ ih =>
    rw [List.forall_mem_cons] at h
    rw [Text.eq_of_toLower_eq h.1.2.2 (of_decide_eq_true heq), ih h.2]

theorem PlainAddress.noLookalike {address : String} (h : PlainAddress address)
    (s : SellerStore) : s.NoLookalike address := by
  intro e _ front rest hworker hfront
  right
  rw [hworker, h.eq_of_resembles hfront]
  exact ⟨rest, by rw [String.toList_append, List.append_assoc]; rfl⟩

/-- Another character that the pattern takes for this one. -/
theorem exists_other_character {c : Char} (h : c = '%' ∨ c = '_' ∨ c.isAlpha = true) :
    ∃ d, d ≠ c ∧ (likeToken c).covers likeEq d = true := by
  unfold likeToken
  split_ifs with hmany hone
  · exact ⟨'x', by rw [hmany]; decide, rfl⟩
  · exact ⟨'x', by rw [hone]; decide, rfl⟩
  · obtain ⟨d, hd, hcase⟩ := Text.exists_other_case (h.resolve_left hmany |>.resolve_left hone)
    exact ⟨d, hd, decide_eq_true hcase.symm⟩

/-- With one character changed, the address is that of another seller. -/
theorem not_ownedBy_of_changed {address worker : String} {c d : Char} {front rest : List Char}
    (haddress : address.toList = front ++ c :: rest) (hd : d ≠ c)
    (hworker : worker.toList = front ++ d :: rest ++ ['.']) : ¬OwnedBy address worker := by
  rintro (rfl | hprefix)
  · have hlength := congrArg List.length (haddress.symm.trans hworker)
    simp at hlength
  · have heq := hprefix.eq_of_length (by
      rw [String.toList_append, haddress, hworker]
      simp)
    rw [String.toList_append, haddress, hworker, List.append_assoc, List.append_assoc] at heq
    exact hd (List.cons.inj (List.append_cancel_left heq)).1.symm

/-- Every other address is right for some tables only. -/
theorem plainAddress_of_noLookalike {address : String}
    (h : ∀ s : SellerStore, s.NoLookalike address) : PlainAddress address := by
  intro c hc
  by_contra hwild
  have hother : c = '%' ∨ c = '_' ∨ c.isAlpha = true := by
    by_contra hnone
    simp only [not_or, Bool.not_eq_true] at hnone
    exact hwild hnone
  obtain ⟨d, hd, hcovers⟩ := exists_other_character hother
  obtain ⟨front, rest, haddress⟩ := List.append_of_mem hc
  have hresembles : Resembles address (front ++ d :: rest) := by
    refine Like.matches_of_forall₂ ?_
    rw [haddress, List.map_append, List.map_cons]
    exact List.rel_append (covers_self front) (.cons hcovers (covers_self rest))
  let worker := String.ofList (front ++ d :: rest ++ ['.'])
  have howned : OwnedBy address worker :=
    h (AList.singleton worker { defaultPool := ⟨"", "", "", none⟩ }) ⟨worker, _⟩
      List.mem_cons_self (front ++ d :: rest) [] String.toList_ofList hresembles
  exact not_ownedBy_of_changed haddress hd String.toList_ofList howned

/-! ## The result -/

/-- A seller is shown exactly his own rigs when no worker of another seller resembles his address
up to a dot.  For every table this is so exactly when the address has no wildcard and no letter. -/
theorem seller_sees_own_rigs_iff (address : String) :
    (∀ s : SellerStore, s.ShowsOwn address ↔ s.NoLookalike address) ∧
    ((∀ s : SellerStore, s.ShowsOwn address) ↔ PlainAddress address) := by
  refine ⟨fun s => SellerStore.showsOwn_iff, fun h => ?_, fun h s => ?_⟩
  · exact plainAddress_of_noLookalike fun s => SellerStore.showsOwn_iff.mp (h s)
  · exact SellerStore.showsOwn_iff.mpr (h.noLookalike s)

/-- The rigs of two sellers. -/
def twoSellers : SellerStore :=
  (AList.singleton "bc1qA.rig1" { defaultPool := ⟨"a:1", "bc1qA", "", none⟩ }).insert "bc1qB.rig1"
    { defaultPool := ⟨"b:1", "bc1qB", "secret", none⟩ }

/-- An address that is a wildcard is shown the rigs of every seller, and one in other letters
those of another seller. -/
theorem wildcard_sees_all_rigs :
    (twoSellers.listForSeller "%").map (·.1) = ["bc1qB.rig1", "bc1qA.rig1"] ∧
      ¬twoSellers.ShowsOwn "%" ∧
      (twoSellers.listForSeller "BC1Qb").map (·.1) = ["bc1qB.rig1"] ∧
      ¬twoSellers.ShowsOwn "BC1Qb" := by
  have hall : (twoSellers.listForSeller "%").map (·.1) = ["bc1qB.rig1", "bc1qA.rig1"] := by
    decide +kernel
  have hother : (twoSellers.listForSeller "BC1Qb").map (·.1) = ["bc1qB.rig1"] := by
    decide +kernel
  refine ⟨hall, fun hshows => ?_, hother, fun hshows => ?_⟩
  · have hown := congrArg (List.map (·.1)) hshows
    rw [hall] at hown
    revert hown
    decide +kernel
  · have hown := congrArg (List.map (·.1)) hshows
    rw [hother] at hown
    revert hown
    decide +kernel

end RentalProxy
