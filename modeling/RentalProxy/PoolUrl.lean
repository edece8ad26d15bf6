import RentalProxy.Text

/-!
# Pool addresses

`normalize_pool_url` of `session.rs` turns what a buyer or a seller types into the `host:port`
that the relays connect with.  It trims the text first and strips the scheme then.  So white space
behind the scheme is still there afterwards, in front of the host.

* `normalizePoolUrl` is the function, `remainder` what it has stripped, and `Routable` what it
  asks of that.
* `normalizePoolUrl_eq_ok` says when it accepts.
* `pool_url_is_canonical_iff` is the result: an accepted address is canonical exactly when no
  white space follows the scheme, and a canonical one may be given with a scheme and with white
  space around it.
-/

namespace RentalProxy

open Text

/-! ## The function -/

/-- Why an address is refused. -/
inductive PoolUrlError where
  /-- `only plain tcp is routable (host:port or stratum+tcp://host:port)`. -/
  | notPlainTcp
  /-- `needs host:port`. -/
  | noPort
  /-- `is not host:port`. -/
  | notHostPort
deriving DecidableEq

/-- The schemes that are stripped. -/
def plainSchemes : List (List Char) := ["stratum+tcp://".toList, "tcp://".toList]

/-- What stands behind the scheme, in any letter case.  A scheme is ASCII, so that its bytes are
its characters. -/
def stripScheme (scheme s : List Char) : Option (List Char) :=
  if eqIgnoreAsciiCase (s.take scheme.length) scheme then some (s.drop scheme.length) else none

/-- What stands behind the scheme of the trimmed text, when it has one. -/
def behindScheme (raw : String) : Option (List Char) :=
  plainSchemes.findSome? fun scheme => stripScheme scheme (trim raw).toList

/-- The trimmed text without its scheme. -/
def remainder (raw : String) : List Char := (behindScheme raw).getD (trim raw).toList

/-- `normalize_pool_url`. -/
def normalizePoolUrl (raw : String) : Except PoolUrlError String :=
  let s := remainder raw
  if "://".toList <:+: s then .error .notPlainTcp
  else
    match rsplitOnce ':' s with
    | none => .error .noPort
    | some (host, port) =>
      if host.isEmpty || host.contains '/' || (parseU16 port).isNone then .error .notHostPort
      else .ok (String.ofList s)

/-! ## The property and its condition -/

/-- A host and a port that is a number. -/
def HostPort (s : List Char) : Prop :=
  ∃ host port, s = host ++ ':' :: port ∧ host ≠ [] ∧ '/' ∉ host ∧ (parseU16 port).isSome = true

/-- An address that the relays can connect with. -/
structure Canonical (t : String) : Prop where
  hostPort : HostPort t.toList
  noScheme : ¬"://".toList <:+: t.toList
  first : ∀ c ∈ t.toList.head?, isWhitespace c = false
  last : ∀ c ∈ t.toList.getLast?, isWhitespace c = false

/-- White space follows the scheme. -/
def SpaceBehindScheme (raw : String) : Prop :=
  ∃ rest ∈ behindScheme raw, ∃ c ∈ rest.head?, isWhitespace c = true

/-! ## When an address is accepted -/

theorem HostPort.last {s : List Char} (h : HostPort s) :
    ∀ c ∈ s.getLast?, isWhitespace c = false := by
  obtain ⟨host, port, rfl, _, _, hport⟩ := h
  obtain ⟨d, hd, hdigit⟩ := isDigit_of_parseU16 hport
  intro c hc
  have hlast : (host ++ ':' :: port).getLast? = some d := by
    rw [List.getLast?_append, List.getLast?_cons, Option.mem_def.mp hd]
    rfl
  rw [Option.mem_def, hlast] at hc
  cases hc
  exact isWhitespace_of_isDigit hdigit

/-- The remainder is `host:port`, with the last colon in between. -/
theorem normalizePoolUrl_ok {raw t : String} (h : normalizePoolUrl raw = .ok t) :
    t.toList = remainder raw ∧ HostPort (remainder raw) ∧ ¬"://".toList <:+: remainder raw := by
  unfold normalizePoolUrl at h
  generalize remainder raw = s at h ⊢
  dsimp only at h
  split at h
  · cases h
  · rename_i hplain
    split at h
    · cases h
    · rename_i host port hsplit
      split at h
      · cases h
      · rename_i hparts
        simp only [Bool.or_eq_true, not_or, Bool.not_eq_true, Option.isNone_eq_false_iff,
          List.isEmpty_eq_false_iff, List.contains_iff_mem] at hparts
        cases h
        exact ⟨String.toList_ofList, ⟨host, port, rsplitOnce_eq_some hsplit, hparts.1.1,
          by simpa using hparts.1.2, hparts.2⟩, hplain⟩

/-- Only the remainder decides. -/
theorem normalizePoolUrl_congr {raw raw' : String} (h : remainder raw = remainder raw') :
    normalizePoolUrl raw = normalizePoolUrl raw' := by
  simp only [normalizePoolUrl, h]

/-! ## The scheme -/

theorem stripScheme_eq_some {scheme s rest : List Char} (h : stripScheme scheme s = some rest) :
    ∃ head, s = head ++ rest ∧ head.map Char.toLower = scheme.map Char.toLower := by
  obtain ⟨hhead, hrest⟩ := Option.ite_none_right_eq_some.mp h
  cases hrest
  exact ⟨_, (List.take_append_drop _ _).symm, of_decide_eq_true hhead⟩

/-- A text with a scheme has the separator of one. -/
theorem infix_of_stripScheme {scheme s rest : List Char} (hscheme : scheme ∈ plainSchemes)
    (h : stripScheme scheme s = some rest) : "://".toList <:+: s := by
  obtain ⟨head, rfl, hhead⟩ := stripScheme_eq_some h
  have hname : ∃ name, scheme.map Char.toLower = name ++ "://".toList := by
    simp only [plainSchemes, List.mem_cons, List.not_mem_nil, or_false] at hscheme
    rcases hscheme with rfl | rfl
    · exact ⟨"stratum+tcp".toList, by decide⟩
    · exact ⟨"tcp".toList, by decide⟩
  obtain ⟨name, hname⟩ := hname
  rw [hname] at hhead
  obtain ⟨front, separator, rfl, _, hseparator⟩ := List.map_eq_append_iff.mp hhead
  have hplain : ∀ d ∈ "://".toList, d.toNat < 97 := by simp
  rw [eq_of_map_toLower hplain hseparator]
  exact ⟨front, rest, rfl⟩

/-- A text without a scheme, and without white space at its ends, is left alone. -/
theorem Canonical.remainder {t : String} (h : Canonical t) : remainder t = t.toList := by
  have htrim : (trim t).toList = t.toList := by
    rw [toList_trim]
    exact Trim.trim_eq_self h.first h.last
  have hnone : behindScheme t = none := by
    rw [behindScheme, htrim, List.findSome?_eq_none_iff]
    intro scheme hscheme
    by_contra hsome
    obtain ⟨rest, hrest⟩ := Option.ne_none_iff_exists'.mp hsome
    exact h.noScheme (infix_of_stripScheme hscheme hrest)
  rw [RentalProxy.remainder, hnone, htrim]
  rfl

/-- What is in front of the remainder is a scheme, or nothing. -/
theorem first_of_remainder {raw : String} (h : ¬SpaceBehindScheme raw) :
    ∀ c ∈ (remainder raw).head?, isWhitespace c = false := by
  intro c hc
  unfold remainder at hc
  cases hbehind : behindScheme raw with
  | none =>
    rw [hbehind, Option.getD_none, toList_trim] at hc
    exact Trim.head?_trim hc
  | some rest =>
    rw [hbehind, Option.getD_some] at hc
    by_contra hspace
    exact h ⟨rest, hbehind, c, hc, by simpa using hspace⟩

/-- The first letter of a scheme, in any case. -/
theorem head?_of_scheme {scheme p : List Char} (hscheme : scheme ∈ plainSchemes)
    (hp : p.map Char.toLower = scheme.map Char.toLower) :
    ∃ c rest, p = c :: rest ∧ scheme.head? = some c.toLower ∧ isWhitespace c = false := by
  have hfirst : ∃ d ∈ scheme.head?, d.toLower = d ∧ isWhitespace d = false := by
    simp only [plainSchemes, List.mem_cons, List.not_mem_nil, or_false] at hscheme
    rcases hscheme with rfl | rfl
    · exact ⟨'s', rfl, by decide, by decide⟩
    · exact ⟨'t', rfl, by decide, by decide⟩
  obtain ⟨d, hd, hlower, hspace⟩ := hfirst
  have hhead := congrArg List.head? hp
  rw [List.head?_map, List.head?_map, Option.mem_def.mp hd, Option.map_some, hlower,
    Option.map_eq_some_iff] at hhead
  obtain ⟨c, hc, rfl⟩ := hhead
  obtain ⟨rest, rfl⟩ := List.head?_eq_some_iff.mp hc
  refine ⟨c, rest, rfl, hd, ?_⟩
  by_contra hwhite
  rw [toLower_of_isWhitespace (by simpa using hwhite)] at hspace
  exact hwhite hspace

/-- A scheme in any letter case is stripped. -/
theorem findSome?_stripScheme {scheme p s : List Char} (hscheme : scheme ∈ plainSchemes)
    (hp : p.map Char.toLower = scheme.map Char.toLower) :
    (plainSchemes.findSome? fun scheme => stripScheme scheme (p ++ s)) = some s := by
  have hlength : p.length = scheme.length := by
    rw [← List.length_map (f := Char.toLower), hp, List.length_map]
  have hstrip : stripScheme scheme (p ++ s) = some s := by
    rw [stripScheme, ← hlength, List.take_left, List.drop_left]
    exact if_pos (decide_eq_true hp)
  obtain ⟨c, rest, rfl, hfirst, _⟩ := head?_of_scheme hscheme hp
  simp only [plainSchemes, List.mem_cons, List.not_mem_nil, or_false] at hscheme
  rcases hscheme with rfl | rfl
  · rw [plainSchemes, List.findSome?_cons, hstrip]
  · -- The longer scheme has another first letter.
    have hother : stripScheme "stratum+tcp://".toList (c :: rest ++ s) = none := by
      refine if_neg fun heq => ?_
      have hhead := congrArg List.head? (of_decide_eq_true heq)
      have hletter : some c.toLower = some 's' := hhead
      rw [hletter] at hfirst
      exact absurd hfirst (by decide)
    rw [plainSchemes, List.findSome?_cons, hother, List.findSome?_cons, hstrip]

/-! ## The result -/

/-- An accepted address is canonical, and accepted as it is, exactly when no white space followed
the scheme.  An address that is accepted as it is may be given with a scheme in any letter case,
and with white space around it. -/
theorem pool_url_is_canonical_iff (s : String) :
    (∀ t, normalizePoolUrl s = .ok t →
      ((Canonical t ∧ normalizePoolUrl t = .ok t) ↔ ¬SpaceBehindScheme s)) ∧
    (normalizePoolUrl s = .ok s → ∀ scheme ∈ plainSchemes, ∀ front p back : String,
      p.toList.map Char.toLower = scheme.map Char.toLower →
      (∀ c ∈ front.toList, isWhitespace c = true) → (∀ c ∈ back.toList, isWhitespace c = true) →
      normalizePoolUrl (front ++ p ++ s ++ back) = .ok s) := by
  constructor
  · intro t h
    obtain ⟨ht, hhostPort, hplain⟩ := normalizePoolUrl_ok h
    constructor
    · rintro ⟨hcanonical, _⟩ ⟨rest, hrest, c, hc, hspace⟩
      have hrest' : t.toList = rest := by
        rw [ht, remainder, Option.mem_def.mp hrest]
        rfl
      rw [← hrest'] at hc
      cases (hcanonical.first c hc).symm.trans hspace
    · intro hspace
      have hcanonical : Canonical t := by
        refine ⟨by rwa [ht], by rwa [ht], ?_, ?_⟩ <;> rw [ht]
        · exact first_of_remainder hspace
        · exact hhostPort.last
      exact ⟨hcanonical, (normalizePoolUrl_congr (hcanonical.remainder.trans ht)).trans h⟩
  · intro h scheme hscheme front p back hp hfront hback
    obtain ⟨hs, hhostPort, _⟩ := normalizePoolUrl_ok h
    rw [← hs] at hhostPort
    obtain ⟨c, rest, hfirst, _, hletter⟩ := head?_of_scheme hscheme hp
    have hne : s.toList ≠ [] := by
      obtain ⟨host, port, heq, _⟩ := hhostPort
      rw [heq]
      simp
    have htrim : (trim (front ++ p ++ s ++ back)).toList = p.toList ++ s.toList := by
      rw [toList_trim, String.toList_append, String.toList_append, String.toList_append,
        List.append_assoc front.toList, Trim.trim_surround hfront hback]
      refine Trim.trim_eq_self (fun d hd => ?_) fun d hd => ?_
      · rw [hfirst] at hd
        cases hd
        exact hletter
      · rw [List.getLast?_append, Option.mem_def, List.getLast?_eq_getLast_of_ne_nil hne] at hd
        exact hhostPort.last d (by rw [List.getLast?_eq_getLast_of_ne_nil hne]; exact hd)
    have hremainder : remainder (front ++ p ++ s ++ back) = s.toList := by
      rw [remainder, behindScheme, htrim, findSome?_stripScheme hscheme hp]
      rfl
    exact (normalizePoolUrl_congr (hremainder.trans hs)).trans h

/-- What miner menus teach, and a bare address. -/
theorem pool_url_is_canonical_iff_braiins :
    normalizePoolUrl "STRATUM+tcp://stratum.braiins.com:3333" = .ok "stratum.braiins.com:3333" ∧
      Canonical "stratum.braiins.com:3333" := by
  have htaught : normalizePoolUrl "stratum+tcp://stratum.braiins.com:3333" =
      .ok "stratum.braiins.com:3333" := by decide +kernel
  have hspace : ¬SpaceBehindScheme "stratum+tcp://stratum.braiins.com:3333" := by
    rintro ⟨rest, hrest, c, hc, hspace⟩
    have hbehind : behindScheme "stratum+tcp://stratum.braiins.com:3333" =
        some "stratum.braiins.com:3333".toList := by decide +kernel
    rw [Option.mem_def, hbehind] at hrest
    cases hrest
    cases hc
    cases hspace
  obtain ⟨hcanonical, hfixed⟩ :=
    ((pool_url_is_canonical_iff _).1 _ htaught).mpr hspace
  refine ⟨?_, hcanonical⟩
  have hgiven := (pool_url_is_canonical_iff _).2 hfixed "stratum+tcp://".toList
    List.mem_cons_self "" "STRATUM+tcp://" "" (by decide +kernel) (by simp) (by simp)
  exact (congrArg normalizePoolUrl (by decide +kernel)).trans hgiven

/-- White space behind the scheme is kept, and the host that is connected with starts with it. -/
theorem space_behind_scheme_is_kept :
    normalizePoolUrl "tcp:// pool:3333" = .ok " pool:3333" ∧ ¬Canonical " pool:3333" ∧
      normalizePoolUrl " pool:3333" ≠ .ok " pool:3333" := by
  refine ⟨by decide +kernel, fun h => ?_, by decide +kernel⟩
  have hfirst := h.first ' ' rfl
  cases hfirst

end RentalProxy
