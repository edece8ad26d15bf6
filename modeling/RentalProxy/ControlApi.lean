import RentalProxy.Text

/-!
# The gate of the control API

Every endpoint but the health check asks for a bearer token.

* `requireBearer` is the gate, and `ctEq` its comparison.
* `serveAll` answers one request after the other, behind the gate.
* `unauthorized_requests_do_nothing` is the result: the API does what it does for the requests that
  present the token, and there are such requests only for a token that a header can carry.
-/

namespace RentalProxy.Api

open Text

/-! ## The gate -/

/-- A status and a text. -/
abbrev ApiError := Nat × String

/-- `SERVICE_UNAVAILABLE`. -/
def tokenNotConfigured : ApiError :=
  (503, "control API token not configured (set RENTAL_PROXY_API_TOKEN)")

/-- `UNAUTHORIZED`. -/
def invalidToken : ApiError := (401, "missing or invalid bearer token")

/-- The bytes of a text. -/
def bytes (s : String) : List UInt8 := s.toByteArray.data.toList

/-- `ct_eq`. -/
def ctEq (a b : String) : Bool :=
  if (bytes a).length ≠ (bytes b).length then false
  else
    let diff := ((bytes a).zip (bytes b)).foldl (fun diff p => diff ||| (p.1 ^^^ p.2)) 0
    decide (diff = 0)

/-- `str::strip_prefix`. -/
def stripPrefix (pre s : String) : Option String :=
  (s.toList.dropPrefix? pre.toList).map String.ofList

section Gate

variable {HeaderValue : Type} (toStr : HeaderValue → Option String) (apiToken : String)

/-- What a request presents.  `toStr` is `HeaderValue::to_str`. -/
def presented (authorization : Option HeaderValue) : String :=
  (((authorization.bind toStr).bind (stripPrefix "Bearer ")).map trim).getD ""

/-- `require_bearer`. -/
def requireBearer (authorization : Option HeaderValue) : Except ApiError Unit :=
  if apiToken = "" then .error tokenNotConfigured
  else if ctEq (presented toStr authorization) apiToken then .ok ()
  else .error invalidToken

/-- The request is let through. -/
def authorized (authorization : Option HeaderValue) : Bool :=
  match requireBearer toStr apiToken authorization with
  | .ok _ => true
  | .error _ => false

/-! ## The requests -/

/-- A request to an endpoint behind the gate. -/
structure ApiRequest (HeaderValue Call : Type) where
  authorization : Option HeaderValue
  call : Call

variable {State Call Response : Type} (next : State → Call → State × Response)

/-- One request.  `next` are the endpoints. -/
def serve (s : State) (request : ApiRequest HeaderValue Call) :
    State × Except ApiError Response :=
  match requireBearer toStr apiToken request.authorization with
  | .ok _ => ((next s request.call).1, .ok (next s request.call).2)
  | .error e => (s, .error e)

/-- One request after the other, with the answers. -/
def serveAll : State → List (ApiRequest HeaderValue Call) →
    State × List (Except ApiError Response)
  | s, [] => (s, [])
  | s, request :: requests =>
    let (t, answer) := serve toStr apiToken next s request
    let (u, answers) := serveAll t requests
    (u, answer :: answers)

/-- The endpoints alone. -/
def nextAll : State → List (ApiRequest HeaderValue Call) → State × List Response
  | s, [] => (s, [])
  | s, request :: requests =>
    let (t, answer) := next s request.call
    let (u, answers) := nextAll t requests
    (u, answer :: answers)

end Gate

/-! ## The comparison -/

theorem foldl_diff_eq_zero (ps : List (UInt8 × UInt8)) (diff : UInt8) :
    ps.foldl (fun diff p => diff ||| (p.1 ^^^ p.2)) diff = 0 ↔
      diff = 0 ∧ ∀ p ∈ ps, p.1 = p.2 := by
  induction ps generalizing diff with
  | nil => simp
  | cons p ps ih =>
    rw [List.foldl_cons, ih]
    simp [and_assoc]

theorem forall_mem_zip_eq {xs ys : List UInt8} (h : xs.length = ys.length) :
    (∀ p ∈ xs.zip ys, p.1 = p.2) ↔ xs = ys := by
  induction xs generalizing ys with
  | nil =>
    have hys : ys = [] := List.eq_nil_of_length_eq_zero h.symm
    simp [hys]
  | cons x xs ih =>
    cases ys with
    | nil => cases h
    | cons y ys =>
      rw [List.zip_cons_cons, List.forall_mem_cons, ih (Nat.succ.inj h), List.cons.injEq]

/-- The comparison finds equal what is equal. -/
theorem ctEq_iff {a b : String} : ctEq a b = true ↔ a = b := by
  have hbytes : bytes a = bytes b ↔ a = b := by
    rw [← String.toByteArray_inj, ByteArray.ext_iff]
    exact Array.toList_inj
  unfold ctEq
  split
  · rename_i hlength
    apply iff_of_false Bool.false_ne_true
    rintro rfl
    exact hlength rfl
  · rename_i hlength
    rw [decide_eq_true_iff, foldl_diff_eq_zero, forall_mem_zip_eq (not_not.mp hlength), hbytes]
    simp

/-! ## Who is let through -/

section Gate

variable {HeaderValue : Type} {toStr : HeaderValue → Option String} {apiToken : String}

theorem stripPrefix_eq_some {pre s rest : String} :
    stripPrefix pre s = some rest ↔ s = pre ++ rest := by
  unfold stripPrefix
  rw [Option.map_eq_some_iff]
  constructor
  · rintro ⟨chars, hdrop, rfl⟩
    obtain ⟨pre', hs, hpre⟩ := List.dropPrefix?_eq_some_iff.mp hdrop
    apply String.toList_inj.mp
    rw [hs, eq_of_beq hpre]
    simp
  · rintro rfl
    refine ⟨rest.toList, ?_, String.ofList_toList⟩
    rw [String.toList_append]
    exact List.dropPrefix?_append_of_beq _ (beq_self_eq_true _)

/-- Who is let through: a token is configured, and the header presents it. -/
theorem authorized_iff {authorization : Option HeaderValue} :
    authorized toStr apiToken authorization = true ↔ apiToken ≠ "" ∧
      ∃ v rest, authorization = some v ∧ toStr v = some ("Bearer " ++ rest) ∧
        trim rest = apiToken := by
  have hcompared : authorized toStr apiToken authorization = true ↔
      apiToken ≠ "" ∧ presented toStr authorization = apiToken := by
    rw [← ctEq_iff]
    unfold authorized requireBearer
    split_ifs <;> simp_all
  rw [hcompared]
  apply and_congr_right
  intro hne
  constructor
  · intro hpresented
    unfold presented at hpresented
    cases hrest : (authorization.bind toStr).bind (stripPrefix "Bearer ") with
    | none =>
      rw [hrest] at hpresented
      exact absurd hpresented.symm hne
    | some rest =>
      rw [hrest] at hpresented
      obtain ⟨s, hs, hstrip⟩ := Option.bind_eq_some_iff.mp hrest
      obtain ⟨v, hv, hto⟩ := Option.bind_eq_some_iff.mp hs
      rw [stripPrefix_eq_some.mp hstrip] at hto
      exact ⟨v, rest, hv, hto, hpresented⟩
  · rintro ⟨v, rest, rfl, hto, htrim⟩
    have hstrip : stripPrefix "Bearer " ("Bearer " ++ rest) = some rest :=
      stripPrefix_eq_some.mpr rfl
    rw [presented, Option.bind_some, hto, Option.bind_some, hstrip]
    exact htrim

/-- What a request is denied with. -/
theorem requireBearer_cases (authorization : Option HeaderValue) :
    requireBearer toStr apiToken authorization =
      if authorized toStr apiToken authorization then .ok ()
      else .error (if apiToken = "" then tokenNotConfigured else invalidToken) := by
  unfold authorized requireBearer
  split_ifs <;> simp_all

/-! ## The result -/

/-- A token that a header can carry. -/
def Bearable (apiToken : String) : Prop :=
  apiToken ≠ "" ∧ trim apiToken = apiToken ∧
    ∀ c ∈ apiToken.toList, (32 ≤ c.toNat ∧ c.toNat < 127) ∨ c = '\t'

/-- `HeaderValue::to_str`: the texts of headers are those of visible ASCII characters. -/
def ReadsAscii (toStr : HeaderValue → Option String) : Prop :=
  ∀ s : String, (∃ v, toStr v = some s) ↔
    ∀ c ∈ s.toList, (32 ≤ c.toNat ∧ c.toNat < 127) ∨ c = '\t'

/-- Some request is let through exactly if a header can carry the token. -/
theorem exists_authorized_iff (hto : ReadsAscii toStr) :
    (∃ authorization, authorized toStr apiToken authorization = true) ↔ Bearable apiToken := by
  constructor
  · rintro ⟨authorization, hauthorized⟩
    obtain ⟨hne, v, rest, _, hv, htrim⟩ := authorized_iff.mp hauthorized
    refine ⟨hne, ?_, ?_⟩
    · rw [← htrim, trim_trim]
    · intro c hc
      have hrest : c ∈ rest.toList := by
        rw [← htrim, toList_trim] at hc
        exact Trim.mem_of_mem_trim hc
      apply (hto _).mp ⟨v, hv⟩ c
      rw [String.toList_append]
      exact List.mem_append_right _ hrest
  · rintro ⟨hne, htrim, hascii⟩
    have hbearer : ∀ c ∈ ("Bearer " ++ apiToken).toList,
        (32 ≤ c.toNat ∧ c.toNat < 127) ∨ c = '\t' := by
      have hscheme : ("Bearer ".toList.all fun c =>
          decide ((32 ≤ c.toNat ∧ c.toNat < 127) ∨ c = '\t')) = true := by decide +kernel
      intro c hc
      rw [String.toList_append] at hc
      rcases List.mem_append.mp hc with hc | hc
      · exact of_decide_eq_true (List.all_eq_true.mp hscheme c hc)
      · exact hascii c hc
    obtain ⟨v, hv⟩ := (hto _).mpr hbearer
    exact ⟨some v, authorized_iff.mpr ⟨hne, v, apiToken, rfl, hv, htrim⟩⟩

variable {State Call Response : Type}

/-- The requests that are let through. -/
def passed (toStr : HeaderValue → Option String) (apiToken : String)
    (requests : List (ApiRequest HeaderValue Call)) : List (ApiRequest HeaderValue Call) :=
  requests.filter fun request => authorized toStr apiToken request.authorization

/-- The answers to the requests are those of the endpoints to the ones that are let through, with
a denial for each other one. -/
theorem serveAll_eq (next : State → Call → State × Response) (s : State)
    (requests : List (ApiRequest HeaderValue Call)) :
    (serveAll toStr apiToken next s requests).1 =
        (nextAll next s (passed toStr apiToken requests)).1 ∧
      (serveAll toStr apiToken next s requests).2.filterMap Except.toOption =
        (nextAll next s (passed toStr apiToken requests)).2 ∧
      ∀ e, .error e ∈ (serveAll toStr apiToken next s requests).2 →
        e = if apiToken = "" then tokenNotConfigured else invalidToken := by
  induction requests generalizing s with
  | nil => simp [serveAll, nextAll, passed]
  | cons request requests ih =>
    cases hauthorized : authorized toStr apiToken request.authorization with
    | false =>
      have hserve : serve toStr apiToken next s request =
          (s, .error (if apiToken = "" then tokenNotConfigured else invalidToken)) := by
        rw [serve, requireBearer_cases, hauthorized]
        rfl
      obtain ⟨hstate, hanswers, herrors⟩ := ih s
      have hpassed : passed toStr apiToken (request :: requests) =
          passed toStr apiToken requests := by
        simp [passed, hauthorized]
      rw [hpassed]
      simp only [serveAll, hserve]
      refine ⟨hstate, ?_, ?_⟩
      · rw [List.filterMap_cons_none rfl]
        exact hanswers
      · intro e he
        rcases List.mem_cons.mp he with heq | hmem
        · exact Except.error.inj heq
        · exact herrors e hmem
    | true =>
      have hserve : serve toStr apiToken next s request =
          ((next s request.call).1, .ok (next s request.call).2) := by
        rw [serve, requireBearer_cases, hauthorized]
        rfl
      obtain ⟨hstate, hanswers, herrors⟩ := ih (next s request.call).1
      have hpassed : passed toStr apiToken (request :: requests) =
          request :: passed toStr apiToken requests := by
        simp [passed, hauthorized]
      rw [hpassed]
      simp only [serveAll, nextAll, hserve]
      refine ⟨hstate, ?_, ?_⟩
      · rw [List.filterMap_cons, hanswers]
        rfl
      · intro e he
        rcases List.mem_cons.mp he with heq | hmem
        · cases heq
        · exact herrors e hmem

/-- In every run of requests.  The endpoints see only the requests that are let through, those that
present the token, and the others change nothing.  Whether there is such a request at all is a
matter of the token: it needs a character, none of whitespace at its ends, and none that a header
cannot carry. -/
theorem unauthorized_requests_do_nothing (hto : ReadsAscii toStr) (apiToken : String)
    (next : State → Call → State × Response) (s : State)
    (requests : List (ApiRequest HeaderValue Call)) :
    (serveAll toStr apiToken next s requests).1 =
        (nextAll next s (passed toStr apiToken requests)).1 ∧
      (serveAll toStr apiToken next s requests).2.filterMap Except.toOption =
        (nextAll next s (passed toStr apiToken requests)).2 ∧
      (∀ e, .error e ∈ (serveAll toStr apiToken next s requests).2 →
        e = if apiToken = "" then tokenNotConfigured else invalidToken) ∧
      (∀ request ∈ requests, request ∈ passed toStr apiToken requests ↔
        apiToken ≠ "" ∧ ∃ v rest, request.authorization = some v ∧
          toStr v = some ("Bearer " ++ rest) ∧ trim rest = apiToken) ∧
      ((∃ authorization, authorized toStr apiToken authorization = true) ↔ Bearable apiToken) := by
  obtain ⟨hstate, hanswers, herrors⟩ := serveAll_eq next s requests
  refine ⟨hstate, hanswers, herrors, ?_, exists_authorized_iff hto⟩
  intro request hrequest
  rw [passed, List.mem_filter, authorized_iff]
  exact and_iff_right hrequest

end Gate

/-- Headers that are texts. -/
def textHeader (s : String) : Option String :=
  if s.toList.all fun c => (decide (32 ≤ c.toNat) && decide (c.toNat < 127)) || decide (c = '\t')
  then some s else none

theorem textHeader_readsAscii : ReadsAscii textHeader := by
  intro s
  unfold textHeader
  constructor
  · rintro ⟨v, hv⟩
    obtain ⟨hall, hs⟩ := Option.ite_none_right_eq_some.mp hv
    cases hs
    simpa using hall
  · intro hascii
    refine ⟨s, if_pos ?_⟩
    simpa using hascii

/-- Of three requests that count, the one with the token does. -/
theorem unauthorized_requests_do_nothing_three :
    (serveAll textHeader "s3cret" (fun (n : Nat) (k : Nat) => (n + k, n)) 0
        [⟨none, 1⟩, ⟨some "Bearer  s3cret ", 10⟩, ⟨some "Bearer guess", 100⟩]).1 = 10 ∧
      ∃ authorization, authorized textHeader "s3cret" authorization = true := by
  obtain ⟨hstate, _, _, _, husable⟩ := unauthorized_requests_do_nothing textHeader_readsAscii
    "s3cret" (fun (n : Nat) (k : Nat) => (n + k, n)) 0
    [⟨none, 1⟩, ⟨some "Bearer  s3cret ", 10⟩, ⟨some "Bearer guess", 100⟩]
  have hascii : ("s3cret".toList.all fun c =>
      decide ((32 ≤ c.toNat ∧ c.toNat < 127) ∨ c = '\t')) = true := by decide +kernel
  refine ⟨?_, husable.mpr ⟨by decide, by decide +kernel, ?_⟩⟩
  swap
  · exact fun c hc => of_decide_eq_true (List.all_eq_true.mp hascii c hc)
  rw [hstate]
  decide +kernel

end RentalProxy.Api
