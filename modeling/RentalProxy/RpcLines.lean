import RentalProxy.Sv1.Relay
import RentalProxy.Text
import Mathlib.Data.List.Perm.Basic

/-!
# JSON-RPC lines through the codec

A relayed line is parsed into an `RpcMessage` and printed again.  A member that is absent is
`None` and is not printed; but a member that is `null` also parses to `None`, so it is gone from
the line that is sent on.

The text is the work of `serde_json` (`JsonText`): it prints the members of an object, and reads
them back.  What the derived code does with the members is `RpcMessage.ofMembers` and
`RpcMessage.members`.

* `parse` and `toLine` are the codec of a line.
* `rpc_lines_iff` is the result: a message comes back, and a line keeps its members, exactly when
  nothing in it is `null`.
-/

namespace RentalProxy

/-! ## The codec -/

/-- The text of JSON objects. -/
structure JsonText where
  /-- The text of an object with these members, in this order. -/
  print : List (String × Value) → String
  /-- The members of the object that a text is, in the order of the text. -/
  read : String → Option (List (String × Value))

namespace JsonText

/-- An object is printed between its braces, without a space around them. -/
def Delimits (json : JsonText) : Prop :=
  ∀ members, ∃ body, (json.print members).toList = '\x7b' :: body ++ ['\x7d']

/-- An object with these members is read back. -/
def ReadsBack (json : JsonText) (members : List (String × Value)) : Prop :=
  json.read (json.print members) = some members

end JsonText

namespace RpcMessage

/-- An `Option<Value>` that is there: `null` is `None`. -/
def optionValue : Value → Option Value
  | .null => none
  | v => some v

/-- An `Option<String>` that is there, `none` when it has another type. -/
def optionString : Value → Option (Option String)
  | .null => some none
  | .str s => some (some s)
  | _ => none

/-- The names of the members. -/
def memberNames : List String := ["id", "method", "params", "result", "error"]

/-- The derived `Deserialize`: a member may be absent, but not there twice; others are ignored. -/
def ofMembers (fields : List (String × Value)) : Option RpcMessage :=
  if ((fields.map Prod.fst).filter (· ∈ memberNames)).Nodup then do
    let method ← (fields.lookup "method").elim (some none) optionString
    some {
      method
      id := (fields.lookup "id").bind optionValue
      params := (fields.lookup "params").bind optionValue
      result := (fields.lookup "result").bind optionValue
      error := (fields.lookup "error").bind optionValue }
  else none

/-- A member that is skipped when it is `None`. -/
def member (name : String) (v : Option Value) : List (String × Value) :=
  (v.map fun v => (name, v)).toList

/-- The derived `Serialize`. -/
def members (m : RpcMessage) : List (String × Value) :=
  member "id" m.id ++ member "method" (m.method.map .str) ++ member "params" m.params ++
    member "result" m.result ++ member "error" m.error

variable (json : JsonText)

/-- `RpcMessage::parse`. -/
def parse (line : String) : Option RpcMessage := (json.read (Text.trim line)).bind ofMembers

/-- `RpcMessage::to_line`. -/
def toLine (m : RpcMessage) : String := json.print m.members ++ "\n"

/-! ## The property and its condition -/

/-- No member of the message is `null`. -/
def WithoutNull (m : RpcMessage) : Prop :=
  m.id ≠ some .null ∧ m.params ≠ some .null ∧ m.result ≠ some .null ∧ m.error ≠ some .null

instance : DecidablePred WithoutNull := fun _ => inferInstanceAs (Decidable (_ ∧ _))

/-- An object of the wire: its members are among those of a message, each of its type. -/
structure OnWire (fields : List (String × Value)) : Prop where
  once : (fields.map Prod.fst).Nodup
  known : ∀ p ∈ fields, p.1 ∈ memberNames
  method : ∀ v, ("method", v) ∈ fields → v = .null ∨ ∃ s, v = .str s

/-! ## The members of a message -/

/-- With a key of its own for each pair, a lookup finds every pair. -/
theorem lookup_eq_some_iff_mem {fields : List (String × Value)}
    (h : (fields.map Prod.fst).Nodup) {name : String} {v : Value} :
    fields.lookup name = some v ↔ (name, v) ∈ fields := by
  induction fields with
  | nil => simp
  | cons p fields ih =>
    rw [List.map_cons, List.nodup_cons] at h
    obtain ⟨key, w⟩ := p
    rw [List.lookup_cons, List.mem_cons]
    by_cases hname : name = key
    · subst hname
      have hother : (name, v) ∉ fields := fun hmem =>
        h.1 (List.mem_map.mpr ⟨(name, v), hmem, rfl⟩)
      simp [hother, eq_comm]
    · have hne : (name == key) = false := by simpa using hname
      simp [hne, hname, ih h.2]

theorem optionValue_bind {x : Option Value} {v : Value} :
    x.bind optionValue = some v ↔ x = some v ∧ v ≠ .null := by
  cases x with
  | none => simp
  | some w => cases w <;> simp [optionValue] <;> rintro rfl <;> simp

theorem lookup_member (name other : String) (v : Option Value) :
    (member name v).lookup other = if other = name then v else none := by
  cases v with
  | none => simp [member]
  | some v =>
    by_cases hname : other = name
    · simp [member, hname]
    · simp [member, hname]

theorem map_member_sublist (name : String) (v : Option Value) :
    ((member name v).map Prod.fst).Sublist [name] := by
  cases v with
  | none => exact List.nil_sublist _
  | some v => exact List.Sublist.refl _

/-- The members are printed in the order of the fields. -/
theorem map_members_sublist (m : RpcMessage) : (m.members.map Prod.fst).Sublist memberNames := by
  unfold members
  simp only [List.map_append]
  exact ((((map_member_sublist "id" _).append (map_member_sublist "method" _)).append
    (map_member_sublist "params" _)).append (map_member_sublist "result" _)).append
      (map_member_sublist "error" _)

theorem nodup_members (m : RpcMessage) : (m.members.map Prod.fst).Nodup :=
  (map_members_sublist m).nodup (by decide)

section Lookups

variable (m : RpcMessage)

theorem lookup_id : m.members.lookup "id" = m.id := by
  simp [members, List.lookup_append, lookup_member]

theorem lookup_method : m.members.lookup "method" = m.method.map .str := by
  simp [members, List.lookup_append, lookup_member]

theorem lookup_params : m.members.lookup "params" = m.params := by
  simp [members, List.lookup_append, lookup_member]

theorem lookup_result : m.members.lookup "result" = m.result := by
  simp [members, List.lookup_append, lookup_member]

theorem lookup_error : m.members.lookup "error" = m.error := by
  simp [members, List.lookup_append, lookup_member]

end Lookups

/-- What is read back from the members of a message: those that are not `null`. -/
theorem ofMembers_members (m : RpcMessage) : ofMembers m.members = some { m with
    id := m.id.bind optionValue
    params := m.params.bind optionValue
    result := m.result.bind optionValue
    error := m.error.bind optionValue } := by
  unfold ofMembers
  rw [if_pos ((nodup_members m).sublist List.filter_sublist), lookup_id, lookup_method,
    lookup_params, lookup_result, lookup_error]
  cases m.method <;> rfl

theorem bind_optionValue_eq_self {x : Option Value} :
    x.bind optionValue = x ↔ x ≠ some .null := by
  cases x with
  | none => simp
  | some v => cases v <;> simp [optionValue]

theorem ofMembers_members_iff (m : RpcMessage) :
    ofMembers m.members = some m ↔ m.WithoutNull := by
  rw [ofMembers_members, Option.some.injEq, WithoutNull, ← bind_optionValue_eq_self,
    ← bind_optionValue_eq_self, ← bind_optionValue_eq_self, ← bind_optionValue_eq_self]
  cases m
  simp

/-! ## The members of a line -/

section Lines

variable {fields : List (String × Value)} {m : RpcMessage}

/-- An object of the wire is read, and the message has its members that are not `null`. -/
theorem OnWire.exists_message (h : OnWire fields) : ∃ m, ofMembers fields = some m ∧
    ∀ name ∈ memberNames, m.members.lookup name = (fields.lookup name).bind optionValue := by
  have hmethod : ∃ method, (fields.lookup "method").elim (some none) optionString = some method ∧
      method.map .str = (fields.lookup "method").bind optionValue := by
    cases hlookup : fields.lookup "method" with
    | none => exact ⟨none, rfl, rfl⟩
    | some v =>
      rcases h.method v ((lookup_eq_some_iff_mem h.once).mp hlookup) with rfl | ⟨s, rfl⟩
      · exact ⟨none, rfl, rfl⟩
      · exact ⟨some s, rfl, rfl⟩
  obtain ⟨method, hread, hprinted⟩ := hmethod
  refine ⟨_, by rw [ofMembers, if_pos (h.once.sublist List.filter_sublist), hread]; rfl, ?_⟩
  intro name hname
  simp only [memberNames, List.mem_cons, List.not_mem_nil, or_false] at hname
  rcases hname with rfl | rfl | rfl | rfl | rfl
  · exact lookup_id _
  · exact (lookup_method _).trans hprinted
  · exact lookup_params _
  · exact lookup_result _
  · exact lookup_error _

/-- The message keeps the members of the line that are not `null`, in the order of the fields. -/
theorem OnWire.members_perm (h : OnWire fields)
    (hmembers : ∀ name ∈ memberNames,
      m.members.lookup name = (fields.lookup name).bind optionValue) :
    m.members.Perm (fields.filter fun p => decide (p.2 ≠ .null)) := by
  have hnodup : m.members.Nodup := .of_map _ (nodup_members m)
  refine (List.perm_ext_iff_of_nodup hnodup (h.once.of_map.filter _)).mpr ?_
  rintro ⟨name, v⟩
  by_cases hname : name ∈ memberNames
  · rw [← lookup_eq_some_iff_mem (nodup_members m), hmembers name hname, optionValue_bind,
      lookup_eq_some_iff_mem h.once]
    simp
  · refine iff_of_false (fun hmem => hname ?_) fun hmem => hname ?_
    · exact (map_members_sublist m).subset (List.mem_map.mpr ⟨_, hmem, rfl⟩)
    · exact h.known _ (List.mem_filter.mp hmem).1

/-- All members are kept exactly when none is `null`. -/
theorem OnWire.members_perm_iff (h : OnWire fields)
    (hmembers : ∀ name ∈ memberNames,
      m.members.lookup name = (fields.lookup name).bind optionValue) :
    m.members.Perm fields ↔ ∀ p ∈ fields, p.2 ≠ .null := by
  have hkept := h.members_perm hmembers
  constructor
  · intro hperm
    have hlength := hkept.symm.trans hperm |>.length_eq
    simpa using List.length_filter_eq_length_iff.mp hlength
  · intro hnull
    rwa [List.filter_eq_self.mpr fun p hp => decide_eq_true (hnull p hp)] at hkept

end Lines

/-! ## The text -/

/-- The newline is trimmed, and nothing else. -/
theorem trim_toLine {json : JsonText} (hjson : json.Delimits) (m : RpcMessage) :
    Text.trim (toLine json m) = json.print m.members := by
  obtain ⟨body, hbody⟩ := hjson m.members
  have hline : (toLine json m).toList = [] ++ (json.print m.members).toList ++ ['\n'] := by
    rw [toLine, String.toList_append]
    rfl
  rw [Text.trim, hline, Trim.trim_surround (List.forall_mem_nil _) (by simp [Text.isWhitespace]),
    Trim.trim_eq_self, String.ofList_toList]
  · intro c hc
    rw [hbody] at hc
    cases hc
    decide
  · intro c hc
    rw [hbody, List.getLast?_concat] at hc
    cases hc
    decide

theorem parse_toLine {json : JsonText} (hjson : json.Delimits) {m : RpcMessage}
    (hread : json.ReadsBack m.members) : parse json (toLine json m) = ofMembers m.members := by
  rw [parse, trim_toLine hjson, hread, Option.bind_some]

end RpcMessage

/-! ## The result -/

open RpcMessage in
/-- A message comes back from its line exactly when no member of it is `null`, and a line keeps
its members on the way through the proxy exactly when none of them is.  The relay itself changes
no line of the pool, and of a line of the miner the worker of a submit. -/
theorem rpc_lines_iff {json : JsonText} (hjson : json.Delimits) :
    (∀ m : RpcMessage, json.ReadsBack m.members →
      (parse json (toLine json m) = some m ↔ m.WithoutNull)) ∧
    (∀ line fields, json.read (Text.trim line) = some fields → OnWire fields →
      ∃ m, parse json line = some m ∧ (json.ReadsBack m.members →
        ((∃ members, json.read (Text.trim (toLine json m)) = some members ∧
          members.Perm fields) ↔ ∀ p ∈ fields, p.2 ≠ .null))) ∧
    (∀ now (i : Sv1.Inner) m,
      (Sv1.onUpstreamMsg now i.active.generation m i).2.2 = some m) ∧
    ∀ (i : Sv1.Inner) m, m.method ≠ some "mining.authorize" →
      (Sv1.onMinerMsg m i).1.active.toUp = i.active.toUp ++
        [if m.method = some "mining.submit" then
          m.setFirstParam (.str (Sv1.upstreamWorker i.active.target.user i.label)) else m] := by
  refine ⟨fun m hread => ?_, fun line fields hfields hwire => ?_, fun now i m => ?_,
    fun i m hmethod => ?_⟩
  · rw [parse_toLine hjson hread, ofMembers_members_iff]
  · obtain ⟨m, hparse, hmembers⟩ := hwire.exists_message
    refine ⟨m, by rw [parse, hfields, Option.bind_some, hparse], fun hread => ?_⟩
    rw [trim_toLine hjson, hread, ← hwire.members_perm_iff hmembers]
    simp
  · unfold Sv1.onUpstreamMsg
    rw [if_neg (not_not.mpr rfl)]
    split
    · split <;> rfl
    · split <;> rfl
  · unfold Sv1.onMinerMsg
    rw [if_neg hmethod]
    split
    · rfl
    · split
      · rfl
      · split <;> rfl

/-! ## Concrete lines -/

mutual

/-- The text of a value with integers and with strings that need no escapes. -/
def printValue : Value → String
  | .null => "null"
  | .bool b => toString b
  | .num (.int z) => toString z
  | .num (.float q) => toString q
  | .str s => "\"" ++ s ++ "\""
  | .arr xs => "[" ++ ",".intercalate (printValues xs) ++ "]"
  | .obj fields => "\x7b" ++ ",".intercalate (printFields fields) ++ "\x7d"

def printValues : List Value → List String
  | [] => []
  | x :: xs => printValue x :: printValues xs

def printFields : List (String × Value) → List String
  | [] => []
  | (name, v) :: fields => ("\"" ++ name ++ "\":" ++ printValue v) :: printFields fields

end

/-- The text of these objects. -/
def knownText (known : List (List (String × Value))) : JsonText where
  print fields := "\x7b" ++ ",".intercalate (printFields fields) ++ "\x7d"
  read s := known.find? fun fields =>
    decide ("\x7b" ++ ",".intercalate (printFields fields) ++ "\x7d" = s)

theorem knownText_delimits (known : List (List (String × Value))) :
    (knownText known).Delimits := by
  intro fields
  exact ⟨(",".intercalate (printFields fields)).toList, by simp [knownText]⟩

/-- A request without a `null`. -/
def subscribeFields : List (String × Value) :=
  [("id", .num (.int 1)), ("method", .str "mining.subscribe"),
    ("params", .arr [.str "cgminer/4.10"])]

/-- A response of a pool. -/
def acceptedFields : List (String × Value) :=
  [("id", .num (.int 2)), ("result", .bool true), ("error", .null)]

/-- This response, without its `null`. -/
def relayedFields : List (String × Value) := [("id", .num (.int 2)), ("result", .bool true)]

/-- The texts of the concrete lines. -/
def someText : JsonText :=
  knownText [subscribeFields, acceptedFields, relayedFields,
    (RpcMessage.setExtranonce "deadbeef" 4).members]

open RpcMessage in
theorem rpc_lines_iff_subscribe :
    ∃ m, parse someText (someText.print subscribeFields) = some m ∧
      parse someText (toLine someText m) = some m ∧
      ∃ members, someText.read (Text.trim (toLine someText m)) = some members ∧
        members.Perm subscribeFields := by
  obtain ⟨hback, hlines, _⟩ := rpc_lines_iff (knownText_delimits
    [subscribeFields, acceptedFields, relayedFields, (setExtranonce "deadbeef" 4).members])
  let subscribe : RpcMessage := {
    id := some (.num (.int 1)), method := some "mining.subscribe"
    params := some (.arr [.str "cgminer/4.10"]) }
  have hread : someText.ReadsBack subscribe.members := by
    unfold JsonText.ReadsBack
    decide +kernel
  have hwire : OnWire subscribeFields := by
    refine ⟨by decide, by decide, fun v hv => ?_⟩
    simp only [subscribeFields, List.mem_cons, Prod.mk.injEq, List.not_mem_nil, or_false] at hv
    rcases hv with ⟨hname, _⟩ | ⟨_, rfl⟩ | ⟨hname, _⟩
    · exact absurd hname (by decide)
    · exact Or.inr ⟨_, rfl⟩
    · exact absurd hname (by decide)
  obtain ⟨m, hm, hkept⟩ := hlines (someText.print subscribeFields) subscribeFields
    (by decide +kernel) hwire
  have hsubscribe : parse someText (someText.print subscribeFields) = some subscribe := by
    decide +kernel
  obtain rfl : m = subscribe := Option.some.inj (hm.symm.trans hsubscribe)
  exact ⟨_, hm, (hback _ hread).mpr (by decide), (hkept hread).mpr (by decide)⟩

open RpcMessage in
/-- The notification of a switch does not come back with its id, and the response of a pool that
reports no error is sent on without its `error`. -/
theorem null_members_are_lost :
    someText.Delimits ∧
      someText.ReadsBack (setExtranonce "deadbeef" 4).members ∧
      parse someText (toLine someText (setExtranonce "deadbeef" 4)) ≠
        some (setExtranonce "deadbeef" 4) ∧
      OnWire acceptedFields ∧
      ∃ m, parse someText "\x7b\"id\":2,\"result\":true,\"error\":null\x7d" = some m ∧
        someText.read (Text.trim (toLine someText m)) = some relayedFields ∧
        ¬relayedFields.Perm acceptedFields := by
  refine ⟨knownText_delimits _, by unfold JsonText.ReadsBack; decide +kernel, by decide +kernel,
    ⟨by decide, by decide, fun v hv => ?_⟩, ?_⟩
  · simp only [acceptedFields, List.mem_cons, Prod.mk.injEq, List.not_mem_nil, or_false] at hv
    rcases hv with ⟨hname, _⟩ | ⟨hname, _⟩ | ⟨hname, _⟩ <;> exact absurd hname (by decide)
  · exact ⟨{ id := some (.num (.int 2)), result := some (.bool true) }, by decide +kernel,
      by decide +kernel, fun hperm => absurd hperm.length_eq (by decide)⟩

end RentalProxy
