import Mathlib.Data.Rat.Defs

/-!
# JSON values and JSON-RPC lines

The SV1 wire is JSON-RPC over newline-delimited TCP (`proto/sv1.rs`).
`Value` is `serde_json::Value` and `RpcMessage` is the one wire type of the
proxy: a request when `method` is set, a response when it is not.

A line is represented by the message it parses to.  A line that does not parse
and a blank line are skipped by every reader of the source, so they are left
out of the streams of the model.  Numbers that the source reads with `as_f64`
are exact rationals.
-/

namespace RentalProxy

/-- A JSON number: `serde_json` keeps integers and floats apart. -/
inductive Number where
  | int (z : Int)
  | float (q : Rat)
deriving DecidableEq

/-- `serde_json::Value`. -/
inductive Value where
  | null
  | bool (b : Bool)
  | num (n : Number)
  | str (s : String)
  | arr (xs : List Value)
  | obj (fields : List (String × Value))

namespace Value

mutual

/-- Equality of two values, by recursion on the first. -/
def decEq : (a b : Value) → Decidable (a = b)
  | .null, .null => isTrue rfl
  | .bool a, .bool b => decidable_of_iff (a = b) (by simp)
  | .num a, .num b => decidable_of_iff (a = b) (by simp)
  | .str a, .str b => decidable_of_iff (a = b) (by simp)
  | .arr a, .arr b => @decidable_of_iff _ (a = b) (by simp) (decEqList a b)
  | .obj a, .obj b => @decidable_of_iff _ (a = b) (by simp) (decEqFields a b)
  | .null, .bool _ | .null, .num _ | .null, .str _ | .null, .arr _ | .null, .obj _
  | .bool _, .null | .bool _, .num _ | .bool _, .str _ | .bool _, .arr _
  | .bool _, .obj _ | .num _, .null | .num _, .bool _ | .num _, .str _
  | .num _, .arr _ | .num _, .obj _ | .str _, .null | .str _, .bool _
  | .str _, .num _ | .str _, .arr _ | .str _, .obj _ | .arr _, .null
  | .arr _, .bool _ | .arr _, .num _ | .arr _, .str _ | .arr _, .obj _
  | .obj _, .null | .obj _, .bool _ | .obj _, .num _ | .obj _, .str _
  | .obj _, .arr _ => isFalse (by simp)

/-- Equality of two arrays. -/
def decEqList : (a b : List Value) → Decidable (a = b)
  | [], [] => isTrue rfl
  | [], _ :: _ | _ :: _, [] => isFalse (by simp)
  | a :: as, b :: bs =>
    @decidable_of_iff _ (a = b ∧ as = bs) (by simp)
      (@instDecidableAnd _ _ (decEq a b) (decEqList as bs))

/-- Equality of the members of two objects. -/
def decEqFields : (a b : List (String × Value)) → Decidable (a = b)
  | [], [] => isTrue rfl
  | [], _ :: _ | _ :: _, [] => isFalse (by simp)
  | (k, a) :: as, (l, b) :: bs =>
    @decidable_of_iff _ (k = l ∧ a = b ∧ as = bs) (by simp [and_assoc])
      (@instDecidableAnd _ _ (instDecidableEqString k l)
        (@instDecidableAnd _ _ (decEq a b) (decEqFields as bs)))

end

instance : DecidableEq Value := decEq

/-- `Value::as_f64`. -/
def asF64 : Value → Option Rat
  | .num (.int z) => some z
  | .num (.float q) => some q
  | _ => none

/-- `Value::as_u64`. -/
def asU64 : Value → Option Nat
  | .num (.int (.ofNat n)) => some n
  | _ => none

/-- `Value::as_str`. -/
def asStr : Value → Option String
  | .str s => some s
  | _ => none

/-- `Value::as_array`. -/
def asArray : Value → Option (List Value)
  | .arr xs => some xs
  | _ => none

end Value

/-- One JSON-RPC line on the wire, request or response. -/
structure RpcMessage where
  id : Option Value := none
  method : Option String := none
  params : Option Value := none
  result : Option Value := none
  error : Option Value := none
deriving DecidableEq

namespace RpcMessage

/-- A request or a notification (`id` may be `null` for notifications). -/
def request (id : Value) (method : String) (params : Value) : RpcMessage where
  id := some id
  method := some method
  params := some params

/-- The `mining.set_extranonce` notification pushed after a switch. -/
def setExtranonce (extranonce1 : String) (extranonce2Size : Nat) : RpcMessage :=
  request .null "mining.set_extranonce"
    (.arr [.str extranonce1, .num (.int extranonce2Size)])

/-- The `client.reconnect` notification of the authorize step. -/
def clientReconnect (host : String) (port waitSecs : Nat) : RpcMessage :=
  request .null "client.reconnect"
    (.arr [.str host, .num (.int port), .num (.int waitSecs)])

/-- The first element of an array of parameters. -/
def firstParam (msg : RpcMessage) : Option Value :=
  (msg.params.bind Value.asArray).bind List.head?

/-- Overwrite the first parameter.  Parameters that are not a non-empty array
are left alone: `as_array_mut` and `first_mut` both answer `None` there. -/
def setFirstParam (msg : RpcMessage) (v : Value) : RpcMessage :=
  match msg.params with
  | some (.arr (_ :: rest)) => { msg with params := some (.arr (v :: rest)) }
  | _ => msg

@[simp] theorem setFirstParam_id (msg : RpcMessage) (v : Value) :
    (msg.setFirstParam v).id = msg.id := by
  unfold setFirstParam; split <;> rfl

@[simp] theorem setFirstParam_method (msg : RpcMessage) (v : Value) :
    (msg.setFirstParam v).method = msg.method := by
  unfold setFirstParam; split <;> rfl

/-- A line has a first parameter after the overwrite exactly when it had one
before, and then it is the new value. -/
theorem firstParam_setFirstParam (msg : RpcMessage) (v : Value) :
    (msg.setFirstParam v).firstParam = msg.firstParam.map fun _ => v := by
  unfold setFirstParam firstParam
  rcases hparams : msg.params with _ | p
  · simp [hparams]
  · cases p with
    | arr xs => cases xs <;> simp [hparams, Value.asArray]
    | _ => simp [hparams, Value.asArray]

/-- The number a `mining.set_difficulty` line carries as its first parameter. -/
def setDifficulty? (msg : RpcMessage) : Option Rat :=
  if msg.method = some "mining.set_difficulty" then
    msg.firstParam.bind Value.asF64
  else none

end RpcMessage

end RentalProxy
