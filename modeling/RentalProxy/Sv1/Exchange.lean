import RentalProxy.Sv1.Translator
import RentalProxy.Lib.History

/-!
# The connection to an SV2 pool

A translated upstream of an SV1 miner has a writer and a reader, and one state that they share.

* `exchangeStep` is one step of one of them.  The writer numbers and queues a share under the
  lock, and translates and writes it after that, so that the reader may run in between.
* `translateSubmit_state` is what the writer does to the shared state.
-/

namespace RentalProxy.Sv1

open StepSystem
open Sv2 (Decoder Sv2Frame SetNewPrevHash NewExtendedMiningJob SubmitShares)

/-- Where the writer stands. -/
inductive WriterTask where
  | ready
  /-- A share was queued under this number.  `none` when it cannot be translated. -/
  | holds (seq : Nat) (share : Option SubmitShares)
  /-- A write has failed. -/
  | stopped
deriving DecidableEq

/-- A connection to an SV2 pool, as its two tasks see it. -/
structure Exchange where
  state : Sv2UpState
  writer : WriterTask

/-- A connection that was just made. -/
def Exchange.fresh (channelId : Nat) : Exchange where
  state := { channelId }
  writer := .ready

inductive ExchangeEvent where
  /-- The writer takes a line of the miner. -/
  | line (line : RpcMessage)
  /-- The writer writes the share that it holds, which may fail. -/
  | write (ok : Bool)
  /-- The reader takes a frame of the pool. -/
  | frame (frame : Sv2Frame)

/-- The line is a share: only shares are queued. -/
def isShare (lib : Sv2Library) (line : RpcMessage) : Bool :=
  decide (line.method = some "mining.submit") && (lib.submit line).isSome

variable (decode : Decoder) (lib : Sv2Library)

/-- One step of one task. -/
def exchangeStep (x : Exchange) : ExchangeEvent → Option Exchange
  | .line line =>
    match x.writer with
    | .ready =>
      let (state, share) := translateSubmit lib line x.state
      some ⟨state, if isShare lib line then .holds x.state.nextSeq share else .ready⟩
    | _ => none
  | .write ok =>
    match x.writer with
    | .holds _ none => some { x with writer := .ready }
    | .holds _ (some _) => some { x with writer := if ok then .ready else .stopped }
    | _ => none
  | .frame frame => some { x with state := (handleSv2Frame decode lib frame x.state).1 }

variable {decode lib}

/-- A share is numbered and queued, another line changes nothing. -/
theorem translateSubmit_state (lib : Sv2Library) (line : RpcMessage) (s : Sv2UpState) :
    (translateSubmit lib line s).1 = if isShare lib line then
      { s with
        nextSeq := s.nextSeq + 1
        pendingSubmits := s.pendingSubmits ++ [(s.nextSeq, line.id)] }
    else s := by
  unfold translateSubmit isShare
  split
  · rename_i hmethod
    cases lib.submit line <;> simp [hmethod]
  · rename_i hmethod
    simp [hmethod]

/-- The writer changes neither the block nor the job. -/
theorem translateSubmit_work (lib : Sv2Library) (line : RpcMessage) (s : Sv2UpState) :
    (translateSubmit lib line s).1.prev = s.prev ∧ (translateSubmit lib line s).1.job = s.job := by
  rw [translateSubmit_state]
  split <;> exact ⟨rfl, rfl⟩

end RentalProxy.Sv1
