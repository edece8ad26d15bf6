import RentalProxy.Json
import Mathlib.Data.List.Basic
import Mathlib.Algebra.Order.Field.Rat

/-!
# The protocol-agnostic session core

`UpstreamTarget`, `Routing` and `HashrateWindow` of `session.rs`, and the
accept ratio of `control.rs`.  Times are seconds and difficulties are
difficulty-1 units, both as exact rationals.
-/

namespace RentalProxy

/-- An upstream the proxy connects to as a client (a pool). -/
structure UpstreamTarget where
  /-- `host:port`. -/
  url : String
  /-- Worker or account name presented to the upstream. -/
  user : String
  password : String := ""
  /-- SV2 only: the pool's Noise authority key. -/
  authorityPubkey : Option String := none
deriving DecidableEq

/-- Where a seller miner's hashrate currently goes. -/
inductive Routing where
  /-- Not rented: mine on the seller's own default pool. -/
  | idle
  /-- Rented to an order. -/
  | rented (orderId : String)
deriving DecidableEq

namespace Routing

/-- The order of a rented session. -/
def orderId? : Routing → Option String
  | .idle => none
  | .rented o => some o

@[simp] theorem orderId?_idle : Routing.idle.orderId? = none := rfl

@[simp] theorem orderId?_rented (o : String) :
    (Routing.rented o).orderId? = some o := rfl

end Routing

/-- Rolling window of accepted-share difficulty. -/
structure HashrateWindow where
  window : Rat
  samples : List (Rat × Rat)
deriving DecidableEq

namespace HashrateWindow

/-- `HashrateWindow::new`. -/
def new (window : Rat) : HashrateWindow := ⟨window, []⟩

/-- Drop the samples at the front that are older than the window. -/
def prune (w : HashrateWindow) (now : Rat) : HashrateWindow :=
  { w with samples := w.samples.dropWhile fun s => decide (w.window < now - s.1) }

/-- Record an accepted share credited at `difficulty`. -/
def recordAt (w : HashrateWindow) (now difficulty : Rat) : HashrateWindow :=
  { w with samples := w.samples ++ [(now, difficulty)] }.prune now

end HashrateWindow

/-! ## The accept ratio -/

/-- Minimum number of submitted shares before the ratio means anything. -/
def acceptRatioMinSample : Nat := 50

/-- Accepted over submitted, `1` when nothing was submitted yet. -/
def acceptRatio (accepted submitted : Nat) : Rat :=
  if submitted = 0 then 1 else accepted / submitted

/-- Whether the ratio is low enough to flag, with a meaningful sample. -/
def acceptRatioLow (accepted submitted : Nat) : Bool :=
  decide (acceptRatioMinSample ≤ submitted) &&
    decide (acceptRatio accepted submitted < 3 / 4)

end RentalProxy
