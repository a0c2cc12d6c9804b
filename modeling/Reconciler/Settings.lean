import Reconciler.Manifest.Images
import Reconciler.Number.Arithmetic

/-! # Settings

What the environment of the service configures, with its defaults. Intervals are in seconds.
-/

namespace Reconciler

/-- The configuration of the service. -/
structure Settings where
  /-- How delays and durations are rounded. -/
  arithmetic : Arithmetic := .binary64
  /-- The images of the workloads. -/
  images : Images := {}
  /-- The pause after a drift was corrected. -/
  cooldown : Rat := 60
  /-- The pause before a running job is looked at again. -/
  pollInterval : Rat := 10
  /-- The delay after the first failure. -/
  minRetryDelay : Rat := 1
  /-- The longest delay after a failure. -/
  maxRetryDelay : Rat := 60
  /-- How many calls per second the API server gets at most. -/
  callRate : Rat := 10

end Reconciler
