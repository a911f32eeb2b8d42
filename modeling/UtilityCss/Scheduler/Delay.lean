import UtilityCss.Decimal.Binary64
/-!
# Delays

A batch waits before it is compiled, and again before each retry.
-/

namespace UtilityCss

/-! ## Batch delays

A batch waits for a base delay and a further delay for each of its files, up to a maximum, so that
many changes in a short time are compiled together. -/

/-- The delays of a batch in milliseconds. -/
structure BatchSettings where
  base : Int
  perFile : Int
  max : Int
  deriving DecidableEq, Repr

/-- The delay of a batch with the given number of files. -/
def BatchSettings.delay (s : BatchSettings) (pending : Int) : Int :=
  min (s.base + pending * s.perFile) s.max

/-! ## Retries

A pass that fails is tried again after a delay. The delay before the first retry is given in
milliseconds and grows by a factor with every retry, up to a maximum; it may be spread by a factor
that was drawn at random. -/

open Binary64

/-- How the delays between attempts grow. -/
structure Backoff where
  /-- The delay before the first retry in milliseconds. -/
  initialDelay : Int
  factor : Float
  /-- The longest delay in milliseconds. -/
  maxDelay : Int
  /-- The factor that was drawn for the delay, where delays are spread. -/
  jitter : Option Float

/-- How often a pass is tried again, and when. There is always a first attempt. -/
structure RetryPolicy where
  maxRetries : Int
  backoff : Backoff
  nonneg : 0 ≤ maxRetries

/-- An integer number of thousandths as a double. -/
def thousandths (i : Int) : Except ArithmeticError Float := (ofInt i).map (· / 1000.0)

namespace RetryPolicy

/-- The first attempt and all retries. -/
def maxAttempts (p : RetryPolicy) : Int := p.maxRetries + 1

/-- The delay in seconds before a retry, where the first retry has the number one. -/
def delayBefore (p : RetryPolicy) (retry : Int) : Except ArithmeticError Float := do
  let b := p.backoff
  let growth ← power b.factor (retry - 1)
  let delay := (← ofInt b.initialDelay) * growth
  if intLt b.maxDelay delay then
    match b.jitter with
    | none => thousandths b.maxDelay
    | some spread => return (← ofInt b.maxDelay) * spread / 1000.0
  else
    match b.jitter with
    | none => return delay / 1000.0
    | some spread => return delay * spread / 1000.0

/-- The policy of a configuration: numbers below zero count as zero, and no delay is longer than a
minute. -/
def ofSettings (maxRetries delay : Int) (factor : Float) : RetryPolicy where
  maxRetries := max 0 maxRetries
  backoff := ⟨max 0 delay, factor, 60000, none⟩
  nonneg := Int.le_max_left 0 maxRetries

end RetryPolicy

end UtilityCss
