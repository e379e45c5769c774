import Mathlib.Algebra.Order.Ring.Rat
import PgWalk.Tracker.Basic

/-! The retry policy as it is configured, and the retry configuration it is turned into. -/

namespace PgWalk

/-- How durations are read; the source fixes neither format. -/
structure DurationSyntax where
  -- A number, cut off to a whole one.
  parseFloat : String → Option Int
  -- A number of nanoseconds in the format with units.
  parseDuration : String → Option Int

namespace DurationSyntax

/-- A product of two 64-bit integers, which wraps around. -/
def wrapMul (a b : Int) : Int := (a * b).bmod (2 ^ 64)

/-- A duration as a number of some unit, or with units. -/
def durationOr (reader : DurationSyntax) (str : String) (baseDuration : Int) : Option Int :=
  match reader.parseFloat str with
  | some val => some (wrapMul val baseDuration)
  | none => reader.parseDuration str

/-- A duration given in seconds or in the format with units. -/
def durationOrSeconds (reader : DurationSyntax) (str : String) : Option Int :=
  reader.durationOr str 1000000000

end DurationSyntax

/-- The retry policy of an application. Its numbers are finite. -/
structure RetryPolicy where
  maxRetries : Int
  maxConnectionRetries : Int
  initialBackoff : String
  multiplier : Rat
  jitter : Rat
  maxBackoff : String

namespace RetryPolicy

/-- The configuration under which nothing is tried again. -/
def noRetryConfig : RetryConfig where
  maxRetries := 1
  maxConnectionRetries := 0
  maxBackoff := 0

def isEmpty (rp : RetryPolicy) : Bool :=
  decide (rp.maxRetries = 0) && decide (rp.maxConnectionRetries = 0) &&
    decide (rp.initialBackoff = "") && decide (rp.multiplier = 0) && decide (rp.jitter = 0) &&
    decide (rp.maxBackoff = "")

/-- Whether a single attempt is configured and nothing else. -/
def isSingleAttempt (rp : RetryPolicy) : Bool :=
  decide (rp.maxRetries = 1) && decide (rp.initialBackoff = "") && decide (rp.multiplier = 0) &&
    decide (rp.jitter = 0) && decide (rp.maxBackoff = "")

def positiveDuration (duration : Option Int) : Bool := duration.any fun length => 0 < length

/-- Everything that is wrong with a policy, in the order checked. -/
def errors (reader : DurationSyntax) (rp : RetryPolicy) : List String :=
  (if rp.maxRetries ≤ 0 then ["retryPolicy.maxRetries should be >= 1"] else []) ++
  (if positiveDuration (reader.durationOrSeconds rp.initialBackoff) then []
    else ["retryPolicy.initialBackoff should be > 0"]) ++
  (if positiveDuration (reader.durationOrSeconds rp.maxBackoff) then []
    else ["maxBackoff should be > 0"]) ++
  (if rp.multiplier < 1 then ["retryPolicy.multiplier should be >= 1"] else []) ++
  (if rp.jitter < 0 ∨ rp.jitter > 1 then
    ["retryPolicy.jitter should be within [0.0, 1.0] range"] else [])

/-- The retry configuration of a policy, or all that is wrong. -/
def asRetryConfig (reader : DurationSyntax) (rp : RetryPolicy) : Except (List String) RetryConfig :=
  if rp.isEmpty then return noRetryConfig
  else if rp.isSingleAttempt then return noRetryConfig
  else
    match rp.errors reader with
    | [] => return {
        maxRetries := rp.maxRetries
        maxConnectionRetries := rp.maxConnectionRetries
        maxBackoff := (reader.durationOrSeconds rp.maxBackoff).getD 0 }
    | wrong => throw wrong

/-- An accepted policy allows an attempt, and a backoff for a second. -/
theorem asRetryConfig_ok {reader : DurationSyntax} {rp : RetryPolicy} {config : RetryConfig}
    (accepted : rp.asRetryConfig reader = .ok config) :
    1 ≤ config.maxRetries ∧ (config.maxRetries = 1 ∨ 0 < config.maxBackoff) := by
  -- None of the checks found anything, least of all these two.
  have single : 1 ≤ noRetryConfig.maxRetries ∧
      (noRetryConfig.maxRetries = 1 ∨ 0 < noRetryConfig.maxBackoff) := by decide
  simp only [asRetryConfig] at accepted
  split at accepted
  · cases accepted
    exact single
  · split at accepted
    · cases accepted
      exact single
    · split at accepted
      · rename_i clean
        cases accepted
        simp only [errors, List.append_eq_nil_iff] at clean
        obtain ⟨⟨⟨⟨retries, -⟩, backoff⟩, -⟩, -⟩ := clean
        have enough : ¬ rp.maxRetries ≤ 0 := fun few => by simp [few] at retries
        have positive : positiveDuration (reader.durationOrSeconds rp.maxBackoff) = true := by
          by_contra short
          simp [short] at backoff
        refine ⟨by simp only; omega, .inr ?_⟩
        cases read : reader.durationOrSeconds rp.maxBackoff with
        | none => simp [positiveDuration, read] at positive
        | some length => simpa [positiveDuration, read] using positive
      · cases accepted

end RetryPolicy

end PgWalk
