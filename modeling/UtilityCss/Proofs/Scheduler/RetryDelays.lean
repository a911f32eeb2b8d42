import UtilityCss.Proofs.Decimal.Powers
import UtilityCss.Proofs.Scheduler.RetryTrace
import UtilityCss.Proofs.Scheduler.StepErrors
/-!
# Delays before retries

The delay before a retry grows with the power of a factor, and is cut off at a minute. The cut comes
last, so a power that is out of range is an error, although the delay would be a minute; and since
the delay is computed where a failed attempt is handled, the error takes the place of the outcome of
the pass.

Here is that nothing else can go wrong: a policy is dependable exactly if the powers of its factor,
up to the last retry, are in range. They are as long as the exact power for the last retry is at
most the largest double, so delays that are doubled are dependable for 1024 retries.
-/

namespace UtilityCss

open Binary64

namespace RetryPolicy

variable {maxRetries delay k : Int} {factor growth : Float}

/-- What one may expect of a policy. -/
structure Dependable (policy : RetryPolicy) : Prop where
  /-- The delay before every retry that is granted is at least zero and at most the longest
  delay. -/
  delays : ∀ k : Int, 1 ≤ k → k ≤ policy.maxRetries → ∃ d longest, policy.delayBefore k = .ok d ∧
    thousandths policy.backoff.maxDelay = .ok longest ∧ 0.0 ≤ d ∧ d ≤ longest
  /-- Every batch has an outcome. -/
  outcomes : ∀ {σ : Type} {p : Processor σ}, p.Loyal → ∀ (files : List Text) (s : Session σ),
    s.scheduler.policy = policy → ∃ outcome s', s.runBatch p files = (.ok outcome, s')
  /-- A step is broken off by nothing but the delay of a batch. -/
  steps : ∀ {σ : Type} {p : Processor σ}, p.Loyal → ∀ s : Session σ, s.scheduler.policy = policy →
    ∀ e, (s.step p).1 = .error e → s.scheduler.settings.Refuses e

/-- What is below zero counts as zero. -/
theorem ofInt_max_zero (hdelay : ∃ x, ofInt delay = .ok x) : ∃ x, ofInt (max 0 delay) = .ok x := by
  rcases Int.le_total 0 delay with h | h
  · rwa [Int.max_eq_right h]
  · rw [Int.max_eq_left h]
    exact ⟨0.0, rfl⟩

theorem thousandths_minute : thousandths 60000 = .ok 60.0 := rfl

/-- If the power is in range, so is the delay. -/
theorem delayBefore_of_growth (hone : 1.0 ≤ factor) (hfinite : isInfinite factor = false)
    (hdelay : ∃ x, ofInt delay = .ok x) (hk : 1 ≤ k) (hgrowth : power factor (k - 1) = .ok growth) :
    ∃ d, (ofSettings maxRetries delay factor).delayBefore k = .ok d ∧ 0.0 ≤ d ∧ d ≤ 60.0 := by
  obtain ⟨first, hfirst⟩ := ofInt_max_zero hdelay
  have hproduct : 0.0 ≤ first * growth :=
    zero_le_mul (ofInt_magnitude (Int.le_max_left _ _) hfirst)
      (power_magnitude hone hfinite (by omega) hgrowth)
  have hcompute : (ofSettings maxRetries delay factor).delayBefore k =
      if intLt 60000 (first * growth) then .ok 60.0 else .ok (first * growth / 1000.0) := by
    unfold delayBefore ofSettings
    dsimp only
    rw [hgrowth, hfirst, thousandths_minute]
    rfl
  rw [hcompute]
  cases hlong : intLt 60000 (first * growth) with
  | true => exact ⟨60.0, rfl, by decide +kernel, by decide +kernel⟩
  | false =>
    have hmagnitude : IsMagnitude (first * growth) := isMagnitude_of_intLt hproduct hlong
    exact ⟨_, rfl, zero_le_div hmagnitude unpack_thousand, div_thousand_le hmagnitude hlong⟩

theorem growth_of_delayBefore {d : Float}
    (h : (ofSettings maxRetries delay factor).delayBefore k = .ok d) :
    ∃ growth, power factor (k - 1) = .ok growth := by
  obtain ⟨growth, hgrowth, -⟩ := bind_eq_ok.1 h
  exact ⟨growth, hgrowth⟩

/-- A delay that is given for a retry that is granted has been computed from a power in range. -/
theorem Dependable.powers (h : (ofSettings maxRetries delay factor).Dependable) (hk : 1 ≤ k)
    (hle : k ≤ maxRetries) : ∃ growth, power factor (k - 1) = .ok growth := by
  obtain ⟨d, -, hd, -⟩ := h.delays k hk (Int.le_trans hle (Int.le_max_right _ _))
  exact growth_of_delayBefore hd

/-- If all delays are given and lie within a minute, so that no attempt is refused its delay,
nothing goes wrong. -/
theorem dependable_of_delays (h : ∀ k : Int, 1 ≤ k → k ≤ max 0 maxRetries →
    ∃ d, (ofSettings maxRetries delay factor).delayBefore k = .ok d ∧ 0.0 ≤ d ∧ d ≤ 60.0) :
    (ofSettings maxRetries delay factor).Dependable := by
  have hgranted : ∀ e, ¬(ofSettings maxRetries delay factor).Refuses 1
      (ofSettings maxRetries delay factor).maxRetries.toNat e := by
    rintro e ⟨k, hk, hlt, hrefused⟩
    obtain ⟨d, hd, -⟩ := h k (by omega) (by unfold ofSettings at hlt; dsimp only at hlt; omega)
    rw [hrefused] at hd
    contradiction
  constructor
  case delays =>
    intro k hk hle
    obtain ⟨d, hd, hzero, hminute⟩ := h k hk hle
    exact ⟨d, 60.0, hd, thousandths_minute, hzero, hminute⟩
  case outcomes =>
    intro σ p hp files s hpolicy
    obtain ⟨-, herror⟩ := Session.runWithRetries_terms files false (hp.runPass files) hp.sleep s
    rw [← Session.runBatch.eq_def, hpolicy] at herror
    rcases hbatch : s.runBatch p files with ⟨e | outcome, s'⟩
    · exact absurd (herror e (by rw [hbatch])) (hgranted e)
    · exact ⟨outcome, s', rfl⟩
  case steps =>
    intro σ p hp s hpolicy e he
    have hrefused := (Session.step_terms hp s).2 e he
    rw [Session.Refuses, hpolicy] at hrefused
    exact hrefused.resolve_left (hgranted e)

theorem dependable_of_powers (hone : 1.0 ≤ factor) (hfinite : isInfinite factor = false)
    (hdelay : ∃ x, ofInt delay = .ok x)
    (h : ∀ k : Int, 1 ≤ k → k ≤ maxRetries → ∃ growth, power factor (k - 1) = .ok growth) :
    (ofSettings maxRetries delay factor).Dependable := by
  refine dependable_of_delays fun k hk hle => ?_
  obtain ⟨growth, hgrowth⟩ := h k hk (by omega)
  exact delayBefore_of_growth hone hfinite hdelay hk hgrowth

/-- **Delays are dependable** exactly as far as the powers of the factor are in range. -/
theorem dependable_iff (hone : 1.0 ≤ factor) (hfinite : isInfinite factor = false)
    (hdelay : ∃ x, ofInt delay = .ok x) : (ofSettings maxRetries delay factor).Dependable ↔
      ∀ k : Int, 1 ≤ k → k ≤ maxRetries → ∃ growth, power factor (k - 1) = .ok growth := by
  constructor
  · intro h k hk hle
    exact h.powers hk hle
  · intro h
    exact dependable_of_powers hone hfinite hdelay h

/-- The policy that doubles its delays is dependable. -/
theorem doubling_dependable : Session.Script.doubling.Dependable := by
  have hpowers : ∀ i : Fin 3, ∃ growth, power 2.0 (i : Nat) = .ok growth
    | 0 => ⟨1.0, by decide +kernel⟩
    | 1 => ⟨2.0, by decide +kernel⟩
    | 2 => ⟨4.0, by decide +kernel⟩
  have hfirst : ofInt 100 = .ok 100.0 := by decide +kernel
  refine (dependable_iff (by decide +kernel) (by decide +kernel) ⟨100.0, hfirst⟩).2
    fun k hk hle => ?_
  have hindex : k - 1 = ((k - 1).toNat : Int) := by omega
  rw [hindex]
  exact hpowers ⟨(k - 1).toNat, by omega⟩

/-- **As long as the last power is in range**, delays are dependable: the exact power for the last
retry is at most the largest double, and the number of retries has at most 53 bits. -/
theorem dependable_of_le {m : Nat} {e : Int} (hparts : parts factor = .finite false m e)
    (hone : 1.0 ≤ factor) (hdelay : ∃ x, ofInt delay = .ok x) (hretries : maxRetries ≤ twoTo 53)
    (hle : (Scaled.mk m e).value ^ (maxRetries - 1).toNat ≤ largest) :
    (ofSettings maxRetries delay factor).Dependable := by
  have hfinite : isInfinite factor = false := by rw [isInfinite, hparts]
  obtain ⟨hm, hvalue⟩ := one_le_value hparts hone
  refine dependable_of_powers hone hfinite hdelay fun k hk hgranted => ?_
  obtain ⟨n, hn⟩ := Int.eq_ofNat_of_zero_le (show 0 ≤ k - 1 by omega)
  rw [hn]
  refine power_of_le hparts hm (by omega) ?_
  exact (pow_le_pow_right₀ hvalue (by omega)).trans hle

/-- A power that is beyond all doubles is never cut off, so the delay for its retry is not given. -/
theorem not_dependable_of_ge {m : Nat} {e : Int} {n : Nat}
    (hparts : parts factor = .finite false m e)
    (hone : 1.0 ≤ factor) (hgranted : (n : Int) < maxRetries) (hn : n ≤ 1100)
    (hge : 2 ^ (1024 : Int) ≤ (Scaled.mk m e).value ^ n) :
    ¬(ofSettings maxRetries delay factor).Dependable := by
  intro h
  obtain ⟨growth, hgrowth⟩ := h.powers (k := n + 1) (by omega) (by omega)
  rw [Int.add_sub_cancel, power_of_ge hparts (one_le_value hparts hone).1 hn hge] at hgrowth
  contradiction

/-- Delays that are doubled are dependable for 1024 retries and no more. -/
theorem twofold_dependable_iff (hdelay : ∃ x, ofInt delay = .ok x) :
    (ofSettings maxRetries delay 2.0).Dependable ↔ maxRetries ≤ 1024 := by
  have hone : (1.0 : Float) ≤ 2.0 := by decide +kernel
  have hparts : parts 2.0 = .finite false (twoTo 52) (-51) := by decide +kernel
  have hvalue : (Scaled.mk (twoTo 52) (-51)).value = 2 := by
    rw [Scaled.value, cast_twoTo]
    norm_num
  constructor
  · intro h
    by_contra hmany
    refine not_dependable_of_ge (n := 1024) hparts hone (by omega) (by decide) ?_ h
    rw [hvalue]
    exact le_of_eq (zpow_natCast 2 1024)
  · intro hfew
    refine dependable_of_le hparts hone hdelay (Int.le_trans hfew (by decide +kernel)) ?_
    rw [hvalue]
    calc (2 : ℚ) ^ (maxRetries - 1).toNat ≤ 2 ^ 1023 := pow_le_pow_right₀ one_le_two (by omega)
      _ = 2 ^ (1023 : Int) := (zpow_natCast 2 1023).symm
      _ ≤ largest := le_largest

/-- Three retries, whose delays would be one second and then a minute. -/
def steep : RetryPolicy := .ofSettings 3 1000 1e308

/-- A processor with this policy that always fails. -/
def steepFailing : Session Session.Script :=
  .new (.new ⟨0, 0, 0⟩ steep) ⟨[], fun _ => .error .deepBraces⟩

/-- **A delay is not computed** although it would be cut off: the delay before the second retry is a
minute, but for the third there is an error, and a batch that keeps failing has no outcome. -/
theorem steep_undependable :
    steep.delayBefore 2 = .ok 60.0 ∧ steep.delayBefore 3 = .error .powerTooLarge ∧
    ∀ outcome s, steepFailing.runBatch Session.Script.processor ["a"] ≠ (.ok outcome, s) := by
  have hsecond : steep.delayBefore 2 = .ok 60.0 := by decide +kernel
  have hthird : steep.delayBefore 3 = .error .powerTooLarge := by decide +kernel
  have hnone : (steepFailing.runBatch Session.Script.processor ["a"]).1.toOption.isNone = true := by
    decide +kernel
  refine ⟨hsecond, hthird, fun outcome s hbatch => ?_⟩
  rw [hbatch] at hnone
  exact Bool.false_ne_true hnone

end RetryPolicy

end UtilityCss
