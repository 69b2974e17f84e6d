import GreenThreads.Proofs.Quota.Bucket

/-!
# Buckets in exact integers

A clock that starts at zero does not wrap, and a bucket whose debt and quota together fit into 64
bits is credited without loss. Then what is due, a credit and a delay are what the integers say.
-/

namespace GreenThreads.Bucket

variable {b : Bucket} {now n : Nanos}

/-- A bucket whose clock started at zero, and whose debt and quota together fit into 64 bits. -/
structure Exact (b : Bucket) : Prop where
  quota_pos : 0 < b.quota.toInt
  period_pos : 0 < b.period.toInt
  start_nonneg : 0 ≤ b.periodStart.toInt
  le_quota : b.remaining.toInt ≤ b.quota.toInt
  fits : b.quota.toInt - b.remaining.toInt < 2 ^ 63

/-! ## What is due -/

theorem toInt_elapsed (hs : 0 ≤ b.periodStart.toInt) (hn : 0 ≤ now.toInt) :
    (now - b.periodStart).toInt = now.toInt - b.periodStart.toInt := by
  have hlt := now.toInt_lt
  have hlt' := b.periodStart.toInt_lt
  exact Nanos.toInt_sub_of_range (by omega) (by omega)

theorem periodsDue_eq_none_iff (hs : 0 ≤ b.periodStart.toInt) (hn : 0 ≤ now.toInt) :
    b.periodsDue now = none ↔ now.toInt < b.periodStart.toInt + b.period.toInt := by
  have helapsed := toInt_elapsed hs hn
  simp only [periodsDue, ite_eq_left_iff, reduceCtorEq, imp_false, Decidable.not_not,
    Int64.lt_iff_toInt_lt, helapsed]
  omega

theorem periodsDue_bounds (hp : 0 < b.period.toInt) (hs : 0 ≤ b.periodStart.toInt)
    (hn : 0 ≤ now.toInt) (h : b.periodsDue now = some n) :
    0 < n.toInt ∧ b.periodStart.toInt + n.toInt * b.period.toInt ≤ now.toInt ∧
      now.toInt < b.periodStart.toInt + (n.toInt + 1) * b.period.toInt := by
  obtain ⟨hle, heq⟩ := periodsDue_eq_some hp h
  have helapsed := toInt_elapsed hs hn
  rw [helapsed] at hle heq
  have hlow := Int.ediv_mul_le (now.toInt - b.periodStart.toInt) (Int.ne_of_gt hp)
  have hhigh := Int.lt_ediv_add_one_mul_self (now.toInt - b.periodStart.toInt) hp
  have hone : 1 ≤ (now.toInt - b.periodStart.toInt) / b.period.toInt := by
    rw [Int.le_ediv_iff_mul_le hp, Int.one_mul]
    exact hle
  rw [← heq] at hlow hhigh hone
  exact ⟨by omega, by omega, by omega⟩

theorem toInt_periodStart_advance_of_le (hn : 0 ≤ n.toInt) (hp : 0 < b.period.toInt)
    (hs : 0 ≤ b.periodStart.toInt)
    (h : b.periodStart.toInt + n.toInt * b.period.toInt ≤ now.toInt) :
    (b.advance n).periodStart.toInt = b.periodStart.toInt + n.toInt * b.period.toInt := by
  have hlt := now.toInt_lt
  have hmul := Int.mul_nonneg hn (Int.le_of_lt hp)
  have hsat := Nanos.toInt_satMul n b.period
  have hexact : (n.satMul b.period).toInt = n.toInt * b.period.toInt := by omega
  rw [advance, Nanos.toInt_add_of_range (by omega) (by omega), hexact]

/-! ## Credits -/

/-- A credit adds one quota for each period, and what exceeds one quota is lost. -/
theorem toInt_remaining_credit (hq : 0 ≤ b.quota.toInt) (hn : 0 ≤ n.toInt)
    (hr : b.remaining.toInt ≤ b.quota.toInt)
    (hfit : b.quota.toInt - b.remaining.toInt < 2 ^ 63) :
    (b.credit n).remaining.toInt =
      min (b.remaining.toInt + n.toInt * b.quota.toInt) b.quota.toInt := by
  have hmul := Int.mul_nonneg hn hq
  have hsat := Nanos.toInt_satMul n b.quota
  have hadd := Nanos.toInt_satAdd b.remaining (n.satMul b.quota)
  have hlo := b.remaining.le_toInt
  have hhi := b.quota.toInt_lt
  simp only [credit, Nanos.toInt_min]
  omega

/-! ## Delays -/

theorem toInt_extraPeriods (hq : 0 < b.quota.toInt) (hr : b.remaining.toInt < 0)
    (hmin : -2 ^ 63 < b.remaining.toInt) :
    ∃ extra, b.extraPeriods = .ok extra ∧
      extra.toInt = -(b.remaining.toInt / b.quota.toInt) - 1 := by
  have hne : b.remaining ≠ Int64.minValue := by
    intro he
    rw [he, Int64.toInt_minValue] at hmin
    omega
  refine ⟨(-b.remaining - 1) / b.quota, by rw [extraPeriods, if_neg hne], ?_⟩
  have hneg : (-b.remaining).toInt = -b.remaining.toInt := by
    rw [Int64.toInt_neg, Int.bmod_eq_of_le] <;> omega
  have hdebt : (-b.remaining - 1).toInt = -b.remaining.toInt - 1 := by
    rw [Nanos.toInt_sub_of_range] <;> simp only [hneg, Int64.toInt_one] <;> omega
  have hquota : b.quota ≠ -1 := by rintro he; rw [he] at hq; exact absurd hq (by decide)
  rw [Int64.toInt_div_of_ne_right _ _ hquota, hdebt, Int.tdiv_eq_ediv_of_nonneg (by omega)]
  have hsplit := Int.mul_ediv_add_emod b.remaining.toInt b.quota.toInt
  have hpos := Int.emod_nonneg b.remaining.toInt (Int.ne_of_gt hq)
  have hlt := Int.emod_lt_of_pos b.remaining.toInt hq
  have hfactor : b.quota.toInt * (-(b.remaining.toInt / b.quota.toInt) - 1) =
      -(b.quota.toInt * (b.remaining.toInt / b.quota.toInt)) - b.quota.toInt := by
    rw [Int.mul_sub, Int.mul_neg, Int.mul_one]
  refine (Int.ediv_eq_iff_of_pos hq).mpr ⟨?_, ?_⟩ <;>
  · rw [Int.mul_comm]
    omega

/-- A member is held back until the period ends whose credit repays the debt. -/
theorem delay_of_debt (hq : 0 < b.quota.toInt) (hp : 0 < b.period.toInt)
    (hr : b.remaining.toInt < 0) (hmin : -2 ^ 63 < b.remaining.toInt)
    (hnow : now.toInt < b.periodStart.toInt + b.period.toInt)
    (hfit : b.periodStart.toInt + b.period.toInt - now.toInt < 2 ^ 63) :
    ∃ d, b.delay now = .ok d ∧
      d.toInt = min (b.periodStart.toInt - b.remaining.toInt / b.quota.toInt * b.period.toInt -
        now.toInt) (2 ^ 63 - 1) := by
  obtain ⟨extra, hextra, heq⟩ := toInt_extraPeriods hq hr hmin
  have hdebt : ¬(0 : Nanos) ≤ b.remaining := by
    rw [Int64.le_iff_toInt_le, Int64.toInt_zero]; omega
  have hend : (b.periodStart + b.period - now).toInt =
      b.periodStart.toInt + b.period.toInt - now.toInt := by
    rw [Int64.toInt_sub, Int64.toInt_add, Int.bmod_sub_bmod, Int.bmod_eq_of_le] <;> omega
  refine ⟨_, by simp only [delay, hdebt, ↓reduceIte, hextra]; rfl, ?_⟩
  have hnonneg := extraPeriods_nonneg hq hr hextra
  have hmul := Int.mul_nonneg hnonneg (Int.le_of_lt hp)
  have hsat := Nanos.toInt_satMul extra b.period
  have hmax := Nanos.toInt_max (b.periodStart + b.period - now) 1
  rw [Int64.toInt_one, hend] at hmax
  rw [Nanos.toInt_satAdd, hmax]
  have hsplit : extra.toInt * b.period.toInt =
      -(b.remaining.toInt / b.quota.toInt * b.period.toInt) - b.period.toInt := by
    rw [heq, Int.sub_mul, Int.neg_mul, Int.one_mul]
  omega

end GreenThreads.Bucket
