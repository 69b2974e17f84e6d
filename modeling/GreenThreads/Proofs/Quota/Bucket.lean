import GreenThreads.Proofs.Line
import GreenThreads.Quota.Group

/-!
# What a quota bucket does

The operations of a bucket described in the integers: a refill moves the start of the period on by
whole periods and credits at most one quota for each, and a member is admitted exactly while the
bucket is not in debt.
-/

namespace GreenThreads.Bucket

variable {b : Bucket} {now n : Nanos}

/-! ## Refilling -/

@[simp] theorem quota_refill (b : Bucket) (now : Nanos) : (b.refill now).quota = b.quota := by
  unfold refill; split <;> rfl

@[simp] theorem period_refill (b : Bucket) (now : Nanos) : (b.refill now).period = b.period := by
  unfold refill; split <;> rfl

@[simp] theorem consumed_refill (b : Bucket) (now : Nanos) :
    (b.refill now).consumed = b.consumed := by
  unfold refill; split <;> rfl

theorem periodsDue_eq_some (hp : 0 < b.period.toInt) (h : b.periodsDue now = some n) :
    b.period.toInt ≤ (now - b.periodStart).toInt ∧
      n.toInt = (now - b.periodStart).toInt / b.period.toInt := by
  simp only [periodsDue, Option.ite_none_left_eq_some, Option.some.injEq,
    Int64.lt_iff_toInt_lt] at h
  obtain ⟨hle, rfl⟩ := h
  have hne : b.period ≠ -1 := by rintro he; rw [he] at hp; exact absurd hp (by decide)
  refine ⟨by omega, ?_⟩
  rw [Int64.toInt_div_of_ne_right _ _ hne, Int.tdiv_eq_ediv_of_nonneg (by omega)]

theorem toInt_periodStart_advance (hp : 0 < b.period.toInt) (h : b.periodsDue now = some n) :
    ((b.advance n).periodStart - b.periodStart).toInt = n.toInt * b.period.toInt := by
  obtain ⟨hle, hn⟩ := periodsDue_eq_some hp h
  have hmul := Int.ediv_mul_le (now - b.periodStart).toInt (Int.ne_of_gt hp)
  have hn0 : 0 ≤ n.toInt := by rw [hn]; exact Int.ediv_nonneg (by omega) (by omega)
  have hm0 := Int.mul_nonneg hn0 (Int.le_of_lt hp)
  have hlt := (now - b.periodStart).toInt_lt
  rw [← hn] at hmul
  have hsub : (b.advance n).periodStart - b.periodStart = n.satMul b.period := by
    simp only [advance]; grind
  rw [hsub, Nanos.toInt_satMul]
  omega

/-- A credit raises what is left by at most one quota for each period, and never above one quota. -/
theorem remaining_credit (hq : 0 < b.quota.toInt) (hr : b.remaining.toInt ≤ b.quota.toInt)
    (hn : 0 ≤ n.toInt) :
    b.remaining.toInt ≤ (b.credit n).remaining.toInt ∧
      (b.credit n).remaining.toInt ≤ b.quota.toInt ∧
      (b.credit n).remaining.toInt ≤ b.remaining.toInt + n.toInt * b.quota.toInt := by
  have hprod := Int.mul_nonneg hn (Int.le_of_lt hq)
  have hmul := Nanos.toInt_satMul n b.quota
  have hadd := Nanos.toInt_satAdd b.remaining (n.satMul b.quota)
  have hlo := b.remaining.le_toInt
  have hhi := b.quota.toInt_lt
  simp only [credit, Nanos.toInt_min]
  omega

/-- A refill moves the start of the period on by some whole periods, and credits at most one quota
for each of them. -/
theorem refill_spec (hp : 0 < b.period.toInt) (hq : 0 < b.quota.toInt)
    (hr : b.remaining.toInt ≤ b.quota.toInt) (now : Nanos) :
    ∃ k : Nat, ((b.refill now).periodStart - b.periodStart).toInt = k * b.period.toInt ∧
      b.remaining.toInt ≤ (b.refill now).remaining.toInt ∧
      (b.refill now).remaining.toInt ≤ b.quota.toInt ∧
      (b.refill now).remaining.toInt ≤ b.remaining.toInt + k * b.quota.toInt := by
  cases h : b.periodsDue now with
  | none =>
      refine ⟨0, ?_⟩
      have hsub : b.periodStart - b.periodStart = 0 := Int64.sub_self _
      simp only [refill, h, hsub, Int64.toInt_zero]
      omega
  | some n =>
      obtain ⟨hle, hn⟩ := periodsDue_eq_some hp h
      have hn0 : 0 ≤ n.toInt := by rw [hn]; exact Int.ediv_nonneg (by omega) (by omega)
      obtain ⟨k, hk⟩ := Int.eq_ofNat_of_zero_le hn0
      refine ⟨k, ?_⟩
      have hmove := toInt_periodStart_advance hp h
      have hcredit := remaining_credit (b := b.advance n) hq hr hn0
      rw [← hk]
      simp only [refill, h]
      exact ⟨hmove, hcredit⟩

/-- The start of the period never gets ahead of a clock that is not behind it. -/
theorem periodStart_refill_le (hp : 0 < b.period.toInt) (h : b.periodStart ≤ now) :
    (b.refill now).periodStart ≤ now ∧
      (b.refill now).periodStart.toInt =
        b.periodStart.toInt + ((b.refill now).periodStart - b.periodStart).toInt := by
  cases hd : b.periodsDue now with
  | none =>
      have hsub : b.periodStart - b.periodStart = 0 := Int64.sub_self _
      simp only [refill, hd, hsub, Int64.toInt_zero, Int.add_zero, and_true]
      exact h
  | some n =>
      obtain ⟨hle, hn⟩ := periodsDue_eq_some hp hd
      have hmove := toInt_periodStart_advance hp hd
      have hmul := Int.ediv_mul_le (now - b.periodStart).toInt (Int.ne_of_gt hp)
      rw [← hn, ← hmove] at hmul
      have hnow := now.toInt_lt
      have hstart := b.periodStart.le_toInt
      rw [Int64.le_iff_toInt_le] at h
      -- The wrapped time that has passed is positive, so it is the true one.
      have hpast : (now - b.periodStart).toInt = now.toInt - b.periodStart.toInt := by
        rw [Int64.toInt_sub, Int.bmod_def] at hle ⊢
        split at hle <;> split <;> omega
      have hsum : (b.advance n).periodStart =
          b.periodStart + ((b.advance n).periodStart - b.periodStart) := by grind
      have hadd : (b.advance n).periodStart.toInt =
          b.periodStart.toInt + ((b.advance n).periodStart - b.periodStart).toInt := by
        have hn0 : 0 ≤ n.toInt := by rw [hn]; exact Int.ediv_nonneg (by omega) (by omega)
        have hm0 := Int.mul_nonneg hn0 (Int.le_of_lt hp)
        conv => lhs; rw [hsum]
        exact Nanos.toInt_add_of_range (by omega) (by omega)
      simp only [refill, hd, credit, Int64.le_iff_toInt_le]
      exact ⟨by omega, hadd⟩

/-! ## Admission -/

theorem extraPeriods_nonneg (hq : 0 < b.quota.toInt) (hr : b.remaining.toInt < 0)
    (h : b.extraPeriods = .ok n) : 0 ≤ n.toInt := by
  simp only [extraPeriods] at h
  split at h
  · cases h
  · next hmin =>
      cases h
      have hlo : -2 ^ 63 < b.remaining.toInt := by
        have hle := b.remaining.le_toInt
        have hne : b.remaining.toInt ≠ -2 ^ 63 := by
          intro he
          exact hmin (Int64.toInt_inj.mp (by rw [he]; rfl))
        omega
      have hneg : (-b.remaining).toInt = -b.remaining.toInt := by
        rw [Int64.toInt_neg, Int.bmod_eq_of_le] <;> omega
      have hdebt : (-b.remaining - 1).toInt = -b.remaining.toInt - 1 := by
        rw [Nanos.toInt_sub_of_range] <;> simp only [hneg, Int64.toInt_one] <;> omega
      have hne : b.quota ≠ -1 := by rintro he; rw [he] at hq; exact absurd hq (by decide)
      rw [Int64.toInt_div_of_ne_right _ _ hne, hdebt, Int.tdiv_eq_ediv_of_nonneg (by omega)]
      exact Int.ediv_nonneg (by omega) (by omega)

theorem delay_pos (hp : 0 < b.period.toInt) (hq : 0 < b.quota.toInt) (hr : b.remaining.toInt < 0)
    (h : b.delay now = .ok n) : 0 < n.toInt := by
  have hdebt : ¬(0 : Nanos) ≤ b.remaining := by
    rw [Int64.le_iff_toInt_le, Int64.toInt_zero]; omega
  simp only [delay, hdebt, ↓reduceIte] at h
  cases he : b.extraPeriods with
  | error fault => rw [he] at h; cases h
  | ok extra =>
      rw [he] at h
      cases h
      have hmul := Int.mul_nonneg (extraPeriods_nonneg hq hr he) (Int.le_of_lt hp)
      have hsat := Nanos.toInt_satMul extra b.period
      have hmax := Nanos.toInt_max (b.periodStart + b.period - now) 1
      rw [Int64.toInt_one] at hmax
      rw [Nanos.toInt_satAdd]
      omega

theorem delay_eq_zero_iff (hp : 0 < b.period.toInt) (hq : 0 < b.quota.toInt) (now : Nanos) :
    b.delay now = .ok 0 ↔ 0 ≤ b.remaining.toInt := by
  constructor
  · intro h
    by_cases hr : 0 ≤ b.remaining.toInt
    · exact hr
    · have hpos := delay_pos hp hq (by omega) h
      rw [Int64.toInt_zero] at hpos
      omega
  · intro hr
    have hzero : (0 : Nanos) ≤ b.remaining := by
      rw [Int64.le_iff_toInt_le, Int64.toInt_zero]; exact hr
    simp only [delay, hzero, ↓reduceIte]

/-! ## Charging -/

theorem toInt_remaining_charge (h0 : 0 ≤ n.toInt) (hl : -2 ^ 63 ≤ b.remaining.toInt - n.toInt) :
    (b.charge n).remaining.toInt = b.remaining.toInt - n.toInt := by
  simp only [charge]
  split
  · next hle =>
      rw [Int64.le_iff_toInt_le, Int64.toInt_zero] at hle
      omega
  · have hu := b.remaining.toInt_lt
    exact Nanos.toInt_sub_of_range hl (by omega)

theorem toInt_consumed_charge (h0 : 0 ≤ n.toInt) (hu : b.consumed.toInt + n.toInt < 2 ^ 63) :
    (b.charge n).consumed.toInt = b.consumed.toInt + n.toInt := by
  simp only [charge]
  split
  · next hle =>
      rw [Int64.le_iff_toInt_le, Int64.toInt_zero] at hle
      omega
  · have hl := b.consumed.le_toInt
    exact Nanos.toInt_add_of_range (by omega) hu

@[simp] theorem quota_charge (b : Bucket) (used : Nanos) : (b.charge used).quota = b.quota := by
  unfold charge; split <;> rfl

@[simp] theorem period_charge (b : Bucket) (used : Nanos) : (b.charge used).period = b.period := by
  unfold charge; split <;> rfl

@[simp] theorem periodStart_charge (b : Bucket) (used : Nanos) :
    (b.charge used).periodStart = b.periodStart := by
  unfold charge; split <;> rfl

end GreenThreads.Bucket
