import GreenThreads.Proofs.Quota.Bucket

/-!
# What the members of a group use

Several members may have been admitted at once, and each may use a whole slice after the bucket ran
dry. Over every run of checks and charges, what they are charged stays within one quota for each
period begun and one slice for each admission that may be open at a time.
-/

namespace GreenThreads

/-- A group together with what happened to it since it was made. -/
structure Account where
  group : ControlGroup
  /-- The last reading of the clock. -/
  clock : Nanos
  /-- The admissions that have not been charged yet. -/
  unsettled : Nat := 0
  /-- All run time charged. -/
  charged : Int := 0
  /-- How far the start of the period has moved on. -/
  moved : Int := 0

namespace Account

/-- Asks the group for an admission at `now`. -/
def check (a : Account) (now : Nanos) : Account :=
  let (group, delay) := a.group.check now
  { group
    clock := now
    unsettled := match delay with
      | .ok 0 => a.unsettled + 1
      | _ => a.unsettled
    charged := a.charged
    moved := a.moved + (group.bucket.periodStart - a.group.bucket.periodStart).toInt }

/-- Settles an admission by a charge. -/
def charge (a : Account) (used : Nanos) : Account :=
  { a with
    group := a.group.charge used
    unsettled := a.unsettled - 1
    charged := a.charged + used.toInt }

/-- What becomes of a group that is made at `start`. The clock reads `dawn` at first and does not
run backwards; at most `m` admissions are open at a time, and each is settled by a charge of at most
`s`. -/
inductive Reached (quota period start dawn : Nanos) (m s : Nat) : Account → Prop where
  | opened {group : ControlGroup} :
      ControlGroup.make quota period start = .ok group →
      Reached quota period start dawn m s { group, clock := dawn }
  | check {a : Account} {now : Nanos} :
      Reached quota period start dawn m s a → a.clock ≤ now → (a.check now).unsettled ≤ m →
      Reached quota period start dawn m s (a.check now)
  | charge {a : Account} {used : Nanos} :
      Reached quota period start dawn m s a → 0 < a.unsettled →
      0 ≤ used.toInt → used.toInt ≤ s → a.charged + used.toInt < 2 ^ 62 →
      Reached quota period start dawn m s (a.charge used)

/-- The books of a group are in order: nothing was credited beyond one quota for each period begun,
and every slice of debt goes back to an admission that is settled. -/
structure Sound (quota period : Int) (m s : Nat) (a : Account) : Prop where
  quota_eq : a.group.bucket.quota.toInt = quota
  quota_pos : 0 < quota
  period_eq : a.group.bucket.period.toInt = period
  period_pos : 0 < period
  le_quota : a.group.bucket.remaining.toInt ≤ quota
  unsettled_le : a.unsettled ≤ m
  /-- At most one quota was credited for each period begun. -/
  credited : ∃ k : Nat, a.moved = k * period ∧
    a.group.bucket.remaining.toInt + a.charged ≤ quota * (1 + k)
  /-- Each of the admissions that are not open may have cost one slice of debt. -/
  debt_le : 0 ≤ a.group.bucket.remaining.toInt + ((m : Int) - a.unsettled) * s
  /-- No debt was ever made but by charges. -/
  solvent : 0 ≤ a.group.bucket.remaining.toInt + a.charged
  charged_nonneg : 0 ≤ a.charged
  charged_lt : a.charged < 2 ^ 62
  consumed_eq : a.group.bucket.consumed.toInt = a.charged

variable {quota period start dawn now used : Nanos} {m s : Nat} {a : Account} {q p : Int}

/-! ## One operation -/

theorem sound_opened {group : ControlGroup} (h : ControlGroup.make quota period start = .ok group) :
    Sound quota.toInt period.toInt m s { group, clock := dawn } := by
  simp only [ControlGroup.make, Int64.le_iff_toInt_le, Int64.toInt_zero] at h
  split at h
  · cases h
  · next hpos =>
      cases h
      have hms := Int.mul_nonneg (Int.natCast_nonneg m) (Int.natCast_nonneg s)
      exact
        { quota_eq := rfl
          quota_pos := by omega
          period_eq := rfl
          period_pos := by omega
          le_quota := Int.le_refl _
          unsettled_le := Nat.zero_le m
          credited := ⟨0, by simp, by simp [Bucket.full]⟩
          debt_le := by simp only [Bucket.full, Int.natCast_zero, Int.sub_zero]; omega
          solvent := by simp only [Bucket.full]; omega
          charged_nonneg := Int.le_refl 0
          charged_lt := by simp
          consumed_eq := rfl }

theorem unsettled_check (hp : 0 < a.group.bucket.period.toInt)
    (hq : 0 < a.group.bucket.quota.toInt) :
    (a.check now).unsettled =
      a.unsettled + if 0 ≤ (a.group.bucket.refill now).remaining.toInt then 1 else 0 := by
  have hopens : (a.group.bucket.refill now).delay now = .ok 0 ↔
      0 ≤ (a.group.bucket.refill now).remaining.toInt :=
    Bucket.delay_eq_zero_iff (by simpa using hp) (by simpa using hq) now
  simp only [check, ControlGroup.check, Bucket.check]
  split
  · next h => rw [if_pos (hopens.mp h)]
  · next h => rw [if_neg fun hr => h (hopens.mpr hr)]; rfl

theorem Sound.check (h : Sound q p m s a) (hm : (a.check now).unsettled ≤ m) :
    Sound q p m s (a.check now) := by
  have hq := h.quota_pos
  have hp := h.period_pos
  rw [← h.quota_eq] at hq
  rw [← h.period_eq] at hp
  obtain ⟨k, hmoved, hcredit⟩ := h.credited
  obtain ⟨j, hmove, hle, hquota, hgain⟩ :=
    Bucket.refill_spec hp hq (by rw [h.quota_eq]; exact h.le_quota) now
  rw [h.period_eq] at hmove
  rw [h.quota_eq] at hquota hgain
  have hopen : (a.check now).unsettled =
      a.unsettled + if 0 ≤ (a.group.bucket.refill now).remaining.toInt then 1 else 0 :=
    unsettled_check hp hq
  have hbucket : (a.check now).group.bucket = a.group.bucket.refill now := rfl
  have hcharged : (a.check now).charged = a.charged := rfl
  have hdebt := h.debt_le
  have hsolvent := h.solvent
  exact
    { quota_eq := by rw [hbucket, Bucket.quota_refill]; exact h.quota_eq
      quota_pos := h.quota_pos
      period_eq := by rw [hbucket, Bucket.period_refill]; exact h.period_eq
      period_pos := h.period_pos
      le_quota := hquota
      unsettled_le := hm
      credited := by
        refine ⟨k + j, ?_, ?_⟩
        · have hsum : (a.check now).moved = a.moved +
              ((a.group.bucket.refill now).periodStart - a.group.bucket.periodStart).toInt := rfl
          rw [hsum, hmove, hmoved, Int.natCast_add, Int.add_mul]
        · have hsplit : q * (1 + ((k + j : Nat) : Int)) = q * (1 + k) + j * q := by
            rw [Int.natCast_add, ← Int.add_assoc, Int.mul_add, Int.mul_comm q j]
          rw [hbucket, hcharged, hsplit]
          omega
      debt_le := by
        rw [hbucket]
        split at hopen
        · next hr =>
            -- An admission leaves the whole debt to come to the admissions that are open.
            have hroom : (0 : Int) ≤ (m : Int) - (a.check now).unsettled := by omega
            have hms := Int.mul_nonneg hroom (Int.natCast_nonneg s)
            omega
        · rw [hopen, Nat.add_zero]
          omega
      solvent := by rw [hbucket, hcharged]; omega
      charged_nonneg := h.charged_nonneg
      charged_lt := h.charged_lt
      consumed_eq := by rw [hbucket, hcharged, Bucket.consumed_refill]; exact h.consumed_eq }

theorem Sound.charge (h : Sound q p m s a) (hopen : 0 < a.unsettled) (h0 : 0 ≤ used.toInt)
    (hs : used.toInt ≤ s) (hlt : a.charged + used.toInt < 2 ^ 62) :
    Sound q p m s (a.charge used) := by
  have hsolvent := h.solvent
  have hcharged0 := h.charged_nonneg
  have hdebt := h.debt_le
  have hle := h.le_quota
  obtain ⟨k, hmoved, hcredit⟩ := h.credited
  have hremaining : (a.charge used).group.bucket.remaining.toInt =
      a.group.bucket.remaining.toInt - used.toInt :=
    Bucket.toInt_remaining_charge h0 (by omega)
  have hconsumed : (a.charge used).group.bucket.consumed.toInt = a.charged + used.toInt := by
    have hsum := Bucket.toInt_consumed_charge (b := a.group.bucket) h0
      (by rw [h.consumed_eq]; omega)
    rw [← h.consumed_eq]
    exact hsum
  have hbooked : (a.charge used).charged = a.charged + used.toInt := rfl
  exact
    { quota_eq := (congrArg Int64.toInt (Bucket.quota_charge _ _)).trans h.quota_eq
      quota_pos := h.quota_pos
      period_eq := (congrArg Int64.toInt (Bucket.period_charge _ _)).trans h.period_eq
      period_pos := h.period_pos
      le_quota := by omega
      unsettled_le := Nat.le_trans (Nat.sub_le _ _) h.unsettled_le
      credited := ⟨k, hmoved, by omega⟩
      debt_le := by
        have hcount : ((m : Int) - (a.charge used).unsettled) * s =
            ((m : Int) - a.unsettled) * s + s := by
          have hone : (m : Int) - (a.charge used).unsettled = ((m : Int) - a.unsettled) + 1 := by
            simp only [Account.charge]; omega
          rw [hone, Int.add_mul, Int.one_mul]
        omega
      solvent := by omega
      charged_nonneg := by omega
      charged_lt := hlt
      consumed_eq := hconsumed }

/-! ## A whole run -/

theorem Reached.sound (h : Reached quota period start dawn m s a) :
    Sound quota.toInt period.toInt m s a := by
  induction h with
  | opened hmake => exact sound_opened hmake
  | check _ _ hm ih => exact ih.check hm
  | charge _ hopen h0 hs hlt ih => exact ih.charge hopen h0 hs hlt

theorem Reached.periodStart_eq (h : Reached quota period start dawn m s a) (hle : start ≤ dawn) :
    a.group.bucket.periodStart ≤ a.clock ∧
      a.group.bucket.periodStart.toInt = start.toInt + a.moved := by
  induction h with
  | opened hmake =>
      simp only [ControlGroup.make] at hmake
      split at hmake
      · cases hmake
      · cases hmake
        exact ⟨hle, (Int.add_zero _).symm⟩
  | @check a now hprev hclock _ ih =>
      have hsound := hprev.sound
      have hp : 0 < a.group.bucket.period.toInt := by rw [hsound.period_eq]; exact hsound.period_pos
      obtain ⟨hbehind, hsum⟩ := ih
      obtain ⟨hnow, hmove⟩ :=
        Bucket.periodStart_refill_le hp (Int64.le_trans hbehind hclock)
      refine ⟨hnow, ?_⟩
      have htotal : (a.check now).moved = a.moved +
          ((a.group.bucket.refill now).periodStart - a.group.bucket.periodStart).toInt := rfl
      have hbucket : (a.check now).group.bucket = a.group.bucket.refill now := rfl
      rw [hbucket, htotal, hmove, hsum, Int.add_assoc]
  | @charge a used _ _ _ _ _ ih =>
      have hstart : (a.charge used).group.bucket.periodStart = a.group.bucket.periodStart :=
        Bucket.periodStart_charge _ _
      rw [hstart]
      exact ih

/-- Along a run a check always has an answer: a debt never grows so large that it cannot be
negated. -/
theorem Reached.check_answers (h : Reached quota period start dawn m s a) (now : Nanos) :
    ∃ delay, (a.group.check now).2 = .ok delay := by
  have hsound := h.sound
  obtain ⟨k, -, hle, -, -⟩ := Bucket.refill_spec (by rw [hsound.period_eq]; exact hsound.period_pos)
    (by rw [hsound.quota_eq]; exact hsound.quota_pos)
    (by rw [hsound.quota_eq]; exact hsound.le_quota) now
  have hsolvent := hsound.solvent
  have hlt := hsound.charged_lt
  have hmin : (a.group.bucket.refill now).remaining ≠ Int64.minValue := by
    intro he
    rw [he, Int64.toInt_minValue] at hle
    omega
  simp only [ControlGroup.check, Bucket.check, Bucket.delay, Bucket.extraPeriods, if_neg hmin]
  split
  · exact ⟨_, rfl⟩
  · exact ⟨_, rfl⟩

/-- What the members were charged stays within one quota for the first period and for each by which
the start of the period has moved on, and one slice for each admission that may be open. -/
theorem charged_le (h : Reached quota period start dawn m s a) :
    ∃ k : Nat, a.moved = k * period.toInt ∧
      (start ≤ dawn → a.group.bucket.periodStart.toInt = start.toInt + k * period.toInt) ∧
      a.group.bucket.consumed.toInt = a.charged ∧
      a.charged ≤ quota.toInt * (1 + k) + m * s := by
  have hsound := h.sound
  obtain ⟨k, hmoved, hcredit⟩ := hsound.credited
  refine ⟨k, hmoved, ?_, hsound.consumed_eq, ?_⟩
  · intro hle
    rw [← hmoved]
    exact (h.periodStart_eq hle).2
  · have hdebt := hsound.debt_le
    have hopen : ((m : Int) - a.unsettled) * s ≤ m * s :=
      Int.mul_le_mul_of_nonneg_right (by omega) (Int.natCast_nonneg s)
    omega

/-- Two members overrun a quota of 10 by a slice of 8 each, and a period later the debt is not yet
repaid. -/
theorem charged_le_two_slices :
    let a := ((((((Account.mk { bucket := Bucket.full 10 100 0 } 0 0 0 0).check 0).check 0).charge
      8).check 5).charge 8).charge 8 |>.check 120
    Reached 10 100 0 0 2 8 a ∧ a.charged = 24 ∧ a.group.bucket.remaining = -4 ∧
      ∃ k : Nat, a.moved = k * 100 ∧
        ((0 : Nanos) ≤ 0 → a.group.bucket.periodStart.toInt = 0 + k * 100) ∧
        a.group.bucket.consumed.toInt = a.charged ∧
        a.charged ≤ 10 * (1 + k) + (2 : Nat) * (8 : Nat) := by
  intro a
  have h : Reached 10 100 0 0 2 8 a := by
    refine .check (.charge (.charge (.check (.charge (.check (.check (.opened rfl) ?_ ?_) ?_ ?_)
      ?_ ?_ ?_ ?_) ?_ ?_) ?_ ?_ ?_ ?_) ?_ ?_ ?_ ?_) ?_ ?_ <;> decide
  exact ⟨h, by decide, by decide, charged_le h⟩

end Account

end GreenThreads
