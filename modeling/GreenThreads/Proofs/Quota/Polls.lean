import GreenThreads.Proofs.Quota.Answers

/-!
# Polling a bucket

With no charge in between, what a bucket holds depends on the last reading of the clock alone,
however often it was asked before: `polls_eq_last`. A member that is held back is told the moment at
which the debt is repaid: who asks earlier is held back as well, and who asks then is let in,
`delays_exact`.
-/

namespace GreenThreads

namespace Bucket

/-- How many periods have ended at `now`. -/
def ended (b : Bucket) (now : Nanos) : Nat :=
  ((now.toInt - b.periodStart.toInt) / b.period.toInt).toNat

variable {b b' b'' : Bucket} {now t : Nanos} {k m : Nat}

theorem exact_of_lt (hs : 0 ≤ b.periodStart.toInt) (hq : 0 < b.quota.toInt)
    (hlt : b.quota.toInt < 2 ^ 62) (hp : 0 < b.period.toInt) (hdebt : -2 ^ 62 < b.remaining.toInt)
    (hle : b.remaining.toInt ≤ b.quota.toInt) : b.Exact where
  quota_pos := hq
  period_pos := hp
  start_nonneg := hs
  le_quota := hle
  fits := by omega

/-! ## The end of a roll -/

theorem After.eq (h : b.After k b') (h' : b.After k b'') (hc : b'.consumed = b''.consumed) :
    b' = b'' := by
  have hstart := Int64.toInt_inj.mp (h.start.trans h'.start.symm)
  have hleft := Int64.toInt_inj.mp (h.left.trans h'.left.symm)
  have hquota := h.quota.trans h'.quota.symm
  have hperiod := h.period.trans h'.period.symm
  cases b'
  cases b''
  simp_all

theorem ended_eq (hp : 0 < b.period.toInt)
    (hlt : now.toInt < b.periodStart.toInt + (m + 1) * b.period.toInt)
    (hle : m = 0 ∨ b.periodStart.toInt + m * b.period.toInt ≤ now.toInt) : b.ended now = m := by
  have hbelow : (now.toInt - b.periodStart.toInt) / b.period.toInt < m + 1 :=
    (Int.ediv_lt_iff_lt_mul hp).mpr (by omega)
  rcases hle with rfl | hle
  · simp only [ended]
    omega
  · have habove : (m : Int) ≤ (now.toInt - b.periodStart.toInt) / b.period.toInt :=
      (Int.le_ediv_iff_mul_le hp).mpr (by omega)
    simp only [ended]
    omega

theorem ended_mono (hp : 0 < b.period.toInt) (h : now ≤ t) : b.ended now ≤ b.ended t := by
  rw [Int64.le_iff_toInt_le] at h
  exact Int.toNat_le_toNat (Int.ediv_le_ediv hp (by omega))

theorem After.refill_ended (hb : b.Exact) (h : b.After k b') (h0 : 0 ≤ now.toInt) :
    b.After (max k (b.ended now)) (b'.refill now) := by
  have hp := hb.period_pos
  obtain ⟨m, hkm, hafter, hlt, rfl | hle⟩ := h.refill hb h0
  · -- Nothing was due, so the periods that have ended are among those credited.
    have hfew : b.ended now ≤ m := by
      have hbelow : (now.toInt - b.periodStart.toInt) / b.period.toInt < m + 1 :=
        (Int.ediv_lt_iff_lt_mul hp).mpr (by omega)
      simp only [ended]
      omega
    rwa [Nat.max_eq_left hfew]
  · rwa [ended_eq hp hlt (.inr hle), Nat.max_eq_right hkm]

theorem after_refill (hb : b.Exact) (h0 : 0 ≤ now.toInt) :
    b.After (b.ended now) (b.refill now) := by
  simpa using (After.refl hb).refill_ended hb h0

/-- A refill leaves no trace of the earlier ones. -/
theorem After.refill_eq (hb : b.Exact) (h : b.After k b') (hc : b'.consumed = b.consumed)
    (hk : k ≤ b.ended now) (h0 : 0 ≤ now.toInt) : b'.refill now = b.refill now := by
  have hafter := h.refill_ended hb h0
  rw [Nat.max_eq_right hk] at hafter
  exact hafter.eq (after_refill hb h0) (by simp [hc])

theorem remaining_refill_nonneg (hp : 0 < b.period.toInt) (hq : 0 < b.quota.toInt)
    (hr : 0 ≤ b.remaining.toInt) (now : Nanos) : 0 ≤ (b.refill now).remaining.toInt := by
  cases hdue : b.periodsDue now with
  | none => rwa [refill, hdue]
  | some n =>
      obtain ⟨hle, hn⟩ := periodsDue_eq_some hp hdue
      have hn0 : 0 ≤ n.toInt := by rw [hn]; exact Int.ediv_nonneg (by omega) (by omega)
      have hprod := Int.mul_nonneg hn0 (Int.le_of_lt hq)
      have hmul := Nanos.toInt_satMul n b.quota
      have hadd := Nanos.toInt_satAdd b.remaining (n.satMul b.quota)
      simp only [refill, hdue, advance, credit, Nanos.toInt_min]
      omega

theorem After.lt_end (hb : b.Exact) (h : b.After k b') (h0 : 0 ≤ now.toInt) :
    now.toInt < (b'.refill now).periodStart.toInt + b.period.toInt := by
  obtain ⟨m, -, hafter, hlt, -⟩ := h.refill hb h0
  rw [hafter.start]
  rw [Int.add_mul] at hlt
  omega

theorem Exact.refill (hb : b.Exact) (h0 : 0 ≤ now.toInt) : (b.refill now).Exact := by
  have hafter := after_refill hb h0
  have hq := hb.quota_pos
  have hs := hb.start_nonneg
  have hfits := hb.fits
  have hmoved := Int.mul_nonneg (Int.natCast_nonneg (b.ended now)) (Int.le_of_lt hb.period_pos)
  have hgained := Int.mul_nonneg (Int.natCast_nonneg (b.ended now)) (Int.le_of_lt hq)
  have hleft := hafter.left
  have hle := hb.le_quota
  exact
    { quota_pos := by rw [hafter.quota]; exact hq
      period_pos := by rw [hafter.period]; exact hb.period_pos
      start_nonneg := by rw [hafter.start]; omega
      le_quota := by rw [hafter.quota]; omega
      fits := by rw [hafter.quota]; omega }

theorem Exact.exists_delay (hb : b.Exact) (now : Nanos) : ∃ d, b.delay now = .ok d := by
  have hq := hb.quota_pos
  have hfits := hb.fits
  by_cases hr : 0 ≤ b.remaining.toInt
  · exact ⟨0, (delay_eq_zero_iff hb.period_pos hq now).mpr hr⟩
  · obtain ⟨extra, hextra, -⟩ := toInt_extraPeriods hq (Int.not_le.mp hr) (by omega)
    have hdebt : ¬(0 : Nanos) ≤ b.remaining := by rwa [Int64.le_iff_toInt_le, Int64.toInt_zero]
    simp only [delay, hdebt, ↓reduceIte, hextra]
    exact ⟨_, rfl⟩

/-! ## Before and after the debt is repaid -/

theorem debt_of_lt_repaid (hb : b.Exact) (hdebt : b.remaining.toInt < 0)
    (hnow : now.toInt < b.repaid) (h0 : 0 ≤ now.toInt) :
    b.remaining.toInt + b.ended now * b.quota.toInt < 0 := by
  obtain ⟨m, -, -, hlt, hle⟩ := (After.refl hb).refill hb h0
  rw [ended_eq hb.period_pos hlt hle]
  rcases hle with rfl | hle
  · simpa using hdebt
  · have hbefore := Int.lt_of_le_of_lt hle hnow
    exact Int.not_le.mp fun hpaid =>
      absurd ((repaid_le_iff hb m).mpr hpaid) (Int.not_le.mpr hbefore)

theorem paid_of_repaid_le (hb : b.Exact) (hnow : b.repaid ≤ now.toInt) (h0 : 0 ≤ now.toInt) :
    0 ≤ b.remaining.toInt + b.ended now * b.quota.toInt := by
  obtain ⟨m, -, -, hlt, hle⟩ := (After.refl hb).refill hb h0
  rw [ended_eq hb.period_pos hlt hle]
  exact (repaid_lt_iff hb m).mp (Int.lt_of_le_of_lt hnow hlt)

theorem After.left_of_debt (hb : b.Exact) (h : b.After k b')
    (hdebt : b.remaining.toInt + k * b.quota.toInt < 0) :
    b'.remaining.toInt = b.remaining.toInt + k * b.quota.toInt := by
  have hq := hb.quota_pos
  have hleft := h.left
  omega

theorem end_le_repaid (hb : b.Exact) (hdebt : b.remaining.toInt + k * b.quota.toInt < 0) :
    b.periodStart.toInt + (k + 1) * b.period.toInt ≤ b.repaid :=
  Int.not_lt.mp fun hlt => absurd ((repaid_lt_iff hb k).mp hlt) (Int.not_le.mpr hdebt)

theorem After.delay_eq (hb : b.Exact) (h : b.After k b')
    (hdebt : b.remaining.toInt + k * b.quota.toInt < 0) (h0 : 0 ≤ now.toInt)
    (hnow : now.toInt < b'.periodStart.toInt + b.period.toInt) (hfit : b.repaid < 2 ^ 63) :
    ∃ d, b'.delay now = .ok d ∧ 0 < d.toInt ∧ d.toInt = b.repaid - now.toInt := by
  have hstart := h.start
  have hleft := h.left_of_debt hb hdebt
  have hnext := end_le_repaid hb hdebt
  rw [Int.add_mul] at hnext
  obtain ⟨d, hd, hpos, heq⟩ := delay_behind hb h.quota h.period hstart hleft (by omega) h0 hnow
    (by omega)
  rw [Int.sub_self, Int.zero_mul, Int.add_zero] at heq
  exact ⟨d, hd, hpos, by omega⟩

end Bucket

namespace ControlGroup

variable {g : ControlGroup} {now t : Nanos} {ts : List Nanos}

/-- What becomes of a group that is asked at some times, one after another. -/
def poll (g : ControlGroup) (ts : List Nanos) : ControlGroup :=
  ts.foldl (fun g t => (g.check t).1) g

theorem poll_cons (g : ControlGroup) (t : Nanos) (ts : List Nanos) :
    g.poll (t :: ts) = poll { g with bucket := g.bucket.refill t } ts := rfl

theorem check_eq (g : ControlGroup) (t : Nanos) :
    g.check t = ({ g with bucket := g.bucket.refill t }, (g.bucket.refill t).delay t) := rfl

/-- Polls change the bucket alone, and of that nothing but what the credited periods say. They
credit no more periods than have ended at any later time. -/
theorem exists_poll {b : Bucket} (hb : b.Exact) {k : Nat} (h : b.After k g.bucket)
    (hk : k ≤ b.ended t) (hts : ∀ s ∈ ts, 0 ≤ s.toInt ∧ s ≤ t) :
    ∃ m, b.After m (g.poll ts).bucket ∧ m ≤ b.ended t ∧
      g.poll ts = { g with bucket := (g.poll ts).bucket } ∧
      (g.poll ts).bucket.consumed = g.bucket.consumed := by
  induction ts generalizing g k with
  | nil => exact ⟨k, h, hk, rfl, rfl⟩
  | cons s ts ih =>
      obtain ⟨hs, hst⟩ := hts s (.head _)
      have hafter := h.refill_ended hb hs
      have hmax := Nat.max_le.mpr ⟨hk, Bucket.ended_mono hb.period_pos hst⟩
      obtain ⟨m, hm, hmt, heq, hc⟩ :=
        ih (g := { g with bucket := g.bucket.refill s }) hafter hmax fun z hz => hts z (.tail _ hz)
      rw [poll_cons]
      exact ⟨m, hm, hmt, heq, hc.trans (Bucket.consumed_refill _ _)⟩

/-- Asking a group at some times that do not run backwards leaves it, and answers the last time, as
asking it at the last time alone does. Each period that has ended by then is credited in full, up to
one quota, and moves the start of the period on by its length. -/
theorem polls_eq_last (hb : g.bucket.Exact) (h : (0 :: (ts ++ [t])).Pairwise (· ≤ ·)) :
    (g.poll ts).check t = g.check t ∧ (∃ d, (g.check t).2 = .ok d) ∧
      (g.check t).1.bucket.remaining.toInt =
        min g.bucket.quota.toInt
          (g.bucket.remaining.toInt + g.bucket.quota.toInt * g.bucket.ended t) ∧
      (g.check t).1.bucket.periodStart.toInt =
        g.bucket.periodStart.toInt + g.bucket.period.toInt * g.bucket.ended t := by
  simp only [List.pairwise_cons, List.pairwise_append, List.mem_append, List.mem_singleton] at h
  obtain ⟨hzero, -, -, hlast⟩ := h
  have hnonneg : ∀ s, s ∈ ts ∨ s = t → 0 ≤ s.toInt := fun s hs =>
    Int64.le_iff_toInt_le.mp (hzero s hs)
  have h0 := hnonneg t (.inr rfl)
  obtain ⟨m, hafter, hm, heq, hc⟩ := exists_poll (g := g) hb (.refl hb) (Nat.zero_le _)
    (show ∀ s ∈ ts, _ from fun s hs => ⟨hnonneg s (.inl hs), hlast s hs t rfl⟩)
  have hrolled := Bucket.after_refill hb h0
  refine ⟨?_, ?_, ?_, ?_⟩
  · rw [check_eq, check_eq, hafter.refill_eq hb hc hm h0, heq]
  · exact (hb.refill h0).exists_delay t
  · rw [Int.min_comm, Int.mul_comm]
    exact hrolled.left
  · rw [Int.mul_comm]
    exact hrolled.start

/-- The third quota of 10 repays the debt of 25: the polls in between change nothing. -/
theorem polls_eq_last_in_debt :
    ∃ g : ControlGroup, g.bucket = (Bucket.full 10 100 0).charge 35 ∧ g.bucket.Exact ∧
      ([0, 40, 100, 120, 310] : List Nanos).Pairwise (· ≤ ·) ∧
      (g.poll [40, 100, 120]).check 310 = g.check 310 := by
  have hb : ((Bucket.full 10 100 0).charge 35).Exact :=
    Bucket.exact_of_lt (by decide) (by decide) (by decide) (by decide) (by decide) (by decide)
  have hsorted : ([0, 40, 100, 120, 310] : List Nanos).Pairwise (· ≤ ·) := by decide
  exact ⟨⟨(Bucket.full 10 100 0).charge 35, [], 0, false⟩, rfl, hb, hsorted,
    (polls_eq_last hb (show (0 :: ([40, 100, 120] ++ [310])).Pairwise _ from hsorted)).1⟩

/-- A group that is asked only before its debt is repaid stays in debt, and whoever asks at `t` is
told how long it is until then. -/
theorem held_until_repaid (hb : g.bucket.Exact) (hdebt : g.bucket.remaining.toInt < 0)
    (hfit : g.bucket.repaid < 2 ^ 63) (hts : ∀ s ∈ ts, 0 ≤ s.toInt ∧ s.toInt < g.bucket.repaid)
    (h0 : 0 ≤ t.toInt) :
    (t.toInt < g.bucket.repaid →
      ∃ e, ((g.poll ts).check t).2 = .ok e ∧ 0 < e.toInt ∧
        e.toInt = g.bucket.repaid - t.toInt) ∧
    (g.bucket.repaid ≤ t.toInt → ((g.poll ts).check t).2 = .ok 0) := by
  have hq := hb.quota_pos
  have hp := hb.period_pos
  have hs := hb.start_nonneg
  have hend := Bucket.end_le_repaid (k := 0) hb (by simpa using hdebt)
  simp only [Int.natCast_zero, Int.zero_add, Int.one_mul] at hend
  -- All polls come at the last moment of the debt or before.
  obtain ⟨last, hlast⟩ : ∃ last : Nanos, last.toInt = g.bucket.repaid - 1 :=
    ⟨Int64.ofInt (g.bucket.repaid - 1), Int64.toInt_ofInt_of_le (by omega) (by omega)⟩
  have hwithin : ∀ s ∈ ts, 0 ≤ s.toInt ∧ s ≤ last := fun s hs => by
    obtain ⟨hs0, hs⟩ := hts s hs
    exact ⟨hs0, Int64.le_iff_toInt_le.mpr (by omega)⟩
  obtain ⟨m, hafter, hm, -, -⟩ := exists_poll hb (.refl hb) (Nat.zero_le _) hwithin
  have howed := Bucket.debt_of_lt_repaid hb hdebt (show last.toInt < _ by omega) (by omega)
  have hrolled := hafter.refill_ended hb h0
  refine ⟨fun hearly => ?_, fun hlate => ?_⟩
  · have hstill := Bucket.debt_of_lt_repaid hb hdebt hearly h0
    have hsum : g.bucket.remaining.toInt +
        (max m (g.bucket.ended t) : Nat) * g.bucket.quota.toInt < 0 := by
      rcases Nat.le_total m (g.bucket.ended t) with hle | hle
      · rwa [Nat.max_eq_right hle]
      · rw [Nat.max_eq_left hle]
        have hmono := Int.mul_le_mul_of_nonneg_right (Int.ofNat_le.mpr hm) (Int.le_of_lt hq)
        omega
    exact hrolled.delay_eq hb hsum h0 (hafter.lt_end hb h0) hfit
  · have hpaid := Bucket.paid_of_repaid_le hb hlate h0
    have hmono := Int.mul_le_mul_of_nonneg_right
      (Int.ofNat_le.mpr (Nat.le_max_right m (g.bucket.ended t))) (Int.le_of_lt hq)
    exact hrolled.delay_repaid hb (by omega) t

/-- A check lets in exactly if the bucket is not in debt at the time. Otherwise it tells how long to
wait: whoever asks before, however often and in whatever order, is held back until the same moment,
and whoever asks at that moment is let in. -/
theorem delays_exact (hs : 0 ≤ g.bucket.periodStart.toInt) (hq : 0 < g.bucket.quota.toInt)
    (hlt : g.bucket.quota.toInt < 2 ^ 62) (hp : 0 < g.bucket.period.toInt)
    (hdebt : -2 ^ 62 < g.bucket.remaining.toInt) (h0 : 0 ≤ now.toInt)
    (hfit : (g.bucket.refill now).repaid < 2 ^ 63) :
    ((g.check now).2 = .ok 0 ↔ 0 ≤ (g.check now).1.bucket.remaining) ∧
    (¬0 ≤ (g.check now).1.bucket.remaining →
      ∃ d, (g.check now).2 = .ok d ∧ 0 < d ∧ (now + d).toInt = now.toInt + d.toInt ∧
        ∀ ts : List Nanos, (∀ s ∈ ts, now ≤ s ∧ s < now + d) →
          (∀ t, now ≤ t → t < now + d →
            ∃ e, (((g.check now).1.poll ts).check t).2 = .ok e ∧ 0 < e ∧ t + e = now + d) ∧
          (((g.check now).1.poll ts).check (now + d)).2 = .ok 0) := by
  refine ⟨?_, fun hleft => ?_⟩
  · rw [Int64.le_iff_toInt_le]
    exact Bucket.delay_eq_zero_iff (by rwa [Bucket.period_refill]) (by rwa [Bucket.quota_refill])
      now
  · have howed : (g.bucket.refill now).remaining.toInt < 0 := by
      rw [Int64.le_iff_toInt_le, Int64.toInt_zero] at hleft
      exact Int.not_le.mp hleft
    -- A bucket that was not in debt before is not in debt now, so it held less than its quota.
    have hle : g.bucket.remaining.toInt ≤ g.bucket.quota.toInt := by
      by_contra hmore
      have hnone := Bucket.remaining_refill_nonneg hp hq (by omega) now
      omega
    have hb := Bucket.exact_of_lt hs hq hlt hp hdebt hle
    have hr := hb.refill h0
    obtain ⟨d, hd, hpos, heq⟩ := (Bucket.After.refl hr).delay_eq hr (by simpa using howed) h0
      (by simpa using (Bucket.After.refl hb).lt_end hb h0) hfit
    have hend : (now + d).toInt = now.toInt + d.toInt :=
      Nanos.toInt_add_of_range (by omega) (by omega)
    refine ⟨d, hd, Int64.lt_iff_toInt_lt.mpr (by simpa using hpos), hend, fun ts hts => ?_⟩
    have hrolled : (g.check now).1.bucket.repaid = (g.bucket.refill now).repaid := rfl
    have hwithin : ∀ s ∈ ts, 0 ≤ s.toInt ∧ s.toInt < (g.bucket.refill now).repaid := by
      intro s hs
      obtain ⟨hfrom, hto⟩ := hts s hs
      rw [Int64.le_iff_toInt_le] at hfrom
      rw [Int64.lt_iff_toInt_lt] at hto
      omega
    refine ⟨fun t hfrom hto => ?_, ?_⟩
    · rw [Int64.le_iff_toInt_le] at hfrom
      rw [Int64.lt_iff_toInt_lt] at hto
      obtain ⟨e, he, hepos, heq'⟩ := (held_until_repaid (g := (g.check now).1) (t := t) hr howed
        hfit hwithin (by omega)).1 (by omega)
      refine ⟨e, he, Int64.lt_iff_toInt_lt.mpr (by simpa using hepos), Int64.toInt_inj.mp ?_⟩
      rw [Nanos.toInt_add_of_range] <;> omega
    · exact (held_until_repaid (g := (g.check now).1) hr howed hfit hwithin (by omega)).2
        (by omega)

/-- At 120 the third quota of 10 is due and repays the debt of 25: all are held back until 300. -/
theorem delays_exact_in_debt :
    ∃ g : ControlGroup, g.bucket = (Bucket.full 10 100 0).charge 35 ∧
      g.bucket.remaining.toInt = -25 ∧ (g.bucket.refill 120).repaid < 2 ^ 63 ∧
      (g.check 120).2 = .ok 180 ∧
      (∃ e, (((g.check 120).1.poll [150, 130]).check 299).2 = .ok e ∧ 0 < e) ∧
      (((g.check 120).1.poll [299, 150]).check 300).2 = .ok 0 := by
  have hexact := delays_exact (g := ⟨(Bucket.full 10 100 0).charge 35, [], 0, false⟩)
    (by decide) (by decide) (by decide) (by decide) (by decide)
    (show 0 ≤ (120 : Nanos).toInt by decide) (by decide)
  obtain ⟨d, hd, -, -, hall⟩ := hexact.2 (by decide)
  have hdelay : (ControlGroup.check ⟨(Bucket.full 10 100 0).charge 35, [], 0, false⟩ 120).2 =
      .ok 180 := by decide
  obtain rfl : d = 180 := Except.ok.inj (hd.symm.trans hdelay)
  have hpair : ∀ {s t : Nanos}, (120 ≤ s ∧ s < 120 + 180) → (120 ≤ t ∧ t < 120 + 180) →
      ∀ u ∈ [s, t], 120 ≤ u ∧ u < 120 + 180 := fun hs ht =>
    List.forall_mem_cons.mpr ⟨hs, List.forall_mem_singleton.mpr ht⟩
  obtain ⟨e, he, hpos, -⟩ :=
    (hall [150, 130] (hpair (by decide) (by decide))).1 299 (by decide) (by decide)
  exact ⟨_, rfl, by decide, by decide, hdelay, ⟨e, he, hpos⟩,
    (hall [299, 150] (hpair (by decide) (by decide))).2⟩

end ControlGroup

end GreenThreads
