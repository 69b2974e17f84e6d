import GreenThreads.Proofs.Quota.Cistern

/-!
# What checks answer that run at once

Checks that run at once, with no charge in between, answer as they would one after another, but for
one thing. A check that finds a debt reads when the period began after what is left; it takes what
others have claimed by then and had not credited before for periods that are still to come, and
holds its member back for that many periods too long.
-/

namespace GreenThreads

namespace Bucket

/-- The answers of checks that are made one after another. -/
def checkAll : Bucket → List Nanos → List (Except Fault Nanos)
  | _, [] => []
  | b, now :: later => (b.check now).2 :: (b.check now).1.checkAll later

/-- When the period ends whose credit repays the debt. -/
def repaid (b : Bucket) : Int :=
  b.periodStart.toInt + -(b.remaining.toInt / b.quota.toInt) * b.period.toInt

/-- What `b` becomes when `k` periods have been credited. -/
structure After (b : Bucket) (k : Nat) (b' : Bucket) : Prop where
  quota : b'.quota = b.quota
  period : b'.period = b.period
  start : b'.periodStart.toInt = b.periodStart.toInt + k * b.period.toInt
  left : b'.remaining.toInt = min (b.remaining.toInt + k * b.quota.toInt) b.quota.toInt

variable {b b' : Bucket} {now : Nanos} {i k m : Nat}

/-! ## When a debt is repaid -/

theorem paid_iff (hb : b.Exact) (m : Int) :
    0 ≤ b.remaining.toInt + m * b.quota.toInt ↔ -(b.remaining.toInt / b.quota.toInt) ≤ m := by
  rw [← Int.ediv_nonneg_iff_of_pos hb.quota_pos,
    Int.add_mul_ediv_right _ _ (Int.ne_of_gt hb.quota_pos)]
  omega

theorem repaid_le_iff (hb : b.Exact) (m : Int) :
    b.repaid ≤ b.periodStart.toInt + m * b.period.toInt ↔
      0 ≤ b.remaining.toInt + m * b.quota.toInt := by
  rw [paid_iff hb, repaid, Int.add_le_add_iff_left, Int.mul_le_mul_right hb.period_pos]

theorem repaid_lt_iff (hb : b.Exact) (m : Int) :
    b.repaid < b.periodStart.toInt + (m + 1) * b.period.toInt ↔
      0 ≤ b.remaining.toInt + m * b.quota.toInt := by
  rw [paid_iff hb, repaid, Int.add_lt_add_iff_left, Int.mul_lt_mul_right hb.period_pos,
    Int.lt_add_one_iff]

/-- Somebody who has seen the start of period `m` and what was left in period `k` is told to wait as
many periods too long as there are between the two. -/
theorem delay_behind (hb : b.Exact) (hquota : b'.quota = b.quota) (hperiod : b'.period = b.period)
    (hstart : b'.periodStart.toInt = b.periodStart.toInt + m * b.period.toInt)
    (hleft : b'.remaining.toInt = b.remaining.toInt + k * b.quota.toInt)
    (hdebt : b'.remaining.toInt < 0) (h0 : 0 ≤ now.toInt)
    (hnow : now.toInt < b'.periodStart.toInt + b.period.toInt)
    (hfit : b'.periodStart.toInt + b.period.toInt < 2 ^ 63) :
    ∃ told, b'.delay now = .ok told ∧ 0 < told.toInt ∧
      told.toInt = min (b.repaid + (m - k) * b.period.toInt - now.toInt) (2 ^ 63 - 1) := by
  have hq := hb.quota_pos
  have hp := hb.period_pos
  have hfits := hb.fits
  have hgain := Int.mul_nonneg (Int.natCast_nonneg k) (Int.le_of_lt hq)
  have hratio : b'.remaining.toInt / b'.quota.toInt = b.remaining.toInt / b.quota.toInt + k := by
    rw [hleft, hquota, Int.add_mul_ediv_right _ _ (Int.ne_of_gt hq)]
  have hmin : -2 ^ 63 < b'.remaining.toInt := by omega
  rw [← hquota] at hq
  rw [← hperiod] at hp hnow hfit
  obtain ⟨told, hdelay, htold⟩ := delay_of_debt hq hp hdebt hmin hnow (by omega)
  refine ⟨told, hdelay, delay_pos hp hq hdebt hdelay, ?_⟩
  rw [htold, hratio, hstart, hperiod, repaid]
  congr 1
  rw [Int.add_mul, Int.sub_mul, Int.neg_mul]
  omega

namespace After

theorem refl (hb : b.Exact) : After b 0 b where
  quota := rfl
  period := rfl
  start := by simp
  left := by
    have hle := hb.le_quota
    simp only [Int.natCast_zero, Int.zero_mul]
    omega

theorem refill (hb : b.Exact) (h : After b k b') (h0 : 0 ≤ now.toInt) :
    ∃ m, k ≤ m ∧ After b m (b'.refill now) ∧
      now.toInt < b.periodStart.toInt + (m + 1) * b.period.toInt ∧
      (m = k ∨ b.periodStart.toInt + m * b.period.toInt ≤ now.toInt) := by
  have hq := hb.quota_pos
  have hp := hb.period_pos
  have hbegin := hb.start_nonneg
  have hle := hb.le_quota
  have hfits := hb.fits
  have hmoved := Int.mul_nonneg (Int.natCast_nonneg k) (Int.le_of_lt hp)
  have hgained := Int.mul_nonneg (Int.natCast_nonneg k) (Int.le_of_lt hq)
  have hstart := h.start
  have hleft := h.left
  have hs : 0 ≤ b'.periodStart.toInt := by omega
  rw [← h.period] at hp
  cases hdue : b'.periodsDue now with
  | none =>
      have hearly := (periodsDue_eq_none_iff hs h0).mp hdue
      rw [h.period] at hearly
      refine ⟨k, Nat.le_refl k, by rw [Bucket.refill, hdue]; exact h, ?_, .inl rfl⟩
      rw [Int.add_mul]
      omega
  | some n =>
      obtain ⟨hn, hlow, hhigh⟩ := periodsDue_bounds hp hs h0 hdue
      have hcount : (n.toInt.toNat : Int) = n.toInt := by omega
      have hmove := toInt_periodStart_advance_of_le (Int.le_of_lt hn) hp hs hlow
      rw [h.period] at hlow hhigh hmove
      have hcredit : (b'.credit n).remaining.toInt =
          min (b'.remaining.toInt + n.toInt * b.quota.toInt) b.quota.toInt := by
        rw [← h.quota] at hq hle hfits hgained hleft ⊢
        exact toInt_remaining_credit (Int.le_of_lt hq) (Int.le_of_lt hn) (by omega) (by omega)
      have hpay := Int.mul_nonneg (Int.le_of_lt hn) (Int.le_of_lt hq)
      have hrefill : b'.refill now = (b'.advance n).credit n := by rw [Bucket.refill, hdue]
      rw [Int.add_mul] at hhigh
      refine ⟨k + n.toInt.toNat, Nat.le_add_right _ _, ?_, ?_, .inr ?_⟩
      · rw [hrefill]
        exact
          { quota := h.quota
            period := h.period
            start := by
              rw [Int.natCast_add, hcount, Int.add_mul]
              exact hmove.trans (by omega)
            left := by
              rw [Int.natCast_add, hcount, Int.add_mul]
              exact hcredit.trans (by omega) }
      · rw [Int.natCast_add, hcount, Int.add_mul, Int.add_mul]
        omega
      · rw [Int.natCast_add, hcount, Int.add_mul]
        omega

theorem delay_repaid (hb : b.Exact) (h : After b k b')
    (hpaid : 0 ≤ b.remaining.toInt + k * b.quota.toInt) (now : Nanos) : b'.delay now = .ok 0 := by
  have hq := hb.quota_pos
  have hp := hb.period_pos
  have hleft := h.left
  rw [← h.period] at hp
  rw [← h.quota] at hq hleft hpaid
  exact (delay_eq_zero_iff hp hq now).mpr (by omega)

end After

theorem repaid_le (hb : b.Exact) (hdebt : b.remaining.toInt < 0) (h0 : 0 ≤ now.toInt)
    (hleft : 0 ≤ (b.refill now).remaining) : b.repaid ≤ now.toInt := by
  rw [Int64.le_iff_toInt_le, Int64.toInt_zero] at hleft
  obtain ⟨m, -, hafter, -, hm⟩ := (After.refl hb).refill hb h0
  have hmin := hafter.left
  rcases hm with rfl | hm
  · simp only [Int.natCast_zero, Int.zero_mul] at hmin
    omega
  · exact Int.le_trans ((repaid_le_iff hb m).mpr (by omega)) hm

end Bucket

namespace Verdict

/-- The answer `d`, or up to as many periods more as the check has missed. -/
def Within (period : Int) (a : Verdict) (d : Except Fault Nanos) : Prop :=
  ∃ told due, a.delay = .ok told ∧ d = .ok due ∧
    due.toInt ≤ told.toInt ∧ told.toInt ≤ due.toInt + a.missed * period

/-- The member was let in, with so many ends of periods claimed. -/
structure Admitted (b : Bucket) (n : Nat) (a : Verdict) : Prop where
  delay : a.delay = .ok 0
  paid : 0 ≤ b.remaining.toInt + n * b.quota.toInt

/-- The member was held back until the debt is repaid and for as long as the check has missed. -/
structure Held (b : Bucket) (a : Verdict) : Prop where
  debt : b.remaining.toInt < 0
  delay : ∃ told, a.delay = .ok told ∧ 0 < told.toInt ∧
    told.toInt = min (b.repaid + a.missed * b.period.toInt - a.now.toInt) (2 ^ 63 - 1)

variable {b b' : Bucket} {a : Verdict} {as : List Verdict} {i k n : Nat}

/-! ## The same checks one after another -/

theorem Held.within_repaid (h : Held b a) (hlate : b.repaid ≤ a.now.toInt) :
    a.Within b.period.toInt (.ok 0) := by
  obtain ⟨told, hdelay, hpos, htold⟩ := h.delay
  exact ⟨told, 0, hdelay, rfl, by rw [Int64.toInt_zero]; omega, by rw [Int64.toInt_zero]; omega⟩

theorem Within.eq {p : Int} {d : Except Fault Nanos} (h : a.Within p d) (hm : a.missed = 0) :
    a.delay = d := by
  obtain ⟨told, due, htold, hdue, hle, hle'⟩ := h
  rw [hm, Int.natCast_zero, Int.zero_mul] at hle'
  have hsame : told = due := Int64.toInt_inj.mp (by omega)
  rw [htold, hdue, hsame]

theorem Admitted.within (h : Admitted b n a) (hb : b.Exact) :
    a.Within b.period.toInt (.ok 0) := by
  have hmissed := Int.mul_nonneg (Int.natCast_nonneg a.missed) (Int.le_of_lt hb.period_pos)
  exact ⟨0, 0, h.delay, rfl, Int.le_refl _, by omega⟩

theorem checkAll_repaid (hb : b.Exact) (h : b.After k b')
    (hpaid : 0 ≤ b.remaining.toInt + k * b.quota.toInt)
    (hall : ∀ a ∈ as, 0 ≤ a.now.toInt ∧ a.Within b.period.toInt (.ok 0)) :
    List.Forall₂ (Within b.period.toInt) as (b'.checkAll (as.map now)) := by
  induction as generalizing k b' with
  | nil => exact .nil
  | cons a as ih =>
      obtain ⟨hnow, hwithin⟩ := hall a (.head _)
      obtain ⟨m, hkm, hafter, -, -⟩ := h.refill hb hnow
      have hmore := Int.mul_le_mul_of_nonneg_right (Int.ofNat_le.mpr hkm)
        (Int.le_of_lt hb.quota_pos)
      have hpaid' : 0 ≤ b.remaining.toInt + m * b.quota.toInt := by omega
      refine .cons ?_ (ih hafter hpaid' fun a ha => hall a (.tail _ ha))
      rw [Bucket.check, hafter.delay_repaid hb hpaid']
      exact hwithin

theorem checkAll_first (hb : b.Exact) (h : b.After k b') (hlate : b.repaid ≤ a.now.toInt)
    (hall : ∀ z ∈ a :: as, 0 ≤ z.now.toInt ∧ z.Within b.period.toInt (.ok 0)) :
    List.Forall₂ (Within b.period.toInt) (a :: as) (b'.checkAll ((a :: as).map now)) := by
  obtain ⟨hnow, hwithin⟩ := hall a (.head _)
  obtain ⟨m, -, hafter, hm, -⟩ := h.refill hb hnow
  have hpaid := (Bucket.repaid_lt_iff hb m).mp (Int.lt_of_le_of_lt hlate hm)
  refine .cons ?_ (checkAll_repaid hb hafter hpaid fun z hz => hall z (.tail _ hz))
  rw [Bucket.check, hafter.delay_repaid hb hpaid]
  exact hwithin

/-- Before the debt is repaid all are held back until it is. -/
theorem checkAll_held {rest : List Verdict} (hb : b.Exact) (h : b.After k b')
    (hdebt : b.remaining.toInt + k * b.quota.toInt < 0)
    (hk : k ≤ n) (hfit : b.periodStart.toInt + (n + 1) * b.period.toInt < 2 ^ 63)
    (hall : ∀ a ∈ as, 0 ≤ a.now.toInt ∧ a.now.toInt < b.repaid ∧
      a.now.toInt < b.periodStart.toInt + (n + 1) * b.period.toInt ∧ Held b a)
    (hrest : ∀ k b', b.After k b' →
      List.Forall₂ (Within b.period.toInt) rest (b'.checkAll (rest.map now))) :
    List.Forall₂ (Within b.period.toInt) (as ++ rest) (b'.checkAll ((as ++ rest).map now)) := by
  have hp := hb.period_pos
  induction as generalizing k b' with
  | nil => exact hrest k b' h
  | cons a as ih =>
      obtain ⟨hnow, hearly, hlast, hheld⟩ := hall a (.head _)
      obtain ⟨m, -, hafter, hm, hreached⟩ := h.refill hb hnow
      have hdebt' : b.remaining.toInt + m * b.quota.toInt < 0 := by
        rcases hreached with rfl | hreached
        · exact hdebt
        · have hbefore := Int.lt_of_le_of_lt hreached hearly
          exact Int.not_le.mp fun hpaid =>
            absurd ((Bucket.repaid_le_iff hb m).mpr hpaid) (Int.not_le.mpr hbefore)
      have hmn : m ≤ n := by
        rcases hreached with rfl | hreached
        · exact hk
        · have hperiods := (Int.mul_lt_mul_right hp).mp
            (Int.lt_of_add_lt_add_left (Int.lt_of_le_of_lt hreached hlast))
          omega
      refine .cons ?_ (ih hafter hdebt' hmn fun a ha => hall a (.tail _ ha))
      have hbound := Int.mul_le_mul_of_nonneg_right (Int.ofNat_le.mpr hmn) (Int.le_of_lt hp)
      have hleft : (b'.refill a.now).remaining.toInt =
          b.remaining.toInt + m * b.quota.toInt := by
        have hmin := hafter.left
        have hq := hb.quota_pos
        omega
      rw [Int.add_mul] at hm hfit
      have hstart := hafter.start
      obtain ⟨due, hdue, -, heq⟩ := Bucket.delay_behind hb hafter.quota hafter.period hstart hleft
        (by omega) hnow (by omega) (by omega)
      obtain ⟨told, htold, hpos, heq'⟩ := hheld.delay
      have hmissed := Int.mul_nonneg (Int.natCast_nonneg a.missed) (Int.le_of_lt hp)
      rw [Int.sub_self, Int.zero_mul] at heq
      exact ⟨told, due, htold, hdue, by omega, by omega⟩

theorem exists_split {P Q : Verdict → Prop} (h : ∀ a ∈ as, P a ∨ Q a) :
    ∃ xs ys : List Verdict, (xs ++ ys).Perm as ∧ (∀ a ∈ xs, P a) ∧ ∀ a ∈ ys, Q a := by
  induction as with
  | nil => exact ⟨[], [], .refl _, fun _ ha => absurd ha List.not_mem_nil, fun _ ha =>
      absurd ha List.not_mem_nil⟩
  | cons a as ih =>
      obtain ⟨xs, ys, hperm, hxs, hys⟩ := ih fun z hz => h z (.tail _ hz)
      rcases h a (.head _) with hp | hq
      · exact ⟨a :: xs, ys, hperm.cons a, List.forall_mem_cons.mpr ⟨hp, hxs⟩, hys⟩
      · exact ⟨xs, a :: ys, List.perm_middle.trans (hperm.cons a), hxs,
          List.forall_mem_cons.mpr ⟨hq, hys⟩⟩

end Verdict

/-- What a check was told, if it has its answer. -/
def Usage.answer? : Usage → Option Verdict
  | .answered a => some a
  | .looking _ | .claiming _ _ _ | .gauging _ _ _ | .crediting _ _ _ _ | .reading _
  | .judging _ _ _ | .drawing _ | .booking _ | .booked => none

namespace Cistern

/-- All answers given. -/
def answers (c : Cistern) : List Verdict := c.calls.filterMap Usage.answer?

/-- The readings of the clock at which checks were asked for. -/
def moments (c : Cistern) : List Nanos := c.calls.filterMap Usage.moment

variable {b : Bucket} {c c' : Cistern} {x y : Usage} {now start n seen t : Nanos} {i k : Nat}

theorem perm_moments_advance (on : x ∈ c.calls) (hm : y.moment = x.moment) :
    (c.advance x y).moments.Perm c.moments := by
  have hperm := (List.perm_cons_erase on).filterMap Usage.moment
  rw [List.filterMap_cons, ← hm, ← List.filterMap_cons] at hperm
  exact hperm.symm

theorem mem_moments (on : x ∈ c.calls) (hm : x.moment = some t) : t ∈ c.moments :=
  List.mem_filterMap.mpr ⟨x, on, hm⟩

/-! ## What holds between any two steps of checks -/

/-- What a thread knows of the debt as far as it is, when `i` ends of periods have been claimed. -/
def Knows (b : Bucket) (i : Nat) : Usage → Prop
  | .judging _ seen k => seen.toInt < 0 ∧
      seen.toInt = b.remaining.toInt + k * b.quota.toInt ∧ k ≤ i
  | .answered a => a.now.toInt < b.periodStart.toInt + (i + 1) * b.period.toInt ∧
      (a.Admitted b i ∨ a.Held b)
  | .looking _ | .claiming _ _ _ | .gauging _ _ _ | .crediting _ _ _ _ | .reading _ | .drawing _
  | .booking _ | .booked => True

theorem Knows.mono (h : Knows b i x) (hb : b.Exact) (hik : i ≤ k) : Knows b k x := by
  have hperiods := Int.mul_le_mul_of_nonneg_right (Int.ofNat_le.mpr hik)
    (Int.le_of_lt hb.period_pos)
  have hquotas := Int.mul_le_mul_of_nonneg_right (Int.ofNat_le.mpr hik) (Int.le_of_lt hb.quota_pos)
  cases x with
  | judging => exact ⟨h.1, h.2.1, Nat.le_trans h.2.2 hik⟩
  | answered a =>
      obtain ⟨hnow, htold⟩ := h
      refine ⟨?_, htold.imp_left fun hin => ⟨hin.delay, ?_⟩⟩
      · rw [Int.add_mul] at hnow ⊢
        omega
      · have hpaid := hin.paid
        omega
  | _ => trivial

/-- What has become of the bucket `b` if nobody has charged. -/
structure Told (b : Bucket) (c : Cistern) : Prop extends Sound b c where
  left : c.bucket.remaining.toInt =
    min (b.remaining.toInt + c.credited.length * b.quota.toInt) b.quota.toInt
  since : ∀ t ∈ c.moments, 0 ≤ t.toInt
  /-- Whoever claimed the last period saw it end. -/
  latest : c.claimed = [] ∨ ∃ t ∈ c.moments, c.bucket.periodStart.toInt ≤ t.toInt
  knows : ∀ x ∈ c.calls, Knows b c.claimed.length x

namespace Told

theorem opened (hb : b.Exact) : Told b { bucket := b } :=
  { Sound.opened hb with
    left := (Bucket.After.refl hb).left
    since := fun t ht => by cases ht
    latest := .inl rfl
    knows := fun x hx => by cases hx }

theorem length_credited_le (h : Told b c) : c.credited.length ≤ c.claimed.length := by
  have hlength := h.credited.length_eq
  rw [List.length_append] at hlength
  omega

theorem knows_advance (h : Told b c) (hb : b.Exact) (hi : c.claimed.length ≤ i)
    (hy : Knows b i y) : ∀ z ∈ (c.advance x y).calls, Knows b i z := by
  intro z hz
  rcases mem_advance hz with rfl | hz
  · exact hy
  · exact (h.knows z hz).mono hb hi

theorem advance (h : Told b c) (hb : b.Exact) (hs : Sound b (c.advance x y)) (on : x ∈ c.calls)
    (hm : y.moment = x.moment) (hy : Knows b c.claimed.length y) : Told b (c.advance x y) :=
  have hperm := perm_moments_advance on hm
  { hs with
    left := h.left
    since := fun t ht => h.since t (hperm.mem_iff.mp ht)
    latest := h.latest.imp_right fun ⟨t, ht, hle⟩ => ⟨t, hperm.mem_iff.mpr ht, hle⟩
    knows := h.knows_advance hb (Nat.le_refl _) hy }

theorem now_lt (h : Told b c) (hnow : now.toInt < c.bucket.periodStart.toInt + b.period.toInt) :
    now.toInt < b.periodStart.toInt + (c.claimed.length + 1) * b.period.toInt := by
  have hstart := h.start
  rw [Int.add_mul]
  omega

/-- A check that reads when the period began goes by what was left before. -/
theorem told (h : Told b c) (hb : b.Exact) (on : .judging now seen k ∈ c.calls)
    (hend : c.bucket.periodStart.toInt + b.period.toInt < 2 ^ 63) :
    Verdict.Held b
      ⟨now, Bucket.delay { c.bucket with remaining := seen } now, c.claimed.length - k⟩ := by
  have hnow := h.since now (mem_moments on rfl)
  have hlt : now.toInt < c.bucket.periodStart.toInt + b.period.toInt := h.calls _ on
  obtain ⟨hdebt, hseen, hk⟩ := h.knows _ on
  obtain ⟨told, hdelay, hpos, htold⟩ := @Bucket.delay_behind b { c.bucket with remaining := seen }
    now k c.claimed.length hb h.quota h.period h.start hseen hdebt hnow hlt hend
  have hgain := Int.mul_nonneg (Int.natCast_nonneg k) (Int.le_of_lt hb.quota_pos)
  exact ⟨by omega, told, hdelay, hpos, by rw [htold, Int.ofNat_sub hk]⟩

theorem check (h : Told b c) (hb : b.Exact) (hs : Check c c')
    (hend : c'.bucket.periodStart.toInt + b.period.toInt < 2 ^ 63) : Told b c' := by
  have hsound := h.toSound.check hb hs
  have hq := hb.quota_pos
  cases hs with
  | @ask now started =>
      exact
        { hsound with
          left := h.left
          since := fun t ht => by
            rcases List.mem_cons.mp ht with rfl | ht
            · exact started
            · exact h.since t ht
          latest := h.latest.imp_right fun ⟨t, ht, hle⟩ => ⟨t, .tail _ ht, hle⟩
          knows := fun x hx => by
            cases hx with
            | head => trivial
            | tail _ hx => exact h.knows x hx }
  | rest on early => exact h.advance hb hsound on rfl trivial
  | find on due => exact h.advance hb hsound on rfl trivial
  | @claim now start n on same =>
      subst same
      obtain ⟨-, -, hle, -⟩ := h.calls _ on
      have hperm := perm_moments_advance (c := c.claim c.bucket.periodStart n)
        (y := .gauging now c.bucket.periodStart n) on rfl
      have hmove := h.start_claim hb on rfl
      exact
        { hsound with
          left := h.left
          since := fun t ht => h.since t (hperm.mem_iff.mp ht)
          latest := .inr ⟨now, hperm.mem_iff.mpr (mem_moments on rfl), by
            simp only [Cistern.advance, Cistern.claim, hmove]
            exact hle⟩
          knows := h.knows_advance hb (List.prefix_append _ _).length_le trivial }
  | lose on other => exact h.advance hb hsound on rfl trivial
  | gauge on => exact h.advance hb hsound on rfl trivial
  | @credit now start n seen on same =>
      obtain ⟨hn, -⟩ := h.calls _ on
      have hperm := perm_moments_advance (c := c.credit start n) (y := .reading now) on rfl
      have hcount : (n.toInt.toNat : Int) = n.toInt := by omega
      have hleft := h.left
      have hmore := Int.mul_le_mul_of_nonneg_right hn (Int.le_of_lt hq)
      have hgain := h.left_credit hb on
      exact
        { hsound with
          left := by
            simp only [Cistern.advance, Cistern.credit, hgain, List.length_append, length_ends,
              Int.natCast_add, hcount, Int.add_mul]
            omega
          since := fun t ht => h.since t (hperm.mem_iff.mp ht)
          latest := h.latest.imp_right fun ⟨t, ht, hle⟩ => ⟨t, hperm.mem_iff.mpr ht, hle⟩
          knows := h.knows_advance hb (Nat.le_refl _) trivial }
  | retry on => exact h.advance hb hsound on rfl trivial
  | clear on left =>
      refine h.advance hb hsound on rfl ⟨h.now_lt (h.calls _ on), .inl ⟨rfl, ?_⟩⟩
      rw [Int64.le_iff_toInt_le, Int64.toInt_zero] at left
      have hleft := h.left
      have hmore := Int.mul_le_mul_of_nonneg_right (Int.ofNat_le.mpr h.length_credited_le)
        (Int.le_of_lt hq)
      omega
  | owe on debt =>
      rw [Int64.le_iff_toInt_le, Int64.toInt_zero] at debt
      have hleft := h.left
      exact h.advance hb hsound on rfl ⟨by omega, by omega, h.length_credited_le⟩
  | tell on =>
      exact h.advance hb hsound on rfl ⟨h.now_lt (h.calls _ on), .inr (h.told hb on hend)⟩

theorem run (hb : b.Exact) (h : Relation.ReflTransGen Check { bucket := b } c)
    (hend : c.bucket.periodStart.toInt + b.period.toInt < 2 ^ 63) : Told b c := by
  induction h with
  | refl => exact opened hb
  | @tail c c' hsteps hstep ih =>
      have hsound := (Sound.opened hb).checks hb hsteps
      have hle := hsound.start_le (hsound.check hb hstep) hb hstep.length_claimed_le
      exact (ih (by omega)).check hb hstep hend

end Told

/-! ## Answers in some order -/

theorem mem_answers {a : Verdict} : a ∈ c.answers ↔ .answered a ∈ c.calls := by
  rw [answers, List.mem_filterMap]
  constructor
  · rintro ⟨x, hx, ha⟩
    cases x with
    | answered a' => cases ha; exact hx
    | _ => cases ha
  · exact fun ha => ⟨_, ha, rfl⟩

namespace Told

theorem exists_late (h : Told b c) (hb : b.Exact) (hall : ∀ x ∈ c.calls, ∃ a, x = .answered a)
    (hdebt : b.remaining.toInt < 0)
    (hpaid : 0 ≤ b.remaining.toInt + c.claimed.length * b.quota.toInt) :
    ∃ a ∈ c.answers, b.repaid ≤ a.now.toInt := by
  rcases h.latest with hnone | ⟨t, ht, hle⟩
  · rw [hnone] at hpaid
    simp only [List.length_nil, Int.natCast_zero, Int.zero_mul] at hpaid
    omega
  · obtain ⟨x, hx, hm⟩ := List.mem_filterMap.mp ht
    obtain ⟨a, rfl⟩ := hall x hx
    cases hm
    refine ⟨a, mem_answers.mpr hx, Int.le_trans ?_ hle⟩
    rw [h.start]
    exact (Bucket.repaid_le_iff hb _).mpr hpaid

theorem held_or_within (h : Told b c) (hb : b.Exact) {a : Verdict} (ha : a ∈ c.answers) :
    0 ≤ a.now.toInt ∧
      ((a.now.toInt < b.repaid ∧
          a.now.toInt < b.periodStart.toInt + (c.claimed.length + 1) * b.period.toInt ∧
          a.Held b) ∨
        (a.Within b.period.toInt (.ok 0) ∧
          (a.Admitted b c.claimed.length ∨ b.repaid ≤ a.now.toInt))) := by
  refine ⟨h.since _ (mem_moments (mem_answers.mp ha) rfl), ?_⟩
  obtain ⟨hlast, hin | hheld⟩ := h.knows _ (mem_answers.mp ha)
  · exact .inr ⟨hin.within hb, .inl hin⟩
  · rcases lt_or_ge a.now.toInt b.repaid with hearly | hlate
    · exact .inl ⟨hearly, hlast, hheld⟩
    · exact .inr ⟨hheld.within_repaid hlate, .inr hlate⟩

/-- Those that were held back before the debt was repaid come first, then somebody who asked after
that, then all others. -/
theorem exists_order (h : Told b c) (hb : b.Exact) (hall : ∀ x ∈ c.calls, ∃ a, x = .answered a)
    (hend : c.bucket.periodStart.toInt + b.period.toInt < 2 ^ 63) :
    ∃ order : List Verdict, order.Perm c.answers ∧
      List.Forall₂ (Verdict.Within b.period.toInt) order (b.checkAll (order.map Verdict.now)) := by
  obtain ⟨held, others, hperm, hheld, hothers⟩ :=
    Verdict.exists_split fun a ha => (h.held_or_within hb ha).2
  have hsince : ∀ a ∈ held ++ others, 0 ≤ a.now.toInt := fun a ha =>
    (h.held_or_within hb (hperm.mem_iff.mp ha)).1
  have hzero : ∀ a ∈ others, 0 ≤ a.now.toInt ∧ a.Within b.period.toInt (.ok 0) := fun a ha =>
    ⟨hsince a (List.mem_append_right _ ha), (hothers a ha).1⟩
  by_cases hdebt : 0 ≤ b.remaining.toInt
  · have hnone : held = [] := List.eq_nil_iff_forall_not_mem.mpr fun a ha =>
      Int.not_le.mpr (hheld a ha).2.2.debt hdebt
    subst hnone
    exact ⟨others, hperm, Verdict.checkAll_repaid hb (.refl hb) (by simpa using hdebt) hzero⟩
  have hfit : b.periodStart.toInt + (c.claimed.length + 1) * b.period.toInt < 2 ^ 63 := by
    have hstart := h.start
    rw [Int.add_mul]
    omega
  have hheld' : ∀ a ∈ held, 0 ≤ a.now.toInt ∧ a.now.toInt < b.repaid ∧
      a.now.toInt < b.periodStart.toInt + (c.claimed.length + 1) * b.period.toInt ∧
      a.Held b := fun a ha => ⟨hsince a (List.mem_append_left _ ha), hheld a ha⟩
  have hbefore := fun rest => @Verdict.checkAll_held b b held 0 c.claimed.length rest hb (.refl hb)
    (by simpa using hdebt) (Nat.zero_le _) hfit hheld'
  cases others with
  | nil => exact ⟨held ++ [], hperm, hbefore [] fun _ _ _ => .nil⟩
  | cons y ys =>
      have hlate : ∃ a ∈ y :: ys, b.repaid ≤ a.now.toInt := by
        rcases (hothers y (.head _)).2 with hin | hlate
        · obtain ⟨a, ha, hlate⟩ := h.exists_late hb hall (Int.not_le.mp hdebt) hin.paid
          refine ⟨a, ?_, hlate⟩
          exact (List.mem_append.mp (hperm.mem_iff.mpr ha)).resolve_left fun ha =>
            Int.not_le.mpr (hheld a ha).1 hlate
        · exact ⟨y, .head _, hlate⟩
      obtain ⟨first, hfirst, hlate⟩ := hlate
      have hmove := List.perm_cons_erase hfirst
      refine ⟨held ++ first :: (y :: ys).erase first, (hmove.symm.append_left _).trans hperm,
        hbefore _ fun k b' hafter => ?_⟩
      exact Verdict.checkAll_first hb hafter hlate fun z hz => hzero z (hmove.mem_iff.mpr hz)

end Told

/-- Checks that run at once with no charge in between are answered as they would be in some order
one after another, but for up to as many periods more as a check has missed. Nobody is told to wait
beyond the first moment at which the bucket is out of debt, but for those periods. When no check has
missed any, the answers are those of the order. -/
theorem checks_answer_in_order (hb : b.Exact) (h : Relation.ReflTransGen Check { bucket := b } c)
    (hend : c.bucket.periodStart.toInt + b.period.toInt < 2 ^ 63)
    (hall : ∀ x ∈ c.calls, ∃ a, x = .answered a) :
    (∀ a ∈ c.answers, ∃ told, a.delay = .ok told ∧ (told = 0 ∨
      ∀ t : Nanos, 0 ≤ t.toInt → 0 ≤ (b.refill t).remaining →
        a.now.toInt + told.toInt ≤ t.toInt + a.missed * b.period.toInt)) ∧
    ∃ order : List Verdict, order.Perm c.answers ∧
      List.Forall₂ (Verdict.Within b.period.toInt) order (b.checkAll (order.map Verdict.now)) ∧
      ((∀ a ∈ c.answers, a.missed = 0) →
        order.map Verdict.delay = b.checkAll (order.map Verdict.now)) := by
  have htold := Told.run hb h hend
  obtain ⟨order, hperm, hwithin⟩ := htold.exists_order hb hall hend
  refine ⟨fun a ha => ?_, order, hperm, hwithin, fun hnone => ?_⟩
  · obtain ⟨-, hin | hheld⟩ := htold.knows _ (mem_answers.mp ha)
    · exact ⟨0, hin.delay, .inl rfl⟩
    · obtain ⟨told, hdelay, -, heq⟩ := hheld.delay
      refine ⟨told, hdelay, .inr fun t ht hleft => ?_⟩
      have hle := Bucket.repaid_le hb hheld.debt ht hleft
      omega
  · rw [← List.forall₂_eq_eq_eq, List.forall₂_map_left_iff]
    have hmissed : ∀ a ∈ order, a.missed = 0 := fun a ha => hnone a (hperm.mem_iff.mp ha)
    exact ((List.forall₂_and_left _ _).mpr ⟨hmissed, hwithin⟩).imp fun a d had => had.2.eq had.1

/-- Two checks ask at the end of a period that repays the debt. The second one is told to wait for
another period, as the first one has claimed this one and has not credited it yet. -/
theorem overtaken : Relation.ReflTransGen Check { bucket := (Bucket.full 10 100 0).charge 12 }
    ⟨⟨10, 100, 100, 8, 12⟩, [.answered ⟨100, .ok 0, 0⟩, .answered ⟨100, .ok 100, 1⟩],
      [100], [100], 0, 0⟩ := by
  have hclaim : Relation.ReflTransGen Check { bucket := (Bucket.full 10 100 0).charge 12 }
      ⟨⟨10, 100, 100, -2, 12⟩, [.gauging 100 0 1], [100], [], 0, 0⟩ :=
    ((Relation.ReflTransGen.refl.tail (@Check.ask _ 100 (by decide))).tail
      (@Check.find _ 100 1 (.head _) (by decide))).tail
      (@Check.claim _ 100 0 1 (.head _) (by decide))
  have htell : Relation.ReflTransGen Check { bucket := (Bucket.full 10 100 0).charge 12 }
      ⟨⟨10, 100, 100, -2, 12⟩, [.answered ⟨100, .ok 100, 1⟩, .gauging 100 0 1], [100], [], 0, 0⟩ :=
    (((hclaim.tail (@Check.ask _ 100 (by decide))).tail
      (@Check.rest _ 100 (.head _) (by decide))).tail
      (@Check.owe _ 100 (.head _) (by decide))).tail
      (@Check.tell _ 100 (-2) 0 (.head _))
  have hcredit : Relation.ReflTransGen Check { bucket := (Bucket.full 10 100 0).charge 12 }
      ⟨⟨10, 100, 100, 8, 12⟩, [.reading 100, .answered ⟨100, .ok 100, 1⟩], [100], [100], 0, 0⟩ :=
    (htell.tail (@Check.gauge _ 100 0 1 (.tail _ (.head _)))).tail
      (@Check.credit _ 100 0 1 (-2) (.head _) rfl)
  exact hcredit.tail (@Check.clear _ 100 (.head _) (by decide))

theorem exact_overtaken : ((Bucket.full 10 100 0).charge 12).Exact where
  quota_pos := by decide
  period_pos := by decide
  start_nonneg := by decide
  le_quota := by decide
  fits := by decide

/-- One of the two has missed the period that it is told to wait for. -/
theorem checks_answer_in_order_overtaken :
    ∃ c : Cistern, c.answers = [⟨100, .ok 0, 0⟩, ⟨100, .ok 100, 1⟩] ∧
      ((Bucket.full 10 100 0).charge 12).Exact ∧
      Relation.ReflTransGen Check { bucket := (Bucket.full 10 100 0).charge 12 } c ∧
      c.bucket.periodStart.toInt + ((Bucket.full 10 100 0).charge 12).period.toInt < 2 ^ 63 ∧
      (∀ x ∈ c.calls, ∃ a, x = .answered a) ∧
      ∃ order : List Verdict, order.Perm c.answers ∧
        List.Forall₂ (Verdict.Within 100) order
          (((Bucket.full 10 100 0).charge 12).checkAll (order.map Verdict.now)) := by
  refine ⟨_, rfl, exact_overtaken, overtaken, by decide, by simp, ?_⟩
  obtain ⟨-, order, hperm, hwithin, -⟩ :=
    checks_answer_in_order exact_overtaken overtaken (by decide) (by simp)
  exact ⟨order, hperm, hwithin⟩

/-- No order of the two gives these answers, and the debt is repaid when the second one is told to
wait. A single check is told to wait as well, with no other at the time, when the credit of some
periods at once exceeds the range and so falls short of a debt that they have repaid. -/
theorem answers_out_of_order :
    (∃ c : Cistern,
      Relation.ReflTransGen Check { bucket := (Bucket.full 10 100 0).charge 12 } c ∧
      (∀ x ∈ c.calls, ∃ a, x = .answered a) ∧
      (∀ order : List Verdict, order.Perm c.answers →
        order.map Verdict.delay ≠
          ((Bucket.full 10 100 0).charge 12).checkAll (order.map Verdict.now)) ∧
      (∃ a ∈ c.answers, a.now = 100 ∧ a.delay = .ok 100) ∧
      0 ≤ (((Bucket.full 10 100 0).charge 12).refill 100).remaining) ∧
    ∃ b : Bucket, b = ((Bucket.full 4611686018427387904 100 0).charge 9223372036854775807).charge
        4611686018427387905 ∧
      0 ≤ ((b.refill 100).refill 200).remaining ∧ (b.check 300).2 = .ok 100 := by
  refine ⟨⟨_, overtaken, by simp, fun order hperm hsame => ?_, ?_, by decide⟩,
    _, rfl, by decide, by decide⟩
  · have hnow : order.map Verdict.now = [100, 100] :=
      List.perm_replicate (n := 2).mp (hperm.map Verdict.now)
    have hlate : (Except.ok 100 : Except Fault Nanos) ∈ order.map Verdict.delay :=
      (hperm.map Verdict.delay).mem_iff.mpr (.tail _ (.head _))
    rw [hsame, hnow] at hlate
    exact absurd hlate (by decide)
  · exact ⟨_, .tail _ (.head _), rfl, rfl⟩

end Cistern

end GreenThreads
