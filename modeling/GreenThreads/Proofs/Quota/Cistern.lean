import GreenThreads.Proofs.Quota.Exact
import Mathlib.Algebra.Order.BigOperators.Group.List
import Mathlib.Algebra.Order.Ring.Int
import Mathlib.Data.List.Nodup
import Mathlib.Logic.Relation

/-!
# A bucket that many threads use at once

When the period began and what is left are two words. A check that finds periods due moves the start
on first, if nobody else has, and credits them later; what is left is replaced only if nobody else
has changed it. Others check and charge between any two of these accesses. Whatever their order,
each end of a period is claimed by one check, which credits it once.
-/

namespace GreenThreads

/-- What a check was told. -/
structure Verdict where
  /-- The reading of the clock. -/
  now : Nanos
  delay : Except Fault Nanos
  /-- How many ends of periods had been claimed when the check read the start of the period, and had
  not been credited when it read what is left. -/
  missed : Nat
deriving DecidableEq

/-- How far a thread is with a check at some reading of the clock, or with a charge. -/
inductive Usage where
  /-- It is about to read when the period began. -/
  | looking (now : Nanos)
  /-- It found so many periods due since `start` and is about to claim them. -/
  | claiming (now start periods : Nanos)
  /-- It has claimed them and is about to read what is left. -/
  | gauging (now start periods : Nanos)
  /-- It has read what is left and is about to credit them. -/
  | crediting (now start periods seen : Nanos)
  /-- Nothing is due, and it is about to read what is left. -/
  | reading (now : Nanos)
  /-- It found a debt, when so many ends of periods had been credited, and is about to read when the
  period began. -/
  | judging (now seen : Nanos) (credited : Nat)
  /-- It has its answer. -/
  | answered (a : Verdict)
  /-- It is about to take what was used. -/
  | drawing (used : Nanos)
  /-- It has taken it and is about to enter it in the books. -/
  | booking (used : Nanos)
  /-- It has charged. -/
  | booked
deriving DecidableEq

/-- A bucket and the threads that use it, with a record of what they did. -/
structure Cistern where
  bucket : Bucket
  calls : List Usage := []
  /-- The ends of periods that checks have claimed, in order. -/
  claimed : List Int := []
  /-- The ends of periods that have been credited. -/
  credited : List Int := []
  /-- All run time taken. -/
  charged : Int := 0
  /-- The credit for which there was no room: what would have left more than one quota. -/
  forgone : Int := 0

/-- When the first `n` periods after `start` end. -/
def ends (start period : Int) (n : Nat) : List Int :=
  (List.range n).map fun i : Nat => start + (i + 1) * period

namespace Usage

/-- The ends of periods that a check has claimed and not credited yet. -/
def owed (period : Int) : Usage → List Int
  | gauging _ start n | crediting _ start n _ => ends start.toInt period n.toInt.toNat
  | looking _ | claiming _ _ _ | reading _ | judging _ _ _ | answered _ | drawing _ | booking _
  | booked => []

/-- What a charge has taken and not entered in the books yet. -/
def unbooked : Usage → Int
  | booking used => used.toInt
  | looking _ | claiming _ _ _ | gauging _ _ _ | crediting _ _ _ _ | reading _ | judging _ _ _
  | answered _ | drawing _ | booked => 0

/-- The reading of the clock at which a check was asked for. -/
def moment : Usage → Option Nanos
  | looking now | claiming now _ _ | gauging now _ _ | crediting now _ _ _ | reading now
  | judging now _ _ => some now
  | answered a => some a.now
  | drawing _ | booking _ | booked => none

end Usage

namespace Cistern

/-- The ends of periods that have been claimed and not credited yet. -/
def owed (c : Cistern) : List Int := c.calls.flatMap (Usage.owed c.bucket.period.toInt)

/-- What has been taken and is not in the books yet. -/
def unbooked (c : Cistern) : Int := (c.calls.map Usage.unbooked).sum

/-- A thread gets on. -/
def advance (c : Cistern) (x y : Usage) : Cistern := { c with calls := y :: c.calls.erase x }

/-- Moves the start of the period on. -/
def claim (c : Cistern) (start periods : Nanos) : Cistern :=
  { c with
    bucket := c.bucket.advance periods
    claimed := c.claimed ++ ends start.toInt c.bucket.period.toInt periods.toInt.toNat }

/-- Credits periods that were claimed. -/
def credit (c : Cistern) (start periods : Nanos) : Cistern :=
  { c with
    bucket := c.bucket.credit periods
    credited := c.credited ++ ends start.toInt c.bucket.period.toInt periods.toInt.toNat
    forgone := c.forgone + max 0 (c.bucket.remaining.toInt +
      periods.toInt * c.bucket.quota.toInt - c.bucket.quota.toInt) }

/-- Takes what was used. -/
def draw (c : Cistern) (used : Nanos) : Cistern :=
  { c with
    bucket := { c.bucket with remaining := c.bucket.remaining - used }
    charged := c.charged + used.toInt }

/-- Enters what was used in the books. -/
def book (c : Cistern) (used : Nanos) : Cistern :=
  { c with bucket := { c.bucket with consumed := c.bucket.consumed + used } }

/-- What a check can do at once. The clock starts at zero. -/
inductive Check : Cistern → Cistern → Prop
  | ask {c : Cistern} {now : Nanos} (started : 0 ≤ now.toInt) :
      Check c { c with calls := .looking now :: c.calls }
  -- Bringing the bucket up to date
  | rest {c : Cistern} {now : Nanos} (on : .looking now ∈ c.calls)
      (early : c.bucket.periodsDue now = none) : Check c (c.advance (.looking now) (.reading now))
  | find {c : Cistern} {now n : Nanos} (on : .looking now ∈ c.calls)
      (due : c.bucket.periodsDue now = some n) :
      Check c (c.advance (.looking now) (.claiming now c.bucket.periodStart n))
  | claim {c : Cistern} {now start n : Nanos} (on : .claiming now start n ∈ c.calls)
      (same : c.bucket.periodStart = start) :
      Check c ((c.claim start n).advance (.claiming now start n) (.gauging now start n))
  | lose {c : Cistern} {now start n : Nanos} (on : .claiming now start n ∈ c.calls)
      (other : c.bucket.periodStart ≠ start) :
      Check c (c.advance (.claiming now start n) (.looking now))
  | gauge {c : Cistern} {now start n : Nanos} (on : .gauging now start n ∈ c.calls) :
      Check c (c.advance (.gauging now start n) (.crediting now start n c.bucket.remaining))
  | credit {c : Cistern} {now start n seen : Nanos} (on : .crediting now start n seen ∈ c.calls)
      (same : c.bucket.remaining = seen) :
      Check c ((c.credit start n).advance (.crediting now start n seen) (.reading now))
  /-- What is left was changed by somebody else, or the exchange failed for no reason. -/
  | retry {c : Cistern} {now start n seen : Nanos} (on : .crediting now start n seen ∈ c.calls) :
      Check c (c.advance (.crediting now start n seen) (.crediting now start n c.bucket.remaining))
  -- Giving the answer
  | clear {c : Cistern} {now : Nanos} (on : .reading now ∈ c.calls)
      (left : 0 ≤ c.bucket.remaining) :
      Check c (c.advance (.reading now) (.answered ⟨now, .ok 0, 0⟩))
  | owe {c : Cistern} {now : Nanos} (on : .reading now ∈ c.calls) (debt : ¬0 ≤ c.bucket.remaining) :
      Check c (c.advance (.reading now) (.judging now c.bucket.remaining c.credited.length))
  | tell {c : Cistern} {now seen : Nanos} {k : Nat} (on : .judging now seen k ∈ c.calls) :
      Check c (c.advance (.judging now seen k) (.answered
        ⟨now, Bucket.delay { c.bucket with remaining := seen } now, c.claimed.length - k⟩))

/-- What a charge can do at once. All charges together stay below a quarter of the range. -/
inductive Charge : Cistern → Cistern → Prop
  | ask {c : Cistern} {used : Nanos} (nonneg : 0 ≤ used.toInt) :
      Charge c { c with calls := .drawing used :: c.calls }
  | skip {c : Cistern} {used : Nanos} (on : .drawing used ∈ c.calls) (none : used ≤ 0) :
      Charge c (c.advance (.drawing used) .booked)
  | draw {c : Cistern} {used : Nanos} (on : .drawing used ∈ c.calls) (some : ¬used ≤ 0)
      (total : c.charged + used.toInt < 2 ^ 62) :
      Charge c ((c.draw used).advance (.drawing used) (.booking used))
  | book {c : Cistern} {used : Nanos} (on : .booking used ∈ c.calls) :
      Charge c ((c.book used).advance (.booking used) .booked)

/-- What can happen at once. -/
def Step (c c' : Cistern) : Prop := Check c c' ∨ Charge c c'

variable {b : Bucket} {c c' : Cistern} {x y : Usage} {now start n used seen : Nanos} {i j k : Nat}

/-! ## What calls owe -/

theorem ends_add (s p : Int) (i j : Nat) :
    ends s p (i + j) = ends s p i ++ ends (s + i * p) p j := by
  simp only [ends, List.range_add, List.map_append, List.map_map, List.append_cancel_left_eq,
    List.map_inj_left, Function.comp]
  intro m _
  rw [Int.natCast_add, Int.add_assoc (i : Int), Int.add_mul, Int.add_assoc]

@[simp] theorem length_ends (s p : Int) (n : Nat) : (ends s p n).length = n := by
  rw [ends, List.length_map, List.length_range]

theorem nodup_ends {s p : Int} (hp : 0 < p) (n : Nat) : (ends s p n).Nodup := by
  refine List.nodup_range.map fun i j hij => ?_
  have hprod : ((i : Int) + 1) * p = (j + 1) * p := Int.add_left_cancel hij
  have hsum := Int.eq_of_mul_eq_mul_right (Int.ne_of_gt hp) hprod
  omega

/-- Whatever the calls owe, all but one of them keep it when that one gets on. -/
theorem owed_advance (on : x ∈ c.calls) (y : Usage) : ∃ rest : List Int,
    c.owed.Perm (x.owed c.bucket.period.toInt ++ rest) ∧
      (c.advance x y).owed = y.owed c.bucket.period.toInt ++ rest :=
  ⟨(c.calls.erase x).flatMap (Usage.owed c.bucket.period.toInt),
    (List.perm_cons_erase on).flatMap_right _, rfl⟩

theorem perm_owed_advance (on : x ∈ c.calls)
    (ho : y.owed c.bucket.period.toInt = x.owed c.bucket.period.toInt) :
    (c.advance x y).owed.Perm c.owed := by
  obtain ⟨rest, hrest, hrest'⟩ := owed_advance on y
  rw [hrest', ho]
  exact hrest.symm

theorem unbooked_advance (on : x ∈ c.calls) (y : Usage) :
    (c.advance x y).unbooked + x.unbooked = c.unbooked + y.unbooked := by
  have hsum := ((List.perm_cons_erase on).map Usage.unbooked).sum_eq
  simp only [unbooked, advance, hsum, List.map_cons, List.sum_cons]
  omega

theorem mem_advance {z : Usage} (h : z ∈ (c.advance x y).calls) : z = y ∨ z ∈ c.calls := by
  cases h with
  | head => exact .inl rfl
  | tail _ h => exact .inr (List.mem_of_mem_erase h)

/-! ## What holds between any two steps -/

/-- What a thread relies on as far as it is, when the present period began at `start`. -/
def Fits (period start : Int) : Usage → Prop
  | .looking now => 0 ≤ now.toInt
  | .claiming now st n => 0 ≤ st.toInt ∧ 0 < n.toInt ∧ st.toInt + n.toInt * period ≤ now.toInt ∧
      now.toInt < st.toInt + (n.toInt + 1) * period
  | .gauging now _ n | .crediting now _ n _ => 0 < n.toInt ∧ now.toInt < start + period
  | .reading now | .judging now _ _ => now.toInt < start + period
  | .drawing used | .booking used => 0 ≤ used.toInt
  | .answered _ | .booked => True

theorem Fits.mono {p s s' : Int} (h : Fits p s x) (hs : s ≤ s') : Fits p s' x := by
  cases x with
  | gauging | crediting => exact ⟨h.1, Int.lt_of_lt_of_le h.2 (Int.add_le_add_right hs p)⟩
  | reading | judging => exact Int.lt_of_lt_of_le h (Int.add_le_add_right hs p)
  | looking | claiming | answered | drawing | booking | booked => exact h

theorem fits_advance {p s s' : Int} (h : ∀ z ∈ c.calls, Fits p s z) (hs : s ≤ s')
    (hy : Fits p s' y) : ∀ z ∈ (c.advance x y).calls, Fits p s' z := by
  intro z hz
  rcases mem_advance hz with rfl | hz
  · exact hy
  · exact (h z hz).mono hs

theorem Fits.unbooked_nonneg {p s : Int} (h : Fits p s x) : 0 ≤ x.unbooked := by
  cases x with
  | booking => exact h
  | _ => exact Int.le_refl 0

/-- What has become of the bucket `b`. -/
structure Sound (b : Bucket) (c : Cistern) : Prop where
  quota : c.bucket.quota = b.quota
  period : c.bucket.period = b.period
  start : c.bucket.periodStart.toInt =
    b.periodStart.toInt + c.claimed.length * b.period.toInt
  /-- No end of a period was skipped. -/
  claimed : c.claimed = ends b.periodStart.toInt b.period.toInt c.claimed.length
  /-- What was claimed is credited once, or still owed. -/
  credited : (c.credited ++ c.owed).Perm c.claimed
  law : c.bucket.remaining.toInt + c.charged + c.forgone =
    b.remaining.toInt + c.credited.length * b.quota.toInt
  le_quota : c.bucket.remaining.toInt ≤ b.quota.toInt
  /-- There is no debt but by charges. -/
  solvent : b.remaining.toInt ≤ c.bucket.remaining.toInt + c.charged
  forgone : 0 ≤ c.forgone
  charged : 0 ≤ c.charged
  fits : b.quota.toInt - b.remaining.toInt + c.charged < 2 ^ 63
  books : c.bucket.consumed.toInt + c.unbooked = b.consumed.toInt + c.charged
  calls : ∀ x ∈ c.calls, Fits b.period.toInt c.bucket.periodStart.toInt x

namespace Sound

theorem opened (hb : b.Exact) : Sound b { bucket := b } where
  quota := rfl
  period := rfl
  start := by simp
  claimed := rfl
  credited := .refl _
  law := by simp
  le_quota := hb.le_quota
  solvent := by simp
  forgone := Int.le_refl 0
  charged := Int.le_refl 0
  fits := by simpa using hb.fits
  books := by simp [Cistern.unbooked]
  calls := by simp

theorem books_advance (h : Sound b c) (on : x ∈ c.calls) (hu : y.unbooked = x.unbooked) :
    c.bucket.consumed.toInt + (c.advance x y).unbooked = b.consumed.toInt + c.charged := by
  have hsum := unbooked_advance on y
  have hbooks := h.books
  omega

theorem advance (h : Sound b c) (on : x ∈ c.calls)
    (ho : y.owed b.period.toInt = x.owed b.period.toInt) (hu : y.unbooked = x.unbooked)
    (hy : Fits b.period.toInt c.bucket.periodStart.toInt y) : Sound b (c.advance x y) :=
  { h with
    credited := by
      rw [← h.period] at ho
      exact ((perm_owed_advance on ho).append_left _).trans h.credited
    books := h.books_advance on hu
    calls := fits_advance h.calls (Int.le_refl _) hy }

theorem join (h : Sound b c) (ho : x.owed b.period.toInt = []) (hu : x.unbooked = 0)
    (hx : Fits b.period.toInt c.bucket.periodStart.toInt x) :
    Sound b { c with calls := x :: c.calls } :=
  { h with
    credited := by
      have hcredited := h.credited
      simp only [Cistern.owed, h.period, List.flatMap_cons, ho, List.nil_append] at hcredited ⊢
      exact hcredited
    books := by
      have hbooks := h.books
      simp only [Cistern.unbooked, List.map_cons, List.sum_cons, hu, Int.zero_add] at hbooks ⊢
      exact hbooks
    calls := fun z hz => by
      cases hz with
      | head => exact hx
      | tail _ hz => exact h.calls z hz }

theorem start_claim (h : Sound b c) (hb : b.Exact) (on : .claiming now start n ∈ c.calls)
    (same : c.bucket.periodStart = start) : (c.bucket.advance n).periodStart.toInt =
      c.bucket.periodStart.toInt + n.toInt * b.period.toInt := by
  subst same
  obtain ⟨hs, hn, hle, -⟩ := h.calls _ on
  have hp := hb.period_pos
  rw [← h.period] at hp hle ⊢
  exact Bucket.toInt_periodStart_advance_of_le (Int.le_of_lt hn) hp hs hle

theorem left_credit (h : Sound b c) (hb : b.Exact) (on : .crediting now start n seen ∈ c.calls) :
    (c.bucket.credit n).remaining.toInt =
      min (c.bucket.remaining.toInt + n.toInt * b.quota.toInt) b.quota.toInt := by
  obtain ⟨hn, -⟩ := h.calls _ on
  have hq := hb.quota_pos
  have hle := h.le_quota
  have hsolvent := h.solvent
  have hfits := h.fits
  rw [← h.quota] at hq hle hfits ⊢
  exact Bucket.toInt_remaining_credit (Int.le_of_lt hq) (Int.le_of_lt hn) hle (by omega)

theorem claim (h : Sound b c) (hb : b.Exact) (on : .claiming now start n ∈ c.calls)
    (same : c.bucket.periodStart = start) :
    Sound b ((c.claim start n).advance (.claiming now start n) (.gauging now start n)) := by
  subst same
  obtain ⟨-, hn, hle, hlt⟩ := h.calls _ on
  have hp := hb.period_pos
  have hcount : (n.toInt.toNat : Int) = n.toInt := by omega
  have hmove := h.start_claim hb on rfl
  have hgain := Int.mul_nonneg (Int.le_of_lt hn) (Int.le_of_lt hp)
  obtain ⟨rest, hrest, hrest'⟩ := owed_advance on (.gauging now c.bucket.periodStart n)
  exact
    { h with
      start := by
        have hstart := h.start
        simp only [Cistern.advance, Cistern.claim, List.length_append, length_ends, hmove,
          Int.natCast_add, hcount, Int.add_mul]
        omega
      claimed := by
        have hstart := h.start
        simp only [Cistern.advance, Cistern.claim, List.length_append, length_ends, ends_add,
          ← h.claimed, ← hstart, h.period]
      credited := by
        have hcredited := h.credited
        have howed : ((c.claim c.bucket.periodStart n).advance
            (.claiming now c.bucket.periodStart n)
            (.gauging now c.bucket.periodStart n)).owed =
            ends c.bucket.periodStart.toInt c.bucket.period.toInt n.toInt.toNat ++ rest := hrest'
        rw [howed]
        rw [List.perm_iff_count] at hcredited hrest ⊢
        intro e
        have hold := hcredited e
        have howe := hrest e
        simp only [Cistern.advance, Cistern.claim, Usage.owed, List.count_append,
          List.nil_append] at hold howe ⊢
        omega
      books := h.books_advance (y := .gauging now c.bucket.periodStart n) on rfl
      calls := by
        rw [Int.add_mul, Int.one_mul] at hlt
        refine fits_advance h.calls ?_ ⟨hn, ?_⟩ <;>
        · simp only [Cistern.advance, Cistern.claim, hmove]
          omega }

theorem credit (h : Sound b c) (hb : b.Exact) {seen : Nanos}
    (on : .crediting now start n seen ∈ c.calls) :
    Sound b ((c.credit start n).advance (.crediting now start n seen) (.reading now)) := by
  obtain ⟨hn, hlt⟩ := h.calls _ on
  have hq := hb.quota_pos
  have hle := h.le_quota
  have hsolvent := h.solvent
  have hgain := h.left_credit hb on
  have hprod := Int.mul_nonneg (Int.le_of_lt hn) (Int.le_of_lt hq)
  have hcount : (n.toInt.toNat : Int) = n.toInt := by omega
  obtain ⟨rest, hrest, hrest'⟩ := owed_advance on (.reading now)
  exact
    { h with
      credited := by
        have hcredited := h.credited
        have howed : ((c.credit start n).advance (.crediting now start n seen)
            (.reading now)).owed = rest := hrest'
        rw [howed]
        rw [List.perm_iff_count] at hcredited hrest ⊢
        intro e
        have hold := hcredited e
        have howe := hrest e
        simp only [Cistern.advance, Cistern.credit, Usage.owed, List.count_append] at hold howe ⊢
        omega
      law := by
        have hlaw := h.law
        simp only [Cistern.advance, Cistern.credit, hgain, List.length_append, length_ends,
          Int.natCast_add, hcount, Int.add_mul, h.quota]
        omega
      le_quota := by
        simp only [Cistern.advance, Cistern.credit, hgain]
        omega
      solvent := by
        simp only [Cistern.advance, Cistern.credit, hgain]
        omega
      forgone := by
        have hforgone := h.forgone
        simp only [Cistern.advance, Cistern.credit]
        omega
      books := h.books_advance (y := .reading now) on rfl
      calls := fits_advance h.calls (Int.le_refl _) hlt }

theorem left_draw (h : Sound b c) (hb : b.Exact) (on : .drawing used ∈ c.calls)
    (hroom : b.quota.toInt - b.remaining.toInt + (c.charged + used.toInt) < 2 ^ 63) :
    (c.bucket.remaining - used).toInt = c.bucket.remaining.toInt - used.toInt := by
  have hused : 0 ≤ used.toInt := h.calls _ on
  have hq := hb.quota_pos
  have hsolvent := h.solvent
  have hlt := c.bucket.remaining.toInt_lt
  exact Nanos.toInt_sub_of_range (by omega) (by omega)

theorem draw (h : Sound b c) (hb : b.Exact) (on : .drawing used ∈ c.calls)
    (hroom : b.quota.toInt - b.remaining.toInt + (c.charged + used.toInt) < 2 ^ 63) :
    Sound b ((c.draw used).advance (.drawing used) (.booking used)) := by
  have hused : 0 ≤ used.toInt := h.calls _ on
  have hle := h.le_quota
  have hsolvent := h.solvent
  have hcharged := h.charged
  have hleft := h.left_draw hb on hroom
  have howed : (c.advance (.drawing used) (.booking used)).owed.Perm c.owed :=
    perm_owed_advance on rfl
  exact
    { h with
      credited := (howed.append_left _).trans h.credited
      law := by
        have hlaw := h.law
        simp only [Cistern.advance, Cistern.draw, hleft]
        omega
      le_quota := by
        simp only [Cistern.advance, Cistern.draw, hleft]
        omega
      solvent := by
        simp only [Cistern.advance, Cistern.draw, hleft]
        omega
      charged := by
        simp only [Cistern.advance, Cistern.draw]
        omega
      fits := hroom
      books := by
        have hsum := unbooked_advance on (.booking used)
        have hbooks := h.books
        simp only [Usage.unbooked, Int.add_zero] at hsum
        have hsame : ((c.draw used).advance (.drawing used) (.booking used)).unbooked =
            c.unbooked + used.toInt := hsum
        rw [hsame]
        simp only [Cistern.advance, Cistern.draw]
        omega
      calls := fits_advance h.calls (Int.le_refl _) hused }

theorem book (h : Sound b c) (hbooks : b.consumed.toInt + c.charged < 2 ^ 63)
    (on : .booking used ∈ c.calls) :
    Sound b ((c.book used).advance (.booking used) .booked) := by
  have hused : 0 ≤ used.toInt := h.calls _ on
  have hsum := unbooked_advance on .booked
  have hrest : 0 ≤ (c.advance (.booking used) .booked).unbooked := by
    refine List.sum_nonneg ?_
    intro u hu
    obtain ⟨z, hz, rfl⟩ := List.mem_map.mp hu
    rcases mem_advance hz with rfl | hz
    · exact Int.le_refl 0
    · exact (h.calls z hz).unbooked_nonneg
  have hbook := h.books
  simp only [Usage.unbooked, Int.add_zero] at hsum
  have hle := c.bucket.consumed.le_toInt
  have hentered : (c.bucket.consumed + used).toInt = c.bucket.consumed.toInt + used.toInt :=
    Nanos.toInt_add_of_range (by omega) (by omega)
  have howed : (c.advance (.booking used) .booked).owed.Perm c.owed := perm_owed_advance on rfl
  exact
    { h with
      credited := (howed.append_left _).trans h.credited
      books := by
        have hsame : ((c.book used).advance (.booking used) .booked).unbooked =
            (c.advance (.booking used) .booked).unbooked := rfl
        rw [hsame]
        simp only [Cistern.advance, Cistern.book, hentered] at *
        omega
      calls := fits_advance h.calls (Int.le_refl _) trivial }

theorem check (h : Sound b c) (hb : b.Exact) (hs : Check c c') : Sound b c' := by
  have hp := hb.period_pos
  have hstart : 0 ≤ c.bucket.periodStart.toInt := by
    have hgain := Int.mul_nonneg (Int.natCast_nonneg c.claimed.length) (Int.le_of_lt hp)
    have hbegin := hb.start_nonneg
    rw [h.start]
    omega
  cases hs with
  | ask started => exact h.join rfl rfl started
  | @rest now on early =>
      refine h.advance on rfl rfl ?_
      have hnow := (Bucket.periodsDue_eq_none_iff hstart (h.calls _ on)).mp early
      rw [h.period] at hnow
      exact hnow
  | @find now n on due =>
      refine h.advance on rfl rfl ⟨hstart, ?_⟩
      have hperiod : 0 < c.bucket.period.toInt := by rw [h.period]; exact hp
      have hbounds := Bucket.periodsDue_bounds hperiod hstart (h.calls _ on) due
      rw [h.period] at hbounds
      exact hbounds
  | claim on same => exact h.claim hb on same
  | lose on other =>
      obtain ⟨hst, hn, hle, -⟩ := h.calls _ on
      have hgain := Int.mul_nonneg (Int.le_of_lt hn) (Int.le_of_lt hp)
      exact h.advance on rfl rfl (by simp only [Fits]; omega)
  | gauge on => exact h.advance on rfl rfl (h.calls _ on :)
  | credit on same => exact h.credit hb on
  | retry on => exact h.advance on rfl rfl (h.calls _ on :)
  | clear on left => exact h.advance on rfl rfl trivial
  | owe on debt => exact h.advance on rfl rfl (h.calls _ on :)
  | tell on => exact h.advance on rfl rfl trivial

theorem checks (h : Sound b c) (hb : b.Exact) (hs : Relation.ReflTransGen Check c c') :
    Sound b c' := by
  induction hs with
  | refl => exact h
  | tail _ hs ih => exact ih.check hb hs

theorem charge (h : Sound b c) (hb : b.Exact) (hroom : b.quota.toInt - b.remaining.toInt ≤ 2 ^ 62)
    (hbooks : b.consumed = 0) (hs : Charge c c') : Sound b c' := by
  cases hs with
  | ask nonneg => exact h.join rfl rfl nonneg
  | skip on none => exact h.advance on rfl rfl trivial
  | draw on some total => exact h.draw hb on (by omega)
  | book on =>
      refine h.book ?_ on
      have hfits := h.fits
      have hle := hb.le_quota
      rw [hbooks, Int64.toInt_zero]
      omega

theorem step (h : Sound b c) (hb : b.Exact) (hroom : b.quota.toInt - b.remaining.toInt ≤ 2 ^ 62)
    (hbooks : b.consumed = 0) (hs : Step c c') : Sound b c' :=
  hs.elim (h.check hb) (h.charge hb hroom hbooks)

/-- What is left changes by charges, and by credits of ends of periods. A credit is cut to what
leaves one quota, and what is cut is forgone. -/
theorem left_step (h : Sound b c) (hb : b.Exact)
    (hroom : b.quota.toInt - b.remaining.toInt ≤ 2 ^ 62) (hs : Step c c') :
    (c'.credited = c.credited ∧ c'.forgone = c.forgone ∧
      c'.bucket.remaining.toInt + c'.charged = c.bucket.remaining.toInt + c.charged) ∨
    ∃ (s : Int) (n : Nat), 0 < n ∧ c'.credited = c.credited ++ ends s b.period.toInt n ∧
      c'.charged = c.charged ∧
      c'.bucket.remaining.toInt = min (c.bucket.remaining.toInt + n * b.quota.toInt) b.quota.toInt ∧
      c'.forgone = c.forgone +
        max 0 (c.bucket.remaining.toInt + n * b.quota.toInt - b.quota.toInt) := by
  rcases hs with hs | hs
  · cases hs with
    | @credit now start n seen on same =>
        obtain ⟨hn, -⟩ := h.calls _ on
        have hgain := h.left_credit hb on
        have hcount : (n.toInt.toNat : Int) = n.toInt := by omega
        rw [← h.quota] at hgain ⊢
        rw [← h.period]
        refine .inr ⟨start.toInt, n.toInt.toNat, by omega, rfl, rfl, ?_, ?_⟩ <;> rw [hcount]
        · exact hgain
        · rfl
    | _ => exact .inl ⟨rfl, rfl, rfl⟩
  · cases hs with
    | draw on some total =>
        have hleft := h.left_draw hb on (by omega)
        refine .inl ⟨rfl, rfl, ?_⟩
        simp only [Cistern.advance, Cistern.draw, hleft]
        omega
    | _ => exact .inl ⟨rfl, rfl, rfl⟩

theorem steps (h : Sound b c) (hb : b.Exact) (hroom : b.quota.toInt - b.remaining.toInt ≤ 2 ^ 62)
    (hbooks : b.consumed = 0) (hs : Relation.ReflTransGen Step c c') : Sound b c' := by
  induction hs with
  | refl => exact h
  | tail _ hs ih => exact ih.step hb hroom hbooks hs

/-- The start of the period follows from what was claimed, so it only moves on. -/
theorem start_le (h : Sound b c) (h' : Sound b c') (hb : b.Exact)
    (hc : c.claimed.length ≤ c'.claimed.length) :
    c.bucket.periodStart.toInt ≤ c'.bucket.periodStart.toInt := by
  rw [h.start, h'.start]
  exact Int.add_le_add_left
    (Int.mul_le_mul_of_nonneg_right (Int.ofNat_le.mpr hc) (Int.le_of_lt hb.period_pos)) _

end Sound

theorem Check.length_claimed_le (hs : Check c c') : c.claimed.length ≤ c'.claimed.length := by
  cases hs with
  | claim on same => exact (List.prefix_append _ _).length_le
  | _ => exact Nat.le_refl _

theorem Step.length_claimed_le (hs : Step c c') : c.claimed.length ≤ c'.claimed.length := by
  rcases hs with hs | hs
  · exact hs.length_claimed_le
  · cases hs <;> exact Nat.le_refl _

theorem length_claimed_le (hs : Relation.ReflTransGen Step c c') :
    c.claimed.length ≤ c'.claimed.length := by
  induction hs with
  | refl => exact Nat.le_refl _
  | tail _ hs ih => exact Nat.le_trans ih hs.length_claimed_le

/-! ## What a group does -/

theorem advance_cons {xs : List Usage} (h : c.calls = x :: xs) (y : Usage) :
    c.advance x y = { c with calls := y :: xs } := by
  rw [advance, h, List.erase_cons_head]

/-- A check that nobody interrupts brings the bucket up to date. -/
theorem exists_refill (c : Cistern) (hnow : 0 ≤ now.toInt) :
    ∃ c', Relation.ReflTransGen Check c c' ∧ c'.bucket = c.bucket.refill now ∧
      c'.calls = .reading now :: c.calls := by
  have hask := Relation.ReflTransGen.single (Check.ask (c := c) hnow)
  cases hdue : c.bucket.periodsDue now with
  | none =>
      have hrest := hask.tail (.rest (.head _) hdue)
      rw [advance_cons rfl] at hrest
      exact ⟨_, hrest, by rw [Bucket.refill, hdue], rfl⟩
  | some n =>
      have hfind := hask.tail (.find (.head _) hdue)
      rw [advance_cons rfl] at hfind
      have hclaim := hfind.tail (.claim (.head _) rfl)
      rw [advance_cons rfl] at hclaim
      have hgauge := hclaim.tail (.gauge (.head _))
      rw [advance_cons rfl] at hgauge
      have hcredit := hgauge.tail (.credit (.head _) rfl)
      rw [advance_cons rfl] at hcredit
      exact ⟨_, hcredit, by rw [Bucket.refill, hdue]; rfl, rfl⟩

/-- A check that nobody interrupts is one of the bucket. -/
theorem exists_check (c : Cistern) (hnow : 0 ≤ now.toInt) :
    ∃ c' missed, Relation.ReflTransGen Check c c' ∧ c'.bucket = (c.bucket.check now).1 ∧
      c'.calls = .answered ⟨now, (c.bucket.check now).2, missed⟩ :: c.calls := by
  obtain ⟨c', hrefill, hbucket, hcalls⟩ := exists_refill c hnow
  have hon : Usage.reading now ∈ c'.calls := by rw [hcalls]; exact .head _
  by_cases hleft : 0 ≤ c'.bucket.remaining
  · have hclear := hrefill.tail (.clear hon hleft)
    rw [advance_cons hcalls] at hclear
    refine ⟨_, 0, hclear, hbucket, ?_⟩
    rw [hbucket] at hleft
    simp only [Bucket.check, Bucket.delay, hleft, ↓reduceIte]
  · have howe := hrefill.tail (.owe hon hleft)
    rw [advance_cons hcalls] at howe
    have htell := howe.tail (.tell (.head _))
    rw [advance_cons rfl] at htell
    refine ⟨_, c'.claimed.length - c'.credited.length, htell, hbucket, ?_⟩
    simp only [Bucket.check, ← hbucket]

theorem exists_charge (c : Cistern) (h0 : 0 ≤ used.toInt)
    (htotal : c.charged + used.toInt < 2 ^ 62) :
    ∃ c', Relation.ReflTransGen Charge c c' ∧ c'.bucket = c.bucket.charge used ∧
      c'.calls = .booked :: c.calls := by
  have hask := Relation.ReflTransGen.single (Charge.ask (c := c) h0)
  by_cases hnone : used ≤ 0
  · have hskip := hask.tail (.skip (.head _) hnone)
    rw [advance_cons rfl] at hskip
    exact ⟨_, hskip, by rw [Bucket.charge, if_pos hnone], rfl⟩
  · have hdraw := hask.tail (.draw (.head _) hnone htotal)
    rw [advance_cons rfl] at hdraw
    have hbook := hdraw.tail (.book (.head _))
    rw [advance_cons rfl] at hbook
    exact ⟨_, hbook, by rw [Bucket.charge, if_neg hnone]; rfl, rfl⟩

theorem exact_of_make {quota period : Nanos} {g : ControlGroup}
    (hmake : ControlGroup.make quota period start = .ok g) (hstart : 0 ≤ start.toInt) :
    g.bucket = Bucket.full quota period start ∧ g.bucket.Exact := by
  simp only [ControlGroup.make, Int64.le_iff_toInt_le, Int64.toInt_zero] at hmake
  split at hmake
  · cases hmake
  · next hpos =>
      cases hmake
      exact ⟨rfl, by simp only [Bucket.full]; omega, by simp only [Bucket.full]; omega, hstart,
        Int.le_refl _, by simp [Bucket.full]⟩

/-- The start of the period never moves back, and it moves by whole periods. Of the periods that it
has passed each is credited once or still owed by the check that claimed it. A credit adds a quota
for each of its periods to what is left, cut to one quota, and nothing but a charge takes any of it
away. So what is left never exceeds one quota; when nothing is owed, it is one quota and another for
each period passed, less all that was charged and all that was cut. -/
theorem refills_credit_once {quota period : Nanos} {g : ControlGroup}
    (hmake : ControlGroup.make quota period start = .ok g) (hstart : 0 ≤ start.toInt)
    (h : Relation.ReflTransGen Step { bucket := g.bucket } c) :
    (∀ c', Relation.ReflTransGen Step c c' → c.bucket.periodStart ≤ c'.bucket.periodStart) ∧
    c.bucket.remaining ≤ quota ∧
    (∀ c', Step c c' →
      (c'.credited = c.credited ∧ c'.forgone = c.forgone ∧
        c'.bucket.remaining.toInt + c'.charged = c.bucket.remaining.toInt + c.charged) ∨
      ∃ (s : Int) (n : Nat), 0 < n ∧ c'.credited = c.credited ++ ends s period.toInt n ∧
        c'.charged = c.charged ∧
        c'.bucket.remaining.toInt =
          min (c.bucket.remaining.toInt + n * quota.toInt) quota.toInt ∧
        c'.forgone = c.forgone +
          max 0 (c.bucket.remaining.toInt + n * quota.toInt - quota.toInt)) ∧
    ∃ k : Nat, c.bucket.periodStart.toInt = start.toInt + k * period.toInt ∧
      (c.credited ++ c.owed).Perm (ends start.toInt period.toInt k) ∧
      (c.credited ++ c.owed).Nodup ∧
      c.bucket.remaining.toInt + c.charged + c.forgone =
        quota.toInt + quota.toInt * c.credited.length ∧
      (c.owed = [] →
        c.bucket.remaining.toInt ≤ quota.toInt + quota.toInt * k - c.charged ∧
        (c.forgone = 0 →
          c.bucket.remaining.toInt = quota.toInt + quota.toInt * k - c.charged)) ∧
      (c.unbooked = 0 → c.bucket.consumed.toInt = c.charged) := by
  obtain ⟨hfull, hb⟩ := exact_of_make hmake hstart
  rw [hfull] at hb h
  have hroom : (Bucket.full quota period start).quota.toInt -
      (Bucket.full quota period start).remaining.toInt ≤ 2 ^ 62 := by simp [Bucket.full]
  have hsound := (Sound.opened hb).steps hb hroom rfl h
  have hcredited : (c.credited ++ c.owed).Perm
      (ends start.toInt period.toInt c.claimed.length) := hsound.claimed ▸ hsound.credited
  have hlaw := hsound.law
  simp only [Bucket.full, Int.mul_comm _ quota.toInt] at hlaw
  refine ⟨fun c' hlater => ?_, ?_, fun c' => hsound.left_step hb hroom, c.claimed.length,
    hsound.start, hcredited, hcredited.nodup_iff.mpr (nodup_ends hb.period_pos _), hlaw,
    fun hnone => ?_, fun hbooked => ?_⟩
  · rw [Int64.le_iff_toInt_le]
    exact hsound.start_le (hsound.steps hb hroom rfl hlater) hb (length_claimed_le hlater)
  · rw [Int64.le_iff_toInt_le]
    exact hsound.le_quota
  · have hlength := hcredited.length_eq
    rw [hnone, List.append_nil, length_ends] at hlength
    have hforgone := hsound.forgone
    rw [hlength] at hlaw
    exact ⟨by omega, fun hzero => by omega⟩
  · have hbooks := hsound.books
    simp only [Bucket.full, Int64.toInt_zero] at hbooks
    omega

/-- Two checks race for two periods, and the loser goes by the new start. Two charges fall between
the claim and the credit, the second one after the winner has read what is left. -/
theorem refills_credit_once_in_race :
    ∃ c : Cistern, c.charged = 23 ∧ c.owed = [] ∧ c.forgone = 0 ∧ c.bucket.periodStart = 200 ∧
      ControlGroup.make 10 100 0 = .ok { bucket := Bucket.full 10 100 0 } ∧
      (0 : Int) ≤ Int64.toInt 0 ∧
      Relation.ReflTransGen Step { bucket := Bucket.full 10 100 0 } c ∧
      ∃ k : Nat, c.bucket.periodStart.toInt = 0 + k * 100 ∧
        c.bucket.remaining.toInt = 10 + 10 * k - c.charged := by
  have h0 : Relation.ReflTransGen Step { bucket := Bucket.full 10 100 0 }
      ⟨Bucket.full 10 100 0, [.claiming 120 0 1, .claiming 250 0 2], [], [], 0, 0⟩ :=
    (((Relation.ReflTransGen.refl.tail (.inl (@Check.ask _ 250 (by decide)))).tail
      (.inl (@Check.find _ 250 2 (.head _) (by decide)))).tail
      (.inl (@Check.ask _ 120 (by decide)))).tail
      (.inl (@Check.find _ 120 1 (.head _) (by decide)))
  have h1 : Relation.ReflTransGen Step { bucket := Bucket.full 10 100 0 }
      ⟨⟨10, 100, 200, 10, 0⟩, [.reading 120, .gauging 250 0 2], [100, 200], [], 0, 0⟩ :=
    ((h0.tail (.inl (@Check.claim _ 250 0 2 (.tail _ (.head _)) rfl))).tail
      (.inl (@Check.lose _ 120 0 1 (.tail _ (.head _)) (by decide)))).tail
      (.inl (@Check.rest _ 120 (.head _) (by decide)))
  have h2 : Relation.ReflTransGen Step { bucket := Bucket.full 10 100 0 }
      ⟨⟨10, 100, 200, -13, 0⟩,
        [.booking 8, .crediting 250 0 2 (-5), .booking 15, .reading 120], [100, 200], [], 23, 0⟩ :=
    ((((h1.tail (.inr (@Charge.ask _ 15 (by decide)))).tail
      (.inr (@Charge.draw _ 15 (.head _) (by decide) (by decide)))).tail
      (.inl (@Check.gauge _ 250 0 2 (.tail _ (.tail _ (.head _)))))).tail
      (.inr (@Charge.ask _ 8 (by decide)))).tail
      (.inr (@Charge.draw _ 8 (.head _) (by decide) (by decide)))
  have h3 : Relation.ReflTransGen Step { bucket := Bucket.full 10 100 0 }
      ⟨⟨10, 100, 200, 7, 0⟩,
        [.reading 250, .booking 8, .booking 15, .reading 120], [100, 200], [100, 200], 23, 0⟩ :=
    (h2.tail (.inl (@Check.retry _ 250 0 2 (-5) (.tail _ (.head _))))).tail
      (.inl (@Check.credit _ 250 0 2 (-13) (.head _) rfl))
  have hmake : ControlGroup.make 10 100 0 = .ok { bucket := Bucket.full 10 100 0 } := rfl
  obtain ⟨-, -, -, k, hstart, -, -, -, hnone, -⟩ := refills_credit_once hmake (by decide) h3
  exact ⟨_, rfl, rfl, rfl, rfl, hmake, by decide, h3, k, hstart, (hnone rfl).2 rfl⟩

end Cistern

end GreenThreads
