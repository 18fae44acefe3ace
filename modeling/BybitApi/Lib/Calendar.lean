import Mathlib.Algebra.Order.Ring.Int

/-!
# Months

The proleptic Gregorian calendar, as `std::chrono::year_month_day` counts it. Days are numbered from
1970-01-01, and months from January of the year 0. Years are taken from March on, so that the day
that is put in comes at the end of one.

A `std::chrono::year` has 16 bits. `narrow` is what is left of a month whose year does not fit.
-/

namespace BybitApi.Lib.Calendar

/-- The leap days before March of a year. -/
def leapDays (y : ℤ) : ℤ := y / 4 - y / 100 + y / 400

/-- The first of March. -/
def marchFirst (y : ℤ) : ℤ := 365 * y + leapDays y - 719468

/-- The first day of a month. -/
def firstDay (m : ℤ) : ℤ := marchFirst ((m - 2) / 12) + (153 * ((m - 2) % 12) + 2) / 5

/-- The year, from March on, of a day: the cycles of 400, of 100 and of 4 years that are over, and
the years of the last one. -/
def marchYear (d : ℤ) : ℤ :=
  400 * ((d + 719468) / 146097) + 100 * min 3 ((d + 719468) % 146097 / 36524) +
    4 * (((d + 719468) % 146097 - 36524 * min 3 ((d + 719468) % 146097 / 36524)) / 1461) +
      min 3 (((d + 719468) % 146097 - 36524 * min 3 ((d + 719468) % 146097 / 36524)) % 1461 / 365)

/-- The month of a day. -/
def monthOf (d : ℤ) : ℤ := 12 * marchYear d + (5 * (d - marchFirst (marchYear d)) + 2) / 153 + 2

/-! ## Years -/

theorem leapDays_cycles {q c f y : ℤ} (hc : 0 ≤ c) (hc' : c ≤ 3) (hf : 0 ≤ f) (hf' : f ≤ 24) (hy : 0 ≤ y)
    (hy' : y ≤ 3) : leapDays (400 * q + 100 * c + 4 * f + y) = 97 * q + 24 * c + f := by
  unfold leapDays
  have h₁ : (400 * q + 100 * c + 4 * f + y) / 4 = 100 * q + 25 * c + f := by omega
  have h₂ : (400 * q + 100 * c + 4 * f + y) / 100 = 4 * q + c := by omega
  have h₃ : (400 * q + 100 * c + 4 * f + y) / 400 = q := by omega
  omega

theorem marchFirst_marchYear (d : ℤ) :
    marchFirst (marchYear d) ≤ d ∧ d < marchFirst (marchYear d + 1) := by
  obtain ⟨q, hq⟩ : ∃ q, q = (d + 719468) / 146097 := ⟨_, rfl⟩
  obtain ⟨r, hr⟩ : ∃ r, r = (d + 719468) % 146097 := ⟨_, rfl⟩
  obtain ⟨c, hc⟩ : ∃ c, c = min 3 (r / 36524) := ⟨_, rfl⟩
  obtain ⟨f, hf⟩ : ∃ f, f = (r - 36524 * c) / 1461 := ⟨_, rfl⟩
  obtain ⟨y, hy⟩ : ∃ y, y = min 3 ((r - 36524 * c) % 1461 / 365) := ⟨_, rfl⟩
  have hyear : marchYear d = 400 * q + 100 * c + 4 * f + y := by
    simp only [marchYear, ← hq, ← hr, ← hc, ← hf, ← hy]
  have hd : d + 719468 = 146097 * q + r := by omega
  have hrange : 0 ≤ r ∧ r ≤ 146096 := by omega
  have hcrange : 0 ≤ c ∧ c ≤ 3 ∧ 36524 * c ≤ r ∧ (r < 36524 * (c + 1) ∨ c = 3) := by omega
  have hfrange : 0 ≤ f ∧ f ≤ 24 ∧ 1461 * f ≤ r - 36524 * c ∧ r - 36524 * c < 1461 * (f + 1) := by omega
  have hyrange : 0 ≤ y ∧ y ≤ 3 ∧ 365 * y ≤ r - 36524 * c - 1461 * f ∧
      (r - 36524 * c - 1461 * f < 365 * (y + 1) ∨ y = 3) := by omega
  clear hq hr hc hf hy
  rw [hyear]
  have hleap := leapDays_cycles (q := q) hcrange.1 hcrange.2.1 hfrange.1 hfrange.2.1 hyrange.1 hyrange.2.1
  refine ⟨by unfold marchFirst; omega, ?_⟩
  -- the next year is in the same four, opens the next four, the next hundred or the next four hundred
  have hnext : leapDays (400 * q + 100 * c + 4 * f + y + 1) =
      if y < 3 then 97 * q + 24 * c + f
      else if f < 24 then 97 * q + 24 * c + f + 1
      else if c < 3 then 97 * q + 24 * (c + 1) else 97 * (q + 1) := by
    split
    · rw [add_assoc _ y]
      exact leapDays_cycles (by omega) (by omega) (by omega) (by omega) (by omega) (by omega)
    · split
      · rw [show 400 * q + 100 * c + 4 * f + y + 1 = 400 * q + 100 * c + 4 * (f + 1) + 0 by omega,
          leapDays_cycles (by omega) (by omega) (by omega) (by omega) (by omega) (by omega)]
        omega
      · split
        · rw [show 400 * q + 100 * c + 4 * f + y + 1 = 400 * q + 100 * (c + 1) + 4 * 0 + 0 by omega,
            leapDays_cycles (by omega) (by omega) (by omega) (by omega) (by omega) (by omega)]
          omega
        · rw [show 400 * q + 100 * c + 4 * f + y + 1 = 400 * (q + 1) + 100 * 0 + 4 * 0 + 0 by omega,
            leapDays_cycles (by omega) (by omega) (by omega) (by omega) (by omega) (by omega)]
          omega
  unfold marchFirst
  rw [hnext]
  omega

theorem leapDays_le_succ (y : ℤ) : leapDays y ≤ leapDays (y + 1) := by
  unfold leapDays
  omega

theorem leapDays_mono {y y' : ℤ} (h : y ≤ y') : leapDays y ≤ leapDays y' := by
  induction y', h using Int.leInduction with
  | base => exact le_rfl
  | succ y' _ ih => exact ih.trans (leapDays_le_succ y')

/-! ## Months -/

/-- The year and the day of the year of a month's first day. -/
theorem firstDay_of_march (y : ℤ) {p : ℤ} (hp : 0 ≤ p) (hp' : p ≤ 11) :
    firstDay (12 * y + p + 2) = marchFirst y + (153 * p + 2) / 5 := by
  unfold firstDay
  rw [show (12 * y + p + 2 - 2) / 12 = y by omega, show (12 * y + p + 2 - 2) % 12 = p by omega]

theorem length_marchYear (y : ℤ) : marchFirst (y + 1) ≤ marchFirst y + 366 := by
  unfold marchFirst leapDays
  omega

theorem firstDay_monthOf_le (d : ℤ) : firstDay (monthOf d) ≤ d := by
  have hyear := marchFirst_marchYear d
  have hlength := length_marchYear (marchYear d)
  rw [monthOf, firstDay_of_march _ (by omega) (by omega)]
  omega

/-- A month is over when the next one begins. -/
theorem lt_firstDay_monthOf (d : ℤ) : d < firstDay (monthOf d + 1) := by
  have hyear := marchFirst_marchYear d
  have hlength := length_marchYear (marchYear d)
  obtain ⟨p, hp⟩ : ∃ p, p = (5 * (d - marchFirst (marchYear d)) + 2) / 153 := ⟨_, rfl⟩
  rw [monthOf, ← hp]
  by_cases hlast : p = 11
  · rw [show 12 * marchYear d + p + 2 + 1 = 12 * (marchYear d + 1) + 0 + 2 by omega,
      firstDay_of_march _ (by omega) (by omega)]
    omega
  · rw [show 12 * marchYear d + p + 2 + 1 = 12 * marchYear d + (p + 1) + 2 by omega,
      firstDay_of_march _ (by omega) (by omega)]
    omega

/-- Months one after the other are 30 days long, but for two days in all. -/
theorem firstDay_add (m : ℤ) {n : ℤ} (h : 0 ≤ n) : firstDay m + 30 * n - 2 ≤ firstDay (m + n) := by
  have hyears : (m - 2) / 12 ≤ (m + n - 2) / 12 := by omega
  have hleap := leapDays_mono hyears
  unfold firstDay marchFirst
  generalize leapDays ((m - 2) / 12) = l at *
  generalize leapDays ((m + n - 2) / 12) = l' at *
  omega

theorem firstDay_lt {m m' : ℤ} (h : m < m') : firstDay m < firstDay m' := by
  have hadd := firstDay_add m (show 0 ≤ m' - m by omega)
  rw [add_sub_cancel] at hadd
  omega

theorem firstDay_le_iff {m m' : ℤ} : firstDay m ≤ firstDay m' ↔ m ≤ m' := by
  constructor
  · intro h
    by_contra hlt
    have := firstDay_lt (not_le.1 hlt)
    omega
  · intro h
    rcases h.eq_or_lt with rfl | hlt
    · exact le_rfl
    · exact (firstDay_lt hlt).le

theorem monthOf_firstDay (m : ℤ) : monthOf (firstDay m) = m := by
  have h₁ := firstDay_le_iff.1 (firstDay_monthOf_le (firstDay m))
  have h₂ := mt firstDay_le_iff.2 (not_le.2 (lt_firstDay_monthOf (firstDay m)))
  omega

/-! ## Years of 16 bits -/

/-- What a `std::chrono::year` holds of a year. -/
def narrowYear (y : ℤ) : ℤ := (y + 2 ^ 15) % 2 ^ 16 - 2 ^ 15

/-- The month with its year narrowed. -/
def narrow (m : ℤ) : ℤ := 12 * narrowYear (m / 12) + m % 12

/-- January of the first year that 16 bits hold. -/
def firstMonth : ℤ := 12 * -2 ^ 15

/-- December of the last one. -/
def lastMonth : ℤ := 12 * (2 ^ 15 - 1) + 11

theorem narrow_bounds (m : ℤ) : firstMonth ≤ narrow m ∧ narrow m ≤ lastMonth := by
  unfold narrow narrowYear firstMonth lastMonth
  omega

theorem narrow_of_mem {m : ℤ} (h : firstMonth ≤ m) (h' : m ≤ lastMonth) : narrow m = m := by
  unfold narrow narrowYear
  unfold firstMonth at h
  unfold lastMonth at h'
  omega

/-- The first day of the month after that of `d`, as the years of 16 bits have it. -/
def nextFirstDay (d : ℤ) : ℤ := firstDay (narrow (narrow (monthOf d) + 1))

/-- It comes later up to the last month, and never from that on. -/
theorem lt_nextFirstDay_iff (d : ℤ) : d < nextFirstDay d ↔ d < firstDay lastMonth := by
  have hmonth := firstDay_monthOf_le d
  have hbounds := narrow_bounds (narrow (monthOf d) + 1)
  have hle := firstDay_le_iff.2 hbounds.2
  constructor
  · intro h
    exact h.trans_le hle
  · intro h
    have hlast : monthOf d < lastMonth := by
      by_contra hge
      have := firstDay_le_iff.2 (not_lt.1 hge)
      omega
    have hnext := lt_firstDay_monthOf d
    by_cases hfirst : firstMonth ≤ monthOf d
    · rw [nextFirstDay, narrow_of_mem hfirst hlast.le, narrow_of_mem (by omega) (by omega)]
      exact hnext
    · -- of an earlier year, 16 bits make a later one
      have hge : firstDay (monthOf d + 1) ≤ nextFirstDay d := firstDay_le_iff.2 (by omega)
      exact hnext.trans_le hge

theorem nextFirstDay_le (d : ℤ) : nextFirstDay d ≤ firstDay lastMonth := firstDay_le_iff.2 (narrow_bounds _).2

end BybitApi.Lib.Calendar
