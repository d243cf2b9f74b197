import Mathlib.Algebra.Order.Ring.Int
import Mathlib.Algebra.Order.SuccPred

/-!
# Days, weeks and months

The Gregorian calendar at a fixed offset from UTC. A time is a number of seconds since the start of
1970 in UTC, a day is counted from 1 January 1970, and a month from January of the year 0. Years
start in March in the formulas, so that a leap day is the last day of its year.
-/
namespace NewApi.Calendar

def dayOf (offset t : ℤ) : ℤ := (t + offset) / 86400

def midnight (offset day : ℤ) : ℤ := day * 86400 - offset

/-- Sunday is 0. -/
def weekday (day : ℤ) : ℤ := (day + 4) % 7

/-- The days before a year that starts in March, from March of the year 0. -/
def daysBeforeYear (year : ℤ) : ℤ := 365 * year + year / 4 - year / 100 + year / 400

def firstOfMonth (month : ℤ) : ℤ :=
  daysBeforeYear ((month - 2) / 12) + (153 * ((month - 2) % 12) + 2) / 5 - 719468

/-- The year that starts in March, of a day that is counted from March of the year 0. The cycles of
400, 100 and 4 years are cut off in turn; the last year of a cycle may have one more day. -/
def marchYear (d : ℤ) : ℤ :=
  let d₁ := d % 146097
  let n₁ := min (d₁ / 36524) 3
  let d₂ := d₁ - 36524 * n₁
  let d₃ := d₂ % 1461
  400 * (d / 146097) + 100 * n₁ + 4 * (d₂ / 1461) + min (d₃ / 365) 3

def monthOf (day : ℤ) : ℤ :=
  let d := day + 719468
  let year := marchYear d
  12 * year + (5 * (d - daysBeforeYear year) + 2) / 153 + 2

/-! ## Days -/

theorem lt_midnight_iff (offset t day : ℤ) : t < midnight offset day ↔ dayOf offset t < day := by
  unfold midnight dayOf
  omega

/-- The least of some times, by their days. -/
theorem isLeast_midnight {offset t day : ℤ} {days : Set ℤ}
    (h : IsLeast {d | d ∈ days ∧ dayOf offset t < d} day) :
    IsLeast {u | (∃ d ∈ days, midnight offset d = u) ∧ t < u} (midnight offset day) := by
  constructor
  · exact ⟨⟨day, h.1.1, rfl⟩, (lt_midnight_iff offset t day).mpr h.1.2⟩
  · rintro u ⟨⟨d, hd, rfl⟩, hlt⟩
    have hle : day ≤ d := h.2 ⟨hd, (lt_midnight_iff offset t d).mp hlt⟩
    unfold midnight
    omega

/-! ## Weeks -/

variable (day : ℤ)

theorem isLeast_monday : IsLeast {d | weekday d = 1 ∧ day < d}
    (day + (8 - if weekday day = 0 then 7 else weekday day)) := by
  unfold weekday
  constructor
  · show _ ∧ _
    split_ifs <;> omega
  · rintro d ⟨hmonday, hlt⟩
    split_ifs <;> omega

/-! ## Months -/

theorem firstOfMonth_lt_succ (month : ℤ) : firstOfMonth month < firstOfMonth (month + 1) := by
  unfold firstOfMonth daysBeforeYear
  omega

theorem firstOfMonth_lt_iff {m n : ℤ} : firstOfMonth m < firstOfMonth n ↔ m < n :=
  (strictMono_int_of_lt_succ firstOfMonth_lt_succ).lt_iff_lt

/-- The year by its cycles, of which each has one day less than the last of its kind may have. -/
theorem marchYear_cycles (d : ℤ) : ∃ a b c e, marchYear d = 400 * a + 100 * b + 4 * c + e ∧
    0 ≤ b ∧ b ≤ 3 ∧ 0 ≤ c ∧ c ≤ 24 ∧ 0 ≤ e ∧ e ≤ 3 ∧
    146097 * a + 36524 * b + 1461 * c + 365 * e ≤ d ∧ d < 146097 * (a + 1) ∧
    (b < 3 → d < 146097 * a + 36524 * (b + 1)) ∧ d < 146097 * a + 36524 * b + 1461 * (c + 1) ∧
    (e < 3 → d < 146097 * a + 36524 * b + 1461 * c + 365 * (e + 1)) := by
  refine ⟨_, _, _, _, rfl, ?_⟩
  omega

theorem marchYear_bounds (d : ℤ) :
    daysBeforeYear (marchYear d) ≤ d ∧ d < daysBeforeYear (marchYear d + 1) := by
  obtain ⟨a, b, c, e, hyear, hb₀, hb, hc₀, hc, he₀, he, hle, hlt₁, hlt₂, hlt₃, hlt₄⟩ :=
    marchYear_cycles d
  have h400 : (400 * a + 100 * b + 4 * c + e) / 400 = a := by omega
  unfold daysBeforeYear
  constructor
  · omega
  · -- the next year may start a new cycle of each kind
    by_cases hlast : e < 3
    · omega
    · by_cases hfour : c < 24 <;> omega

theorem monthOf_bounds :
    firstOfMonth (monthOf day) ≤ day ∧ day < firstOfMonth (monthOf day + 1) := by
  obtain ⟨hle, hlt⟩ := marchYear_bounds (day + 719468)
  have hyear : daysBeforeYear (marchYear (day + 719468) + 1) ≤
      daysBeforeYear (marchYear (day + 719468)) + 366 := by
    unfold daysBeforeYear
    omega
  unfold monthOf firstOfMonth
  dsimp only
  generalize marchYear (day + 719468) = year at *
  obtain ⟨m, hm⟩ : ∃ m, m = (5 * (day + 719468 - daysBeforeYear year) + 2) / 153 := ⟨_, rfl⟩
  rw [← hm, show (12 * year + m + 2 - 2) / 12 = year by omega,
    show (12 * year + m + 2 - 2) % 12 = m by omega]
  constructor
  · omega
  · by_cases hlast : m = 11
    · rw [show (12 * year + m + 2 + 1 - 2) / 12 = year + 1 by omega,
        show (12 * year + m + 2 + 1 - 2) % 12 = 0 by omega]
      omega
    · rw [show (12 * year + m + 2 + 1 - 2) / 12 = year by omega,
        show (12 * year + m + 2 + 1 - 2) % 12 = m + 1 by omega]
      omega

/-- The next month starts within a year. -/
theorem firstOfMonth_near : firstOfMonth (monthOf day + 1) ≤ day + 366 := by
  have hle := (monthOf_bounds day).1
  have hlen : firstOfMonth (monthOf day + 1) ≤ firstOfMonth (monthOf day) + 366 := by
    unfold firstOfMonth daysBeforeYear
    omega
  omega

theorem isLeast_firstOfMonth :
    IsLeast {d | d ∈ Set.range firstOfMonth ∧ day < d} (firstOfMonth (monthOf day + 1)) := by
  obtain ⟨hle, hlt⟩ := monthOf_bounds day
  constructor
  · exact ⟨⟨_, rfl⟩, hlt⟩
  · rintro d ⟨⟨month, rfl⟩, hday⟩
    have hmonth : monthOf day < month := firstOfMonth_lt_iff.mp (hle.trans_lt hday)
    exact not_lt.mp fun h => absurd (firstOfMonth_lt_iff.mp h) (by omega)

end NewApi.Calendar
