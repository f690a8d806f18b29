import Recheck.Calendar
/-!
# The points in time that have dates

Years are counted from March in cycles of 400, and the formula for the year of a day inverts the number of days before a
year (`le_yearOfDay_iff`).  So the year of a day never falls as days go by, each year begins where the formula says
(`le_year_iff`), and the years with dates are an interval of seconds (`Timestamp.civilText?_ne_none_iff`).
-/
namespace Recheck
namespace CivilTime

/-- The days of a cycle before one of its years. -/
def daysBefore (year : Int) : Int := 365 * year + year / 4 - year / 100

/-- The year of a day of a cycle. -/
def yearOfDay (day : Int) : Int := (day - day / 1460 + day / 36524 - day / 146096) / 365

/-- The month of a day of the year. -/
def monthOfDay (dayOfYear : Int) : Int :=
  if (5 * dayOfYear + 2) / 153 < 10 then (5 * dayOfYear + 2) / 153 + 3 else (5 * dayOfYear + 2) / 153 - 9

/-- What the month adds to the year: January and February belong to the next one. -/
def carry (dayOfYear : Int) : Int := if monthOfDay dayOfYear ≤ 2 then 1 else 0

theorem carry_eq (dayOfYear : Int) (h0 : 0 ≤ dayOfYear) (h1 : dayOfYear < 366) :
    carry dayOfYear = if 306 ≤ dayOfYear then 1 else 0 := by
  unfold carry monthOfDay
  repeat' split
  all_goals omega

theorem carry_zero_or_one (dayOfYear : Int) : carry dayOfYear = 0 ∨ carry dayOfYear = 1 := by
  unfold carry
  split
  · exact .inr rfl
  · exact .inl rfl

/-- **The year of a day is the latest one that has begun.** -/
theorem le_yearOfDay_iff {day : Int} (year : Int) (h0 : 0 ≤ day) (h1 : day < 146097) (hy0 : 0 ≤ year) (hy1 : year < 400) :
    year ≤ yearOfDay day ↔ daysBefore year ≤ day := by
  have hle : year ≤ yearOfDay day ↔ 365 * year ≤ day - day / 1460 + day / 36524 - day / 146096 := by
    unfold yearOfDay
    omega
  rw [hle, daysBefore]
  -- within a century of days and a century of years all but the leap years is fixed
  have hcentury : day / 36524 = 0 ∨ day / 36524 = 1 ∨ day / 36524 = 2 ∨ day / 36524 = 3 ∨ day / 36524 = 4 := by omega
  have hyears : year / 100 = 0 ∨ year / 100 = 1 ∨ year / 100 = 2 ∨ year / 100 = 3 := by omega
  have hquad : day / 1460 * 1460 ≤ day ∧ day < day / 1460 * 1460 + 1460 := by omega
  have hleap : year / 4 * 4 ≤ year ∧ year < year / 4 * 4 + 4 := by omega
  have hlast : day / 146096 = 0 ∨ day = 146096 := by omega
  generalize day / 1460 = quads at *
  generalize year / 4 = leaps at *
  rcases hlast with hlast | rfl
  · rcases hcentury with h | h | h | h | h <;> rcases hyears with h' | h' | h' | h' <;> rw [h, h', hlast] <;>
      constructor <;> intro <;> omega
  · omega

theorem yearOfDay_bounds {day : Int} (h0 : 0 ≤ day) (h1 : day < 146097) : 0 ≤ yearOfDay day ∧ yearOfDay day < 400 := by
  unfold yearOfDay
  omega

/-- A day is in its year. -/
theorem dayOfYear_bounds {day : Int} (h0 : 0 ≤ day) (h1 : day < 146097) :
    daysBefore (yearOfDay day) ≤ day ∧ day < daysBefore (yearOfDay day) + 366 := by
  obtain ⟨hy0, hy1⟩ := yearOfDay_bounds h0 h1
  refine ⟨(le_yearOfDay_iff _ h0 h1 hy0 hy1).1 (Int.le_refl _), ?_⟩
  by_cases hlast : yearOfDay day = 399
  · rw [hlast, daysBefore]
    omega
  · have hnext := le_yearOfDay_iff (yearOfDay day + 1) h0 h1 (by omega) (by omega)
    unfold daysBefore at *
    omega

/-- The year of a date, by the cycle and the day of the cycle. -/
theorem year_dateOfDays (days : Int) : ∃ cycle day, days + 719468 = cycle * 146097 + day ∧ 0 ≤ day ∧ day < 146097 ∧
    (dateOfDays days).1 = yearOfDay day + cycle * 400 + carry (day - daysBefore (yearOfDay day)) := by
  have hfdiv : ∀ n m : Int, 0 ≤ m → n.fdiv m = n / m := fun n m hm => Int.fdiv_eq_ediv_of_nonneg n hm
  refine ⟨(days + 719468) / 146097, days + 719468 - (days + 719468) / 146097 * 146097, by omega, by omega, by omega, ?_⟩
  simp only [dateOfDays, hfdiv _ 146097 (by decide), hfdiv _ 1460 (by decide), hfdiv _ 36524 (by decide),
    hfdiv _ 146096 (by decide), hfdiv _ 365 (by decide), hfdiv _ 4 (by decide), hfdiv _ 100 (by decide),
    hfdiv _ 153 (by decide), ← yearOfDay.eq_1, ← daysBefore.eq_1, ← monthOfDay.eq_1, carry]
  split
  · rfl
  · rw [Int.add_zero]

/-- **Where a year begins**: with the March of the year before it 306 days over. -/
theorem le_year_iff (year cycle days : Int) (hy0 : 0 ≤ year) (hy1 : year < 400) :
    year + cycle * 400 + 1 ≤ (dateOfDays days).1 ↔ cycle * 146097 + daysBefore year + 306 ≤ days + 719468 := by
  obtain ⟨cycle', day, hdays, h0, h1, hyear⟩ := year_dateOfDays days
  obtain ⟨hd0, hd1⟩ := dayOfYear_bounds h0 h1
  obtain ⟨hy0', hy1'⟩ := yearOfDay_bounds h0 h1
  have hcarry := carry_eq (day - daysBefore (yearOfDay day)) (by omega) (by omega)
  have hbound := carry_zero_or_one (day - daysBefore (yearOfDay day))
  have hbefore : 0 ≤ daysBefore year ∧ daysBefore year + 365 ≤ 146097 := by
    unfold daysBefore
    omega
  rw [hyear]
  rcases Int.lt_trichotomy cycle' cycle with hlt | rfl | hlt
  · constructor <;> intro <;> omega
  · have hyears := le_yearOfDay_iff year h0 h1 hy0 hy1
    rcases Int.lt_trichotomy (yearOfDay day) year with hlt | heq | hlt
    · constructor <;> intro <;> omega
    · rw [← heq, hcarry]
      split <;> constructor <;> intro <;> omega
    · have hnext := le_yearOfDay_iff (year + 1) h0 h1 (by omega) (by omega)
      have hstep : daysBefore year + 365 ≤ daysBefore (year + 1) := by
        unfold daysBefore
        omega
      constructor <;> intro <;> omega
  · constructor <;> intro <;> omega

theorem datedYears_iff (days : Int) :
    datedYears (dateOfDays days).1 = true ↔ -96465292 ≤ days ∧ days < 95026237 := by
  have hfirst := le_year_iff 256 (-656) days (by decide) (by decide)
  have hlast := le_year_iff 142 655 days (by decide) (by decide)
  rw [show daysBefore 256 = 93502 from rfl] at hfirst
  rw [show daysBefore 142 = 51864 from rfl] at hlast
  rw [datedYears, Bool.and_eq_true, decide_eq_true_eq, decide_eq_true_eq]
  omega

end CivilTime

namespace Timestamp

/-- The first second of the first year with dates. -/
def firstDated : Int := -8334601228800

/-- The last second of the last year with dates. -/
def lastDated : Int := 8210266876799

def HasDate (t : Timestamp) : Prop := firstDated ≤ t.seconds ∧ t.seconds ≤ lastDated

instance (t : Timestamp) : Decidable t.HasDate := inferInstanceAs (Decidable (_ ∧ _))

/-- **A point in time has a date if its second is one of those of the years with dates.** -/
theorem civilText?_ne_none_iff (t : Timestamp) : t.civilText? ≠ none ↔ t.HasDate := by
  have hyear : (CivilTime.ofTimestamp t).year = (CivilTime.dateOfDays (Int.fdiv t.seconds 86400)).1 := rfl
  have hdays : Int.fdiv t.seconds 86400 = t.seconds / 86400 := Int.fdiv_eq_ediv_of_nonneg _ (by decide)
  have hdated : t.civilText? ≠ none ↔ datedYears (CivilTime.ofTimestamp t).year = true := by
    simp only [civilText?]
    split <;> simp_all
  rw [hdated, hyear, hdays, CivilTime.datedYears_iff, HasDate, firstDated, lastDated]
  omega

/-- The last second of the year 262142 has a date, and the next one has none. -/
example : (ofSeconds lastDated 999999999).civilText? = some "+262142-12-31 23:59:59 +0000" ∧
    (ofSeconds (lastDated + 1) 0).civilText? = none := by decide +kernel

end Timestamp
end Recheck
