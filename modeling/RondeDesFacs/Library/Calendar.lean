import Mathlib.Order.Bounds.Basic
import Mathlib.Order.Nat

/-!
# Dates and birthdays

Dates of the Gregorian calendar, in their order, and the birthdays of a date: one in every
year from its own on, on the same day, or on 1 March where 29 February does not exist.

The number of years completed on a date is the greatest `n` such that the `n`-th birthday
has come.  It is the difference of the years, less one if the birthday of the year is still
to come (`isGreatest_completedYears`).
-/

namespace RondeDesFacs
namespace Calendar

/-- Leap years. -/
def leap (y : ℕ) : Bool := y % 4 = 0 && (y % 100 ≠ 0 || y % 400 = 0)

/-- The days of a month. -/
def days (y m : ℕ) : ℕ :=
  if m = 2 then if leap y then 29 else 28
  else if m = 4 ∨ m = 6 ∨ m = 9 ∨ m = 11 then 30 else 31

/-- A date. -/
@[ext] structure Date where
  year : ℕ
  month : ℕ
  day : ℕ
  one_le_month : 1 ≤ month
  month_le : month ≤ 12
  one_le_day : 1 ≤ day
  day_le : day ≤ days year month

/-- The order of dates. -/
instance : LE Date where
  le d e := d.year < e.year ∨ d.year = e.year ∧
    (d.month < e.month ∨ d.month = e.month ∧ d.day ≤ e.day)

theorem Date.le_iff {d e : Date} : d ≤ e ↔ d.year < e.year ∨ d.year = e.year ∧
    (d.month < e.month ∨ d.month = e.month ∧ d.day ≤ e.day) := Iff.rfl

instance (d e : Date) : Decidable (d ≤ e) := decidable_of_iff _ Date.le_iff.symm

/-- A month other than February has the same days every year. -/
theorem days_of_ne_two {m : ℕ} (h : m ≠ 2) (y y' : ℕ) : days y m = days y' m := by
  rw [days, days, if_neg h, if_neg h]

theorem days_two_le (y : ℕ) : days y 2 ≤ 29 := by
  rw [days, if_pos rfl]
  split_ifs <;> omega

theorem one_le_days (y m : ℕ) : 1 ≤ days y m := by
  unfold days
  split_ifs <;> omega

/-- **The `n`-th birthday.** -/
def birthday (d : Date) (n : ℕ) : Date :=
  if h : d.day ≤ days (d.year + n) d.month then
    { d with year := d.year + n, day_le := h }
  else
    { year := d.year + n, month := 3, day := 1, one_le_month := by decide, month_le := by decide,
      one_le_day := by decide, day_le := one_le_days _ _ }

@[simp] theorem year_birthday (d : Date) (n : ℕ) : (birthday d n).year = d.year + n := by
  unfold birthday
  split_ifs <;> rfl

theorem birthday_zero (d : Date) : birthday d 0 = d := dif_pos d.day_le

/-- The birthday is on the day of birth, or 29 February does not exist. -/
theorem birthday_cases (d : Date) (n : ℕ) :
    (birthday d n).month = d.month ∧ (birthday d n).day = d.day ∨
      (d.month = 2 ∧ d.day = 29 ∧ days (d.year + n) 2 = 28) ∧
        (birthday d n).month = 3 ∧ (birthday d n).day = 1 := by
  by_cases h : d.day ≤ days (d.year + n) d.month
  · rw [birthday, dif_pos h]
    exact Or.inl ⟨rfl, rfl⟩
  · rw [birthday, dif_neg h]
    refine Or.inr ⟨?_, rfl, rfl⟩
    have hmonth : d.month = 2 := by
      by_contra hne
      exact h (days_of_ne_two hne d.year (d.year + n) ▸ d.day_le)
    have hday := d.day_le
    have htwo := days_two_le d.year
    rw [hmonth] at h hday
    have hcases : days (d.year + n) 2 = 28 ∨ days (d.year + n) 2 = 29 := by
      rw [days, if_pos rfl]
      split_ifs <;> omega
    omega

/-- The years completed on a date. -/
def completedYears (birth today : Date) : ℕ :=
  if birthday birth (today.year - birth.year) ≤ today then today.year - birth.year
  else today.year - birth.year - 1

theorem year_le {d e : Date} (h : d ≤ e) : d.year ≤ e.year := by
  rw [Date.le_iff] at h
  omega

theorem le_of_year_lt {d e : Date} (h : d.year < e.year) : d ≤ e := Or.inl h

/-- **Completed years.** -/
theorem isGreatest_completedYears {birth today : Date} (h : birth ≤ today) :
    IsGreatest {n | birthday birth n ≤ today} (completedYears birth today) := by
  have hyear := year_le h
  -- a birthday that has come is none of a later year
  have hupper : ∀ {n}, birthday birth n ≤ today → n ≤ today.year - birth.year := by
    intro n hn
    have := year_le hn
    rw [year_birthday] at this
    omega
  rw [completedYears]
  split_ifs with hcome
  · exact ⟨hcome, fun n hn => hupper hn⟩
  · -- the birthday of the year is still to come, so it is not the day of birth
    have hpos : today.year - birth.year ≠ 0 := by
      intro hzero
      rw [hzero, birthday_zero] at hcome
      exact hcome h
    refine ⟨le_of_year_lt ?_, fun n hn => ?_⟩
    · rw [year_birthday]
      omega
    · have hne : n ≠ today.year - birth.year := fun heq => hcome (heq ▸ hn)
      have := hupper hn
      omega

/-- **The birthday of the year has come** on its day, and 29 February never has where it
does not exist. -/
theorem birthday_le_iff {birth today : Date} (h : birth.year ≤ today.year) :
    birthday birth (today.year - birth.year) ≤ today ↔
      birth.month < today.month ∨ birth.month = today.month ∧ birth.day ≤ today.day := by
  have hyear : birth.year + (today.year - birth.year) = today.year := Nat.add_sub_cancel' h
  rw [Date.le_iff, year_birthday, hyear]
  rcases birthday_cases birth (today.year - birth.year) with
    ⟨hmonth, hday⟩ | ⟨⟨hmonth', hday', hdays⟩, hmonth, hday⟩
  · rw [hmonth, hday]
    simp
  · have hone := today.one_le_day
    have hle : today.month = 2 → today.day ≤ 28 := by
      intro htwo
      rw [← hdays, hyear, ← htwo]
      exact today.day_le
    rw [hmonth, hday, hmonth', hday']
    omega

end Calendar
end RondeDesFacs
