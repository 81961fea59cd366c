import RondeDesFacs.Base.Text
import RondeDesFacs.Library.Calendar

/-!
# The age of a runner

`computeAge` works the age out of the date of birth and the date of the day when the form is
filled in.  It takes the difference of the years, less one if the month of birth is greater
than that of the day; but the months of the form count from one and those of a `Date` from
zero, so in the month of birth the birthday counts as not yet come on all its days.  The
comparison of the days is commented out.

So the age is right except from the birthday to the end of its month, when it is a year too
small (`age_completed`): a child born this month is minus one.
-/

namespace RondeDesFacs
namespace Page

open Calendar

/-! ## The form -/

/-- A digit. -/
def chiffre (n : ℕ) : Char := Nat.digitChar (n % 10)

/-- Two digits. -/
def deuxChiffres (n : ℕ) : Text := [chiffre (n / 10), chiffre n]

/-- Four digits. -/
def quatreChiffres (n : ℕ) : Text :=
  [chiffre (n / 1000), chiffre (n / 100), chiffre (n / 10), chiffre n]

/-- The value of an input of type `date`: `YYYY-MM-DD`. -/
def saisie (d : Date) : Text :=
  quatreChiffres d.year ++ '-' :: (deuxChiffres d.month ++ '-' :: deuxChiffres d.day)

/-! ## The function -/

/-- `t.substr(start, length)`. -/
def substr (t : Text) (start length : ℕ) : Text := (t.drop start).take length

/-- The number of a text that is nothing or digits; anything else that `computeAge` can cut
out of the value of the form is not a number. -/
def nombre (t : Text) : Option ℤ :=
  if t.all Char.isDigit then some ((t.foldl (fun n c => 10 * n + (c.toNat - 48)) 0 : ℕ) : ℤ)
  else none

/-- `getFullYear`. -/
def getFullYear (d : Date) : ℤ := d.year

/-- `getMonth`, which counts from zero. -/
def getMonth (d : Date) : ℤ := d.month - 1

/-- What `computeAge` writes to the field `age`; none for what is not a number. -/
def computeAge (birthdate : Text) (aujourdhui : Date) : Option ℤ :=
  let annee := nombre (substr birthdate 0 4)
  let age := annee.map fun annee => getFullYear aujourdhui - annee
  let moisBd := nombre (substr birthdate 5 2)
  let moisTd := getMonth aujourdhui
  -- no comparison with what is not a number holds
  if moisBd.any (· > moisTd) then age.map (· - 1) else age

/-! ## Reading the form -/

theorem chiffre_spec (n : ℕ) :
    (chiffre n).isDigit = true ∧ (chiffre n).toNat - 48 = n % 10 := by
  have hdigits : ∀ d < 10, (Nat.digitChar d).isDigit = true ∧ (Nat.digitChar d).toNat - 48 = d := by
    decide
  exact hdigits (n % 10) (Nat.mod_lt n (by decide))

theorem nombre_deuxChiffres {n : ℕ} (h : n ≤ 99) : nombre (deuxChiffres n) = some (n : ℤ) := by
  have hvalue : 10 * (10 * 0 + n / 10 % 10) + n % 10 = n := by omega
  simp only [nombre, deuxChiffres, List.all_cons, List.all_nil, List.foldl_cons, List.foldl_nil,
    chiffre_spec, hvalue]
  rfl

theorem nombre_quatreChiffres {n : ℕ} (h : n ≤ 9999) :
    nombre (quatreChiffres n) = some (n : ℤ) := by
  have hvalue : 10 * (10 * (10 * (10 * 0 + n / 1000 % 10) + n / 100 % 10) + n / 10 % 10) + n % 10 =
      n := by omega
  simp only [nombre, quatreChiffres, List.all_cons, List.all_nil, List.foldl_cons, List.foldl_nil,
    chiffre_spec, hvalue]
  rfl

/-- **What is written**, for a date of the form. -/
theorem computeAge_saisie {birth : Date} (hyear : birth.year ≤ 9999) (today : Date) :
    computeAge (saisie birth) today =
      some (if today.month ≤ birth.month then (today.year : ℤ) - birth.year - 1
        else (today.year : ℤ) - birth.year) := by
  have hannee : nombre (substr (saisie birth) 0 4) = some (birth.year : ℤ) :=
    nombre_quatreChiffres hyear
  have hmois : nombre (substr (saisie birth) 5 2) = some (birth.month : ℤ) :=
    nombre_deuxChiffres (birth.month_le.trans (by decide))
  have hiff : (birth.month : ℤ) > getMonth today ↔ today.month ≤ birth.month := by
    rw [getMonth]
    omega
  rw [computeAge, hannee, hmois]
  by_cases hmonth : today.month ≤ birth.month
  · rw [if_pos hmonth]
    exact if_pos (decide_eq_true (hiff.mpr hmonth))
  · rw [if_neg hmonth]
    exact if_neg fun h => hmonth (hiff.mp (of_decide_eq_true h))

/-- **When the age is right.**  Exactly if the month is not that of the birthday, or the
birthday is still to come. -/
theorem age_completed (birth today : Date) (hyear : birth.year ≤ 9999) (h : birth ≤ today) :
    (∃ n : ℕ, computeAge (saisie birth) today = some (n : ℤ) ∧
      IsGreatest {n | birthday birth n ≤ today} n) ↔
        birth.month ≠ today.month ∨ today.day < birth.day := by
  have hgreatest := isGreatest_completedYears h
  have hyears := year_le h
  have hright : (∃ n : ℕ, computeAge (saisie birth) today = some (n : ℤ) ∧
      IsGreatest {n | birthday birth n ≤ today} n) ↔
        computeAge (saisie birth) today = some (completedYears birth today : ℤ) := by
    constructor
    · rintro ⟨n, hn, hmax⟩
      rw [hn, hmax.unique hgreatest]
    · exact fun hn => ⟨_, hn, hgreatest⟩
  rw [hright, computeAge_saisie hyear, Option.some_inj, completedYears]
  simp only [birthday_le_iff hyears]
  rw [Date.le_iff] at h
  split_ifs <;> omega

/-- 10 May 2000. -/
def dixMai : Date := ⟨2000, 5, 10, by decide, by decide, by decide, by decide⟩

/-- 20 May 2024, ten days after a birthday. -/
def vingtMai : Date := ⟨2024, 5, 20, by decide, by decide, by decide, by decide⟩

/-- The age is 23, a year too small. -/
theorem age_completed_vingtMai :
    ¬ ∃ n : ℕ, computeAge (saisie dixMai) vingtMai = some (n : ℤ) ∧
      IsGreatest {n | birthday dixMai n ≤ vingtMai} n := by
  rintro ⟨n, hn, hmax⟩
  have hage : computeAge (saisie dixMai) vingtMai = some 23 := by decide
  rw [hage, Option.some_inj] at hn
  have hcome : 24 ≤ n := hmax.2 (show birthday dixMai 24 ≤ vingtMai by decide)
  omega

/-- The condition at these dates. -/
theorem age_completed_at_vingtMai :
    (∃ n : ℕ, computeAge (saisie dixMai) vingtMai = some (n : ℤ) ∧
      IsGreatest {n | birthday dixMai n ≤ vingtMai} n) ↔
        dixMai.month ≠ vingtMai.month ∨ vingtMai.day < dixMai.day :=
  age_completed dixMai vingtMai (by decide) (by decide)

end Page
end RondeDesFacs
