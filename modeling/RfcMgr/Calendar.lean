import Mathlib.Order.Basic
import Mathlib.Order.Lattice
import Mathlib.Data.Nat.Init

/-! The civil calendar of a clock that counts days from 1970-01-01. -/

namespace Calendar

def IsLeap (year : Nat) : Prop := year % 4 = 0 ∧ (year % 100 ≠ 0 ∨ year % 400 = 0)

instance : DecidablePred IsLeap := fun year =>
  inferInstanceAs (Decidable (year % 4 = 0 ∧ (year % 100 ≠ 0 ∨ year % 400 = 0)))

def daysInMonth (year : Nat) : Nat → Nat
  | 2 => if IsLeap year then 29 else 28
  | 4 | 6 | 9 | 11 => 30
  | _ => 31

theorem one_lt_daysInMonth (year month : Nat) : 1 < daysInMonth year month := by
  unfold daysInMonth
  split
  · split
    · decide
    · decide
  all_goals decide

/-- A day of the calendar. -/
@[ext] structure Date where
  year : Nat
  month : Nat
  day : Nat
  month_pos : 1 ≤ month
  month_le : month ≤ 12
  day_pos : 1 ≤ day
  day_le : day ≤ daysInMonth year month

def firstOf (year month : Nat) (hpos : 1 ≤ month) (hle : month ≤ 12) : Date :=
  ⟨year, month, 1, hpos, hle, le_rfl, (one_lt_daysInMonth year month).le⟩

/-- The day behind. -/
def Date.next (date : Date) : Date :=
  if hday : date.day < daysInMonth date.year date.month then
    ⟨date.year, date.month, date.day + 1, date.month_pos, date.month_le, Nat.le_add_left .., hday⟩
  else if hmonth : date.month < 12 then
    firstOf date.year (date.month + 1) (Nat.le_add_left ..) hmonth
  else firstOf (date.year + 1) 1 le_rfl (by decide)

def epoch : Date := firstOf 1970 1 le_rfl (by decide)

/-- The date so many days behind the epoch. -/
def dateOf : Nat → Date
  | 0 => epoch
  | days + 1 => (dateOf days).next

/-- Sunday is 0; the epoch was a Thursday. -/
def weekday (days : Nat) : Nat := (days + 4) % 7

theorem Date.next_of_lt (date : Date) (h : date.day < daysInMonth date.year date.month) :
    date.next.year = date.year ∧ date.next.month = date.month ∧ date.next.day = date.day + 1 := by
  rw [next, dif_pos h]
  exact ⟨rfl, rfl, rfl⟩

theorem Date.next_of_last (date : Date) (h : date.day = daysInMonth date.year date.month)
    (hmonth : date.month < 12) :
    date.next = firstOf date.year (date.month + 1) (Nat.le_add_left ..) hmonth := by
  rw [next, dif_neg (by omega), dif_pos hmonth]

theorem Date.next_of_december (date : Date) (h : date.day = daysInMonth date.year date.month)
    (hmonth : date.month = 12) : date.next = firstOf (date.year + 1) 1 le_rfl (by decide) := by
  rw [next, dif_neg (by omega), dif_neg (by omega)]

/-- From the first of a month its days follow each other. -/
theorem dateOf_add {days year month : Nat} {hpos : 1 ≤ month} {hle : month ≤ 12}
    (h : dateOf days = firstOf year month hpos hle) (passed : Nat)
    (hpassed : passed < daysInMonth year month) :
    (dateOf (days + passed)).year = year ∧ (dateOf (days + passed)).month = month ∧
      (dateOf (days + passed)).day = passed + 1 := by
  induction passed with
  | zero =>
      rw [Nat.add_zero, h]
      exact ⟨rfl, rfl, rfl⟩
  | succ passed ih =>
      obtain ⟨hyear, hmonth, hday⟩ := ih (by omega)
      have hlt : (dateOf (days + passed)).day <
          daysInMonth (dateOf (days + passed)).year (dateOf (days + passed)).month := by
        rw [hyear, hmonth, hday]
        exact hpassed
      obtain ⟨hyear', hmonth', hday'⟩ := Date.next_of_lt _ hlt
      exact ⟨hyear'.trans hyear, hmonth'.trans hmonth, hday'.trans (congrArg (· + 1) hday)⟩

/-- The last day of a month. -/
theorem dateOf_last {days year month : Nat} {hpos : 1 ≤ month} {hle : month ≤ 12}
    (h : dateOf days = firstOf year month hpos hle) :
    ∃ last, (dateOf last).year = year ∧ (dateOf last).month = month ∧
      (dateOf last).day = daysInMonth year month := by
  have hmany := one_lt_daysInMonth year month
  obtain ⟨hyear, hmonth, hday⟩ := dateOf_add h (daysInMonth year month - 1) (by omega)
  exact ⟨_, hyear, hmonth, by omega⟩

/-- From a year on the clock meets the first of each of its months. -/
theorem exists_firstOf_of_january {year : Nat}
    (h : ∃ days, dateOf days = firstOf year 1 le_rfl (by decide)) {month : Nat} (hpos : 1 ≤ month)
    (hle : month ≤ 12) : ∃ days, dateOf days = firstOf year month hpos hle := by
  induction month, hpos using Nat.le_induction with
  | base => exact h
  | succ month hpos ih =>
      obtain ⟨days, hdays⟩ := ih (by omega)
      obtain ⟨last, hyear, hmonth, hday⟩ := dateOf_last hdays
      refine ⟨last + 1, ?_⟩
      have hnext := Date.next_of_last (dateOf last) (by rw [hyear, hmonth, hday]) (by omega)
      rw [dateOf, hnext]
      apply Date.ext
      · exact hyear
      · exact congrArg (· + 1) hmonth
      · rfl

/-- From the epoch on the clock meets the first of every month. -/
theorem exists_firstOf {year : Nat} (hyear : 1970 ≤ year) {month : Nat} (hpos : 1 ≤ month)
    (hle : month ≤ 12) : ∃ days, dateOf days = firstOf year month hpos hle := by
  induction year, hyear using Nat.le_induction generalizing month with
  | base => exact exists_firstOf_of_january ⟨0, rfl⟩ hpos hle
  | succ year hyear ih =>
      obtain ⟨days, hdays⟩ : ∃ days, dateOf days = firstOf year 12 (by decide) le_rfl :=
        ih (by decide) le_rfl
      obtain ⟨last, hlastYear, hlastMonth, hlastDay⟩ := dateOf_last hdays
      refine exists_firstOf_of_january ⟨last + 1, ?_⟩ hpos hle
      have hnext := Date.next_of_december (dateOf last)
        (by rw [hlastYear, hlastMonth, hlastDay]) hlastMonth
      rw [dateOf, hnext]
      apply Date.ext
      · exact congrArg (· + 1) hlastYear
      · rfl
      · rfl

/-- **Every date from the epoch on comes.** -/
theorem exists_dateOf {date : Date} (hyear : 1970 ≤ date.year) : ∃ days, dateOf days = date := by
  obtain ⟨days, hdays⟩ := exists_firstOf hyear date.month_pos date.month_le
  have hday := date.day_pos
  have hlast := date.day_le
  obtain ⟨hyear', hmonth', hday'⟩ := dateOf_add hdays (date.day - 1) (by omega)
  refine ⟨_, Date.ext hyear' hmonth' ?_⟩
  omega

/-- Seven days on end hold every weekday. -/
theorem exists_weekday (days : Nat) {wanted : Nat} (h : wanted < 7) :
    ∃ passed < 7, weekday (days + passed) = wanted := by
  refine ⟨(wanted + 7 - weekday days) % 7, Nat.mod_lt _ (by decide), ?_⟩
  unfold weekday
  omega

end Calendar
