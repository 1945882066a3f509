import MergeQueue.Timestamp
import Mathlib.Tactic

/-!
# Days and dates

The days of an era of four hundred years are counted in centuries, groups of four years, years and
days. The date of a day is a day of the calendar, and it lies as many days behind the start of 1970
as the day it was made of.
-/
namespace MergeQueue.Date

/-- The day of an era that begins in March, in centuries, groups of four years, years and days. The
last day of a leap year is day 365 of its year. -/
structure Cycles (day century quad year rest : ℤ) : Prop where
  day_eq : day = 36524 * century + 1461 * quad + 365 * year + rest
  century_mem : 0 ≤ century ∧ century ≤ 3
  quad_mem : 0 ≤ quad ∧ quad ≤ 24
  year_mem : 0 ≤ year ∧ year ≤ 3
  rest_mem : 0 ≤ rest ∧ rest ≤ 365
  leap : rest = 365 → year = 3 ∧ (quad = 24 → century = 3)

theorem exists_cycles {day : ℤ} (h : 0 ≤ day ∧ day < 146097) :
    ∃ century quad year rest, Cycles day century quad year rest := by
  obtain ⟨c, hc⟩ : ∃ c, c = min (day / 36524) 3 := ⟨_, rfl⟩
  obtain ⟨q, hq⟩ : ∃ q, q = (day - 36524 * c) / 1461 := ⟨_, rfl⟩
  obtain ⟨y, hy⟩ : ∃ y, y = min ((day - 36524 * c - 1461 * q) / 365) 3 := ⟨_, rfl⟩
  have hcm : 0 ≤ c ∧ c ≤ 3 := by omega
  have hcd : 0 ≤ day - 36524 * c ∧ day - 36524 * c ≤ 36524 ∧
      (day - 36524 * c = 36524 → c = 3) := by omega
  have hqm : 0 ≤ q ∧ q ≤ 24 := by omega
  have hqd : 0 ≤ day - 36524 * c - 1461 * q ∧ day - 36524 * c - 1461 * q ≤ 1460 := by omega
  have hym : 0 ≤ y ∧ y ≤ 3 := by omega
  exact ⟨c, q, y, day - 36524 * c - 1461 * q - 365 * y, by omega, hcm, hqm, hym, by omega, by omega⟩

section Cycles

variable {day century quad year rest : ℤ}

theorem Cycles.year_eq (h : Cycles day century quad year rest) :
    (day - day / 1460 + day / 36524 - day / 146096) / 365 = 100 * century + 4 * quad + year := by
  obtain ⟨hd, hc, hq, hy, hr, hl⟩ := h
  -- only the last day of an era lies a whole number of centuries and one more behind its start
  have hcentury : day / 36524 - day / 146096 = century := by
    by_cases hlast : 1461 * quad + 365 * year + rest = 36524
    · have : day = 146096 := by omega
      omega
    · have : day / 36524 = century := by omega
      omega
  have hgroup : day / 1460 = 25 * century + quad ∨
      day / 1460 = 25 * century + quad + 1 ∧ 1460 ≤ 24 * century + quad + 365 * year + rest := by
    omega
  rcases hgroup with hgroup | ⟨hgroup, hlong⟩
  · omega
  · omega

theorem Cycles.rest_eq (h : Cycles day century quad year rest) :
    let y := 100 * century + 4 * quad + year
    day - (365 * y + y / 4 - y / 100) = rest := by
  obtain ⟨hd, hc, hq, hy, -, -⟩ := h
  intro y
  have h4 : y / 4 = 25 * century + quad := by omega
  have h100 : y / 100 = century := by omega
  omega

/-- A year with a day 365 ends in a leap day. -/
theorem Cycles.isLeapYear (h : Cycles day century quad year rest) (hr : rest = 365) (era : ℤ) :
    isLeapYear (100 * century + 4 * quad + year + era * 400 + 1) = true := by
  obtain ⟨rfl, h3⟩ := h.leap hr
  have hq := h.quad_mem
  simp only [Date.isLeapYear, Bool.and_eq_true, Bool.or_eq_true, decide_eq_true_eq]
  omega

end Cycles

/-- The day `rest` of the year that begins in March of `year`. -/
def ofMarch (year rest : ℤ) : Date :=
  let month := (5 * rest + 2) / 153
  let day := (rest - (153 * month + 2) / 5 + 1).toNat
  let month := (if month < 10 then month + 3 else month - 9).toNat
  ⟨if month ≤ 2 then year + 1 else year, month, day⟩

/-- The year and the day of the year that a day lies in, years taken to begin in March. -/
theorem ofDays_eq_ofMarch (days : ℤ) :
    ∃ year rest, ofDays days = ofMarch year rest ∧ 0 ≤ rest ∧ rest ≤ 365 ∧
      (rest = 365 → isLeapYear (year + 1) = true) ∧
      days + 719468 = year / 400 * 146097 + year % 400 * 365 + year % 400 / 4 - year % 400 / 100 +
        rest := by
  have hera : 0 ≤ (days + 719468) % 146097 ∧ (days + 719468) % 146097 < 146097 := by omega
  obtain ⟨c, q, y, r, h⟩ := exists_cycles hera
  refine ⟨100 * c + 4 * q + y + (days + 719468) / 146097 * 400, r, ?_, h.rest_mem.1, h.rest_mem.2,
    fun hr => h.isLeapYear hr _, ?_⟩
  · have hday : days + 719468 - (days + 719468) / 146097 * 146097 = (days + 719468) % 146097 := by
      omega
    simp only [ofDays, ofMarch, hday, h.year_eq, h.rest_eq]
  · have hr := h.rest_eq
    have := h.century_mem
    have := h.quad_mem
    have := h.year_mem
    omega

section March

variable {year rest : ℤ}

theorem toDays_ofMarch (h0 : 0 ≤ rest) (h : rest ≤ 365) :
    (ofMarch year rest).toDays =
      year / 400 * 146097 + year % 400 * 365 + year % 400 / 4 - year % 400 / 100 + rest -
        719468 := by
  obtain ⟨m, hm⟩ : ∃ m, m = (5 * rest + 2) / 153 := ⟨_, rfl⟩
  have hera : year - year / 400 * 400 = year % 400 := by omega
  have hday : ((rest - (153 * m + 2) / 5 + 1).toNat : ℤ) = rest - (153 * m + 2) / 5 + 1 :=
    Int.toNat_of_nonneg (by omega)
  simp only [toDays, ofMarch, ← hm, hday]
  by_cases hlow : m < 10
  · have hmod : (((m + 3).toNat : ℤ) + 9) % 12 = m := by omega
    have hmonth : ¬(m + 3).toNat ≤ 2 := by omega
    simp only [if_pos hlow, if_neg hmonth, hmod, hera]
    omega
  · have hmod : (((m - 9).toNat : ℤ) + 9) % 12 = m := by omega
    have hmonth : (m - 9).toNat ≤ 2 := by omega
    simp only [if_neg hlow, if_pos hmonth, hmod, add_sub_cancel_right, hera]
    omega

theorem month_ofMarch (year : ℤ) (h0 : 0 ≤ rest) (h : rest ≤ 365) :
    1 ≤ (ofMarch year rest).month ∧ (ofMarch year rest).month ≤ 12 := by
  simp only [ofMarch]
  split <;> omega

theorem day_ofMarch (h0 : 0 ≤ rest) (h : rest ≤ 365)
    (hleap : rest = 365 → isLeapYear (year + 1) = true) :
    1 ≤ (ofMarch year rest).day ∧
      (ofMarch year rest).day ≤ daysInMonth (ofMarch year rest).year (ofMarch year rest).month := by
  obtain ⟨m, hm⟩ : ∃ m, m = (5 * rest + 2) / 153 := ⟨_, rfl⟩
  have hm0 : 0 ≤ m := by omega
  have hm11 : m ≤ 11 := by omega
  simp only [ofMarch, ← hm]
  refine ⟨by omega, ?_⟩
  interval_cases m
  case «11» =>
    change _ ≤ if isLeapYear (year + 1) then 29 else 28
    split
    · omega
    · rename_i hyear
      have : rest ≠ 365 := fun hr => hyear (hleap hr)
      omega
  all_goals first
    | change _ ≤ 30; omega
    | change _ ≤ 31; omega

end March

/-- A day is the day of its date. -/
theorem toDays_ofDays (days : ℤ) : (ofDays days).toDays = days := by
  obtain ⟨year, rest, he, h0, h, -, hdays⟩ := ofDays_eq_ofMarch days
  rw [he, toDays_ofMarch h0 h]
  omega

/-- The date of a day is a day of the calendar. -/
theorem isValid_ofDays {days : ℤ} (hy : isYear (ofDays days).year = true) :
    (ofDays days).isValid = true := by
  obtain ⟨year, rest, he, h0, h, hleap, -⟩ := ofDays_eq_ofMarch days
  rw [he] at hy ⊢
  obtain ⟨hm1, hm12⟩ := month_ofMarch year h0 h
  obtain ⟨hd1, hd⟩ := day_ofMarch h0 h hleap
  simp only [isValid, hy, Bool.true_and, Bool.and_eq_true, decide_eq_true_eq]
  exact ⟨⟨⟨hm1, hm12⟩, hd1⟩, hd⟩

end MergeQueue.Date
