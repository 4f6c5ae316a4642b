import Mathlib.Logic.Function.Iterate
import Mathlib.Tactic.IntervalCases

/-!
# `Tolunnet.Lib.Calendar`: the Gregorian calendar, day by day and in closed form

`Date.next` is the calendar as a rule: the day after a day. `civil` is the usual closed form, which
counts days from 1 March of the year 0, so that the leap day is the last day of its year. `next_civil`
says that the two agree, and `iterate_next_civil` that they do over any number of days.

A day of a March year is the day `doy` of the year `y`; `daysBefore y` days have gone when it begins.
`Moment.tick` adds the clock, second by second.
-/

set_option autoImplicit false

namespace Calendar

/-! ## The rule -/

/-- A day. -/
structure Date where
  year : Nat
  month : Nat
  day : Nat
  deriving DecidableEq, Repr

/-- A year with 29 February. -/
def leap (year : Nat) : Bool := year % 4 == 0 && (year % 100 != 0 || year % 400 == 0)

/-- The number of days of a month. -/
def monthLength (year month : Nat) : Nat :=
  if month = 2 then if leap year then 29 else 28
  else if month = 4 ∨ month = 6 ∨ month = 9 ∨ month = 11 then 30
  else 31

/-- The day after. -/
def Date.next (d : Date) : Date :=
  if d.day < monthLength d.year d.month then { d with day := d.day + 1 }
  else if d.month < 12 then { d with month := d.month + 1, day := 1 }
  else { year := d.year + 1, month := 1, day := 1 }

/-- A day and a time of the day. -/
structure Moment where
  date : Date
  hour : Nat := 0
  minute : Nat := 0
  second : Nat := 0
  deriving DecidableEq, Repr

/-- A second later. -/
def Moment.tick (m : Moment) : Moment :=
  if m.second < 59 then { m with second := m.second + 1 }
  else if m.minute < 59 then { m with minute := m.minute + 1, second := 0 }
  else if m.hour < 23 then { m with hour := m.hour + 1, minute := 0, second := 0 }
  else { date := m.date.next }

/-! ## Years from March to February -/

/-- The length of the year that begins in March. -/
def yearLength (y : Nat) : Nat := if leap (y + 1) then 366 else 365

/-- The days from 1 March of the year 0 to 1 March of a year. -/
def daysBefore (y : Nat) : Nat := 365 * y + y / 4 - y / 100 + y / 400

theorem leap_iff (y : Nat) : leap y = true ↔ y % 4 = 0 ∧ (y % 100 ≠ 0 ∨ y % 400 = 0) := by
  simp [leap]

theorem yearLength_cases (y : Nat) : yearLength y = 365 ∨
    (yearLength y = 366 ∧ (y + 1) % 4 = 0 ∧ ((y + 1) % 100 ≠ 0 ∨ (y + 1) % 400 = 0)) := by
  unfold yearLength
  split
  · rename_i hleap
    exact Or.inr ⟨rfl, (leap_iff (y + 1)).mp hleap⟩
  · exact Or.inl rfl

theorem daysBefore_succ (y : Nat) : daysBefore (y + 1) = daysBefore y + yearLength y := by
  have hle : y / 100 ≤ y / 4 := Nat.div_le_div_left (by decide) (by decide)
  have h400 : 400 ∣ y + 1 → 100 ∣ y + 1 := Nat.dvd_trans ⟨4, rfl⟩
  have h100 : 100 ∣ y + 1 → 4 ∣ y + 1 := Nat.dvd_trans ⟨25, rfl⟩
  unfold daysBefore yearLength
  rw [Nat.succ_div, Nat.succ_div, Nat.succ_div]
  generalize y / 4 = fours at hle ⊢
  generalize y / 100 = hundreds at hle ⊢
  generalize y / 400 = cycles
  have hleap : leap (y + 1) = true ↔ 4 ∣ y + 1 ∧ (¬ 100 ∣ y + 1 ∨ 400 ∣ y + 1) := by
    rw [leap_iff, Nat.dvd_iff_mod_eq_zero, Nat.dvd_iff_mod_eq_zero, Nat.dvd_iff_mod_eq_zero]
  by_cases four : 4 ∣ y + 1
  · by_cases hundred : 100 ∣ y + 1
    · by_cases cycle : 400 ∣ y + 1
      · rw [if_pos four, if_pos hundred, if_pos cycle, if_pos (hleap.mpr ⟨four, Or.inr cycle⟩)]
        omega
      · rw [if_pos four, if_pos hundred, if_neg cycle,
          if_neg fun h => (hleap.mp h).2.elim (· hundred) cycle]
        omega
    · rw [if_pos four, if_neg hundred, if_neg (mt h400 hundred),
        if_pos (hleap.mpr ⟨four, Or.inl hundred⟩)]
      omega
  · rw [if_neg four, if_neg (mt h100 four), if_neg fun h => four (h100 (h400 h)),
      if_neg fun h => four (hleap.mp h).1]
    omega

/-- Every day is a day of some year. -/
theorem exists_year (z : Nat) : ∃ y doy, doy < yearLength y ∧ z = daysBefore y + doy := by
  induction z with
  | zero => exact ⟨0, 0, by decide, rfl⟩
  | succ z ih =>
    obtain ⟨y, doy, hdoy, rfl⟩ := ih
    by_cases hlast : doy + 1 < yearLength y
    · exact ⟨y, doy + 1, hlast, by omega⟩
    · refine ⟨y + 1, 0, ?_, ?_⟩
      · rcases yearLength_cases (y + 1) with h | ⟨h, -⟩ <;> omega
      · rw [daysBefore_succ]
        omega

/-! ## Months from March to February -/

/-- The days of the year before month `mp`, where March is month 0. -/
def monthStart (mp : Nat) : Nat := (153 * mp + 2) / 5

/-- The number of the month on the calendar. -/
def marchMonth (mp : Nat) : Nat := if mp < 10 then mp + 3 else mp - 9

/-- Day `doy` of the year that begins in March of year `y`. -/
def ofMarch (y doy : Nat) : Date :=
  let mp := (5 * doy + 2) / 153
  let month := marchMonth mp
  { year := y + if month ≤ 2 then 1 else 0, month := month, day := doy - monthStart mp + 1 }

/-- The year on the calendar of month `mp`. -/
def marchYear (y mp : Nat) : Nat := y + if marchMonth mp ≤ 2 then 1 else 0

/-- Day `k` of month `mp`. -/
theorem ofMarch_monthStart_add (y : Nat) {mp k : Nat} (hk : monthStart mp + k < monthStart (mp + 1)) :
    ofMarch y (monthStart mp + k) = ⟨marchYear y mp, marchMonth mp, k + 1⟩ := by
  have hmp : (5 * (monthStart mp + k) + 2) / 153 = mp := by
    unfold monthStart at hk ⊢
    omega
  unfold ofMarch marchYear
  rw [hmp]
  dsimp only
  rw [Nat.add_sub_cancel_left]

/-- A month but February has the same length every year. -/
theorem monthLength_march (y : Nat) {mp : Nat} (hmp : mp < 11) :
    monthLength y (marchMonth mp) = monthStart (mp + 1) - monthStart mp := by
  interval_cases mp <;> rfl

/-- February has what is left of the year. -/
theorem monthLength_february (y : Nat) : monthLength (y + 1) 2 = yearLength y - monthStart 11 := by
  unfold monthLength yearLength
  cases leap (y + 1) <;> rfl

/-- Every day of a year is a day of one of its months. -/
theorem exists_month {y doy : Nat} (hdoy : doy < yearLength y) :
    ∃ mp k, mp ≤ 11 ∧ monthStart mp + k < monthStart (mp + 1) ∧ doy = monthStart mp + k := by
  have hyear : doy < 366 := by rcases yearLength_cases y with h | ⟨h, -⟩ <;> omega
  have hstart : monthStart ((5 * doy + 2) / 153) ≤ doy ∧
      doy < monthStart ((5 * doy + 2) / 153 + 1) := by
    unfold monthStart
    omega
  exact ⟨(5 * doy + 2) / 153, doy - monthStart ((5 * doy + 2) / 153), by omega, by omega, by omega⟩

/-- The first day of the month after month `mp`. -/
theorem next_month {y mp : Nat} (hmp : mp < 11) :
    (if marchMonth mp < 12 then (⟨marchYear y mp, marchMonth mp + 1, 1⟩ : Date)
      else ⟨marchYear y mp + 1, 1, 1⟩) = ⟨marchYear y (mp + 1), marchMonth (mp + 1), 1⟩ := by
  interval_cases mp <;> rfl

/-- The day after a day of a March year. -/
theorem next_ofMarch {y doy : Nat} (hdoy : doy < yearLength y) : (ofMarch y doy).next =
    if doy + 1 < yearLength y then ofMarch y (doy + 1) else ofMarch (y + 1) 0 := by
  obtain ⟨mp, k, hmp, hk, rfl⟩ := exists_month hdoy
  have hyear : 365 ≤ yearLength y ∧ yearLength y ≤ 366 := by
    rcases yearLength_cases y with h | ⟨h, -⟩ <;> omega
  have hend : monthStart 11 = 337 ∧ monthStart 12 = 367 := ⟨rfl, rfl⟩
  rw [ofMarch_monthStart_add y hk]
  unfold Date.next
  dsimp only
  rcases Nat.lt_or_ge mp 11 with before | last
  · -- a month before February, and so not the end of the year
    have hin : monthStart (mp + 1) ≤ 337 := by
      unfold monthStart
      omega
    rw [monthLength_march _ before, if_pos (show monthStart mp + k + 1 < yearLength y by omega)]
    by_cases hday : k + 1 < monthStart (mp + 1) - monthStart mp
    · have hk : monthStart mp + (k + 1) < monthStart (mp + 1) := by omega
      rw [if_pos hday, Nat.add_assoc (monthStart mp), ofMarch_monthStart_add y hk]
    · rw [if_neg hday, next_month before]
      have hnext : monthStart (mp + 1) + 0 < monthStart (mp + 1 + 1) := by
        unfold monthStart
        omega
      have hday : monthStart mp + k + 1 = monthStart (mp + 1) + 0 := by omega
      rw [hday, ofMarch_monthStart_add y hnext]
  · -- February, whose last day is the last day of the year
    obtain rfl : mp = 11 := le_antisymm hmp last
    show (if k + 1 < monthLength (y + 1) 2 then (⟨y + 1, 2, k + 1 + 1⟩ : Date) else ⟨y + 1, 3, 1⟩) = _
    rw [monthLength_february]
    by_cases hday : k + 1 < yearLength y - monthStart 11
    · have hk : monthStart 11 + (k + 1) < monthStart 12 := by omega
      rw [if_pos hday, if_pos (by omega), Nat.add_assoc (monthStart 11), ofMarch_monthStart_add y hk]
      rfl
    · rw [if_neg hday, if_neg (by omega)]
      rfl

/-! ## The closed form -/

/-- The day that is `z` days after 1 March of the year 0: the era of 400 years, the day and the year of
the era, and the day of the year. -/
def civil (z : Nat) : Date :=
  let era := z / 146097
  let doe := z % 146097
  let yoe := (doe - doe / 1460 + doe / 36524 - doe / 146096) / 365
  ofMarch (yoe + era * 400) (doe - (365 * yoe + yoe / 4 - yoe / 100))

/-- The year of the era, for year `s` of cycle `q` of century `c`. The divisions take away a day for
every leap day that has passed, so that the division by 365 comes out right up to the last one. -/
theorem yearOfEra {c q s doy doe : Nat} (hc : c < 4) (hq : q < 25) (hs : s < 4)
    (hdoy : doy < 365 ∨ (doy = 365 ∧ s = 3 ∧ (q < 24 ∨ c = 3)))
    (hdoe : doe = 365 * (100 * c + 4 * q + s) + (25 * c + q) - c + doy) :
    (doe - doe / 1460 + doe / 36524 - doe / 146096) / 365 = 100 * c + 4 * q + s := by
  have hfour : doe = 1460 * (25 * c + q) + (24 * c + q + 365 * s + doy) := by omega
  have hcentury : doe = 36524 * c + (1461 * q + 365 * s + doy) := by omega
  have div1460 : doe / 1460 = 25 * c + q + (24 * c + q + 365 * s + doy) / 1460 := by
    rw [hfour, Nat.mul_add_div (by decide)]
  have div36524 : doe / 36524 = c + (1461 * q + 365 * s + doy) / 36524 := by
    rw [hcentury, Nat.mul_add_div (by decide)]
  by_cases hlast : c = 3 ∧ q = 24 ∧ s = 3 ∧ doy = 365
  · -- the last day of the era, where alone `doe / 146096` is 1
    obtain ⟨rfl, rfl, rfl, rfl⟩ := hlast
    subst hdoe
    rfl
  · have small36524 : (1461 * q + 365 * s + doy) / 36524 = 0 := Nat.div_eq_of_lt (by omega)
    have small146096 : doe / 146096 = 0 := Nat.div_eq_of_lt (by omega)
    -- 1460 days are a day less than a cycle: `k` is 1 in the last days of some cycles
    obtain ⟨k, hk, hlow, hhigh⟩ : ∃ k, (24 * c + q + 365 * s + doy) / 1460 = k ∧ k ≤ doy ∧
        doy < 365 + k := by
      by_cases hend : 24 * c + q + 365 * s + doy < 1460
      · exact ⟨0, Nat.div_eq_of_lt hend, Nat.zero_le _, by omega⟩
      · refine ⟨1, Nat.div_eq_of_lt_le ?_ ?_, by omega, by omega⟩
        · omega
        · omega
    rw [div1460, div36524, small36524, small146096, hk]
    clear div1460 div36524 small36524 small146096 hk hfour hcentury
    exact Nat.div_eq_of_lt_le (by omega) (by omega)

/-- The formula gives the year of the era in which the day lies. -/
theorem yearOfEra_eq {yoe doy doe : Nat} (hyoe : yoe < 400) (hdoy : doy < yearLength yoe)
    (hdoe : doe = 365 * yoe + yoe / 4 - yoe / 100 + doy) :
    (doe - doe / 1460 + doe / 36524 - doe / 146096) / 365 = yoe := by
  obtain ⟨c, q, s, rfl, hc, hq, hs⟩ :
      ∃ c q s, yoe = 100 * c + 4 * q + s ∧ c < 4 ∧ q < 25 ∧ s < 4 :=
    ⟨yoe / 100, yoe % 100 / 4, yoe % 4, by omega, by omega, by omega, by omega⟩
  have hlast : doy < 365 ∨ (doy = 365 ∧ s = 3 ∧ (q < 24 ∨ c = 3)) := by
    rcases yearLength_cases (100 * c + 4 * q + s) with h | ⟨h, hfour, hcentury⟩
    · omega
    · rcases hcentury with hcentury | hcentury <;> omega
  have yoe4 : (100 * c + 4 * q + s) / 4 = 25 * c + q := by omega
  have yoe100 : (100 * c + 4 * q + s) / 100 = c := by omega
  rw [yoe4, yoe100] at hdoe
  exact yearOfEra hc hq hs hlast (by omega)

theorem daysBefore_mono : Monotone daysBefore :=
  monotone_nat_of_le_succ fun y => by
    rw [daysBefore_succ]
    exact Nat.le_add_right _ _

theorem daysBefore_of_lt {yoe : Nat} (hyoe : yoe < 400) :
    daysBefore yoe = 365 * yoe + yoe / 4 - yoe / 100 := by
  unfold daysBefore
  rw [Nat.div_eq_of_lt hyoe, Nat.add_zero]

/-- An era has 146097 days. -/
theorem dayOfEra_lt {yoe doy doe : Nat} (hyoe : yoe < 400) (hdoy : doy < yearLength yoe)
    (hdoe : doe = 365 * yoe + yoe / 4 - yoe / 100 + doy) : doe < 146097 := by
  have hnext : daysBefore (yoe + 1) ≤ daysBefore 400 := daysBefore_mono hyoe
  have h400 : daysBefore 400 = 146097 := rfl
  rw [daysBefore_succ, daysBefore_of_lt hyoe] at hnext
  omega

/-- The calendar repeats itself after 400 years. -/
theorem daysBefore_era (e yoe : Nat) : daysBefore (e * 400 + yoe) = 146097 * e + daysBefore yoe := by
  have hle : yoe / 100 ≤ yoe / 4 := Nat.div_le_div_left (by decide) (by decide)
  have div4 : (e * 400 + yoe) / 4 = 100 * e + yoe / 4 := by omega
  have div100 : (e * 400 + yoe) / 100 = 4 * e + yoe / 100 := by omega
  have div400 : (e * 400 + yoe) / 400 = e + yoe / 400 := by omega
  unfold daysBefore
  rw [div4, div100, div400]
  omega

theorem yearLength_era (e yoe : Nat) : yearLength (e * 400 + yoe) = yearLength yoe := by
  have hsucc := daysBefore_succ (e * 400 + yoe)
  rw [Nat.add_assoc, daysBefore_era, daysBefore_era, daysBefore_succ] at hsucc
  omega

/-- The closed form finds the year and the day of the year. -/
theorem civil_daysBefore_add {y doy : Nat} (hdoy : doy < yearLength y) :
    civil (daysBefore y + doy) = ofMarch y doy := by
  obtain ⟨e, yoe, rfl, hyoe⟩ : ∃ e yoe, y = e * 400 + yoe ∧ yoe < 400 :=
    ⟨y / 400, y % 400, by omega, by omega⟩
  rw [yearLength_era] at hdoy
  have hdoe : daysBefore yoe + doy = 365 * yoe + yoe / 4 - yoe / 100 + doy := by
    rw [daysBefore_of_lt hyoe]
  have hsmall := dayOfEra_lt hyoe hdoy hdoe
  rw [daysBefore_era, Nat.add_assoc]
  unfold civil
  dsimp only
  rw [Nat.mul_add_div (by decide), Nat.div_eq_of_lt hsmall, Nat.mul_add_mod,
    Nat.mod_eq_of_lt hsmall, yearOfEra_eq hyoe hdoy hdoe, hdoe, Nat.add_sub_cancel_left,
    Nat.add_zero, Nat.add_comm yoe]

/-- The closed form follows the rule. -/
theorem next_civil (z : Nat) : (civil z).next = civil (z + 1) := by
  obtain ⟨y, doy, hdoy, rfl⟩ := exists_year z
  rw [civil_daysBefore_add hdoy, next_ofMarch hdoy]
  split
  · rename_i hlast
    rw [Nat.add_assoc, civil_daysBefore_add hlast]
  · rename_i hlast
    have hfirst : 0 < yearLength (y + 1) := by
      rcases yearLength_cases (y + 1) with h | ⟨h, -⟩ <;> omega
    have hnext : daysBefore y + doy + 1 = daysBefore (y + 1) + 0 := by
      rw [daysBefore_succ]
      omega
    rw [hnext, civil_daysBefore_add hfirst]

theorem iterate_next_civil (z n : Nat) : Date.next^[n] (civil z) = civil (z + n) := by
  induction n with
  | zero => rfl
  | succ n ih => rw [Function.iterate_succ_apply', ih, next_civil, Nat.add_assoc]

/-! ## The clock -/

/-- The moment `n` seconds after the beginning of a day. -/
theorem iterate_tick (d : Date) (n : Nat) : Moment.tick^[n] { date := d } =
    { date := Date.next^[n / 86400] d, hour := n % 86400 / 3600, minute := n % 86400 % 3600 / 60,
      second := n % 86400 % 60 } := by
  induction n with
  | zero => rfl
  | succ n ih =>
    rw [Function.iterate_succ_apply', ih]
    unfold Moment.tick
    dsimp only
    split
    · have hday : (n + 1) / 86400 = n / 86400 := by omega
      have hof : (n + 1) % 86400 = n % 86400 + 1 := by omega
      rw [hday, hof]
      congr 1 <;> omega
    · split
      · have hday : (n + 1) / 86400 = n / 86400 := by omega
        have hof : (n + 1) % 86400 = n % 86400 + 1 := by omega
        rw [hday, hof]
        congr 1 <;> omega
      · split
        · have hday : (n + 1) / 86400 = n / 86400 := by omega
          have hof : (n + 1) % 86400 = n % 86400 + 1 := by omega
          rw [hday, hof]
          congr 1 <;> omega
        · have hday : (n + 1) / 86400 = n / 86400 + 1 := by omega
          have hof : (n + 1) % 86400 = 0 := by omega
          rw [hday, hof, Function.iterate_succ_apply']

end Calendar
