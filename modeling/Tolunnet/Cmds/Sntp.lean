import Tolunnet.Config.Values
import Tolunnet.Lib.Calendar

/-!
# `Tolunnet.Cmds.Sntp`: the date that `sntp` prints

`main` of `sntp.c` from the transmit timestamp of the reply to the line with the date. Every operation
whose result may leave its type goes through an `Arith`: with `wraps` the program computes as the
machine does, with `checks` it stops at the first overflow or underflow. Any arithmetic that is exact
for numbers in range gives the date of the calendar (`showUnix_eq`), so what can go wrong is the
shift by `OFFSET` alone.

The difference between the NTP and the Unix epoch is taken modulo 2^32, which is right from 1970 to
2106.
-/

set_option autoImplicit false

namespace Tolunnet

namespace Sntp

open Calendar

/-! ## 32-bit arithmetic -/

/-- What becomes of a `LONG` and of a `ULONG` result. -/
structure Arith (m : Type → Type) where
  long : Int → m Int
  ulong : Int → m Nat

/-- The machine: results wrap. -/
def wraps : Arith Id := { long := wrapLong, ulong := toUlong }

/-- No result leaves its type. -/
def checks : Arith Option where
  long v := if -2 ^ 31 ≤ v ∧ v < 2 ^ 31 then some v else none
  ulong v := if 0 ≤ v ∧ v < 2 ^ 32 then some v.toNat else none

/-! ## The conversion -/

/-- `NTP_UNIX_OFFSET` -/
def ntpUnixOffset : Nat := 2208988800

section
variable {m : Type → Type} [Monad m] (ar : Arith m)

/-- The year and the day of the year that begins in March: `y` and `doy`. -/
def yearOfDays (days : Nat) : m (Nat × Nat) := do
  let z ← ar.long (days + 719468)
  let n ← if 0 ≤ z then pure z else ar.long (z - 146096)
  let era ← ar.ulong (n.tdiv 146097)
  let start ← ar.long (era * 146097)
  let ofEra ← ar.long (z - start)
  let doe ← ar.ulong ofEra
  let a ← ar.ulong ((doe : Int) - (doe / 1460 : Nat))
  let b ← ar.ulong ((a : Int) + (doe / 36524 : Nat))
  let c ← ar.ulong ((b : Int) - (doe / 146096 : Nat))
  let yoe := c / 365
  let eras ← ar.ulong ((era : Int) * 400)
  let y ← ar.ulong ((yoe : Int) + eras)
  let a ← ar.ulong (365 * (yoe : Int))
  let b ← ar.ulong ((a : Int) + (yoe / 4 : Nat))
  let c ← ar.ulong ((b : Int) - (yoe / 100 : Nat))
  let doy ← ar.ulong ((doe : Int) - c)
  pure (y, doy)

/-- `yy`, `mo` and `dd`. -/
def dateOfYear (y doy : Nat) : m Date := do
  let a ← ar.ulong (5 * (doy : Int))
  let b ← ar.ulong ((a : Int) + 2)
  let mp := b / 153
  let a ← ar.ulong (153 * (mp : Int))
  let b ← ar.ulong ((a : Int) + 2)
  let c ← ar.ulong ((doy : Int) - (b / 5 : Nat))
  let dd ← ar.ulong ((c : Int) + 1)
  let mo ← if mp < 10 then ar.ulong ((mp : Int) + 3) else ar.ulong ((mp : Int) - 9)
  let yy ← ar.ulong ((y : Int) + if mo ≤ 2 then 1 else 0)
  pure { year := yy, month := mo, day := dd }

/-- The date and the time that are printed for `unix_secs`. -/
def showUnix (unixSecs : Nat) : m Moment := do
  let days := unixSecs / 86400
  let secsToday := unixSecs % 86400
  let hh := secsToday / 3600
  let mm := secsToday % 3600 / 60
  let ss := secsToday % 60
  let (y, doy) ← yearOfDays ar days
  let date ← dateOfYear ar y doy
  pure { date, hour := hh, minute := mm, second := ss }

/-- `unix_secs`: the timestamp, shifted by `OFFSET` minutes. -/
def unixOf (ntpSecs : Nat) (offsetMin : Int) : m Nat := do
  let unixSecs := toUlong (ntpSecs - ntpUnixOffset)
  if offsetMin ≠ 0 then
    let shift ← ar.long (offsetMin * 60)
    ar.ulong (unixSecs + shift)
  else pure unixSecs

/-- What is printed for a timestamp: the Unix time, the date and the time. -/
def showTime (ntpSecs : Nat) (offsetMin : Int) : m (Nat × Moment) := do
  let unixSecs ← unixOf ar ntpSecs offsetMin
  let moment ← showUnix ar unixSecs
  pure (unixSecs, moment)

end

/-! ## Arithmetic in range -/

section
variable {m : Type → Type} [Monad m] {ar : Arith m}

/-- The arithmetic is exact where nothing leaves its type. -/
structure Arith.Exact (ar : Arith m) : Prop where
  long : ∀ v : Int, -2 ^ 31 ≤ v → v < 2 ^ 31 → ar.long v = pure v
  ulong : ∀ v : Nat, v < 2 ^ 32 → ar.ulong v = pure v

variable {β : Type} {v : Int}

theorem Arith.Exact.long_bind [LawfulMonad m] (exact : ar.Exact) {r : Int} (heq : v = r)
    (low : -2 ^ 31 ≤ r) (high : r < 2 ^ 31) (f : Int → m β) : ar.long v >>= f = f r := by
  rw [heq, exact.long r low high, pure_bind]

theorem Arith.Exact.ulong_bind [LawfulMonad m] (exact : ar.Exact) {n : Nat} (heq : v = n)
    (small : n < 2 ^ 32) (f : Nat → m β) : ar.ulong v >>= f = f n := by
  rw [heq, exact.ulong n small, pure_bind]

end

theorem exact_wraps : wraps.Exact where
  long v low high := by
    show wrapLong v = v
    exact wrapLong_of_fits low high
  ulong v small := by
    show toUlong v = v
    exact toUlong_natCast small

theorem exact_checks : checks.Exact where
  long v low high := by
    have hfits : -2 ^ 31 ≤ v ∧ v < 2 ^ 31 := ⟨low, high⟩
    simp only [checks, if_pos hfits]
    rfl
  ulong v small := by
    have hfits : 0 ≤ (v : Int) ∧ (v : Int) < 2 ^ 32 := ⟨Int.natCast_nonneg v, by omega⟩
    simp only [checks, if_pos hfits, Int.toNat_natCast]
    rfl

/-! ## The calendar -/

section
variable {m : Type → Type} [Monad m] [LawfulMonad m] {ar : Arith m}

/-- The year and the day of the year are found, with nothing out of range. -/
theorem yearOfDays_eq (exact : ar.Exact) {days y doy : Nat} (hdays : days < 49711)
    (hdoy : doy < yearLength y) (heq : days + 719468 = daysBefore y + doy) :
    yearOfDays ar days = pure (y, doy) := by
  obtain ⟨e, yoe, rfl, hyoe⟩ : ∃ e yoe, y = e * 400 + yoe ∧ yoe < 400 :=
    ⟨y / 400, y % 400, by omega, by omega⟩
  rw [yearLength_era] at hdoy
  rw [daysBefore_era, daysBefore_of_lt hyoe] at heq
  obtain ⟨doe, hdoe⟩ : ∃ doe, doe = 365 * yoe + yoe / 4 - yoe / 100 + doy := ⟨_, rfl⟩
  have hyear := yearOfEra_eq hyoe hdoy hdoe
  have hsmall := dayOfEra_lt hyoe hdoy hdoe
  have hz : days + 719468 = 146097 * e + doe := by omega
  have he : e ≤ 5 := by omega
  have hera : (days + 719468) / 146097 = e := by omega
  unfold yearOfDays
  rw [exact.long_bind (r := (days + 719468 : Nat)) (by omega) (by omega) (by omega)]
  rw [if_pos (by omega), pure_bind]
  dsimp only
  rw [exact.ulong_bind (n := e) (by rw [← hera]; rfl) (by omega)]
  rw [exact.long_bind (r := (146097 * e : Nat)) (by omega) (by omega) (by omega)]
  rw [exact.long_bind (r := (doe : Nat)) (by omega) (by omega) (by omega)]
  rw [exact.ulong_bind (n := doe) rfl (by omega)]
  rw [exact.ulong_bind (n := doe - doe / 1460) (by omega) (by omega)]
  rw [exact.ulong_bind (n := doe - doe / 1460 + doe / 36524) (by omega) (by omega)]
  rw [exact.ulong_bind (n := doe - doe / 1460 + doe / 36524 - doe / 146096) (by omega) (by omega)]
  rw [hyear]
  rw [exact.ulong_bind (n := e * 400) (by omega) (by omega)]
  rw [exact.ulong_bind (n := e * 400 + yoe) (by omega) (by omega)]
  rw [exact.ulong_bind (n := 365 * yoe) (by omega) (by omega)]
  rw [exact.ulong_bind (n := 365 * yoe + yoe / 4) (by omega) (by omega)]
  rw [exact.ulong_bind (n := 365 * yoe + yoe / 4 - yoe / 100) (by omega) (by omega)]
  rw [exact.ulong_bind (n := doy) (by omega) (by omega)]

/-- So are the month and the day. -/
theorem dateOfYear_eq (exact : ar.Exact) {y doy : Nat} (hy : y < 2 ^ 31) (hdoy : doy < 366) :
    dateOfYear ar y doy = pure (ofMarch y doy) := by
  have hmp : (5 * doy + 2) / 153 < 12 := by omega
  have hstart : monthStart ((5 * doy + 2) / 153) ≤ doy := by
    unfold monthStart
    omega
  unfold dateOfYear ofMarch
  generalize hgen : (5 * doy + 2) / 153 = mp at hmp hstart ⊢
  rw [exact.ulong_bind (n := 5 * doy) (by omega) (by omega)]
  rw [exact.ulong_bind (n := 5 * doy + 2) (by omega) (by omega)]
  rw [hgen]
  unfold monthStart at hstart ⊢
  rw [exact.ulong_bind (n := 153 * mp) (by omega) (by omega)]
  rw [exact.ulong_bind (n := 153 * mp + 2) (by omega) (by omega)]
  rw [exact.ulong_bind (n := doy - (153 * mp + 2) / 5) (by omega) (by omega)]
  rw [exact.ulong_bind (n := doy - (153 * mp + 2) / 5 + 1) (by omega) (by omega)]
  have hmonth : marchMonth mp = if mp < 10 then mp + 3 else mp - 9 := rfl
  dsimp only
  by_cases hyear : mp < 10
  · rw [if_pos hyear] at hmonth ⊢
    rw [exact.ulong_bind (n := mp + 3) (by omega) (by omega), hmonth]
    rw [exact.ulong_bind (n := y + if mp + 3 ≤ 2 then 1 else 0) (by split <;> omega)
      (by split <;> omega)]
  · rw [if_neg hyear] at hmonth ⊢
    rw [exact.ulong_bind (n := mp - 9) (by omega) (by omega), hmonth]
    rw [exact.ulong_bind (n := y + if mp - 9 ≤ 2 then 1 else 0) (by split <;> omega)
      (by split <;> omega)]

end

/-! ## The printed date -/

/-- 1 January 1970. -/
def epoch : Date := { year := 1970, month := 1, day := 1 }

/-- The moment that is so many seconds after the beginning of 1970. -/
def momentOf (secs : Nat) : Moment := Moment.tick^[secs] { date := epoch }

/-- The closed form counts 719468 days up to 1970. -/
theorem civil_epoch : civil 719468 = epoch := by decide

theorem date_momentOf (secs : Nat) : momentOf secs =
    { date := civil (secs / 86400 + 719468), hour := secs % 86400 / 3600,
      minute := secs % 86400 % 3600 / 60, second := secs % 86400 % 60 } := by
  rw [momentOf, iterate_tick, ← civil_epoch, iterate_next_civil, Nat.add_comm]

/-- Exact arithmetic prints the date of every `ULONG`. -/
theorem showUnix_eq {m : Type → Type} [Monad m] [LawfulMonad m] {ar : Arith m} (exact : ar.Exact)
    {secs : Nat} (small : secs < 2 ^ 32) : showUnix ar secs = pure (momentOf secs) := by
  obtain ⟨y, doy, hdoy, heq⟩ := exists_year (secs / 86400 + 719468)
  have hdays : secs / 86400 < 49711 := by omega
  have hday : doy < 366 := by rcases yearLength_cases y with h | ⟨h, -⟩ <;> omega
  have hy : y < 2 ^ 31 := by
    unfold daysBefore at heq
    omega
  rw [date_momentOf, heq, civil_daysBefore_add hdoy]
  unfold showUnix
  dsimp only
  rw [yearOfDays_eq exact hdays hdoy heq, pure_bind]
  dsimp only
  rw [dateOfYear_eq exact hy hday, pure_bind]

/-! ## The shifted time -/

/-- The seconds after 1970 that a timestamp stands for in a zone. -/
def secondsOf (ntpSecs : Nat) (offsetMin : Int) : Int :=
  toUlong (ntpSecs - ntpUnixOffset) + offsetMin * 60

/-- The shift fits a `LONG` and the shifted time a `ULONG`. -/
def Fits (ntpSecs : Nat) (offsetMin : Int) : Prop :=
  (-2 ^ 31 ≤ offsetMin * 60 ∧ offsetMin * 60 < 2 ^ 31) ∧
    0 ≤ secondsOf ntpSecs offsetMin ∧ secondsOf ntpSecs offsetMin < 2 ^ 32

instance (ntpSecs : Nat) (offsetMin : Int) : Decidable (Fits ntpSecs offsetMin) :=
  inferInstanceAs (Decidable ((_ ∧ _) ∧ _ ∧ _))

/-- The date of the shifted time is printed, and no operation overflows or underflows on the way. -/
def Faithful (ntpSecs : Nat) (offsetMin : Int) : Prop :=
  ∃ secs : Nat, (secs : Int) = secondsOf ntpSecs offsetMin ∧
    showTime wraps ntpSecs offsetMin = (secs, momentOf secs) ∧
    (showTime checks ntpSecs offsetMin).isSome = true

section
variable {ntpSecs : Nat} {offsetMin : Int}

/-- The machine shifts modulo 2^32. -/
theorem unixOf_wraps : unixOf wraps ntpSecs offsetMin = toUlong (secondsOf ntpSecs offsetMin) := by
  have hunix := toUlong_lt (ntpSecs - ntpUnixOffset)
  show (if offsetMin ≠ 0 then toUlong (toUlong (ntpSecs - ntpUnixOffset) + wrapLong (offsetMin * 60))
    else toUlong (ntpSecs - ntpUnixOffset)) = _
  unfold secondsOf
  split
  · have hwrap : wrapLong (offsetMin * 60) % ((2 ^ 32 : Nat) : Int) =
        offsetMin * 60 % ((2 ^ 32 : Nat) : Int) := Int.bmod_emod
    generalize toUlong (ntpSecs - ntpUnixOffset) = unix
    generalize wrapLong (offsetMin * 60) = shift at hwrap ⊢
    unfold toUlong
    congr 1
    omega
  · rename_i hzero
    rw [not_ne_iff.mp hzero, Int.zero_mul, Int.add_zero, toUlong_natCast hunix]

/-- The checks let a shift through if and only if it fits. -/
theorem unixOf_checks : unixOf checks ntpSecs offsetMin =
    if Fits ntpSecs offsetMin then some (secondsOf ntpSecs offsetMin).toNat else none := by
  have hunix := toUlong_lt (ntpSecs - ntpUnixOffset)
  unfold unixOf
  by_cases hzero : offsetMin = 0
  · have fits : Fits ntpSecs offsetMin := by
      unfold Fits secondsOf
      omega
    rw [if_neg (not_ne_iff.mpr hzero), if_pos fits]
    unfold secondsOf
    rw [hzero, Int.zero_mul, Int.add_zero, Int.toNat_natCast]
    rfl
  · rw [if_pos hzero]
    by_cases hshift : -2 ^ 31 ≤ offsetMin * 60 ∧ offsetMin * 60 < 2 ^ 31
    · rw [exact_checks.long_bind rfl hshift.1 hshift.2]
      show checks.ulong (secondsOf ntpSecs offsetMin) = _
      simp only [checks, Fits, hshift, and_self, true_and]
    · have hnone : checks.long (offsetMin * 60) = none := by
        simp only [checks, if_neg hshift]
      rw [hnone, if_neg fun fits => hshift fits.1]
      rfl

theorem toUlong_secondsOf (fits : Fits ntpSecs offsetMin) :
    (toUlong (secondsOf ntpSecs offsetMin) : Int) = secondsOf ntpSecs offsetMin := by
  obtain ⟨-, low, high⟩ := fits
  unfold toUlong
  rw [Int.emod_eq_of_lt low high, Int.toNat_of_nonneg low]

/-- What is printed is the date of the Unix time that is printed beside it. -/
theorem showTime_wraps : showTime wraps ntpSecs offsetMin =
    (toUlong (secondsOf ntpSecs offsetMin), momentOf (toUlong (secondsOf ntpSecs offsetMin))) := by
  show (unixOf wraps ntpSecs offsetMin, showUnix wraps (unixOf wraps ntpSecs offsetMin)) = _
  rw [unixOf_wraps, showUnix_eq exact_wraps (toUlong_lt _)]
  rfl

theorem isSome_showTime_checks :
    (showTime checks ntpSecs offsetMin).isSome = true ↔ Fits ntpSecs offsetMin := by
  unfold showTime
  rw [unixOf_checks]
  by_cases fits : Fits ntpSecs offsetMin
  · have small : (secondsOf ntpSecs offsetMin).toNat < 2 ^ 32 := by
      obtain ⟨-, low, high⟩ := fits
      omega
    rw [if_pos fits, ← Option.pure_def, pure_bind, showUnix_eq exact_checks small, pure_bind]
    exact ⟨fun _ => fits, fun _ => rfl⟩
  · rw [if_neg fits]
    constructor
    · intro passed
      cases passed
    · exact fun h => absurd h fits

end

/-- Whatever the timestamp and the zone, the date is that of the Unix time beside it. That is the
shifted time, with no overflow or underflow, if and only if the shift and the shifted time fit. -/
theorem showTime_iff (ntpSecs : Nat) (offsetMin : Int) :
    (∃ secs, showTime wraps ntpSecs offsetMin = (secs, momentOf secs)) ∧
      (Faithful ntpSecs offsetMin ↔ Fits ntpSecs offsetMin) := by
  refine ⟨⟨_, showTime_wraps⟩, ?_⟩
  constructor
  · rintro ⟨secs, -, -, checked⟩
    exact isSome_showTime_checks.mp checked
  · intro fits
    exact ⟨_, toUlong_secondsOf fits, showTime_wraps, isSome_showTime_checks.mpr fits⟩

example : showTime wraps 3944678400 60 =
    (1735693200, { date := { year := 2025, month := 1, day := 1 }, hour := 1 }) := by rfl

/-- A shift of 35791395 minutes does not fit a `LONG` in seconds. -/
theorem not_forall_faithful : ¬ ∀ (ntpSecs : Nat) (offsetMin : Int), ntpSecs < 2 ^ 32 →
    -2 ^ 31 ≤ offsetMin → offsetMin < 2 ^ 31 → Faithful ntpSecs offsetMin := by
  intro hall
  obtain ⟨secs, -, -, checked⟩ := hall 3944678400 35791395 (by decide) (by decide) (by decide)
  exact absurd (isSome_showTime_checks.mp checked) (by decide)

end Sntp

end Tolunnet
