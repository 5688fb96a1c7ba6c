import Mathlib.Tactic.IntervalCases
import StoreSync.Proofs.Watermark

/-!
# Changed since an instant

A store is asked for what changed since an instant by a text, and compares texts: the generalized
time of the instant, and that of the last write of each entry.  For the years 0 to 9999 this is a
comparison of whole seconds (`MemoryStore.holds_changedSince_iff`).

The years are those of the Gregorian calendar, continued to all times.  `Day.Gregorian` says what
that is without saying how to compute it: which day is the one of the epoch, and which day follows
a day.  There is one such calendar only (`Day.Gregorian.eq`), and it is the one that generalized
times are written in (`Day.gregorian_ofNumber`).

`Day.ofNumber` counts years from March on (`Day.ofMarch`), which leaves February, the only month of
varying length, for the end of the year: `Day.exists_march` gives the place of a month in such a
year, `Day.next_ofMarch` and `Day.next_ofMarch_last` the step to the next day.
-/

namespace StoreSync

/-! ## The calendar -/

namespace Day

/-- Every fourth year is a leap year, but of the full centuries only every fourth. -/
def IsLeap (year : Int) : Prop := year % 4 = 0 ∧ (year % 100 ≠ 0 ∨ year % 400 = 0)

instance (year : Int) : Decidable (IsLeap year) := inferInstanceAs (Decidable (_ ∧ _))

/-- The number of days of a month. -/
def monthLength (year : Int) (month : Nat) : Nat :=
  if month = 2 then if IsLeap year then 29 else 28
  else if month = 4 ∨ month = 6 ∨ month = 9 ∨ month = 11 then 30
  else 31

/-- The month and the day of the month are such as the calendar has. -/
def Valid (d : Day) : Prop :=
  (1 ≤ d.month ∧ d.month ≤ 12) ∧ 1 ≤ d.day ∧ d.day ≤ monthLength d.year d.month

lemma eq_of_fields {d d' : Day} (hyear : d.year = d'.year) (hmonth : d.month = d'.month)
    (hday : d.day = d'.day) : d = d' := by
  cases d
  cases d'
  simp_all

/-- The day after a day. -/
def next (d : Day) : Day :=
  if d.day < monthLength d.year d.month then ⟨d.year, d.month, d.day + 1⟩
  else if d.month < 12 then ⟨d.year, d.month + 1, 1⟩
  else ⟨d.year + 1, 1, 1⟩

lemma next_cases (d : Day) :
    (d.day < monthLength d.year d.month ∧ d.next = ⟨d.year, d.month, d.day + 1⟩) ∨
    (monthLength d.year d.month ≤ d.day ∧ d.month < 12 ∧ d.next = ⟨d.year, d.month + 1, 1⟩) ∨
    (monthLength d.year d.month ≤ d.day ∧ 12 ≤ d.month ∧ d.next = ⟨d.year + 1, 1, 1⟩) := by
  by_cases hday : d.day < monthLength d.year d.month
  · exact Or.inl ⟨hday, if_pos hday⟩
  · have hday' := Nat.le_of_not_lt hday
    by_cases hmonth : d.month < 12
    · exact Or.inr (Or.inl ⟨hday', hmonth, by rw [next, if_neg hday, if_pos hmonth]⟩)
    · exact Or.inr (Or.inr ⟨hday', by omega, by rw [next, if_neg hday, if_neg hmonth]⟩)

/-- No two days are followed by the same day. -/
lemma next_injective {d d' : Day} (h : d.Valid) (h' : d'.Valid) (heq : d.next = d'.next) :
    d = d' := by
  obtain ⟨⟨hlow, hhigh⟩, hone, hlast⟩ := h
  obtain ⟨⟨hlow', hhigh'⟩, hone', hlast'⟩ := h'
  rcases d.next_cases with ⟨hday, hnext⟩ | ⟨hday, hmonth, hnext⟩ | ⟨hday, hmonth, hnext⟩ <;>
    rcases d'.next_cases with
      ⟨hday', hnext'⟩ | ⟨hday', hmonth', hnext'⟩ | ⟨hday', hmonth', hnext'⟩ <;>
    rw [hnext, hnext', mk.injEq] at heq
  · exact eq_of_fields heq.1 heq.2.1 (by omega)
  · omega
  · omega
  · omega
  · have hmonths : d.month = d'.month := by omega
    exact eq_of_fields heq.1 hmonths (by rw [heq.1, hmonths] at hlast hday; omega)
  · omega
  · omega
  · omega
  · have hmonths : d.month = d'.month := by omega
    have hyears : d.year = d'.year := by omega
    exact eq_of_fields hyears hmonths (by rw [hyears, hmonths] at hlast hday; omega)

/-- The days are numbered by the Gregorian calendar, which is continued to the time before it. -/
structure Gregorian (days : Int → Day) : Prop where
  epoch : days 0 = ⟨1970, 1, 1⟩
  valid : ∀ n, (days n).Valid
  next : ∀ n, days (n + 1) = (days n).next

lemma ofNumber_eq_ofMarch {n y : Int} {m : Nat} (hn : n + 719468 = daysBefore y + m)
    (hnext : n + 719468 < daysBefore (y + 1)) : ofNumber n = ofMarch y m := by
  obtain ⟨y', m', -, hn', hnext', heq⟩ := exists_ofMarch n
  have hyear : y = y' := by
    by_contra hne
    rcases lt_or_gt_of_ne hne with hlt | hlt
    · have hmono := daysBefore_mono hlt
      omega
    · have hmono := daysBefore_mono hlt
      omega
  obtain rfl := hyear
  obtain rfl : m = m' := by omega
  exact heq

/-- From March on the lengths of the months follow a pattern, until February takes what is left of
the year. -/
lemma monthLength_march {y year : Int} {k month : Nat} (hk : k ≤ 11) (hlow : 1 ≤ month)
    (hhigh : month ≤ 12) (h : 12 * year + month = 12 * y + k + 3) :
    k < 11 ∧ (153 * k + 2) / 5 + monthLength year month = (153 * k + 155) / 5 ∨
    k = 11 ∧ daysBefore y + 337 + monthLength year month = daysBefore (y + 1) := by
  obtain rfl : month = (k + 2) % 12 + 1 := by omega
  by_cases hlast : k = 11
  · subst hlast
    obtain rfl : year = y + 1 := by omega
    refine Or.inr ⟨rfl, ?_⟩
    by_cases hleap : IsLeap (y + 1)
    · have hlength : monthLength (y + 1) 2 = 29 := if_pos hleap
      rw [hlength]
      unfold daysBefore
      unfold IsLeap at hleap
      omega
    · have hlength : monthLength (y + 1) 2 = 28 := if_neg hleap
      rw [hlength]
      unfold daysBefore
      unfold IsLeap at hleap
      omega
  · have hk : k < 11 := by omega
    refine Or.inl ⟨hk, ?_⟩
    interval_cases k <;> rfl

/-- The day within a year that begins in March, with the place of its month in that year. -/
lemma exists_march (y : Int) {m : Nat} (hm : m ≤ 365) (h : daysBefore y + m < daysBefore (y + 1)) :
    (ofMarch y m).Valid ∧ ∃ k : Nat,
      12 * (ofMarch y m).year + (ofMarch y m).month = 12 * y + k + 3 ∧
      (153 * k + 2) / 5 + (ofMarch y m).day = m + 1 ∧ m < (153 * k + 155) / 5 ∧ k ≤ 11 ∧
      (k < 11 ∧ (153 * k + 2) / 5 + monthLength (ofMarch y m).year (ofMarch y m).month =
        (153 * k + 155) / 5 ∨
      k = 11 ∧ daysBefore y + 337 + monthLength (ofMarch y m).year (ofMarch y m).month =
        daysBefore (y + 1)) := by
  obtain ⟨k, hlow, hhigh, hmonths, hday, hlast, hone, -⟩ := ofMarch_fields y hm
  have hk : k ≤ 11 := by omega
  rcases monthLength_march hk hlow hhigh hmonths with ⟨hk', hlength⟩ | ⟨hk', hlength⟩
  · refine ⟨⟨⟨hlow, hhigh⟩, hone, ?_⟩, k, hmonths, hday, hlast, hk, Or.inl ⟨hk', hlength⟩⟩
    omega
  · refine ⟨⟨⟨hlow, hhigh⟩, hone, ?_⟩, k, hmonths, hday, hlast, hk, Or.inr ⟨hk', hlength⟩⟩
    omega

variable {y : Int} {m : Nat}

lemma next_ofMarch (hm : m + 1 ≤ 365) (h : daysBefore y + m + 1 < daysBefore (y + 1)) :
    (ofMarch y m).next = ofMarch y (m + 1) := by
  obtain ⟨⟨⟨hlow, hhigh⟩, -⟩, k, hmonths, hday, hlast, hk, hlength⟩ :=
    exists_march y (show m ≤ 365 by omega) (by omega)
  obtain ⟨⟨⟨hlow', hhigh'⟩, hone', -⟩, k', hmonths', hday', hlast', hk', -⟩ :=
    exists_march y hm (by omega)
  rcases (ofMarch y m).next_cases with ⟨hlt, hnext⟩ | ⟨hle, hmonth, hnext⟩ | ⟨hle, hmonth, hnext⟩
  · have hsame : k = k' := by omega
    rw [hnext]
    apply eq_of_fields <;> dsimp only <;> omega
  -- The month is over, and with December also the year.
  · have hsame : k + 1 = k' := by omega
    rw [hnext]
    apply eq_of_fields <;> dsimp only <;> omega
  · have hsame : k + 1 = k' := by omega
    rw [hnext]
    apply eq_of_fields <;> dsimp only <;> omega

lemma next_ofMarch_last (hm : m ≤ 365) (h : daysBefore y + m + 1 = daysBefore (y + 1)) :
    (ofMarch y m).next = ofMarch (y + 1) 0 := by
  obtain ⟨⟨⟨hlow, hhigh⟩, -⟩, k, hmonths, hday, hlast, hk, hlength⟩ := exists_march y hm (by omega)
  have hfirst : ofMarch (y + 1) 0 = ⟨y + 1, 3, 1⟩ := by simp [ofMarch]
  have hyear : daysBefore y + 365 ≤ daysBefore (y + 1) := by
    unfold daysBefore
    omega
  rw [hfirst]
  rcases (ofMarch y m).next_cases with ⟨hlt, hnext⟩ | ⟨hle, hmonth, hnext⟩ | ⟨hle, hmonth, hnext⟩
  · omega
  · rw [hnext]
    apply eq_of_fields <;> dsimp only <;> omega
  · omega

theorem gregorian_ofNumber : Gregorian ofNumber where
  epoch := by decide
  valid n := by
    obtain ⟨y, m, hm, hn, hnext, heq⟩ := exists_ofMarch n
    rw [heq]
    exact (exists_march y hm (by omega)).1
  next n := by
    obtain ⟨y, m, hm, hn, hnext, heq⟩ := exists_ofMarch n
    rw [heq]
    by_cases hlast : n + 1 + 719468 < daysBefore (y + 1)
    · have hbound : m + 1 ≤ 365 := by
        unfold daysBefore at *
        omega
      rw [next_ofMarch hbound (by omega)]
      exact ofNumber_eq_ofMarch (by omega) hlast
    · have hlater := daysBefore_mono (show y + 1 < y + 2 by omega)
      rw [next_ofMarch_last hm (by omega)]
      refine ofNumber_eq_ofMarch (by omega) ?_
      unfold daysBefore at *
      omega

lemma Gregorian.eq {days days' : Int → Day} (h : Gregorian days) (h' : Gregorian days') :
    days = days' := by
  funext n
  induction n using Int.induction_on with
  | zero => rw [h.epoch, h'.epoch]
  | succ n ih => rw [h.next, h'.next, ih]
  | pred n ih =>
    refine next_injective (h.valid _) (h'.valid _) ?_
    rw [← h.next, ← h'.next, Int.sub_add_cancel, ih]

end Day

/-! ## Filters -/

/-- The day of an instant in universal time, in a calendar. -/
def Instant.utcDay (t : Instant) (days : Int → Day) : Day := days (t.seconds / 86400)

namespace MemoryStore

/-- **Asking for what changed since an instant is a question of whole seconds**, both times rounded
down, within the years that have four digits. -/
theorem holds_changedSince_iff {days : Int → Day} (hdays : Day.Gregorian days) {s : MemoryStore}
    {entry : StoredEntry} {name : String} {since : Instant}
    (hname : Text.sameFolded name s.timestampAttribute = true)
    (hsince : 0 ≤ (since.utcDay days).year ∧ (since.utcDay days).year ≤ 9999)
    (hstamp : 0 ≤ (entry.modifiedAt.utcDay days).year ∧
      (entry.modifiedAt.utcDay days).year ≤ 9999) :
    (Filter.changedSince name since).holds (s.lookup entry) = true ↔
      since.seconds ≤ entry.modifiedAt.seconds := by
  obtain rfl : days = Day.ofNumber := hdays.eq Day.gregorian_ofNumber
  exact holds_changedSince hname hsince hstamp

/-- What was written at the beginning of a second counts as written since its last nanosecond, also
on a leap day; what was written in the second before does not, also before the epoch. -/
theorem holds_changedSince_atSeconds :
    Day.Gregorian Day.ofNumber ∧
    Text.sameFolded "MODIFYTIMESTAMP" (MemoryStore.new "ldap" "uid").timestampAttribute = true ∧
    Instant.utcDay ⟨951868799999999999⟩ Day.ofNumber = ⟨2000, 2, 29⟩ ∧
    (Filter.changedSince "MODIFYTIMESTAMP" ⟨951868799999999999⟩).holds
      ((MemoryStore.new "ldap" "uid").lookup ⟨.named "uid=1", ⟨951868799000000000⟩⟩) = true ∧
    Instant.utcDay ⟨-1⟩ Day.ofNumber = ⟨1969, 12, 31⟩ ∧
    (Filter.changedSince "MODIFYTIMESTAMP" ⟨-1⟩).holds
      ((MemoryStore.new "ldap" "uid").lookup ⟨.named "uid=1", ⟨-1000000001⟩⟩) ≠ true :=
  ⟨Day.gregorian_ofNumber, by decide +kernel, by decide,
    (holds_changedSince_iff Day.gregorian_ofNumber (by decide +kernel) (by decide) (by decide)).2
      (by decide),
    by decide,
    fun h => absurd ((holds_changedSince_iff Day.gregorian_ofNumber (by decide +kernel)
      (by decide) (by decide)).1 h) (by decide)⟩

end MemoryStore

end StoreSync
