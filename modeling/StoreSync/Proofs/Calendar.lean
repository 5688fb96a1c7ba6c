import Mathlib.Data.String.Basic
import StoreSync.Time

/-!
# The order of generalized times

Up to the second, generalized times are ordered like the instants they stand for, as long as the
years have four digits (`Instant.generalizedTime_le_iff`).

* `digits_lt` — numbers in decimal notation of a fixed width are ordered like their texts;
* `Day.number_ofNumber_lt` — the days of the calendar follow one another;
* `Instant.toList_generalizedTime` — a generalized time is one number of 14 digits.
-/

namespace StoreSync

/-! ## Digits -/

/-- The last digits of a number in decimal notation, in a fixed width. -/
def digits : Nat → Nat → List Char
  | 0, _ => []
  | w + 1, n => digits w (n / 10) ++ [Nat.digitChar (n % 10)]

@[simp] lemma length_digits (w n : Nat) : (digits w n).length = w := by
  induction w generalizing n with
  | zero => rfl
  | succ w ih => simp [digits, ih]

lemma digits_zero (w : Nat) : digits w 0 = List.replicate w '0' := by
  induction w with
  | zero => rfl
  | succ w ih =>
    rw [digits, Nat.zero_div, ih, List.replicate_succ']
    rfl

lemma digits_eq {w n : Nat} (hw : 0 < w) (hn : n < 10 ^ w) :
    digits w n = List.replicate (w - (Nat.toDigits 10 n).length) '0' ++ Nat.toDigits 10 n := by
  induction w generalizing n with
  | zero => omega
  | succ w ih =>
    by_cases hsmall : n < 10
    · have hquotient : n / 10 = 0 := by omega
      have hrest : n % 10 = n := by omega
      rw [digits, hquotient, hrest, digits_zero, Nat.toDigits_of_lt_base hsmall]
      rfl
    · have hpow : n / 10 < 10 ^ w := by
        rw [Nat.pow_succ] at hn
        omega
      have hw : 0 < w := by
        rcases Nat.eq_zero_or_pos w with rfl | hw
        · simp at hn
          omega
        · exact hw
      rw [digits, ih hw hpow, Nat.toDigits_of_base_le (by decide) (by omega : 10 ≤ n),
        List.length_append, List.append_assoc]
      congr 2
      simp

lemma toList_padded {w n : Nat} (hw : 0 < w) (hn : n < 10 ^ w) :
    (padded w n).toList = digits w n := by
  rw [digits_eq hw hn]
  simp [padded, Nat.repr_eq_ofList_toDigits]

/-- Two numbers in digits, one after the other, are one number in digits. -/
lemma digits_append (w a : Nat) {v b : Nat} (hb : b < 10 ^ v) :
    digits w a ++ digits v b = digits (w + v) (a * 10 ^ v + b) := by
  induction v generalizing b with
  | zero =>
    obtain rfl : b = 0 := by simpa using hb
    simp [digits]
  | succ v ih =>
    have hpow : a * 10 ^ (v + 1) = 10 * (a * 10 ^ v) := by
      rw [Nat.pow_succ]
      ac_rfl
    have hquotient : (a * 10 ^ (v + 1) + b) / 10 = a * 10 ^ v + b / 10 := by omega
    have hrest : (a * 10 ^ (v + 1) + b) % 10 = b % 10 := by omega
    have hsmall : b / 10 < 10 ^ v := by
      rw [Nat.pow_succ] at hb
      omega
    rw [digits, ← List.append_assoc, ih hsmall, ← Nat.add_assoc, digits, hquotient, hrest]

lemma append_lt_append {l l' : List Char} (h : l < l') (hlength : l.length = l'.length)
    (r r' : List Char) : l ++ r < l' ++ r' := by
  induction l generalizing l' with
  | nil =>
    cases l' with
    | nil => exact absurd h (List.lt_irrefl _)
    | cons c l' => simp at hlength
  | cons c l ih =>
    cases l' with
    | nil => simp at hlength
    | cons c' l' =>
      rw [List.cons_lt_cons_iff] at h
      rw [List.cons_append, List.cons_append, List.cons_lt_cons_iff]
      rcases h with h | ⟨rfl, h⟩
      · exact Or.inl h
      · exact Or.inr ⟨rfl, ih h (by simpa using hlength)⟩

/-- In a fixed width the order of the digits is the order of the numbers. -/
lemma digits_lt {w m n : Nat} (h : m < n) (hn : n < 10 ^ w) : digits w m < digits w n := by
  induction w generalizing m n with
  | zero =>
    simp at hn
    omega
  | succ w ih =>
    rw [digits, digits]
    by_cases hquotient : m / 10 < n / 10
    · refine append_lt_append (ih hquotient ?_) (by simp) _ _
      rw [Nat.pow_succ] at hn
      omega
    · have hsame : m / 10 = n / 10 := by omega
      have hdigit : ∀ a < 10, ∀ b < 10, a < b → Nat.digitChar a < Nat.digitChar b := by decide
      rw [hsame]
      refine List.append_left_lt (List.cons_lt_cons_iff.2 (Or.inl ?_))
      exact hdigit _ (by omega) _ (by omega) (by omega)

/-! ## Days -/

namespace Day

/-- The number of days before a year that begins in March, counted from the year 0. -/
def daysBefore (y : Int) : Int := 365 * y + y / 4 - y / 100 + y / 400

lemma daysBefore_mono {y y' : Int} (h : y < y') : daysBefore (y + 1) ≤ daysBefore y' := by
  unfold daysBefore
  omega

lemma daysBefore_eq (e : Int) {c k i : Nat} (hc : c < 4) (hk : k < 25) (hi : i < 4) :
    daysBefore (400 * e + (100 * c + 4 * k + i)) = 146097 * e + 36524 * c + 1461 * k + 365 * i := by
  have hfour : (400 * e + (100 * c + 4 * k + i)) / 4 = 100 * e + 25 * c + k := by omega
  have hhundred : (400 * e + (100 * c + 4 * k + i)) / 100 = 4 * e + c := by omega
  have hera : (400 * e + (100 * c + 4 * k + i)) / 400 = e := by omega
  rw [daysBefore, hfour, hhundred, hera]
  omega

lemma lt_daysBefore (e : Int) {c k i d : Nat} (hc : c < 4) (hk : k < 25) (hi : i < 4)
    (hd : d ≤ 365) (hleap : d = 365 → i = 3 ∧ (k = 24 → c = 3)) :
    daysBefore (400 * e + (100 * c + 4 * k + i)) + d <
      daysBefore (400 * e + (100 * c + 4 * k + i) + 1) := by
  rw [daysBefore_eq e hc hk hi, daysBefore]
  omega

lemma exists_periods {n : Nat} (h : n < 146097) :
    ∃ c k i d, n = 36524 * c + 1461 * k + 365 * i + d ∧ c < 4 ∧ k < 25 ∧ i < 4 ∧ d ≤ 365 ∧
      (d = 365 → i = 3 ∧ (k = 24 → c = 3)) := by
  by_cases hlast : n = 146096
  · exact ⟨3, 24, 3, 365, by omega, by omega, by omega, by omega, by omega, by omega⟩
  · by_cases hleap : n % 36524 % 1461 = 1460
    · refine ⟨n / 36524, n % 36524 / 1461, 3, 365, ?_⟩
      omega
    · refine ⟨n / 36524, n % 36524 / 1461, n % 36524 % 1461 / 365, n % 36524 % 1461 % 365, ?_⟩
      omega

lemma yearOfEra_eq {n c k i d : Nat} (hn : n = 36524 * c + 1461 * k + 365 * i + d) (hc : c < 4)
    (hk : k < 25) (hi : i < 4) (hd : d ≤ 365) (hleap : d = 365 → i = 3 ∧ (k = 24 → c = 3)) :
    (n - n / 1460 + n / 36524 - n / 146096) / 365 = 100 * c + 4 * k + i := by
  by_cases hlast : n = 146096
  · have : c = 3 := by omega
    have : k = 24 := by omega
    have : i = 3 := by omega
    subst hlast
    omega
  · have hcentury : n / 36524 = c := by omega
    have hera : n / 146096 = 0 := by omega
    have hfour : n / 1460 = 25 * c + k + (24 * c + k + 365 * i + d) / 1460 := by omega
    omega

/-- The day of a year that begins in March. -/
def ofMarch (y : Int) (n : Nat) : Day :=
  let marchMonth := (5 * n + 2) / 153
  let day := n - (153 * marchMonth + 2) / 5 + 1
  let month := if marchMonth < 10 then marchMonth + 3 else marchMonth - 9
  ⟨y + (if month ≤ 2 then 1 else 0), month, day⟩

lemma exists_ofMarch (n : Int) : ∃ (y : Int) (m : Nat), m ≤ 365 ∧
    n + 719468 = daysBefore y + m ∧ n + 719468 < daysBefore (y + 1) ∧ ofNumber n = ofMarch y m := by
  have hday : ((n + 719468) % 146097).toNat < 146097 := by omega
  obtain ⟨c, k, i, d, hn, hc, hk, hi, hd, hleap⟩ := exists_periods hday
  have hstart : n + 719468 =
      daysBefore (400 * ((n + 719468) / 146097) + (100 * c + 4 * k + i)) + d := by
    rw [daysBefore_eq _ hc hk hi]
    omega
  refine ⟨400 * ((n + 719468) / 146097) + (100 * c + 4 * k + i), d, hd, hstart, ?_, ?_⟩
  · have hnext := lt_daysBefore ((n + 719468) / 146097) hc hk hi hd hleap
    omega
  · have hyear := yearOfEra_eq hn hc hk hi hd hleap
    have hnumber : ((n + 719468) % 146097).toNat - (365 * (100 * c + 4 * k + i) +
        (100 * c + 4 * k + i) / 4 - (100 * c + 4 * k + i) / 100) = d := by
      have hfour : (100 * c + 4 * k + i) / 4 = 25 * c + k := by omega
      have hhundred : (100 * c + 4 * k + i) / 100 = c := by omega
      rw [hfour, hhundred, hn]
      omega
    have horder : ((100 * c + 4 * k + i : Nat) : Int) + (n + 719468) / 146097 * 400 =
        400 * ((n + 719468) / 146097) + (100 * c + 4 * k + i) := by omega
    unfold ofNumber
    simp only [hyear, hnumber, horder]
    rfl

/-- A day as a number in decimal notation, such as `20240301`. -/
def number (d : Day) : Int := d.year * 10000 + d.month * 100 + d.day

lemma ofMarch_fields (y : Int) {n : Nat} (h : n ≤ 365) :
    ∃ m : Nat, 1 ≤ (ofMarch y n).month ∧ (ofMarch y n).month ≤ 12 ∧
      12 * (ofMarch y n).year + (ofMarch y n).month = 12 * y + m + 3 ∧
      (153 * m + 2) / 5 + (ofMarch y n).day = n + 1 ∧ n < (153 * m + 155) / 5 ∧
      1 ≤ (ofMarch y n).day ∧ (ofMarch y n).day ≤ 31 := by
  refine ⟨(5 * n + 2) / 153, ?_⟩
  by_cases hm : (5 * n + 2) / 153 < 10
  · have hlate : ¬ (5 * n + 2) / 153 + 3 ≤ 2 := by omega
    simp only [ofMarch, hm, hlate, if_true, if_false]
    omega
  · have hearly : (5 * n + 2) / 153 - 9 ≤ 2 := by omega
    simp only [ofMarch, hm, hearly, if_true, if_false]
    omega

lemma number_ofMarch_lt {y y' : Int} {n n' : Nat} (hn : n ≤ 365) (hn' : n' ≤ 365)
    (h : y < y' ∨ y = y' ∧ n < n') : (ofMarch y n).number < (ofMarch y' n').number := by
  obtain ⟨m, hlow, hhigh, hmonths, hday, hlast, hone, hmax⟩ := ofMarch_fields y hn
  obtain ⟨m', hlow', hhigh', hmonths', hday', hlast', hone', hmax'⟩ := ofMarch_fields y' hn'
  have horder : 12 * y + m < 12 * y' + m' ∨ 12 * y + m = 12 * y' + m' ∧
      (ofMarch y n).day < (ofMarch y' n').day := by
    rcases h with h | ⟨rfl, h⟩
    · omega
    · omega
  unfold number
  rcases horder with horder | ⟨horder, hdays⟩
  · have hyears : (ofMarch y n).year ≤ (ofMarch y' n').year := by omega
    omega
  · have hyears : (ofMarch y n).year = (ofMarch y' n').year := by omega
    omega

theorem number_ofNumber_lt {n n' : Int} (h : n < n') :
    (ofNumber n).number < (ofNumber n').number := by
  obtain ⟨y, m, hm, hn, hnext, heq⟩ := exists_ofMarch n
  obtain ⟨y', m', hm', hn', hnext', heq'⟩ := exists_ofMarch n'
  rw [heq, heq']
  refine number_ofMarch_lt hm hm' ?_
  by_cases hy : y < y'
  · exact Or.inl hy
  · by_cases hy' : y' < y
    · have hmono := daysBefore_mono hy'
      omega
    · obtain rfl : y = y' := by omega
      exact Or.inr ⟨rfl, by omega⟩

lemma ofNumber_fields (n : Int) : (ofNumber n).month < 100 ∧ (ofNumber n).day < 100 := by
  obtain ⟨y, m, hm, -, -, heq⟩ := exists_ofMarch n
  obtain ⟨k, -, hmonth, -, -, -, -, hday⟩ := ofMarch_fields y hm
  rw [heq]
  exact ⟨by omega, by omega⟩

end Day

/-! ## Generalized time -/

/-- The digits of a time of day as one number, such as `120000`. -/
def clockNumber (s : Nat) : Nat := (s / 3600 * 100 + s / 60 % 60) * 100 + s % 60

lemma clockNumber_lt_pow {s : Nat} (h : s < 86400) : clockNumber s < 10 ^ 6 := by
  unfold clockNumber
  omega

lemma clockNumber_lt {s s' : Nat} (h : s < s') : clockNumber s < clockNumber s' := by
  unfold clockNumber
  by_cases hminute : s / 60 = s' / 60
  · have hhour : s / 3600 = s' / 3600 := by omega
    omega
  · by_cases hhour : s / 3600 = s' / 3600
    · omega
    · omega

namespace Instant

/-- The instant lies in the years 0 to 9999. -/
def InYears (t : Instant) : Prop :=
  0 ≤ (Day.ofNumber (t.seconds / 86400)).year ∧ (Day.ofNumber (t.seconds / 86400)).year ≤ 9999

instance (t : Instant) : Decidable t.InYears :=
  inferInstanceAs (Decidable (_ ∧ _))

/-- The digits of the generalized time as one number, such as `20240301120000`. -/
def number (t : Instant) : Nat :=
  (Day.ofNumber (t.seconds / 86400)).number.toNat * 10 ^ 6 +
    clockNumber (t.seconds % 86400).toNat

variable {a b : Instant}

lemma toList_generalizedTime (h : a.InYears) :
    a.generalizedTime.toList = digits 14 a.number ++ ['Z'] := by
  obtain ⟨hlow, hhigh⟩ := h
  obtain ⟨hmonth, hday⟩ := Day.ofNumber_fields (a.seconds / 86400)
  have hyear : (Day.ofNumber (a.seconds / 86400)).year.toNat < 10 ^ 4 := by omega
  have hhour : (a.seconds % 86400).toNat / 3600 < 10 ^ 2 := by omega
  have hminute : (a.seconds % 86400).toNat / 60 % 60 < 10 ^ 2 := by omega
  have hsecond : (a.seconds % 86400).toNat % 60 < 10 ^ 2 := by omega
  simp only [generalizedTime, yearText, if_pos (And.intro hlow hhigh), String.toList_append,
    toList_padded (by decide : 0 < 4) hyear, toList_padded (by decide : 0 < 2) hmonth,
    toList_padded (by decide : 0 < 2) hday, toList_padded (by decide : 0 < 2) hhour,
    toList_padded (by decide : 0 < 2) hminute, toList_padded (by decide : 0 < 2) hsecond]
  rw [digits_append 4 _ hmonth, digits_append 6 _ hday, digits_append 8 _ hhour,
    digits_append 10 _ hminute, digits_append 12 _ hsecond]
  have hnumber : a.number = ((((((Day.ofNumber (a.seconds / 86400)).year.toNat * 10 ^ 2 +
      (Day.ofNumber (a.seconds / 86400)).month) * 10 ^ 2 +
      (Day.ofNumber (a.seconds / 86400)).day) * 10 ^ 2 +
      (a.seconds % 86400).toNat / 3600) * 10 ^ 2 +
      (a.seconds % 86400).toNat / 60 % 60) * 10 ^ 2 + (a.seconds % 86400).toNat % 60) := by
    unfold number Day.number clockNumber
    omega
  rw [hnumber]
  rfl

lemma number_lt_pow (h : a.InYears) : a.number < 10 ^ 14 := by
  obtain ⟨hlow, hhigh⟩ := h
  obtain ⟨hmonth, hday⟩ := Day.ofNumber_fields (a.seconds / 86400)
  have hclock := clockNumber_lt_pow (show (a.seconds % 86400).toNat < 86400 by omega)
  unfold number Day.number
  omega

lemma number_lt (ha : a.InYears) (h : a.seconds < b.seconds) : a.number < b.number := by
  unfold number
  by_cases hsame : a.seconds / 86400 = b.seconds / 86400
  · have hclock := clockNumber_lt
      (show (a.seconds % 86400).toNat < (b.seconds % 86400).toNat by omega)
    rw [hsame]
    omega
  · have hdays := Day.number_ofNumber_lt (show a.seconds / 86400 < b.seconds / 86400 by omega)
    have hclock := clockNumber_lt_pow (show (a.seconds % 86400).toNat < 86400 by omega)
    have hpositive : 0 ≤ (Day.ofNumber (a.seconds / 86400)).number := by
      unfold Day.number
      have hyear := ha.1
      omega
    omega

lemma generalizedTime_lt (ha : a.InYears) (hb : b.InYears) (h : a.seconds < b.seconds) :
    a.generalizedTime < b.generalizedTime := by
  rw [String.lt_iff_toList_lt, toList_generalizedTime ha, toList_generalizedTime hb]
  exact append_lt_append (digits_lt (number_lt ha h) (number_lt_pow hb)) (by simp) _ _

/-- **Generalized times are ordered like the seconds.** -/
theorem generalizedTime_le_iff (ha : a.InYears) (hb : b.InYears) :
    a.generalizedTime ≤ b.generalizedTime ↔ a.seconds ≤ b.seconds := by
  constructor
  · intro hle
    by_cases hlt : b.seconds < a.seconds
    · exact absurd hle (not_le_of_gt (generalizedTime_lt hb ha hlt))
    · omega
  · intro hle
    by_cases heq : a.seconds = b.seconds
    · rw [generalizedTime, generalizedTime, heq]
    · exact le_of_lt (generalizedTime_lt ha hb (by omega))

end Instant

end StoreSync
