import ObjectRelational.Calendar.Timestamp
import ObjectRelational.Proofs.Text.Reading

/-! # Calendar values by their texts

Months, days, hours, minutes and seconds are written in two digits each, so that all of a date but
its year and all of a time but its fraction stand at fixed places. The sign and the digits of a year
tell the year, and the length of a fraction tells its unit.

* `Text.paddedDigits_injective`, `Text.length_paddedDigits`: digits filled up to a width;
* `Date.chars_injective`, `TimeOfDay.chars_injective`, `Timestamp.charsWith_injective`,
  `Instant.chars_injective`: values of one text are the same.
-/

namespace ObjectRelational

set_option autoImplicit false

/-! ## Digits -/

namespace Text

theorem digitsValue_paddedDigits (width n : Nat) : digitsValue (paddedDigits width n) = n := by
  rw [paddedDigits, digitsValue_zeros, digitsValue_digits]

theorem paddedDigits_injective (width : Nat) : Function.Injective (paddedDigits width) := by
  intro m n h
  rw [← digitsValue_paddedDigits width m, h, digitsValue_paddedDigits]

theorem length_paddedDigits {width n : Nat} (hwidth : 0 < width) (h : n < 10 ^ width) :
    (paddedDigits width n).length = width := by
  have hle := length_digits_le hwidth h
  rw [paddedDigits, List.length_append, List.length_replicate]
  omega

theorem isDigit_of_mem_paddedDigits {width n : Nat} {c : Char} (h : c ∈ paddedDigits width n) :
    c.isDigit = true := by
  rcases List.mem_append.1 h with h | h
  · rw [List.eq_of_mem_replicate h]
    rfl
  · exact isDigit_of_mem_digits h

/-- Two numbers of one width behind a mark, and what follows them. -/
theorem paddedDigits_append_inj {width m n : Nat} {mark : Char} {rest rest' : List Char}
    (hwidth : 0 < width) (hm : m < 10 ^ width) (hn : n < 10 ^ width)
    (h : paddedDigits width m ++ mark :: rest = paddedDigits width n ++ mark :: rest') :
    m = n ∧ rest = rest' := by
  have hlength := (length_paddedDigits hwidth hm).trans (length_paddedDigits hwidth hn).symm
  obtain ⟨hdigits, hrest⟩ := List.append_inj h hlength
  exact ⟨paddedDigits_injective width hdigits, (List.cons.inj hrest).2⟩

end Text

/-! ## Dates -/

namespace Date

/-- The year that a sign and digits stand for. -/
def yearValue : List Char → Int
  | '-' :: digits => -(Text.digitsValue digits : Int)
  | '+' :: digits => Text.digitsValue digits
  | digits => Text.digitsValue digits

theorem yearValue_yearChars (year : Int) : yearValue (yearChars year) = year := by
  have hvalue := Text.digitsValue_paddedDigits 4 year.natAbs
  unfold yearChars
  dsimp only
  split
  · change -(Text.digitsValue _ : Int) = year
    rw [hvalue]
    omega
  · split
    · change (Text.digitsValue _ : Int) = year
      rw [hvalue]
      omega
    · have hdigit : ∀ c ∈ Text.paddedDigits 4 year.natAbs, c.isDigit = true :=
        fun c => Text.isDigit_of_mem_paddedDigits
      generalize Text.paddedDigits 4 year.natAbs = digits at hvalue hdigit ⊢
      unfold yearValue
      split
      · cases hdigit '-' List.mem_cons_self
      · cases hdigit '+' List.mem_cons_self
      · rw [hvalue]
        omega

theorem mem_yearChars {year : Int} {c : Char} (h : c ∈ yearChars year) :
    c.isDigit = true ∨ c = '-' ∨ c = '+' := by
  unfold yearChars at h
  dsimp only at h
  split at h
  · rcases List.mem_cons.1 h with rfl | h
    · exact .inr (.inl rfl)
    · exact .inl (Text.isDigit_of_mem_paddedDigits h)
  · split at h
    · rcases List.mem_cons.1 h with rfl | h
      · exact .inr (.inr rfl)
      · exact .inl (Text.isDigit_of_mem_paddedDigits h)
    · exact .inl (Text.isDigit_of_mem_paddedDigits h)

theorem month_le (d : Date) : d.month ≤ 12 := by
  by_contra h
  have hnone : Calendar.daysInMonth d.year d.month = 0 := by
    unfold Calendar.daysInMonth
    split <;> first | rfl | omega
  have := d.day_pos
  have := d.day_le
  omega

theorem day_le_month (d : Date) : d.day ≤ 31 := by
  have hdays : Calendar.daysInMonth d.year d.month ≤ 31 := by
    unfold Calendar.daysInMonth
    split
    all_goals try split
    all_goals omega
  exact Nat.le_trans d.day_le hdays

theorem chars_injective : Function.Injective chars := by
  intro d d' h
  have hmonth : ∀ date : Date, (Text.paddedDigits 2 date.month).length = 2 := fun date =>
    Text.length_paddedDigits (by decide) (by have := date.month_le; omega)
  have hday : ∀ date : Date, (Text.paddedDigits 2 date.day).length = 2 := fun date =>
    Text.length_paddedDigits (by decide) (by have := date.day_le_month; omega)
  -- Behind the year all texts are of one length.
  unfold chars at h
  rw [List.append_assoc, List.append_assoc] at h
  obtain ⟨hyear, hrest⟩ := List.append_inj' h (by simp [hmonth, hday])
  obtain ⟨hmonth, hlast⟩ := List.append_inj (List.cons.inj hrest).2 (by simp [hmonth])
  have hyear := congrArg yearValue hyear
  rw [yearValue_yearChars, yearValue_yearChars] at hyear
  have hmonth := Text.paddedDigits_injective 2 hmonth
  have hday := Text.paddedDigits_injective 2 (List.cons.inj hlast).2
  cases d
  cases d'
  simp_all

theorem mem_chars {d : Date} {c : Char} (h : c ∈ d.chars) : c.isDigit = true ∨ c = '-' ∨ c = '+' := by
  simp only [chars, List.mem_append, List.mem_cons] at h
  rcases h with (h | rfl | h) | rfl | h
  · exact mem_yearChars h
  · exact .inr (.inl rfl)
  · exact .inl (Text.isDigit_of_mem_paddedDigits h)
  · exact .inr (.inl rfl)
  · exact .inl (Text.isDigit_of_mem_paddedDigits h)

end Date

/-! ## Times -/

namespace TimeOfDay

open Calendar

theorem nano_div (t : TimeOfDay) : t.nano / nanosPerSecond ≤ 1 ∧
    (t.nano / nanosPerSecond = 1 → t.second = 59) := by
  have h := t.nano_lt
  unfold nanosPerSecond at h ⊢
  split at h <;> omega

/-- The second that a clock shows and the fraction of it tell the second and the nanosecond. -/
theorem eq_of_clock {t t' : TimeOfDay} (hclock : t.clockSecond = t'.clockSecond)
    (hfraction : t.nano % nanosPerSecond = t'.nano % nanosPerSecond) :
    t.second = t'.second ∧ t.nano = t'.nano := by
  have h := t.nano_div
  have h' := t'.nano_div
  have := t.second_lt
  have := t'.second_lt
  unfold clockSecond at hclock
  unfold nanosPerSecond at *
  omega

/-- The nanoseconds that a fraction of a second stands for. -/
def fractionValue (text : List Char) : Nat :=
  Text.digitsValue (text.drop 1) * 10 ^ (10 - text.length)

theorem fractionValue_fractionChars (t : TimeOfDay) :
    fractionValue t.fractionChars = t.nano % nanosPerSecond := by
  have hlt : t.nano % nanosPerSecond < nanosPerSecond := Nat.mod_lt _ (by decide)
  unfold fractionChars
  generalize t.nano % nanosPerSecond = fraction at hlt ⊢
  unfold nanosPerSecond at hlt
  have hvalue : ∀ width n, 0 < width → n < 10 ^ width →
      fractionValue ('.' :: Text.paddedDigits width n) = n * 10 ^ (9 - width) := by
    intro width n hwidth hn
    rw [fractionValue, List.drop_one, List.tail_cons, Text.digitsValue_paddedDigits,
      List.length_cons, Text.length_paddedDigits hwidth hn, Nat.add_sub_add_right 9 1 width]
  dsimp only
  split
  · next hzero => simp [fractionValue, hzero, Text.digitsValue]
  · split
    · rw [hvalue 3 _ (by decide) (by omega)]
      omega
    · split
      · rw [hvalue 6 _ (by decide) (by omega)]
        omega
      · rw [hvalue 9 _ (by decide) (by omega)]
        omega

theorem chars_injective : Function.Injective chars := by
  intro t t' h
  have hclock : ∀ time : TimeOfDay, time.clockSecond < 10 ^ 2 := by
    intro time
    have := time.nano_div
    have := time.second_lt
    unfold clockSecond
    omega
  simp only [chars, List.append_assoc, List.cons_append] at h
  obtain ⟨hhour, h⟩ := Text.paddedDigits_append_inj (by decide) (by have := t.hour_lt; omega)
    (by have := t'.hour_lt; omega) h
  obtain ⟨hminute, h⟩ := Text.paddedDigits_append_inj (by decide) (by have := t.minute_lt; omega)
    (by have := t'.minute_lt; omega) h
  obtain ⟨hclock, hfraction⟩ := List.append_inj h
    ((Text.length_paddedDigits (by decide) (hclock t)).trans
      (Text.length_paddedDigits (by decide) (hclock t')).symm)
  have hfraction := congrArg fractionValue hfraction
  rw [fractionValue_fractionChars, fractionValue_fractionChars] at hfraction
  obtain ⟨hsecond, hnano⟩ := eq_of_clock (Text.paddedDigits_injective 2 hclock) hfraction
  cases t
  cases t'
  simp_all

end TimeOfDay

/-! ## Timestamps and instants -/

namespace Timestamp

/-- A date has digits, minus and plus signs, so that the mark behind it is the first of its kind. -/
theorem charsWith_injective {mark : Char} (hdigit : mark.isDigit = false) (hminus : mark ≠ '-')
    (hplus : mark ≠ '+') : Function.Injective (charsWith mark) := by
  intro t t' h
  have hmark : ∀ d : Date, mark ∉ d.chars := by
    intro d hmem
    rcases Date.mem_chars hmem with h | h | h
    · rw [h] at hdigit
      cases hdigit
    · exact hminus h
    · exact hplus h
  obtain ⟨hdate, htime⟩ := Text.append_mark_inj (hmark t.date) (hmark t'.date) h
  have hdate := Date.chars_injective hdate
  have htime := TimeOfDay.chars_injective htime
  cases t
  cases t'
  simp_all

end Timestamp

theorem Instant.chars_injective : Function.Injective Instant.chars := by
  intro i i' h
  have hutc := Timestamp.charsWith_injective (by decide) (by decide) (by decide)
    (List.append_cancel_right h)
  cases i
  cases i'
  exact congrArg Instant.mk hutc

end ObjectRelational
