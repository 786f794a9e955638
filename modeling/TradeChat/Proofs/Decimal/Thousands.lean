import Mathlib.Data.List.DropRight
import TradeChat.Proofs.Decimal.Thousandths

namespace TradeChat.Decimal

section Digits

/-- The last digits of a number, zeros before its first one included. -/
def lastDigits : Nat → Nat → List Char
  | 0, _ => []
  | count + 1, n => lastDigits count (n / 10) ++ [(n % 10).digitChar]

theorem length_lastDigits (count n : Nat) : (lastDigits count n).length = count := by
  induction count generalizing n with
  | zero => rfl
  | succ count ih => simp [lastDigits, ih]

theorem lastDigits_zero (count : Nat) : lastDigits count 0 = List.replicate count '0' := by
  induction count with
  | zero => rfl
  | succ count ih =>
    rw [lastDigits, Nat.zero_div, ih, List.replicate_succ']
    rfl

theorem lastDigits_mod (count n : Nat) :
    lastDigits count (n % 10 ^ count) = lastDigits count n := by
  induction count generalizing n with
  | zero => rfl
  | succ count ih =>
    rw [lastDigits, lastDigits, pow_succ', Nat.mod_mul_right_div_self, Nat.mod_mul_right_mod, ih]

/-- Zeros at the end of a number are zeros at the end of its digits. -/
theorem lastDigits_shift (count zeros n : Nat) :
    lastDigits (count + zeros) (n * 10 ^ zeros) =
      lastDigits count n ++ List.replicate zeros '0' := by
  induction zeros with
  | zero => simp
  | succ zeros ih =>
    have hsplit : n * 10 ^ (zeros + 1) = n * 10 ^ zeros * 10 := by ring
    rw [← Nat.add_assoc, lastDigits, hsplit, Nat.mul_div_cancel _ (by decide), Nat.mul_mod_left, ih,
      List.replicate_succ', ← List.append_assoc]
    rfl

/-- A number with zeros put before it. -/
theorem padded_toDigits {count n : Nat} (hcount : count ≠ 0) (hn : n < 10 ^ count) :
    List.replicate (count - (Nat.toDigits 10 n).length) '0' ++ Nat.toDigits 10 n =
      lastDigits count n := by
  induction count generalizing n with
  | zero => exact absurd rfl hcount
  | succ count ih =>
    rw [Nat.toDigits_eq_if (by decide), lastDigits]
    split
    · rename_i hone
      rw [Nat.div_eq_of_lt hone, Nat.mod_eq_of_lt hone, lastDigits_zero]
      rfl
    · have hcount : count ≠ 0 := by
        rintro rfl
        omega
      have hrest : n / 10 < 10 ^ count := by
        rw [Nat.div_lt_iff_lt_mul (by decide), ← pow_succ]
        exact hn
      rw [← ih hcount hrest, List.length_append, List.length_singleton, Nat.add_sub_add_right,
        List.append_assoc]

theorem isDigit_lastDigits {count n : Nat} {c : Char} (hc : c ∈ lastDigits count n) :
    c.isDigit = true := by
  induction count generalizing n with
  | zero => cases hc
  | succ count ih =>
    rw [lastDigits] at hc
    rcases List.mem_append.mp hc with hc | hc
    · exact ih hc
    · rw [List.mem_singleton.mp hc, Nat.isDigit_digitChar]
      exact decide_eq_true (Nat.mod_lt n (by decide))

theorem ofDigitChars_lastDigits (count n start : Nat) :
    Nat.ofDigitChars 10 (lastDigits count n) start = 10 ^ count * start + n % 10 ^ count := by
  induction count generalizing n with
  | zero => simp [lastDigits, Nat.mod_one]
  | succ count ih =>
    rw [lastDigits, Nat.ofDigitChars_append, ih,
      Nat.ofDigitChars_cons_digitChar_of_lt_ten (Nat.mod_lt n (by decide)), Nat.ofDigitChars_nil,
      pow_succ', Nat.mod_mul]
    ring

theorem rdropWhile_zeros (s : List Char) (zeros : Nat) :
    (s ++ List.replicate zeros '0').rdropWhile (· = '0') = s.rdropWhile (· = '0') := by
  induction zeros with
  | zero => rw [List.replicate_zero, List.append_nil]
  | succ zeros ih =>
    rw [List.replicate_succ', ← List.append_assoc, List.rdropWhile_concat_pos _ _ _ (by decide), ih]

theorem rdropWhile_lastDigits {count n : Nat} (hn : n % 10 ≠ 0) :
    (lastDigits (count + 1) n).rdropWhile (· = '0') = lastDigits (count + 1) n := by
  rw [lastDigits, List.rdropWhile_concat_neg]
  simpa [Nat.digitChar_eq_zero] using hn

end Digits

/-- A whole number in thousands: its last three digits stand behind a point, without the zeros at
their end, and there is no point if all three are zeros. -/
def exactThousands (n : Nat) : String :=
  toString (n / 1000) ++
    if n % 1000 = 0 then ""
    else "." ++ String.ofList ((lastDigits 3 (n % 1000)).rdropWhile (· = '0'))

namespace Numeral.Says

variable {d : Numeral} {n : Nat}

theorem places_le (h : d.Says n) : d.places ≤ 3 := by
  by_contra hmore
  exact h.least 3 (by omega) (Nat.dvd_mul_left 1000 n)

/-- With places the digits are those of the number up to the last that is not zero. -/
theorem digits (h : d.Says n) {places : Nat} (hplaces : d.places = places + 1) :
    n = d.digits * 10 ^ (2 - places) ∧ d.digits % 10 ≠ 0 := by
  have hmost := h.places_le
  have hzeros : d.zeros = 0 := h.plain.resolve_right (by omega)
  have hexact : d.digits * 1000 = n * 10 ^ (places + 1) := by
    simpa [num, den, hzeros, hplaces] using h.exact
  have hn : n = d.digits * 10 ^ (2 - places) := by
    refine Nat.eq_of_mul_eq_mul_right (Nat.pow_pos (by decide) : 0 < 10 ^ (places + 1)) ?_
    rw [← hexact, Nat.mul_assoc, ← pow_add, (by omega : 2 - places + (places + 1) = 3)]
    rfl
  refine ⟨hn, fun hzero => h.least places (by omega) ?_⟩
  have hhundreds : n * 10 ^ places = d.digits * 100 := by
    rw [hn, Nat.mul_assoc, ← pow_add, (by omega : 2 - places + places = 2)]
    rfl
  omega

theorem text_whole (h : d.Says n) (hplaces : d.places = 0) : d.text = exactThousands n := by
  have hn : n = d.digits * 10 ^ d.zeros * 1000 := by
    simpa [num, den, hplaces] using h.exact.symm
  have hrest : n % 1000 = 0 := by omega
  have hwhole : n / 1000 = d.digits * 10 ^ d.zeros := by omega
  rw [exactThousands, if_pos hrest, hwhole, String.append_empty, Numeral.text]
  exact if_pos hplaces

/-- The numeral stops at the last digit that is not zero, where dropping zeros stops too. -/
theorem fraction (h : d.Says n) {places : Nat} (hplaces : d.places = places + 1) :
    (lastDigits 3 (n % 1000)).rdropWhile (· = '0') = lastDigits (places + 1) d.digits := by
  have hmost := h.places_le
  obtain ⟨hn, hlast⟩ := h.digits hplaces
  have hthree : lastDigits 3 (n % 1000) =
      lastDigits (places + 1) d.digits ++ List.replicate (2 - places) '0' := by
    rw [← lastDigits_shift, ← hn, (by omega : places + 1 + (2 - places) = 3)]
    exact lastDigits_mod 3 n
  rw [hthree, rdropWhile_zeros, rdropWhile_lastDigits hlast]

theorem whole (h : d.Says n) {places : Nat} (hplaces : d.places = places + 1) :
    n / 1000 = d.digits / 10 ^ (places + 1) := by
  have hmost := h.places_le
  have hunit : 10 ^ (places + 1) * 10 ^ (2 - places) = 1000 := by
    rw [← pow_add, (by omega : places + 1 + (2 - places) = 3)]
    rfl
  rw [(h.digits hplaces).1, ← hunit, Nat.mul_div_mul_right _ _ (Nat.pow_pos (by decide))]

theorem text_fraction (h : d.Says n) {places : Nat} (hplaces : d.places = places + 1) :
    d.text = exactThousands n := by
  have hrest : n % 1000 ≠ 0 := by
    intro hzero
    refine h.least 0 (by omega) ?_
    rw [pow_zero, Nat.mul_one]
    exact Nat.dvd_of_mod_eq_zero hzero
  have hpadded := padded_toDigits (Nat.succ_ne_zero places)
    (Nat.mod_lt d.digits (Nat.pow_pos (by decide) : 0 < 10 ^ (places + 1)))
  rw [lastDigits_mod] at hpadded
  rw [exactThousands, if_neg hrest, h.whole hplaces, h.fraction hplaces, ← hpadded, Numeral.text]
  simp only [hplaces, Nat.pow_eq, Nat.add_one_ne_zero, ↓reduceIte]
  rw [Nat.toString_eq_ofList_toDigits (n := d.digits % _), String.length_ofList,
    String.ofList_append, String.append_assoc, String.append_assoc]

theorem text (h : d.Says n) : d.text = exactThousands n := by
  cases hplaces : d.places with
  | zero => exact h.text_whole hplaces
  | succ places => exact h.text_fraction hplaces

end Numeral.Says

/-- A whole number below 1000 * 2 ^ 42 is written in thousands without loss. -/
theorem thousands_exact {n : Nat} (hpos : 0 < n) (hn : n < 1000 * 2 ^ 42) :
    thousands n = exactThousands n := by
  obtain ⟨d, hd, hsays⟩ := shortest_says hpos hn
  unfold thousands
  simp only at hd ⊢
  rw [hd]
  exact hsays.text

end TradeChat.Decimal
