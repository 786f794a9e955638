import Mathlib.Tactic.Linarith
import Mathlib.Tactic.Ring
import TradeChat.Decimal

namespace TradeChat.Decimal

/-- The number `num / den` lies in an interval. -/
def Interval.Contains (i : Interval) (num den : Nat) : Prop :=
  if i.closed then i.low * den ≤ num * i.den ∧ num * i.den ≤ i.high * den
  else i.low * den < num * i.den ∧ num * i.den < i.high * den

namespace Interval

variable {i : Interval} {num den : Nat}

theorem Contains.bounds (h : i.Contains num den) :
    i.low * den ≤ num * i.den ∧ num * i.den ≤ i.high * den := by
  rw [Contains] at h
  split at h
  · exact h
  · exact ⟨h.1.le, h.2.le⟩

/-- It does not matter which fraction stands for a number. -/
theorem contains_congr {num' den' : Nat} (hden : 0 < den) (hden' : 0 < den')
    (h : num * den' = num' * den) : i.Contains num den ↔ i.Contains num' den' := by
  have hend (x : Nat) : x * den * den' = x * den' * den := Nat.mul_right_comm x den den'
  have hnum : num * i.den * den' = num' * i.den * den := by
    rw [Nat.mul_right_comm, h, Nat.mul_right_comm]
  have hle (x : Nat) : x * den ≤ num * i.den ↔ x * den' ≤ num' * i.den := by
    rw [← Nat.mul_le_mul_right_iff hden', hend, hnum, Nat.mul_le_mul_right_iff hden]
  have hge (x : Nat) : num * i.den ≤ x * den ↔ num' * i.den ≤ x * den' := by
    rw [← Nat.mul_le_mul_right_iff hden', hend, hnum, Nat.mul_le_mul_right_iff hden]
  simp only [Contains, ← Nat.not_le, hle, hge]

end Interval

theorem Numeral.readsBackIn_iff {d : Numeral} {i : Interval} :
    d.readsBackIn i = true ↔ i.Contains d.num d.den := by
  rw [readsBackIn, Interval.Contains]
  split <;> simp

section Rounding

variable {num den : Nat}

/-- Rounding moves a quotient by half a unit at most, and by just that much only to an even
number. -/
theorem roundEven_near (num : Nat) {den : Nat} (hden : 0 < den) :
    let q := roundEven num den
    (2 * (q * den) ≤ 2 * num + den ∧ 2 * num ≤ 2 * (q * den) + den) ∧
      (2 * (q * den) = 2 * num + den ∨ 2 * num = 2 * (q * den) + den → q % 2 = 0) := by
  have hsplit : num / den * den + num % den = num := Nat.div_add_mod' num den
  have hrest := Nat.mod_lt num hden
  have hnext : (num / den + 1) * den = num / den * den + den := Nat.succ_mul _ _
  unfold roundEven
  simp only
  split
  · omega
  · split
    · omega
    · rcases Nat.mod_two_eq_zero_or_one (num / den) with heven | hodd
      · rw [heven, Nat.add_zero]
        omega
      · rw [hodd]
        omega

theorem roundEven_range {low high : Nat} (hden : 0 < den) (hlow : low * den ≤ num)
    (hhigh : num < high * den) : low ≤ roundEven num den ∧ roundEven num den ≤ high := by
  have hdown : low ≤ num / den := (Nat.le_div_iff_mul_le hden).mpr hlow
  have hup : num / den < high := (Nat.div_lt_iff_lt_mul hden).mpr hhigh
  unfold roundEven
  simp only
  split
  · omega
  · split <;> omega

theorem roundEven_one (num : Nat) : roundEven num 1 = num := by
  simp [roundEven, Nat.mod_one]

/-- By the numbers of bits alone a quotient is known up to a factor of two on either side. -/
theorem bits_near (hnum : 0 < num) (hden : 0 < den) {left right : Nat}
    (hbalance : num.log2 + left = den.log2 + 52 + right) :
    2 ^ 51 * (den * 2 ^ right) < num * 2 ^ left ∧
      num * 2 ^ left < 2 ^ 53 * (den * 2 ^ right) := by
  have hnum_low : 2 ^ num.log2 ≤ num := Nat.log2_self_le hnum.ne'
  have hnum_high : num < 2 ^ (num.log2 + 1) := Nat.lt_log2_self
  have hden_low : 2 ^ den.log2 ≤ den := Nat.log2_self_le hden.ne'
  have hden_high : den < 2 ^ (den.log2 + 1) := Nat.lt_log2_self
  constructor
  · calc 2 ^ 51 * (den * 2 ^ right)
        < 2 ^ 51 * (2 ^ (den.log2 + 1) * 2 ^ right) := by gcongr
      _ = 2 ^ num.log2 * 2 ^ left := by
        rw [← pow_add, ← pow_add, ← pow_add, hbalance]
        congr 1
        omega
      _ ≤ num * 2 ^ left := by gcongr
  · calc num * 2 ^ left
        < 2 ^ (num.log2 + 1) * 2 ^ left := by gcongr
      _ = 2 ^ 53 * (2 ^ den.log2 * 2 ^ right) := by
        rw [← pow_add, ← pow_add, ← pow_add, Nat.add_right_comm, hbalance]
        congr 1
        omega
      _ ≤ 2 ^ 53 * (den * 2 ^ right) := by gcongr

/-- One of the two shifts is by nothing, and they bring a quotient to 53 bits. -/
theorem shift_bits (hnum : 0 < num) (hden : 0 < den) :
    let s := shift num den
    (s.1 = 0 ∨ s.2 = 0) ∧ 2 ^ 52 * (den * 2 ^ s.1) ≤ num * 2 ^ s.2 ∧
      num * 2 ^ s.2 < 2 ^ 53 * (den * 2 ^ s.1) := by
  unfold shift
  simp only [Nat.pow_eq]
  generalize hright : num.log2 - (den.log2 + 52) = right
  generalize hleft : den.log2 + 52 - num.log2 = left
  obtain ⟨hlow, hhigh⟩ := bits_near hnum hden (by omega : num.log2 + left = den.log2 + 52 + right)
  have hpos : 0 < den * 2 ^ right := by positivity
  split
  · rename_i hsmall
    rw [Nat.div_lt_iff_lt_mul hpos] at hsmall
    split
    · rename_i hzero
      subst hzero
      have hdouble : num * 2 ^ (left + 1) = 2 * (num * 2 ^ left) := by ring
      refine ⟨Or.inl rfl, ?_, ?_⟩ <;> simp only [hdouble] <;> omega
    · rename_i hne
      have hhalf : den * 2 ^ right = 2 * (den * 2 ^ (right - 1)) := by
        rw [← mul_pow_sub_one hne 2, Nat.mul_left_comm]
      refine ⟨Or.inr (by omega), ?_, ?_⟩ <;> simp only <;> omega
  · rename_i hlarge
    rw [Nat.div_lt_iff_lt_mul hpos, Nat.not_lt] at hlarge
    exact ⟨by omega, hlarge, hhigh⟩

theorem interval_contains {x : Binary} : (interval x).Contains num den ↔
    let unit := den * 2 ^ x.up
    let low := (4 * x.mantissa - if x.mantissa = 2 ^ 52 then 1 else 2) * unit
    let value := 4 * (num * 2 ^ x.down)
    let high := (4 * x.mantissa + 2) * unit
    if x.mantissa % 2 = 0 then low ≤ value ∧ value ≤ high else low < value ∧ value < high := by
  have hend (a : Nat) : a * 2 ^ x.up * den = a * (den * 2 ^ x.up) := by ring
  have hvalue : num * (4 * 2 ^ x.down) = 4 * (num * 2 ^ x.down) := by ring
  simp only [Interval.Contains, interval, Nat.pow_eq, hend, hvalue, decide_eq_true_eq]

/-- A number reads back as the binary fraction nearest to it. -/
theorem nearest_contains (hnum : 0 < num) (hden : 0 < den) :
    (interval (nearest num den)).Contains num den := by
  obtain ⟨-, hlow, hhigh⟩ := shift_bits hnum hden
  unfold nearest
  generalize shift num den = s at hlow hhigh ⊢
  obtain ⟨up, down⟩ := s
  simp only [Nat.pow_eq] at hlow hhigh ⊢
  have hunit : 0 < den * 2 ^ up := by positivity
  obtain ⟨⟨hbelow, habove⟩, heven⟩ := roundEven_near (num * 2 ^ down) hunit
  obtain ⟨hleast, hmost⟩ := roundEven_range hunit hlow hhigh
  generalize roundEven (num * 2 ^ down) (den * 2 ^ up) = m at hbelow habove heven hleast hmost
  rw [interval_contains]
  unfold Binary.normal
  simp only [Nat.pow_eq]
  split
  · -- Below a power of two the fraction is near enough because it has 53 bits before rounding.
    simp only [Nat.sub_mul, Nat.add_mul, Nat.mul_assoc 4 m]
    split
    · split
      · subst m
        omega
      · omega
    · rw [if_neg (by omega)]
      omega
  · have hcarry : m = 2 ^ 53 := by omega
    subst hcarry
    split
    · subst down
      have hdouble : den * 2 ^ (up + 1) = 2 * (den * 2 ^ up) := by ring
      simp only [hdouble]
      norm_num
      omega
    · rename_i hne
      have hhalf : num * 2 ^ down = 2 * (num * 2 ^ (down - 1)) := by
        rw [← mul_pow_sub_one hne 2, Nat.mul_left_comm]
      norm_num
      omega

theorem nearest_bits (hnum : 0 < num) (hden : 0 < den) :
    2 ^ 52 ≤ (nearest num den).mantissa ∧ (nearest num den).mantissa < 2 ^ 53 := by
  obtain ⟨-, hlow, hhigh⟩ := shift_bits hnum hden
  obtain ⟨hleast, hmost⟩ := roundEven_range (by positivity) hlow hhigh
  unfold nearest Binary.normal
  simp only [Nat.pow_eq]
  split
  · exact ⟨hleast, ‹_›⟩
  · split <;> simp only <;> omega

/-- A whole number of at most 53 bits is a binary fraction itself. -/
theorem nearest_whole {n : Nat} (hpos : 0 < n) (hn : n < 2 ^ 53) :
    (nearest n 1).num = n * (nearest n 1).den := by
  obtain ⟨hone, hlow, hhigh⟩ := shift_bits hpos Nat.one_pos
  unfold nearest
  generalize shift n 1 = s at hone hlow hhigh ⊢
  obtain ⟨up, down⟩ := s
  simp only [Nat.one_mul] at hone hlow hhigh
  have hup : up = 0 := by
    by_contra hne
    obtain rfl : down = 0 := hone.resolve_left hne
    rw [← mul_pow_sub_one hne 2] at hlow
    have := Nat.one_le_two_pow (n := up - 1)
    omega
  subst hup
  rw [pow_zero, Nat.mul_one] at hhigh
  have hexact : Binary.normal ⟨n * 2 ^ down, 0, down⟩ = ⟨n * 2 ^ down, 0, down⟩ := if_pos hhigh
  simp only [Nat.pow_eq, pow_zero, Nat.mul_one, roundEven_one, hexact, Binary.num, Binary.den]

/-- The interval of a binary fraction is no wider than the step to the next one. -/
theorem interval_width (x : Binary) :
    (interval x).low ≤ (interval x).value ∧ (interval x).value ≤ (interval x).high ∧
      (interval x).high ≤ (interval x).low + 4 * 2 ^ x.up := by
  simp only [interval, Nat.pow_eq]
  refine ⟨?_, ?_, ?_⟩
  · exact Nat.mul_le_mul_right _ (Nat.sub_le _ _)
  · exact Nat.mul_le_mul_right _ (Nat.le_add_right _ _)
  · rw [← Nat.add_mul]
    refine Nat.mul_le_mul_right _ ?_
    split <;> omega

/-- Below 2 ^ 42 the steps of the binary fractions are shorter than a thousandth. -/
theorem nearest_step (hnum : 0 < num) (hden : 0 < den) (hsmall : num < 2 ^ 42 * den) :
    1000 * 2 ^ (nearest num den).up < 2 ^ (nearest num den).down := by
  obtain ⟨hbits, -⟩ := nearest_bits hnum hden
  obtain ⟨hlow, -⟩ := (nearest_contains hnum hden).bounds
  generalize nearest num den = x at hbits hlow ⊢
  simp only [interval, Nat.pow_eq] at hlow
  have hmantissa : 2 ^ 54 - 2 ≤ 4 * x.mantissa - if x.mantissa = 2 ^ 52 then 1 else 2 := by
    split <;> omega
  have hunits : (2 ^ 54 - 2) * 2 ^ x.up < 2 ^ 44 * 2 ^ x.down := by
    refine Nat.lt_of_mul_lt_mul_right (a := den) ?_
    calc (2 ^ 54 - 2) * 2 ^ x.up * den
        ≤ (4 * x.mantissa - if x.mantissa = 2 ^ 52 then 1 else 2) * 2 ^ x.up * den := by gcongr
      _ ≤ num * (4 * 2 ^ x.down) := hlow
      _ < 2 ^ 42 * den * (4 * 2 ^ x.down) := by gcongr
      _ = 2 ^ 44 * 2 ^ x.down * den := by ring
  omega

end Rounding

end TradeChat.Decimal
