import TradeChat.Text.Parts

namespace TradeChat.Text

theorem natural_digits {s : List Char} (hne : s ≠ []) (hs : ∀ c ∈ s, c.isDigit = true) :
    natural? s = some (Nat.ofDigitChars 10 s 0) := by
  rw [natural?, Nat.ofDigitChars_eq_foldl]
  simp [hne, List.all_eq_true.mpr hs]

theorem isDigit_toDigits {n : Nat} {c : Char} (hc : c ∈ Nat.toDigits 10 n) : c.isDigit = true :=
  Nat.isDigit_of_mem_toDigits (by decide) (by decide) hc

theorem natural_toDigits (n : Nat) : natural? (Nat.toDigits 10 n) = some n := by
  rw [natural_digits Nat.toDigits_ne_nil fun c => isDigit_toDigits, Nat.ofDigitChars_ten_toDigits]

theorem toList_negSucc (n : Nat) :
    (toString (Int.negSucc n)).toList = '-' :: Nat.toDigits 10 (n + 1) :=
  String.toList_append.trans (congrArg _ Nat.toList_repr)

/-- A number is read off its numeral. -/
theorem signed_toString (n : Int) : signed? (toString n).toList = some n := by
  cases n with
  | ofNat n =>
    have hlist : (toString (Int.ofNat n)).toList = Nat.toDigits 10 n := Nat.toList_repr
    have hread := natural_toDigits n
    rw [hlist]
    cases hdigits : Nat.toDigits 10 n with
    | nil => exact absurd hdigits Nat.toDigits_ne_nil
    | cons c rest =>
      have hc : c.isDigit = true := isDigit_toDigits (hdigits ▸ List.mem_cons_self)
      rw [hdigits] at hread
      unfold signed?
      split
      · rename_i hsign
        cases hsign
        cases hc
      · rename_i hsign
        cases hsign
        cases hc
      · rw [hread]
        rfl
  | negSucc n =>
    rw [toList_negSucc, signed?, natural_toDigits]
    rfl

theorem toString_injective {m n : Int} (h : toString m = toString n) : m = n := by
  have hread := signed_toString m
  rw [h, signed_toString] at hread
  exact (Option.some.inj hread).symm

theorem int_ne_empty (n : Int) : n.repr ≠ "" := by
  cases n with
  | ofNat n => exact Nat.repr_ne_empty
  | negSucc n => exact fun h => Nat.repr_ne_empty (String.append_eq_empty_iff.mp h).2

theorem dash_nat (n : Nat) : '-' ∉ n.repr.toList := by
  rw [Nat.repr_eq_ofList_toDigits, String.toList_ofList]
  intro hc
  exact absurd (isDigit_toDigits hc) (by decide)

/-- The text of a number holds a dash at its start at most. -/
theorem dash_int {n : Int} {c : Char} {rest : List Char} (h : (toString n).toList = c :: rest) :
    '-' ∉ rest := by
  cases n with
  | ofNat n => exact fun hc => dash_nat n (h ▸ List.mem_cons_of_mem c hc)
  | negSucc n =>
    have hsign : (toString (Int.negSucc n)).toList = '-' :: (n + 1).repr.toList :=
      String.toList_append
    rw [hsign, List.cons.injEq] at h
    exact h.2 ▸ dash_nat (n + 1)

/-- A range is not the text of one number. -/
theorem range_ne_int (a b n : Int) : toString a ++ "-" ++ toString b ≠ toString n := by
  intro h
  cases ha : (toString a).toList with
  | nil => exact int_ne_empty a (String.toList_eq_nil_iff.mp ha)
  | cons c rest =>
    have hn : (toString n).toList = c :: (rest ++ '-' :: (toString b).toList) := by
      rw [← h, String.toList_append, String.toList_append, ha, List.append_assoc]
      rfl
    exact dash_int hn (List.mem_append_right rest List.mem_cons_self)

end TradeChat.Text
