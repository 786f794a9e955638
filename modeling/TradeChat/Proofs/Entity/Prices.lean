import TradeChat.Entity.Item
import TradeChat.Proofs.Decimal.Thousands
import TradeChat.Proofs.Text.Numerals
import TradeChat.Proofs.Text.Pieces

namespace TradeChat

namespace Money
open Text Decimal

/-- A denomination as it stands, or in thousands if it is above 1000. -/
def exactAmount (d : Int) : String :=
  if d ≤ 1000 then toString d else exactThousands d.toNat ++ "k"

/-- The whole number that a numeral in thousands names. -/
def ofThousands? (s : List Char) : Option Nat :=
  match fields '.' s with
  | [whole] => natural? (whole ++ List.replicate 3 '0')
  | [whole, places] => natural? (whole ++ (places ++ List.replicate (3 - places.length) '0'))
  | _ => none

/-- The denomination that is read off the text of an amount. -/
def readDenomination? (text : String) : Option Int :=
  match fields 'k' ((fields ' ' text.toList).headD []) with
  | [number] => signed? number
  | [number, []] => (ofThousands? number).map Int.ofNat
  | _ => none

theorem amountText_exact {d : Int} (hd : d < 2 ^ 31) : amountText d = exactAmount d := by
  unfold amountText exactAmount
  by_cases hlarge : d > 1000
  · rw [if_pos hlarge, if_neg (by omega), thousands_exact (by omega) (by omega)]
  · rw [if_neg hlarge, if_pos (by omega)]

section Reading

variable {n : Nat}

theorem toList_exactThousands (n : Nat) : (exactThousands n).toList = Nat.toDigits 10 (n / 1000) ++
    if n % 1000 = 0 then [] else '.' :: (lastDigits 3 (n % 1000)).rdropWhile (· = '0') := by
  rw [exactThousands, String.toList_append, Nat.toString_eq_ofList_toDigits, String.toList_ofList]
  split
  · rfl
  · have hpoint : ".".toList = ['.'] := rfl
    rw [String.toList_append, hpoint, String.toList_ofList, List.singleton_append]

/-- The zeros that are left out can be put back. -/
theorem refilled (s : List Char) : s.rdropWhile (· = '0') ++
    List.replicate (s.length - (s.rdropWhile (· = '0')).length) '0' = s := by
  have hsplit : s.rdropWhile (· = '0') ++ s.rtakeWhile (· = '0') = s :=
    List.rdropWhile_append_rtakeWhile
  have hlength := congrArg List.length hsplit
  rw [List.length_append] at hlength
  have hzeros : s.rtakeWhile (· = '0') =
      List.replicate (s.length - (s.rdropWhile (· = '0')).length) '0' := by
    refine List.eq_replicate_iff.mpr ⟨by omega, fun c hc => ?_⟩
    simpa using List.mem_rtakeWhile_imp hc
  rw [← hzeros, hsplit]

theorem digit_ne {c mark : Char} (hc : c.isDigit = true) (hmark : mark.isDigit = false) :
    c ≠ mark := by
  rintro rfl
  rw [hc] at hmark
  cases hmark

theorem ofThousands_exact (n : Nat) : ofThousands? (exactThousands n).toList = some n := by
  have hwhole : ∀ c ∈ Nat.toDigits 10 (n / 1000), c ≠ '.' := fun c hc =>
    digit_ne (isDigit_toDigits hc) (by decide)
  rw [ofThousands?, toList_exactThousands]
  split_ifs with hround
  · rw [List.append_nil, fields_plain hwhole]
    have hdigits : ∀ c ∈ Nat.toDigits 10 (n / 1000) ++ List.replicate 3 '0', c.isDigit = true := by
      refine List.forall_mem_append.mpr ⟨fun c => isDigit_toDigits, fun c hc => ?_⟩
      rw [List.eq_of_mem_replicate hc]
      rfl
    simp only
    rw [natural_digits (by simp) hdigits, Nat.ofDigitChars_append, Nat.ofDigitChars_ten_toDigits,
      Nat.ofDigitChars_replicate_zero]
    congr 1
    omega
  · have hkept : ∀ c ∈ (lastDigits 3 (n % 1000)).rdropWhile (· = '0'), c ≠ '.' := fun c hc =>
      digit_ne (isDigit_lastDigits ((List.rdropWhile_prefix _ _).subset hc)) (by decide)
    have hrefilled := refilled (lastDigits 3 (n % 1000))
    rw [length_lastDigits] at hrefilled
    have hdigits : ∀ c ∈ Nat.toDigits 10 (n / 1000) ++ lastDigits 3 (n % 1000),
        c.isDigit = true :=
      List.forall_mem_append.mpr ⟨fun c => isDigit_toDigits, fun c => isDigit_lastDigits⟩
    rw [fields_pair hwhole hkept]
    simp only
    rw [hrefilled, natural_digits (by simp) hdigits, Nat.ofDigitChars_append,
      Nat.ofDigitChars_ten_toDigits, ofDigitChars_lastDigits]
    congr 1
    omega

theorem unmarked_int {d : Int} {mark : Char} (hdigit : mark.isDigit = false)
    (hsign : mark ≠ '-') : ∀ c ∈ (toString d).toList, c ≠ mark := by
  intro c hc
  cases d with
  | ofNat n => exact digit_ne (isDigit_toDigits (Nat.toList_repr ▸ hc)) hdigit
  | negSucc n =>
    rw [toList_negSucc] at hc
    rcases List.mem_cons.mp hc with rfl | hc
    · exact hsign.symm
    · exact digit_ne (isDigit_toDigits hc) hdigit

theorem unmarked_thousands {mark : Char} (hdigit : mark.isDigit = false) (hpoint : mark ≠ '.') :
    ∀ c ∈ (exactThousands n).toList, c ≠ mark := by
  intro c hc
  rw [toList_exactThousands] at hc
  rcases List.mem_append.mp hc with hc | hc
  · exact digit_ne (isDigit_toDigits hc) hdigit
  · split at hc
    · cases hc
    · rcases List.mem_cons.mp hc with rfl | hc
      · exact hpoint.symm
      · exact digit_ne (isDigit_lastDigits ((List.rdropWhile_prefix _ _).subset hc)) hdigit

theorem toList_exactAmount (d : Int) : (exactAmount d).toList =
    if d ≤ 1000 then (toString d).toList else (exactThousands d.toNat).toList ++ ['k'] := by
  rw [exactAmount]
  split
  · rfl
  · exact String.toList_append

theorem unspaced_amount (d : Int) : ∀ c ∈ (exactAmount d).toList, c ≠ ' ' := by
  rw [toList_exactAmount]
  split
  · exact unmarked_int (by decide) (by decide)
  · exact List.forall_mem_append.mpr ⟨unmarked_thousands (by decide) (by decide), by simp⟩

/-- The denomination comes back out of the text, whatever the currency is. -/
theorem readDenomination_exact (d : Int) (currency : String) :
    readDenomination? (exactAmount d ++ " " ++ currency) = some d := by
  have hamount : fields ' ' (exactAmount d ++ " " ++ currency).toList =
      (exactAmount d).toList :: fields ' ' currency.toList := by
    have hspace : " ".toList = [' '] := rfl
    rw [String.toList_append, String.toList_append, hspace, List.append_assoc,
      List.singleton_append, fields_append (unspaced_amount d) _ (fields_cons_sep ' ' _),
      List.append_nil]
  rw [readDenomination?, hamount, List.headD_cons, toList_exactAmount]
  split_ifs with hsmall
  · rw [fields_plain (unmarked_int (by decide) (by decide))]
    exact signed_toString d
  · rw [fields_pair (unmarked_thousands (by decide) (by decide)) (by simp)]
    simp only
    rw [ofThousands_exact, Option.map_some]
    congr 1
    exact Int.toNat_of_nonneg (by omega)

end Reading

/-- A complete amount of money is written without loss, whatever tree it is read off. -/
theorem text_lossless {t : Tree Token} (hcomplete : (ofTree t).isComplete = true) :
    ∃ d : Int32, (ofTree t).denomination = some d.toInt ∧
      (ofTree t).text = exactAmount d.toInt ++ " " ++ lowercase (ofTree t).currency ∧
      readDenomination? (ofTree t).text = some d.toInt := by
  obtain ⟨hsome, hcurrency⟩ := Bool.and_eq_true_iff.mp hcomplete
  rw [bne_iff_ne] at hcurrency
  obtain ⟨n, hn⟩ := Option.isSome_iff_exists.mp hsome
  obtain ⟨d, -, hd⟩ := Option.map_eq_some_iff.mp hn
  rw [← hd] at hn
  have htext : (ofTree t).text = exactAmount d.toInt ++ " " ++ lowercase (ofTree t).currency := by
    rw [text, hn]
    simp only [hcurrency, ↓reduceIte]
    rw [amountText_exact d.toInt_lt]
  refine ⟨d, hn, htext, ?_⟩
  rw [htext, readDenomination_exact]

/-- An amount of which the last denomination counts, wherever it stands. -/
def repriced : Tree Token :=
  .node { type := "MoneyAmount", id := some "m" }
    [.node { type := "Denomination", parent := some "m", value := some "4" } [],
      .node { type := "Offer", id := some "o", parent := some "m" }
        [.node { type := "Denomination", parent := some "o", value := some " 1050 " } []],
      .node { type := "Currency", parent := some "m", value := some "Gold" } []]

theorem text_lossless_repriced :
    (ofTree repriced).isComplete = true ∧ (ofTree repriced).text = "1.05k gold" ∧
      readDenomination? (ofTree repriced).text = some 1050 := by
  have hcomplete : (ofTree repriced).isComplete = true := by decide +kernel
  have hdenomination : (ofTree repriced).denomination = some 1050 := by decide +kernel
  obtain ⟨d, hd, htext, hread⟩ := text_lossless hcomplete
  rw [hdenomination] at hd
  rw [← hd] at hread
  rw [← Option.some.inj hd] at htext
  exact ⟨hcomplete, htext.trans (by decide +kernel), hread⟩

end Money

end TradeChat
