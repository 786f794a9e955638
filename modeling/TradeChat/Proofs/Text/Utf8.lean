import Mathlib.Algebra.GroupWithZero.Nat
import Mathlib.Data.List.Basic
import TradeChat.Text.Utf8

namespace TradeChat.Text.Utf8

/-- Only the null character stands for numbers that are no code points. -/
theorem ofNat_code {n : Nat} {c : Char} (h : Char.ofNat n = c) (hc : c ≠ '\x00') :
    n = c.toNat := by
  by_cases hvalid : n.isValidChar
  · rw [Char.ofNat, dif_pos hvalid] at h
    exact congrArg Char.toNat h
  · rw [Char.ofNat, dif_neg hvalid] at h
    exact absurd h.symm hc

theorem newline_code {n : Nat} (h : Char.ofNat n = '\n') : n = 10 := ofNat_code h (by decide)

section Encode

theorem toList_loop (bytes : ByteArray) (i : Nat) (taken : List UInt8) :
    ByteArray.toList.loop bytes i taken = taken.reverse ++ bytes.data.toList.drop i := by
  fun_induction ByteArray.toList.loop bytes i taken with
  | case1 i taken h ih =>
    have hi : i < bytes.data.toList.length := by simpa using h
    rw [ih, List.drop_eq_getElem_cons hi]
    simp [ByteArray.get!, h]
  | case2 i taken h =>
    have hi : bytes.data.toList.length ≤ i := by simpa using h
    rw [List.drop_eq_nil_of_le hi, List.append_nil]

/-- The bytes of a text are those of its characters. -/
theorem encode_eq (s : String) : encode s = s.toList.flatMap String.utf8EncodeChar := by
  have hbytes : s.toUTF8 = (s.toList.flatMap String.utf8EncodeChar).toByteArray := by
    conv => lhs; rw [← String.ofList_toList (s := s)]
    rw [String.toUTF8_eq_toByteArray, String.toByteArray_ofList]
    rfl
  rw [encode, hbytes, ByteArray.toList, toList_loop, List.toList_data_toByteArray]
  rfl

theorem encode_ofList (cs : List Char) :
    encode (String.ofList cs) = cs.flatMap String.utf8EncodeChar := by
  rw [encode_eq, String.toList_ofList]

theorem high_byte {n : Nat} (hlow : 128 ≤ n) (hhigh : n < 256) : 10 ≠ UInt8.ofNat n := by
  intro he
  have hn := congrArg UInt8.toNat he
  simp only [UInt8.toNat_ofNat', UInt8.reduceToNat] at hn
  omega

theorem ascii_newline {c : Char} (hc : c.val.toNat ≤ 127) :
    UInt8.ofNat c.val.toNat = 10 ↔ c = '\n' := by
  constructor
  · intro he
    have hn := congrArg UInt8.toNat he
    simp only [UInt8.toNat_ofNat', UInt8.reduceToNat] at hn
    have hcode : ('\n' : Char).val.toNat = 10 := rfl
    exact Char.ext (UInt32.toNat_inj.mp (by omega))
  · rintro rfl
    rfl

/-- The byte of a newline stands in no other character. -/
theorem count_encodeChar (c : Char) :
    (String.utf8EncodeChar c).count 10 = if c = '\n' then 1 else 0 := by
  have hlarge : 127 < c.val.toNat → c ≠ '\n' := by
    rintro hc rfl
    exact absurd hc (by decide)
  unfold String.utf8EncodeChar
  dsimp only
  split
  · rename_i hc
    simp only [List.count_singleton, beq_iff_eq, ascii_newline hc]
  · rename_i hc
    rw [if_neg (hlarge (by omega))]
    apply List.count_eq_zero_of_not_mem
    have htail : ∀ n, 10 ≠ UInt8.ofNat (n % 64 + 128) := by
      intro n
      exact high_byte (by omega) (by omega)
    split
    · simp only [List.mem_cons, List.not_mem_nil, or_false, not_or]
      exact ⟨high_byte (by omega) (by omega), htail _⟩
    · split
      · simp only [List.mem_cons, List.not_mem_nil, or_false, not_or]
        exact ⟨high_byte (by omega) (by omega), htail _, htail _⟩
      · simp only [List.mem_cons, List.not_mem_nil, or_false, not_or]
        exact ⟨high_byte (by omega) (by omega), htail _, htail _, htail _⟩

/-- A text has as many newlines in its bytes as among its characters. -/
theorem count_encode (s : String) : (encode s).count 10 = s.toList.count '\n' := by
  rw [encode_eq]
  induction s.toList with
  | nil => rfl
  | cons c rest ih =>
    rw [List.flatMap_cons, List.count_append, count_encodeChar, ih, List.count_cons, Nat.add_comm]
    simp only [beq_iff_eq]

end Encode

section Decode

theorem tailsOf_suffix (code owed low high : Nat) (bytes : List UInt8) :
    (tailsOf code owed low high bytes).rest <:+ bytes := by
  induction bytes generalizing code owed low high with
  | nil => cases owed <;> exact List.suffix_rfl
  | cons b rest ih =>
    cases owed with
    | zero => exact List.suffix_rfl
    | succ owed =>
      rw [tailsOf]
      split
      · exact (ih ..).trans (List.suffix_cons b rest)
      · exact List.suffix_rfl

theorem pieceAt_suffix (b : UInt8) (rest : List UInt8) : (pieceAt b rest).rest <:+ rest := by
  rw [pieceAt]
  split
  · exact List.suffix_rfl
  · exact tailsOf_suffix ..

/-- Each tail multiplies the number read so far. -/
theorem tailsOf_code {code owed low high : Nat} {bytes : List UInt8} {c : Char}
    (h : (tailsOf code owed low high bytes).char? = some c) :
    ∃ n, c = Char.ofNat n ∧ code * 64 ^ owed ≤ n := by
  induction owed generalizing code low high bytes with
  | zero =>
    cases h
    exact ⟨code, rfl, by simp⟩
  | succ owed ih =>
    cases bytes with
    | nil => cases h
    | cons b rest =>
      rw [tailsOf] at h
      split at h
      · obtain ⟨n, rfl, hn⟩ := ih h
        refine ⟨n, rfl, Nat.le_trans ?_ hn⟩
        rw [Nat.pow_succ', ← Nat.mul_assoc]
        exact Nat.mul_le_mul_right _ (Nat.le_add_right _ _)
      · cases h

/-- The narrow ranges after a lead byte without bits of its own leave some bits too. -/
theorem tailsOf_narrow {owed low high : Nat} {bytes : List UInt8} {c : Char} (hlow : 0x90 ≤ low)
    (h : (tailsOf 0 (owed + 2) low high bytes).char? = some c) :
    ∃ n, c = Char.ofNat n ∧ 64 ≤ n := by
  cases bytes with
  | nil => cases h
  | cons b rest =>
    rw [tailsOf] at h
    split at h
    · rename_i hb
      rw [Bool.and_eq_true, decide_eq_true_eq] at hb
      obtain ⟨n, rfl, hn⟩ := tailsOf_code h
      refine ⟨n, rfl, Nat.le_trans ?_ hn⟩
      have hpow : 64 ≤ 64 ^ (owed + 1) := Nat.le_self_pow (Nat.succ_ne_zero owed) 64
      have hcode : 1 ≤ 0 * 64 + (b.toNat - 0x80) := by omega
      calc 64 ≤ 64 ^ (owed + 1) := hpow
        _ = 1 * 64 ^ (owed + 1) := (Nat.one_mul _).symm
        _ ≤ (0 * 64 + (b.toNat - 0x80)) * 64 ^ (owed + 1) := Nat.mul_le_mul_right _ hcode
    · cases h

theorem tailsOf_large {code owed low high : Nat} {bytes : List UInt8} {c : Char} (hcode : 1 ≤ code)
    (h : (tailsOf code (owed + 1) low high bytes).char? = some c) :
    ∃ n, c = Char.ofNat n ∧ 64 ≤ n := by
  obtain ⟨n, rfl, hn⟩ := tailsOf_code h
  refine ⟨n, rfl, Nat.le_trans ?_ hn⟩
  have hpow : 64 ≤ 64 ^ (owed + 1) := Nat.le_self_pow (Nat.succ_ne_zero owed) 64
  exact Nat.le_trans hpow (Nat.le_mul_of_pos_left _ hcode)

/-- A lead byte is a character by itself, or leaves bits, or has a narrow range behind it. -/
theorem lead_cases {b : Nat} {l : Lead} (h : lead? b = some l) :
    (l.bits = b ∧ l.tails = 0) ∨ (1 ≤ l.bits ∧ 1 ≤ l.tails) ∨
      (l.bits = 0 ∧ 2 ≤ l.tails ∧ 0x90 ≤ l.low) := by
  unfold lead? at h
  repeat' split at h
  all_goals simp only [Option.some.injEq, reduceCtorEq] at h
  all_goals subst h
  all_goals dsimp only
  all_goals omega

/-- Only its own byte reads as a newline. -/
theorem pieceAt_newline {b : UInt8} {rest : List UInt8}
    (h : (pieceAt b rest).char? = some '\n') : b = 10 := by
  have hfar : (∃ n, '\n' = Char.ofNat n ∧ 64 ≤ n) → b = 10 := by
    rintro ⟨n, he, hn⟩
    have := newline_code he.symm
    omega
  rw [pieceAt] at h
  split at h
  · cases h
  · rename_i l hl
    rcases lead_cases hl with ⟨hbits, htails⟩ | ⟨hbits, htails⟩ | ⟨hbits, htails, hlow⟩
    · rw [htails, tailsOf, Option.some.injEq] at h
      exact UInt8.toNat_inj.mp (hbits.symm.trans (newline_code h))
    · obtain ⟨owed, howed⟩ := Nat.exists_eq_add_of_le' htails
      rw [howed] at h
      exact hfar (tailsOf_large hbits h)
    · obtain ⟨owed, howed⟩ := Nat.exists_eq_add_of_le' htails
      rw [hbits, howed] at h
      exact hfar (tailsOf_narrow hlow h)

/-- Decoding introduces no newline. -/
theorem newline_of_decodeLossy {bytes : List UInt8} (h : '\n' ∈ decodeLossy bytes) :
    10 ∈ bytes := by
  rw [decodeLossy] at h
  fun_induction pieces bytes with
  | case1 => cases h
  | case2 b rest ih =>
    rcases List.mem_cons.mp h with h | h
    · cases hpiece : (pieceAt b rest).char? with
      | none =>
        rw [hpiece] at h
        exact absurd h (by decide)
      | some c =>
        rw [hpiece] at h
        change '\n' = c at h
        rw [← h] at hpiece
        rw [pieceAt_newline hpiece]
        exact List.mem_cons_self
    · exact List.mem_cons_of_mem b ((pieceAt_suffix b rest).subset (ih h))

end Decode

section Inverse

theorem pieceAt_lead {b bits tails low high : Nat} (hb : b < 256)
    (h : lead? b = some ⟨bits, tails, low, high⟩) (rest : List UInt8) :
    pieceAt (UInt8.ofNat b) rest = tailsOf bits tails low high rest := by
  have hbyte : (UInt8.ofNat b).toNat = b := by
    simp only [UInt8.toNat_ofNat']
    omega
  rw [pieceAt, hbyte, h]

/-- A tail in range brings six bits. -/
theorem tailsOf_tail {low high n : Nat} (hlow : low ≤ n % 64 + 128) (hhigh : n % 64 + 128 ≤ high)
    (code owed : Nat) (rest : List UInt8) :
    tailsOf code (owed + 1) low high (UInt8.ofNat (n % 64 + 128) :: rest) =
      tailsOf (code * 64 + n % 64) owed 0x80 0xBF rest := by
  have hbyte : (UInt8.ofNat (n % 64 + 128)).toNat = n % 64 + 128 := by
    simp only [UInt8.toNat_ofNat']
    omega
  simp only [tailsOf, hbyte, hlow, hhigh, decide_true, Bool.and_self, ↓reduceIte,
    Nat.add_sub_cancel]

theorem tailsOf_any (code owed n : Nat) (rest : List UInt8) :
    tailsOf code (owed + 1) 0x80 0xBF (UInt8.ofNat (n % 64 + 128) :: rest) =
      tailsOf (code * 64 + n % 64) owed 0x80 0xBF rest :=
  tailsOf_tail (by omega) (by omega) code owed rest

theorem lead_two {n : Nat} (hlow : 0x7F < n) (hhigh : n ≤ 0x7FF) :
    lead? (n / 64 % 0x20 + 0xC0) = some ⟨n / 64, 1, 0x80, 0xBF⟩ := by
  have hbits : n / 64 % 0x20 + 0xC0 - 0xC0 = n / 64 := by omega
  rw [lead?, if_neg (by omega), if_neg (by omega), if_pos (by omega), hbits]

/-- The narrow ranges behind the first of three bytes keep out overlong forms and surrogates
only. -/
theorem lead_three {n : Nat} (hlow : 0x7FF < n) (hhigh : n ≤ 0xFFFF)
    (hvalid : n < 0xD800 ∨ 0xDFFF < n) :
    ∃ low high, lead? (n / 4096 % 0x10 + 0xE0) = some ⟨n / 4096, 2, low, high⟩ ∧
      low ≤ n / 64 % 64 + 128 ∧ n / 64 % 64 + 128 ≤ high := by
  have hbits : n / 4096 % 0x10 + 0xE0 - 0xE0 = n / 4096 := by omega
  rw [lead?, hbits, if_neg (by omega), if_neg (by omega), if_neg (by omega)]
  split
  · exact ⟨_, _, rfl, by omega, by omega⟩
  · split
    · exact ⟨_, _, rfl, by omega, by omega⟩
    · rw [if_pos (by omega)]
      exact ⟨_, _, rfl, by omega, by omega⟩

/-- The narrow ranges behind the first of four bytes keep out overlong forms and numbers past the
last code point only. -/
theorem lead_four {n : Nat} (hlow : 0xFFFF < n) (hhigh : n < 0x110000) :
    ∃ low high, lead? (n / 262144 % 0x08 + 0xF0) = some ⟨n / 262144, 3, low, high⟩ ∧
      low ≤ n / 4096 % 64 + 128 ∧ n / 4096 % 64 + 128 ≤ high := by
  have hbits : n / 262144 % 0x08 + 0xF0 - 0xF0 = n / 262144 := by omega
  rw [lead?, hbits, if_neg (by omega), if_neg (by omega), if_neg (by omega), if_neg (by omega),
    if_neg (by omega), if_neg (by omega)]
  split
  · exact ⟨_, _, rfl, by omega, by omega⟩
  · split
    · exact ⟨_, _, rfl, by omega, by omega⟩
    · rw [if_pos (by omega)]
      exact ⟨_, _, rfl, by omega, by omega⟩

/-- The bytes of a character read as the character. -/
theorem pieceAt_encodeChar (c : Char) (rest : List UInt8) :
    ∃ b tails, String.utf8EncodeChar c = b :: tails ∧
      pieceAt b (tails ++ rest) = ⟨some c, rest⟩ := by
  have hvalid : c.val.toNat < 0xD800 ∨ 0xDFFF < c.val.toNat ∧ c.val.toNat < 0x110000 := c.valid
  have hread : Char.ofNat c.val.toNat = c := Char.ofNat_toNat c
  unfold String.utf8EncodeChar
  dsimp only
  generalize c.val.toNat = n at hvalid hread ⊢
  split
  · have hlead : lead? n = some ⟨n, 0, 0x80, 0xBF⟩ := if_pos (by omega)
    refine ⟨_, _, rfl, ?_⟩
    rw [List.nil_append, pieceAt_lead (by omega) hlead, tailsOf, hread]
  · split
    · have hlead : lead? (n / 64 % 0x20 + 0xC0) = _ := lead_two (by omega) (by omega)
      have hcode : n / 64 * 64 + n % 64 = n := by omega
      refine ⟨_, _, rfl, ?_⟩
      rw [List.singleton_append, pieceAt_lead (by omega) hlead, tailsOf_any, tailsOf, hcode, hread]
    · split
      · obtain ⟨low, high, hlead, hlow, hhigh⟩ := @lead_three n (by omega) (by omega) (by omega)
        have hcode : (n / 4096 * 64 + n / 64 % 64) * 64 + n % 64 = n := by omega
        refine ⟨_, _, rfl, ?_⟩
        rw [List.cons_append, List.singleton_append, pieceAt_lead (by omega) hlead,
          tailsOf_tail hlow hhigh, tailsOf_any, tailsOf, hcode, hread]
      · obtain ⟨low, high, hlead, hlow, hhigh⟩ := @lead_four n (by omega) (by omega)
        have hcode : ((n / 262144 * 64 + n / 4096 % 64) * 64 + n / 64 % 64) * 64 + n % 64 = n := by
          omega
        refine ⟨_, _, rfl, ?_⟩
        rw [List.cons_append, List.cons_append, List.singleton_append,
          pieceAt_lead (by omega) hlead, tailsOf_tail hlow hhigh, tailsOf_any, tailsOf_any, tailsOf,
          hcode, hread]

/-- Decoding gives back what was encoded. -/
theorem decodeLossy_encode (s : String) : decodeLossy (encode s) = s.toList := by
  have hpieces : pieces (encode s) = s.toList.map some := by
    rw [encode_eq]
    induction s.toList with
    | nil => simp [pieces]
    | cons c rest ih =>
      obtain ⟨b, tails, hbytes, hpiece⟩ :=
        pieceAt_encodeChar c (rest.flatMap String.utf8EncodeChar)
      rw [List.flatMap_cons, hbytes, List.cons_append, pieces, hpiece, ih, List.map_cons]
  rw [decodeLossy, hpieces, List.map_map]
  exact List.map_id _

end Inverse

end TradeChat.Text.Utf8
