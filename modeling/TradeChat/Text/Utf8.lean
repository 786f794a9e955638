namespace TradeChat.Text.Utf8

/-- The bytes that may follow a lead byte: how many, and the ends of the range of the first. -/
structure Lead where
  bits : Nat
  tails : Nat
  low : Nat
  high : Nat

/-- Narrower ranges after four lead bytes keep out overlong forms, surrogates and numbers past
the last code point. -/
def lead? (b : Nat) : Option Lead :=
  if b < 0x80 then some ⟨b, 0, 0x80, 0xBF⟩
  else if b < 0xC2 then none
  else if b < 0xE0 then some ⟨b - 0xC0, 1, 0x80, 0xBF⟩
  else if b = 0xE0 then some ⟨b - 0xE0, 2, 0xA0, 0xBF⟩
  else if b = 0xED then some ⟨b - 0xE0, 2, 0x80, 0x9F⟩
  else if b < 0xF0 then some ⟨b - 0xE0, 2, 0x80, 0xBF⟩
  else if b = 0xF0 then some ⟨b - 0xF0, 3, 0x90, 0xBF⟩
  else if b < 0xF4 then some ⟨b - 0xF0, 3, 0x80, 0xBF⟩
  else if b = 0xF4 then some ⟨b - 0xF0, 3, 0x80, 0x8F⟩
  else none

/-- What stands at the front of some bytes: a character, or bytes that start none. The rest is
what follows it. -/
structure Piece where
  char? : Option Char
  rest : List UInt8

/-- Reads the tails that a character still owes, `code` being the number read so far. -/
def tailsOf (code : Nat) : Nat → Nat → Nat → List UInt8 → Piece
  | 0, _, _, bytes => ⟨some (Char.ofNat code), bytes⟩
  | _ + 1, _, _, [] => ⟨none, []⟩
  | owed + 1, low, high, b :: rest =>
    if low ≤ b.toNat && b.toNat ≤ high then
      tailsOf (code * 64 + (b.toNat - 0x80)) owed 0x80 0xBF rest
    else ⟨none, b :: rest⟩

def pieceAt (b : UInt8) (rest : List UInt8) : Piece :=
  match lead? b.toNat with
  | none => ⟨none, rest⟩
  | some l => tailsOf l.bits l.tails l.low l.high rest

theorem tailsOf_length_le (code owed low high : Nat) (bytes : List UInt8) :
    (tailsOf code owed low high bytes).rest.length ≤ bytes.length := by
  induction bytes generalizing code owed low high with
  | nil => cases owed <;> simp [tailsOf]
  | cons b rest ih =>
    cases owed with
    | zero => simp [tailsOf]
    | succ owed =>
      simp only [tailsOf]
      split
      · exact Nat.le_succ_of_le (ih ..)
      · simp

theorem pieceAt_length_le (b : UInt8) (rest : List UInt8) :
    (pieceAt b rest).rest.length ≤ rest.length := by
  unfold pieceAt
  split
  · simp
  · exact tailsOf_length_le ..

def pieces : List UInt8 → List (Option Char)
  | [] => []
  | b :: rest => (pieceAt b rest).char? :: pieces (pieceAt b rest).rest
termination_by bytes => bytes.length
decreasing_by exact Nat.lt_succ_of_le (pieceAt_length_le b rest)

def decodeLossy (bytes : List UInt8) : List Char :=
  (pieces bytes).map (·.getD '\uFFFD')

def decode? (bytes : List UInt8) : Option (List Char) :=
  (pieces bytes).mapM id

def encode (s : String) : List UInt8 := s.toUTF8.toList

end TradeChat.Text.Utf8
