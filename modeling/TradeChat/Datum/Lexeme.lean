namespace TradeChat.Datum.Lexeme

/-- Takes a piece off the front of a text, and gives the rest. -/
abbrev Reader (α : Type) := List Char → Option (α × List Char)

/-- Where a text between two pieces stands. -/
inductive Gap where
  | blank
  | lineComment
  | blockComment (outer : Nat)

def isSpace (c : Char) : Bool := c == ' ' || c == '\t' || c == '\n' || c == '\r'

/-- Drops blanks and comments. Block comments nest, and have to be closed. -/
def skipIn : Gap → List Char → Option (List Char)
  | .blank, [] => some []
  | .blank, '/' :: '/' :: rest => skipIn .lineComment rest
  | .blank, '/' :: '*' :: rest => skipIn (.blockComment 0) rest
  | .blank, c :: rest =>
    if c = '/' then none
    else if isSpace c then skipIn .blank rest
    else some (c :: rest)
  | .lineComment, [] => some []
  | .lineComment, c :: rest => skipIn (if c = '\n' then .blank else .lineComment) rest
  | .blockComment _, [] => none
  | .blockComment outer, '*' :: '/' :: rest =>
    match outer with
    | 0 => skipIn .blank rest
    | outer + 1 => skipIn (.blockComment outer) rest
  | .blockComment outer, '/' :: '*' :: rest => skipIn (.blockComment (outer + 1)) rest
  | .blockComment outer, _ :: rest => skipIn (.blockComment outer) rest

def skip (s : List Char) : Option (List Char) := skipIn .blank s

/-- A fixed piece of text. -/
def expect (piece : List Char) (s : List Char) : Option (List Char) :=
  if piece.isPrefixOf s then some (s.drop piece.length) else none

/-- Fixed pieces with gaps between them and after the last. -/
def expectAll : List String → List Char → Option (List Char)
  | [], s => some s
  | piece :: pieces, s => do
    let s ← expect piece.toList s
    let s ← skip s
    expectAll pieces s

def isWordStart (c : Char) : Bool := c.isAlpha || c == '_'

def isWordChar (c : Char) : Bool := c.isAlphanum || c == '_'

/-- The characters of words that are marked as raw. -/
def isRawChar (c : Char) : Bool := isWordChar c || c == '.' || c == '+' || c == '-'

/-- The word at the front, which may be empty. -/
def wordSpan (s : List Char) : List Char × List Char := s.span isWordChar

/-- A word, plain or raw. A plain word does not run into a character of raw ones. -/
def word : Reader String
  | 'r' :: '"' :: _ => none
  | 'r' :: '#' :: c :: rest =>
    if isRawChar c then
      let (name, rest) := (c :: rest).span isRawChar
      some (String.ofList name, rest)
    else none
  | [] => none
  | c :: rest =>
    if isWordStart c then
      let (name, rest) := wordSpan (c :: rest)
      if rest.head?.any isRawChar then none else some (String.ofList name, rest)
    else none

def hexValue? (c : Char) : Option Nat :=
  if c.isDigit then some (c.toNat - '0'.toNat)
  else if 'a' ≤ c && c ≤ 'f' then some (c.toNat - 'a'.toNat + 10)
  else if 'A' ≤ c && c ≤ 'F' then some (c.toNat - 'A'.toNat + 10)
  else none

def isIntegerChar (c : Char) : Bool := (hexValue? c).isSome || c == '_'

def isFloatChar (c : Char) : Bool :=
  c.isDigit || c == 'e' || c == 'E' || c == '.' || c == '+' || c == '-'

def signAt : List Char → Bool × List Char
  | '-' :: rest => (true, rest)
  | '+' :: rest => (false, rest)
  | s => (false, s)

/-- The base that a mark after a zero names. -/
def baseAt : List Char → Nat × List Char
  | '0' :: 'x' :: rest => (16, rest)
  | '0' :: 'b' :: rest => (2, rest)
  | '0' :: 'o' :: rest => (8, rest)
  | s => (10, s)

/-- Digits with underscores between them. -/
def digits? (base : Nat) (s : List Char) : Option Nat :=
  s.foldlM (fun n c =>
    if c = '_' then some n
    else (hexValue? c).bind fun d => if d < base then some (n * base + d) else none) 0

/-- The bound of 64 bits that a whole number has to keep below, by its sign: unsigned numbers
have twice the room. -/
def integerBound : List Char → Nat
  | '-' :: _ => Nat.pow 2 63 + 1
  | '+' :: _ => Nat.pow 2 63
  | _ => Nat.pow 2 64

/-- A whole number in one of four bases. -/
def integer : Reader String := fun s =>
  let (base, body) := baseAt (signAt s).2
  let (run, rest) := body.span isIntegerChar
  if run.isEmpty || run.head? == some '_' then none
  else
    (digits? base run).bind fun n =>
      if n < integerBound s then some (String.ofList (s.take (s.length - rest.length)), rest)
      else none

/-- Digits around at most one point, at least one of them. -/
def isMantissa (s : List Char) : Bool :=
  let fraction := (s.dropWhile (· != '.')).drop 1
  let whole := s.takeWhile (· != '.')
  whole.all Char.isDigit && fraction.all Char.isDigit && !(whole.isEmpty && fraction.isEmpty)

def isExponent (s : List Char) : Bool :=
  let digits := (signAt s).2
  !digits.isEmpty && digits.all Char.isDigit

/-- A sign, a mantissa, and an exponent behind an "e". -/
def isFloat (s : List Char) : Bool :=
  let body := (signAt s).2
  let mantissa := body.takeWhile fun c => c != 'e' && c != 'E'
  match body.dropWhile fun c => c != 'e' && c != 'E' with
  | [] => isMantissa mantissa
  | _ :: exponent => isMantissa mantissa && isExponent exponent

/-- A number with a point or an exponent, or one of the words for no finite number. -/
def float : Reader String := fun s =>
  let (name, rest) := wordSpan (signAt s).2
  if name = "inf".toList || name = "NaN".toList then
    some (String.ofList (s.take (s.length - rest.length)), rest)
  else
    let (run, rest) := s.span isFloatChar
    if isFloat run then some (String.ofList run, rest) else none

/-- A number is a float if that takes more of the text, or if it is no whole number. -/
def number : Reader String := fun s =>
  let body := (signAt s).2
  if (body.takeWhile isIntegerChar).length < (body.takeWhile isFloatChar).length then float s
  else integer s <|> float s

def char? (code : Nat) : Option Char :=
  if h : code.isValidChar then some (Char.ofNatAux code h) else none

/-- Up to six hexadecimal digits, and the brace that closes them. -/
def codePoint : Reader Char := fun s =>
  let run := (s.take 6).takeWhile (· != '\x7d')
  match s.drop run.length with
  | '\x7d' :: rest =>
    if run.isEmpty then none
    else ((run.mapM hexValue?).bind fun ds => char? (ds.foldl (16 * · + ·) 0)).map (·, rest)
  | _ => none

/-- What follows a backslash. -/
def escape : Reader Char
  | '\'' :: rest => some ('\'', rest)
  | '"' :: rest => some ('"', rest)
  | '\\' :: rest => some ('\\', rest)
  | 'n' :: rest => some ('\n', rest)
  | 'r' :: rest => some ('\r', rest)
  | 't' :: rest => some ('\t', rest)
  | '0' :: rest => some ('\x00', rest)
  | 'x' :: a :: b :: rest => do
    let high ← hexValue? a
    let low ← hexValue? b
    some (Char.ofNat (16 * high + low), rest)
  | 'u' :: '\x7b' :: rest => codePoint rest
  | _ => none

/-- Text up to the closing quote. The first argument bounds the number of characters read. -/
def quotedBody : Nat → Reader (List Char)
  | 0, _ => none
  | _ + 1, [] => none
  | _ + 1, '"' :: rest => some ([], rest)
  | bound + 1, '\\' :: rest => do
    let (c, rest) ← escape rest
    let (s, rest) ← quotedBody bound rest
    some (c :: s, rest)
  | bound + 1, c :: rest => do
    let (s, rest) ← quotedBody bound rest
    some (c :: s, rest)

/-- Text up to a closing mark. -/
def upTo (close : List Char) : Reader (List Char)
  | [] => none
  | c :: rest =>
    if close.isPrefixOf (c :: rest) then some ([], (c :: rest).drop close.length)
    else (upTo close rest).map fun (s, rest) => (c :: s, rest)

/-- Text behind an "r", in which nothing is escaped; hash marks around the quotes keep quotes
inside apart. -/
def rawText (s : List Char) : Option (List Char × List Char) :=
  let hashes := s.takeWhile (· == '#')
  match s.drop hashes.length with
  | '"' :: rest => upTo ('"' :: hashes) rest
  | _ => none

def quoted : Reader String
  | '"' :: rest => (quotedBody (rest.length + 1) rest).map fun (s, rest) => (String.ofList s, rest)
  | 'r' :: rest => (rawText rest).map fun (s, rest) => (String.ofList s, rest)
  | _ => none

/-- A single character between apostrophes. -/
def letter : Reader Char
  | '\'' :: '\\' :: rest => do
    let (c, rest) ← escape rest
    let rest ← expect ['\''] rest
    some (c, rest)
  | '\'' :: c :: '\'' :: rest => if c = '\'' then none else some (c, rest)
  | _ => none

end TradeChat.Datum.Lexeme
