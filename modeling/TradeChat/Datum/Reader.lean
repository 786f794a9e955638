import TradeChat.Datum.Lexeme

namespace TradeChat

/-- The values that settings are written as. -/
inductive Datum where
  | flag (b : Bool)
  | word (name : String)
  | number (text : String)
  | text (s : String)
  | letter (c : Char)
  | absent
  | present (d : Datum)
  | record (name : Option String) (fields : List (String × Datum))
  | tuple (name : Option String) (items : List Datum)
  | list (items : List Datum)
  | table (entries : List (Datum × Datum))

end TradeChat

namespace TradeChat.Datum

open Lexeme (Reader skip expect expectAll isWordChar wordSpan)

variable {α : Type}

/-- Members up to a closing mark, with commas between them. A member takes at least one
character off the text. -/
def membersUpTo (close : Char) (member : Reader α) (s : List Char) :
    Option (List α × List Char) :=
  match s with
  | [] => none
  | c :: rest =>
    if c = close then some ([], rest)
    else do
      let (a, after) ← member s
      match ← skip after with
      | ',' :: more =>
        let more ← skip more
        if more.length ≤ rest.length then
          let (others, rest) ← membersUpTo close member more
          some (a :: others, rest)
        else none
      | d :: rest => if d = close then some ([a], rest) else none
      | [] => none
termination_by s.length

/-- A colon with the value after it. -/
def behindColon (value : Reader α) (s : List Char) : Option (α × List Char) := do
  let s ← skip s
  let s ← expect [':'] s
  let s ← skip s
  value s

def field (value : Reader Datum) : Reader (String × Datum) := fun s => do
  let (name, s) ← Lexeme.word s
  let (d, s) ← behindColon value s
  some ((name, d), s)

def entry (value : Reader Datum) : Reader (Datum × Datum) := fun s => do
  let (key, s) ← value s
  let (d, s) ← behindColon value s
  some ((key, d), s)

/-- A word with a colon behind it stands at the front, so these are the fields of a record. -/
def startsField (s : List Char) : Bool :=
  ((Lexeme.word s).bind fun (_, rest) => skip rest).any fun rest => rest.head? == some ':'

/-- What follows an opening parenthesis, and may have a name before it. -/
def parenthesized (member : Reader Datum) (name : Option String) : Reader Datum := fun s => do
  let s ← skip s
  if startsField s then
    let (fields, s) ← membersUpTo ')' (field member) s
    some (.record name fields, s)
  else
    let (items, s) ← membersUpTo ')' member s
    some (.tuple name items, s)

/-- A value in parentheses, with at most one comma behind it. A value without them will do if
`bare` says so. -/
def presentOf (bare : Bool) (held : Reader Datum) : Reader Datum := fun s => do
  match ← skip s with
  | '(' :: rest =>
    let s ← skip rest
    let (d, s) ← held s
    let s ← skip s
    match s with
    | ',' :: rest =>
      let rest ← skip rest
      let rest ← expect [')'] rest
      some (.present d, rest)
    | _ =>
      let rest ← expect [')'] s
      some (.present d, rest)
  | rest =>
    if bare then
      let (d, rest) ← held rest
      some (.present d, rest)
    else none

/-- The readers for what stands inside a value: what "Some" holds, and the members of brackets. -/
structure Inner where
  held : Reader Datum
  member : Reader Datum

/-- A word alone, or the name before a parenthesis. -/
def named (inner : Option Inner) : Reader Datum := fun s => do
  let (name, s) ← Lexeme.word s
  match ← skip s with
  | '(' :: rest =>
    let inner ← inner
    parenthesized inner.member name rest
  | rest => some (.word name, rest)

/-- A value that starts with a letter: a word with a meaning of its own, or any other. -/
def lettered (bare : Bool) (inner : Option Inner) : Reader Datum := fun s =>
  let (name, rest) := wordSpan s
  if name = "true".toList then some (.flag true, rest)
  else if name = "false".toList then some (.flag false, rest)
  else if name = "None".toList then some (.absent, rest)
  else if name = "Some".toList then inner.bind fun inner => presentOf bare inner.held rest
  else if name = "inf".toList || name = "NaN".toList then
    some (.number (String.ofList name), rest)
  else named inner s <|> (Lexeme.quoted s).map fun (s, rest) => (.text s, rest)

/-- One value, with the readers for the values inside it, unless they would be nested too deep.
A pair of parentheses with nothing between them counts as no brackets. -/
def valueWith (bare : Bool) (inner : Option Inner) : Reader Datum
  | [] => none
  | '(' :: ')' :: rest => some (.tuple none [], rest)
  | '(' :: rest => inner.bind fun inner => parenthesized inner.member none rest
  | '[' :: rest => do
    let inner ← inner
    let s ← skip rest
    let (items, s) ← membersUpTo ']' inner.member s
    some (.list items, s)
  | '\x7b' :: rest => do
    let inner ← inner
    let s ← skip rest
    let (entries, s) ← membersUpTo '\x7d' (entry inner.member) s
    some (.table entries, s)
  | c :: rest =>
    if c = '"' then (Lexeme.quoted (c :: rest)).map fun (s, rest) => (.text s, rest)
    else if c = '\'' then (Lexeme.letter (c :: rest)).map fun (c, rest) => (.letter c, rest)
    else if c.isDigit || c == '+' || c == '-' || c == '.' then
      (Lexeme.number (c :: rest)).map fun (s, rest) => (.number s, rest)
    else lettered bare inner (c :: rest)

/-- A value in which others are nested at most `depth` levels deep. Brackets take one level and
every member in them one more; "Some" takes one. -/
def value (bare : Bool) : Nat → Reader Datum
  | 0, s => valueWith bare none s
  | 1, s => valueWith bare (some ⟨value bare 0, fun _ => none⟩) s
  | depth + 2, s => valueWith bare (some ⟨value bare (depth + 1), value bare depth⟩) s

/-- Values may be nested 128 levels deep. -/
def maxDepth : Nat := 128

/-- The extension under which "Some" needs no parentheses. -/
def bareSome : String := "implicit_some"

/-- Extensions that a text may announce; the others bear on no value that settings take. -/
def extensions : List String := ["unwrap_newtypes", bareSome, "unwrap_variant_newtypes"]

/-- The extensions that one announcement lists, the first without a comma before it. -/
def listed : Nat → Reader (List String)
  | 0, _ => none
  | bound + 1, s => do
    let (name, s) ← Lexeme.word s
    let s ← skip s
    if name ∈ extensions then
      match s with
      | ',' :: rest =>
        let rest ← skip rest
        if rest.head?.any isWordChar then
          let (names, rest) ← listed bound rest
          some (name :: names, rest)
        else some ([name], rest)
      | _ => some ([name], s)
    else none

/-- All extensions that are announced at the front. -/
def announced : Nat → Reader (List String)
  | 0, _ => none
  | bound + 1, s =>
    if s.head? == some '#' then do
      let s ← expectAll ["#", "!", "[", "enable", "("] s
      let (names, s) ← listed s.length s
      let s ← expectAll [")", "]"] s
      let (others, s) ← announced bound s
      some (names ++ others, s)
    else some ([], s)

/-- A text that holds one value and nothing else. -/
def ofText? (text : String) : Option Datum := do
  let s ← skip text.toList
  let (names, s) ← announced (s.length + 1) s
  let (d, s) ← value (bareSome ∈ names) maxDepth s
  let s ← skip s
  if s.isEmpty then some d else none

end TradeChat.Datum
