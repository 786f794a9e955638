import TradeChat.Generation

namespace TradeChat.Text.Quoted

def hexDigit (n : Nat) : Char :=
  if n < 10 then Char.ofNat (n + '0'.toNat) else Char.ofNat (n - 10 + 'a'.toNat)

/-- Five control characters have a letter of their own, the others their number. -/
def escape (c : Char) : List Char :=
  if c = '"' then ['\\', '"']
  else if c = '\\' then ['\\', '\\']
  else if c = '\x08' then ['\\', 'b']
  else if c = '\t' then ['\\', 't']
  else if c = '\n' then ['\\', 'n']
  else if c = '\x0c' then ['\\', 'f']
  else if c = '\r' then ['\\', 'r']
  else if c.toNat < 0x20 then
    ['\\', 'u', '0', '0', hexDigit (c.toNat / 16), hexDigit (c.toNat % 16)]
  else [c]

def encode (s : String) : String :=
  "\"" ++ String.ofList (s.toList.flatMap escape) ++ "\""

/-- A JSON array of values that are written already. -/
def array (values : List String) : String := "[" ++ ",".intercalate values ++ "]"

/-- A JSON object of values that are written already, in the order given. -/
def object (fields : List (String × String)) : String :=
  "\x7b" ++ ",".intercalate (fields.map fun (name, value) => encode name ++ ":" ++ value) ++ "\x7d"

end TradeChat.Text.Quoted

namespace TradeChat.Demo

open Text.Quoted (encode array object)

def optional (text : Option String) : String := (text.map encode).getD "null"

def connectiveName : Connective → String
  | .and => "And"
  | .or => "Or"

def tokenJson (t : Token) : String :=
  object [
    ("type", encode t.type),
    ("id", optional t.id),
    ("parent", optional t.parent),
    ("value", optional t.value),
    ("logic", optional (t.logic.map connectiveName)),
    ("negated", if t.negated then "true" else "false")]

def eventNames : String := array (EventKind.all.map fun kind => encode kind.name)

/-- The sentences of a line, and what could not be read in them. -/
def sentences (settings : Settings) (line : String) : Except Notation.SyntaxError String :=
  (generate settings line).map fun g =>
    object [
      ("sentences", array (g.texts.map encode)),
      ("diagnostics", array (g.diagnostics.map fun d => encode d.message))]

def tree (settings : Settings) (line : String) : Except Notation.SyntaxError String :=
  (generate settings line).map Generation.treeDump

def tokens (line : String) : Except Notation.SyntaxError String :=
  (Notation.parse line).map fun ts => array (ts.map tokenJson)

end TradeChat.Demo
