import TradeChat.Text.Parts

namespace TradeChat.Text

/-- A member of a written list: a phrase, or a list that is written in its place. -/
inductive Member where
  | phrase (text : String)
  | list (members : List Member)

/-- What stands behind the member at `place` in a list of `size` members. Two members have the word
alone between them; a longer list has commas, and the word before its last member. -/
def separator (word : String) (size place : Nat) : String :=
  if size = 2 ∧ place = 0 then " " ++ word ++ " "
  else if place + 2 < size then ", "
  else if place + 2 = size then ", " ++ word ++ " "
  else ""

mutual

/-- Writes one member behind the text `out`; `inner` gives the words of the lists inside it by
depth, and "and" serves once they run out. -/
def Member.writeOn (out : String) (inner : List String) : Member → String
  | .phrase text => out ++ trimmed text
  | .list members => writeFrom out (inner.headD "and") inner.tail members.length 0 members

/-- Writes the members of a list of `size` behind the text `out`, from the one at `place` on. -/
def writeFrom (out word : String) (inner : List String) (size place : Nat) :
    List Member → String
  | [] => out
  | m :: rest =>
    writeFrom (m.writeOn out inner ++ separator word size place) word inner size (place + 1) rest

end

/-- Writes a list behind a text that is there already. -/
def appendList (out word : String) (inner : List String) (members : List Member) : String :=
  writeFrom out word inner members.length 0 members

def commaList (word : String) (inner : List String) (members : List Member) : String :=
  appendList "" word inner members

/-- Groups as a list of lists of phrases. -/
def members (groups : List (List String)) : List Member :=
  groups.map fun group => .list (group.map .phrase)

/-- Groups are alternatives, the texts of one group belong together. -/
def alternatives (groups : List (List String)) : String :=
  commaList "or" ["and"] (members groups)

/-- Trimmed texts with a fixed mark between them. -/
def delimited (mark : String) (texts : List String) : String :=
  mark.intercalate (texts.map trimmed)

/-- A rule of thumb: "y" gives "ies", "s" gives "ses", all else takes an "s". -/
def plural (word : String) : String :=
  match word.toList.getLast? with
  | none => ""
  | some c =>
    if c.toLower = 'y' then String.ofList word.toList.dropLast ++ "ies"
    else if c.toLower = 's' then word ++ "es"
    else word ++ "s"

end TradeChat.Text
