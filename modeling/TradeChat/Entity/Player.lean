import TradeChat.Entity.Attribute
import TradeChat.Text.Series

namespace TradeChat

/-- One character, or a number of them. -/
structure Player where
  classes : List String := []
  specializations : List String := []
  race : String := ""
  role : String := ""
  level : Option Int32 := none
  itemLevel : Option Int32 := none
  quantity : Int32 := 1
  marks : Marks := {}
deriving DecidableEq, Repr

namespace Player

def ofTree (t : Tree Token) : Player where
  classes := t.texts "class"
  specializations := t.texts "specialization"
  race := t.lastText "race"
  role := t.lastText "role"
  level := t.lastNumber? "level"
  itemLevel := t.lastNumber? "itemlevel"
  quantity := (t.lastNumber? "quantity").getD 1
  marks := t.value.marks

def attributeFaults (t : Token) : List NumberFault :=
  if t.isType "level" then t.numberFaults "level"
  else if t.isType "itemlevel" then t.numberFaults "item level"
  else if t.isType "quantity" then t.numberFaults "quantity"
  else []

def faults (t : Tree Token) : List NumberFault := t.attributes.flatMap attributeFaults

/-- A player is known by a class or a role. -/
def isComplete (p : Player) : Bool := !p.classes.isEmpty || p.role != ""

/-- Levels below zero are not shown. -/
def levelText (p : Player) : String :=
  match p.level.filter (· > -1), p.itemLevel.filter (· > -1) with
  | some l, some i =>
    "Level " ++ toString l.toInt ++ " / Item Level " ++ toString i.toInt ++ " "
  | some l, none => "Level " ++ toString l.toInt ++ " "
  | none, some i => "Item Level " ++ toString i.toInt ++ " "
  | none, none => ""

/-- A single name takes the plural if there are several players. -/
def nameText (p : Player) : String :=
  match p.classes with
  | [] => if p.quantity > 1 then Text.plural p.role else p.role
  | [c] => if p.quantity > 1 then Text.plural c else Text.delimited " / " [c]
  | classes => Text.delimited " / " classes

/-- Race and specializations belong to a class, and are left out without one. -/
def originText (p : Player) : String :=
  if p.classes.isEmpty then ""
  else
    (if p.race = "" then "" else p.race ++ " ")
      ++ if p.specializations.isEmpty then "" else Text.delimited " / " p.specializations ++ " "

def text (p : Player) : String :=
  if p.isComplete then
    Text.trimmed ((if p.quantity > 1 then toString p.quantity.toInt ++ " " else "")
      ++ p.levelText ++ p.originText ++ p.nameText)
  else "< Error: Incomplete player encountered >"

end Player

end TradeChat
