import TradeChat.Decimal
import TradeChat.Entity.Attribute
import TradeChat.Text.Series

namespace TradeChat

structure Money where
  denomination : Option Int := none
  currency : String := ""
deriving DecidableEq, Repr

namespace Money

/-- Both parts are looked for anywhere below the amount; the last of each wins. -/
def ofTree (t : Tree Token) : Money where
  denomination :=
    ((t.descendantsNamed "denomination").filterMap (·.value.number?)).getLast?.map Int32.toInt
  currency := (((t.descendantsNamed "currency").filterMap (·.value.value)).getLast?).getD ""

def faults (t : Tree Token) : List NumberFault :=
  (t.descendantsNamed "denomination").flatMap (·.value.numberFaults "denomination")

def isComplete (m : Money) : Bool := m.denomination.isSome && m.currency != ""

/-- The amount alone. -/
def amountText (n : Int) : String :=
  if n > 1000 then Decimal.thousands n.toNat ++ "k" else toString n

def text (m : Money) : String :=
  match m.denomination with
  | some n =>
    if m.currency = "" then "< Error: Incomplete currency encountered >"
    else amountText n ++ " " ++ Text.lowercase m.currency
  | none => "< Error: Incomplete currency encountered >"

end Money

/-- An item is known by a name or, failing that, by a type. -/
structure Item where
  name : String := ""
  rarity : String := ""
  type : String := ""
  price : List Money := []
  level : Option Int32 := none
  quantity : Int32 := 1
  marks : Marks := {}
deriving DecidableEq, Repr

namespace Item

/-- The amounts of one attribute: all that stand below it, if it is a value. -/
def amounts (a : Tree Token) : List (Tree Token) :=
  if a.value.isType "value" then a.descendantsNamed "moneyamount" else []

/-- Amounts that are not complete do not count. -/
def ofTree (t : Tree Token) : Item where
  name := t.lastText "name"
  rarity := t.lastText "rarity"
  type := t.lastText "type"
  price := ((t.children.flatMap amounts).map Money.ofTree).filter Money.isComplete
  level := t.lastNumber? "level"
  quantity := (t.lastNumber? "quantity").getD 1
  marks := t.value.marks

def attributeFaults (a : Tree Token) : List NumberFault :=
  let t := a.value
  if t.isType "level" then t.numberFaults "level"
  else if t.isType "quantity" then t.numberFaults "quantity"
  else (amounts a).flatMap Money.faults

def faults (t : Tree Token) : List NumberFault := t.children.flatMap attributeFaults

/-- An item is known by its name or its type. -/
def isComplete (i : Item) : Bool := i.name != "" || i.type != ""

def priceText (i : Item) : String :=
  if i.price.isEmpty then ""
  else "for " ++ Text.commaList "and" [] (i.price.map fun m => .phrase m.text)

def counted (i : Item) (noun : String) : String :=
  if i.quantity > 1 then Text.plural noun else noun

/-- Rarity and level are shown only where there is no name. -/
def nounText (i : Item) : String :=
  if i.name ≠ "" then i.counted i.name
  else
    (if i.rarity = "" then "" else Text.lowercase i.rarity ++ " ")
      ++ (match i.level.filter (· > -1) with
        | some l => "Item Level " ++ toString l.toInt ++ " "
        | none => "")
      ++ i.counted (Text.lowercase i.type)

def text (i : Item) : String :=
  if i.isComplete then
    Text.trimmed ((if i.quantity > 0 then toString i.quantity.toInt ++ " " else "")
      ++ i.nounText ++ " " ++ i.priceText)
  else "< Error: Incomplete item encountered >"

end Item

end TradeChat
