import TradeChat.Text.Casing

namespace TradeChat

/-- How a token joins the sibling before it. -/
inductive Connective where
  | and
  | or
deriving DecidableEq, Repr

def Connective.text : Connective → String
  | and => "AND"
  | or => "OR"

/-- A token declares an id for others to hang from, or carries a value; one that is read from a
line does exactly one of the two. -/
structure Token where
  type : String
  id : Option String := none
  parent : Option String := none
  value : Option String := none
  logic : Option Connective := none
  negated : Bool := false
deriving DecidableEq, Repr, Inhabited

namespace Token

/-- Types are compared without regard to ASCII case. -/
def isType (t : Token) (name : String) : Bool := Text.fold t.type == Text.fold name

def isRoot (t : Token) : Bool := t.parent.isNone

def isOr (t : Token) : Bool := t.logic == some .or

/-- One line that shows every field, absent ones as "null". -/
def text (t : Token) : String :=
  "\x7b Type: " ++ t.type
    ++ ", ID: " ++ t.id.getD "null"
    ++ ", Parent: " ++ t.parent.getD "null"
    ++ ", Value: " ++ t.value.getD "null"
    ++ ", Logic Operation: " ++ (t.logic.map Connective.text).getD "null"
    ++ ", Negated: " ++ (if t.negated then "true" else "false") ++ " \x7d"

end Token

end TradeChat
