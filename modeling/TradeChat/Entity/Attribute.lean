import TradeChat.Text.Parts
import TradeChat.Token
import TradeChat.Tree

namespace TradeChat

/-- Negation and connective of the token that an entity comes from. -/
structure Marks where
  negated : Bool := false
  logic : Option Connective := none
deriving DecidableEq, Repr

def Token.marks (t : Token) : Marks := ⟨t.negated, t.logic⟩

/-- A number attribute whose value is not a number. -/
structure NumberFault where
  field : String
  value : String
deriving DecidableEq, Repr

def NumberFault.message (f : NumberFault) : String :=
  "Could not parse \"" ++ f.value ++ "\" as an integer for " ++ f.field ++ "."

namespace Token

def valueText (t : Token) : String := t.value.getD ""

def number? (t : Token) : Option Int32 := Text.integer? t.valueText

def numberFaults (field : String) (t : Token) : List NumberFault :=
  if t.number?.isSome then [] else [⟨field, t.valueText⟩]

end Token

namespace Tree

/-- The tokens right below the root. -/
def attributes (t : Tree Token) : List Token := t.children.map value

def attributesNamed (t : Tree Token) (name : String) : List Token :=
  t.attributes.filter (·.isType name)

/-- The values of all attributes of a type. -/
def texts (t : Tree Token) (name : String) : List String :=
  (t.attributesNamed name).filterMap Token.value

/-- The value of the last attribute of a type; one without a value reads as the empty text. -/
def lastText (t : Tree Token) (name : String) : String :=
  ((t.attributesNamed name).getLast?.bind Token.value).getD ""

/-- The last number among the attributes of a type. -/
def lastNumber? (t : Tree Token) (name : String) : Option Int32 :=
  ((t.attributesNamed name).filterMap Token.number?).getLast?

/-- The trees below the root whose token has a type, in pre-order. -/
def descendantsNamed (t : Tree Token) (name : String) : List (Tree Token) :=
  t.descendants.filter (·.value.isType name)

end Tree

end TradeChat
