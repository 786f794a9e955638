import TradeChat.Entity

namespace TradeChat

inductive EventKind where
  | buy
  | sell
  | findGroup
  | findMore
deriving DecidableEq, Repr

namespace EventKind

def all : List EventKind := [buy, sell, findGroup, findMore]

/-- The name that a token's type is compared with. -/
def typeName : EventKind → String
  | buy => "buy"
  | sell => "sell"
  | findGroup => "findgroup"
  | findMore => "findmore"

/-- The name of the event in settings and answers. -/
def name : EventKind → String
  | buy => "Buy"
  | sell => "Sell"
  | findGroup => "FindGroup"
  | findMore => "FindMore"

def sentenceName (kind : EventKind) : String := kind.name ++ "Sentence"

/-- The event that a token names. -/
def ofToken? (t : Token) : Option EventKind := all.find? fun kind => t.isType kind.typeName

end EventKind

inductive Role where
  | subject
  | object
deriving DecidableEq, Repr

def Role.typeName : Role → String
  | subject => "subject"
  | object => "object"

/-- The kinds of entities that an event takes in its roles. -/
structure Rules where
  subjects : List EntityKind := []
  objects : List EntityKind := []
deriving DecidableEq, Repr

namespace Rules

def kinds (rules : Rules) : Role → List EntityKind
  | .subject => rules.subjects
  | .object => rules.objects

def allows (rules : Rules) (role : Role) (kind : EntityKind) : Bool := kind ∈ rules.kinds role

end Rules

/-- The rules of each event; an event may have none. -/
structure Whitelist where
  rules? : EventKind → Option Rules

namespace Whitelist

def empty : Whitelist := ⟨fun _ => none⟩

/-- Trades take items from players, groups are looked for by players, and players are looked for
without saying by whom. -/
def standard : Whitelist where
  rules?
    | .buy => some ⟨[.player], [.item]⟩
    | .sell => some ⟨[.player], [.item]⟩
    | .findGroup => some ⟨[.player], [.dungeon]⟩
    | .findMore => some ⟨[], [.player]⟩

/-- An event that is not listed takes nothing. -/
def rules (w : Whitelist) (kind : EventKind) : Rules := (w.rules? kind).getD {}

def set (w : Whitelist) (kind : EventKind) (rules : Rules) : Whitelist :=
  ⟨fun k => if k = kind then some rules else w.rules? k⟩

/-- Entries that replace those of the same event; of two for one event the later wins. -/
def merge (w : Whitelist) (entries : List (EventKind × Rules)) : Whitelist :=
  entries.foldl (fun w (kind, rules) => w.set kind rules) w

end Whitelist

end TradeChat
