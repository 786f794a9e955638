import TradeChat.Token

namespace TradeChat

/-- Groups are alternatives; the members of one group belong together. -/
abbrev Groups (α : Type) := List (List α)

/-- The number of the group for the next member; it may lie past the last group. -/
structure Cursor where
  index : Nat := 0
deriving DecidableEq, Repr

namespace Cursor

variable {α : Type}

/-- On the last group, or on the first if there is none. -/
def atLast (groups : Groups α) : Cursor := ⟨groups.length - 1⟩

/-- The connective "or" moves on, unless there is an empty group here. -/
def advance (c : Cursor) (logic : Option Connective) (groups : Groups α) : Cursor :=
  match logic, groups[c.index]? with
  | some .or, some [] => c
  | some .or, _ => ⟨c.index + 1⟩
  | _, _ => c

/-- A cursor past the end opens one new group, wherever it stands. -/
def insert (c : Cursor) (groups : Groups α) (a : α) : Cursor × Groups α :=
  if c.index < groups.length then (c, groups.modify c.index (· ++ [a]))
  else (⟨groups.length⟩, groups ++ [[a]])

end Cursor

/-- Groups that are being filled. -/
structure Grouping (α : Type) where
  cursor : Cursor := {}
  groups : Groups α := []

/-- One thing that happens to a grouping: a connective is read, or a member is placed. -/
inductive Step (α : Type) where
  | join (logic : Option Connective)
  | place (a : α)

namespace Grouping

variable {α : Type}

def step (g : Grouping α) : Step α → Grouping α
  | .join logic => { g with cursor := g.cursor.advance logic g.groups }
  | .place a =>
    let (cursor, groups) := g.cursor.insert g.groups a
    ⟨cursor, groups⟩

def run (g : Grouping α) (steps : List (Step α)) : Grouping α := steps.foldl step g

end Grouping

/-- Groups from steps alone. -/
def Groups.ofSteps {α : Type} (steps : List (Step α)) : Groups α :=
  (Grouping.run {} steps).groups

end TradeChat
