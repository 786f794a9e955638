import TradeChat.Entity.Item
import TradeChat.Entity.Player

namespace TradeChat

/-- A dungeon, a raid or another place that a group is formed for. -/
structure Dungeon where
  name : String := ""
  mode : String := ""
  difficulty : String := ""
  marks : Marks := {}
deriving DecidableEq, Repr

namespace Dungeon

def ofTree (t : Tree Token) : Dungeon where
  name := t.lastText "name"
  mode := t.lastText "mode"
  difficulty := t.lastText "difficulty"
  marks := t.value.marks

def isComplete (d : Dungeon) : Bool := d.name != ""

def text (d : Dungeon) : String :=
  if d.isComplete then
    Text.trimmed (" ".intercalate ([d.difficulty, d.mode, d.name].filter (· != "")))
  else "< Error Incomplete Instance Encountered >"

end Dungeon

inductive EntityKind where
  | player
  | item
  | dungeon
deriving DecidableEq, Repr

namespace EntityKind

def all : List EntityKind := [player, item, dungeon]

/-- The name that a token's type is compared with. -/
def typeName : EntityKind → String
  | player => "player"
  | item => "item"
  | dungeon => "instance"

/-- The name of the kind in settings and answers. -/
def name : EntityKind → String
  | player => "Player"
  | item => "Item"
  | dungeon => "Instance"

/-- The kind that a token names. -/
def ofToken? (t : Token) : Option EntityKind := all.find? fun kind => t.isType kind.typeName

end EntityKind

inductive Entity where
  | player (p : Player)
  | item (i : Item)
  | dungeon (d : Dungeon)
deriving DecidableEq, Repr

namespace Entity

def kind : Entity → EntityKind
  | player _ => .player
  | item _ => .item
  | dungeon _ => .dungeon

def marks : Entity → Marks
  | player p => p.marks
  | item i => i.marks
  | dungeon d => d.marks

def logic (e : Entity) : Option Connective := e.marks.logic

def isComplete : Entity → Bool
  | player p => p.isComplete
  | item i => i.isComplete
  | dungeon d => d.isComplete

def text : Entity → String
  | player p => p.text
  | item i => i.text
  | dungeon d => d.text

def negate : Entity → Entity
  | player p => player { p with marks := { p.marks with negated := true } }
  | item i => item { i with marks := { i.marks with negated := true } }
  | dungeon d => dungeon { d with marks := { d.marks with negated := true } }

/-- Players count by their number, all else not at all. -/
def headcount : Entity → Int64
  | player p => p.quantity.toInt64
  | _ => 0

/-- The entity at the root of a tree, if its token names one. -/
def ofTree? (t : Tree Token) : Option Entity :=
  (EntityKind.ofToken? t.value).map fun
    | .player => player (Player.ofTree t)
    | .item => item (Item.ofTree t)
    | .dungeon => dungeon (Dungeon.ofTree t)

/-- The numbers that could not be read for the entity at the root of a tree. -/
def faults (t : Tree Token) : List NumberFault :=
  match EntityKind.ofToken? t.value with
  | some .player => Player.faults t
  | some .item => Item.faults t
  | _ => []

end Entity

end TradeChat
