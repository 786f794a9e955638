import TradeChat.Event
import TradeChat.Grouping

namespace TradeChat

/-- One event with its entities in groups. -/
structure Sentence where
  kind : EventKind
  rules : Rules
  subjects : Groups Entity := []
  objects : Groups Entity := []
  contacts : Groups String := []
  dungeons : Groups Dungeon := []
  diagnostics : List NumberFault := []
deriving DecidableEq, Repr

namespace Sentence

def groups (s : Sentence) : Role → Groups Entity
  | .subject => s.subjects
  | .object => s.objects

def setGroups (s : Sentence) (groups : Groups Entity) : Role → Sentence
  | .subject => { s with subjects := groups }
  | .object => { s with objects := groups }

/-- The entities right below a clause; a negated clause negates them all. -/
def entities (negated : Bool) (clause : Tree Token) : List Entity :=
  (clause.children.filterMap Entity.ofTree?).map fun e => if negated then e.negate else e

/-- Every entity is read for its connective, and placed if its kind is allowed. -/
def entitySteps (rules : Rules) (role : Role) (e : Entity) : List (Step Entity) :=
  .join e.logic :: if rules.allows role e.kind then [.place e] else []

def clauseSteps (rules : Rules) (role : Role) (negated : Bool) (clause : Tree Token) :
    List (Step Entity) :=
  (entities negated clause).flatMap (entitySteps rules role)

/-- A role clause joins what came before by its own connective. -/
def roleSteps (rules : Rules) (role : Role) (root : Tree Token) : List (Step Entity) :=
  (root.descendantsNamed role.typeName).flatMap fun clause =>
    .join clause.value.logic :: clauseSteps rules role clause.value.negated clause

def clauseFaults (clause : Tree Token) : List NumberFault := clause.children.flatMap Entity.faults

/-- Reads all entities in the clauses of a role below the root. -/
def readRole (s : Sentence) (role : Role) (root : Tree Token) : Sentence :=
  let filled := Grouping.run ⟨{}, s.groups role⟩ (roleSteps s.rules role root)
  { s.setGroups filled.groups role with
    diagnostics := s.diagnostics ++ (root.descendantsNamed role.typeName).flatMap clauseFaults }

/-- Reads the entities right below the root as objects, from the last group on. -/
def readBareObjects (s : Sentence) (root : Tree Token) : Sentence :=
  let filled := Grouping.run ⟨.atLast s.objects, s.objects⟩ (clauseSteps s.rules .object false root)
  { s with objects := filled.groups, diagnostics := s.diagnostics ++ clauseFaults root }

/-- Ways of contact; one without a value counts for its connective alone. -/
def contactSteps (root : Tree Token) : List (Step String) :=
  (root.attributesNamed "contactmethod").flatMap fun t =>
    .join t.logic :: (t.value.map Step.place).toList

def dungeonSteps (root : Tree Token) : List (Step Dungeon) :=
  (root.children.filter (·.value.isType EntityKind.dungeon.typeName)).flatMap fun t =>
    [.join t.value.logic, .place (Dungeon.ofTree t)]

/-- Trades name ways of contact, and a search for players names places to go. -/
def readSides (s : Sentence) (root : Tree Token) : Sentence :=
  match s.kind with
  | .buy | .sell => { s with contacts := Groups.ofSteps (contactSteps root) }
  | .findMore => { s with dungeons := Groups.ofSteps (dungeonSteps root) }
  | .findGroup => s

/-- The sentence of a tree, for an event and its rules. -/
def assemble (kind : EventKind) (rules : Rules) (root : Tree Token) : Sentence :=
  let s : Sentence := { kind, rules }
  (((s.readRole .object root).readBareObjects root).readRole .subject root).readSides root

/-- The sentence of a tree whose root names an event. -/
def ofTree? (whitelist : Whitelist) (root : Tree Token) : Option Sentence :=
  (EventKind.ofToken? root.value).map fun kind => assemble kind (whitelist.rules kind) root

/-- All subjects and objects are of kinds that the rules allow. -/
def rolesValid (s : Sentence) : Bool :=
  s.subjects.flatten.all (s.rules.allows .subject ·.kind)
    && s.objects.flatten.all (s.rules.allows .object ·.kind)

end Sentence

end TradeChat
