import TradeChat.Proofs.Forest.Nodes
import TradeChat.Proofs.Grouping.Boundaries
import TradeChat.Sentence.Basic

namespace TradeChat
open TradeChat.Tree

def Entity.withMarks (m : Marks) : Entity → Entity
  | .player p => .player { p with marks := m }
  | .item i => .item { i with marks := m }
  | .dungeon d => .dungeon { d with marks := m }

theorem Entity.kind_withMarks (m : Marks) (e : Entity) : (e.withMarks m).kind = e.kind := by
  cases e <;> rfl

theorem Entity.marks_withMarks (m : Marks) (e : Entity) : (e.withMarks m).marks = m := by
  cases e <;> rfl

/-- A token names an entity exactly if its tree reads as one. The entity starts with the marks of
the token. -/
theorem Entity.ofTree_some {t : Tree Token} {e : Entity} (h : Entity.ofTree? t = some e) :
    EntityKind.ofToken? t.value = some e.kind ∧ e.marks = t.value.marks := by
  obtain ⟨kind, hk, rfl⟩ := Option.map_eq_some_iff.mp h
  cases kind <;> exact ⟨hk, rfl⟩

theorem Entity.ofTree_none {t : Tree Token} (h : Entity.ofTree? t = none) :
    EntityKind.ofToken? t.value = none := Option.map_eq_none_iff.mp h

theorem Entity.negate_eq (e : Entity) (negated : Bool) :
    (if negated then e.negate else e) =
      e.withMarks ⟨e.marks.negated || negated, e.marks.logic⟩ := by
  cases e <;> cases negated <;> simp [Entity.negate, Entity.withMarks, Entity.marks]

theorem Sentence.entitySteps_mark (rules : Rules) (role : Role) (e : Entity) :
    entitySteps rules role e =
      Mark.steps ⟨e.logic, (some e).filter fun e => rules.allows role e.kind⟩ := by
  by_cases h : rules.allows role e.kind <;> simp [entitySteps, Mark.steps, Option.filter, h]

namespace Forest

/-- The kind of entity that a node's type names. -/
def kind? (f : Forest) (node : Nat) : Option EntityKind :=
  (f.token? node).bind EntityKind.ofToken?

def isNegated (f : Forest) (node : Nat) : Bool := (f.token? node).any Token.negated

def logic? (f : Forest) (node : Nat) : Option Connective := (f.token? node).bind Token.logic

/-- The entity of a node, negated by its own token or by what it stands in, with the connective
of its own token. -/
def entity? (f : Forest) (negated : Bool) (node : Nat) : Option Entity :=
  (f.tree? node).bind fun t => (Entity.ofTree? t).map fun e =>
    e.withMarks ⟨t.value.negated || negated, t.value.logic⟩

/-- The numbers that could not be read for the entity of a node. -/
def faults (f : Forest) (node : Nat) : List NumberFault :=
  ((f.tree? node).map Entity.faults).getD []

/-- The children of a node that name an entity. -/
def entityNodes (f : Forest) (node : Nat) : List Nat :=
  (f.children node).filter fun n => (f.kind? n).isSome

end Forest

/-- One thing that is met while a root is read: a role clause, an entity inside it, or an entity
right below the root. -/
inductive Reading where
  | clause (node : Nat)
  | inner (clause node : Nat)
  | bare (node : Nat)
deriving DecidableEq, Repr

namespace Reading

def node : Reading → Nat
  | clause n => n
  | inner _ n => n
  | bare n => n

def entity? (f : Forest) : Reading → Option Entity
  | clause _ => none
  | inner c n => f.entity? (f.isNegated c) n
  | bare n => f.entity? false n

/-- Clauses and entities bring their connective, and an entity itself if its kind is allowed. -/
def mark (f : Forest) (rules : Rules) (role : Role) (r : Reading) : Mark Entity where
  logic := f.logic? r.node
  member := (r.entity? f).filter fun e => rules.allows role e.kind

end Reading

namespace Forest

/-- The clauses of a role below a root in pre-order, each with the entities among its children. -/
def clauseReadings (f : Forest) (role : Role) (root : Nat) : List Reading :=
  (f.findAll root role.typeName).flatMap fun c =>
    .clause c :: (f.entityNodes c).map (.inner c)

/-- The entities right below a root. -/
def bareReadings (f : Forest) (root : Nat) : List Reading := (f.entityNodes root).map .bare

def roleMarks (f : Forest) (rules : Rules) (role : Role) (root : Nat) : List (Mark Entity) :=
  (f.clauseReadings role root).map (Reading.mark f rules role)

def bareMarks (f : Forest) (rules : Rules) (root : Nat) : List (Mark Entity) :=
  (f.bareReadings root).map (Reading.mark f rules .object)

/-- Ways of contact right below a root; one without a value brings its connective alone. -/
def contactMarks (f : Forest) (root : Nat) : List (Mark String) :=
  (f.findDirect root "contactmethod").map fun n =>
    ⟨f.logic? n, (f.token? n).bind Token.value⟩

def dungeonMarks (f : Forest) (root : Nat) : List (Mark Dungeon) :=
  (f.findDirect root "instance").map fun n => ⟨f.logic? n, (f.tree? n).map Dungeon.ofTree⟩

variable {f : Forest} {n : Nat} {t : Tree Token}

theorem logic_of_tree (h : f.tree? n = some t) : f.logic? n = t.value.logic := by
  rw [logic?, tree_value h, Option.bind_some]

theorem kind_of_tree (h : f.tree? n = some t) : f.kind? n = EntityKind.ofToken? t.value := by
  rw [kind?, tree_value h, Option.bind_some]

theorem entity_of_kind {kind : EntityKind} (h : f.kind? n = some kind) (negated : Bool) :
    ∃ e, f.entity? negated n = some e ∧ e.kind = kind := by
  cases ht : f.tree? n with
  | none => simp [kind?, token_of_no_tree ht] at h
  | some t =>
    rw [kind_of_tree ht] at h
    cases he : Entity.ofTree? t with
    | none => simp [Entity.ofTree_none he] at h
    | some e =>
      have hkind := (Entity.ofTree_some he).1
      rw [h, Option.some.injEq] at hkind
      exact ⟨_, by rw [entity?, ht, Option.bind_some, he, Option.map_some],
        by rw [Entity.kind_withMarks, hkind]⟩

/-- Reading the trees of some nodes for entities is reading the nodes that name one. -/
theorem entitySteps_nodes (rules : Rules) (role : Role) (negated : Bool) (ns : List Nat)
    (reading : Nat → Reading) (hnode : ∀ n, (reading n).node = n)
    (hentity : ∀ n, (reading n).entity? f = f.entity? negated n) :
    (((ns.filterMap f.tree?).filterMap Entity.ofTree?).map fun e =>
        if negated then e.negate else e).flatMap (Sentence.entitySteps rules role) =
      (((ns.filter fun n => (f.kind? n).isSome).map reading).map
        (Reading.mark f rules role)).flatMap Mark.steps := by
  induction ns with
  | nil => rfl
  | cons n rest ih =>
    cases ht : f.tree? n with
    | none =>
      have hk : f.kind? n = none := by simp [kind?, token_of_no_tree ht]
      simpa only [List.filterMap_cons_none ht, List.filter_cons, hk, Option.isSome_none,
        Bool.false_eq_true, ↓reduceIte] using ih
    | some t =>
      rw [List.filterMap_cons_some ht]
      cases he : Entity.ofTree? t with
      | none =>
        have hk : f.kind? n = none := by rw [kind_of_tree ht, Entity.ofTree_none he]
        simpa only [List.filterMap_cons_none he, List.filter_cons, hk, Option.isSome_none,
          Bool.false_eq_true, ↓reduceIte] using ih
      | some e =>
        obtain ⟨hkind, hmarks⟩ := Entity.ofTree_some he
        have hk : f.kind? n = some e.kind := by rw [kind_of_tree ht, hkind]
        have hsteps : Sentence.entitySteps rules role (if negated then e.negate else e) =
            ((reading n).mark f rules role).steps := by
          have hread : f.entity? negated n = some (if negated then e.negate else e) := by
            rw [entity?, ht, Option.bind_some, he, Option.map_some, Entity.negate_eq, hmarks]
            rfl
          have hlogic : (if negated then e.negate else e).logic = f.logic? n := by
            rw [Entity.negate_eq, Entity.logic, Entity.marks_withMarks, hmarks, logic_of_tree ht]
            rfl
          rw [Sentence.entitySteps_mark, hlogic, Reading.mark, hnode, hentity, hread]
        simp only [List.filterMap_cons_some he, List.filter_cons, hk, Option.isSome_some,
          ↓reduceIte, List.map_cons, List.flatMap_cons, hsteps, ih]

theorem clauseSteps_inner (h : f.tree? n = some t) (rules : Rules) (role : Role) :
    Sentence.clauseSteps rules role t.value.negated t =
      (((f.entityNodes n).map (.inner n)).map (Reading.mark f rules role)).flatMap Mark.steps := by
  have hneg : f.isNegated n = t.value.negated := by simp [isNegated, tree_value h]
  rw [Sentence.clauseSteps, Sentence.entities, tree_children h]
  exact entitySteps_nodes rules role t.value.negated (f.children n) (.inner n) (fun _ => rfl)
    fun m => by rw [Reading.entity?, hneg]

theorem clauseSteps_bare (h : f.tree? n = some t) (rules : Rules) :
    Sentence.clauseSteps rules .object false t = (f.bareMarks rules n).flatMap Mark.steps := by
  rw [Sentence.clauseSteps, Sentence.entities, tree_children h]
  exact entitySteps_nodes rules .object false (f.children n) .bare (fun _ => rfl) fun _ => rfl

/-- The tree at a found clause reads as the clause with what stands in it. -/
theorem roleSteps_marks (h : f.tree? n = some t) (rules : Rules) (role : Role) :
    Sentence.roleSteps rules role t = (f.roleMarks rules role n).flatMap Mark.steps := by
  rw [Sentence.roleSteps, tree_descendantsNamed h, roleMarks, clauseReadings, List.map_flatMap,
    List.flatMap_assoc]
  refine flatMap_trees (fun c hc => findAll_tree hc) fun c s hs => ?_
  rw [clauseSteps_inner hs, ← logic_of_tree hs, List.map_cons, List.flatMap_cons]
  rfl

theorem contactSteps_marks (h : f.tree? n = some t) :
    Sentence.contactSteps t = (f.contactMarks n).flatMap Mark.steps := by
  have hnamed : t.attributesNamed "contactmethod" =
      ((f.findDirect n "contactmethod").filterMap f.tree?).map Tree.value := by
    rw [← tree_findDirect h, attributesNamed, attributes, List.filter_map]
    rfl
  rw [Sentence.contactSteps, hnamed, contactMarks, List.flatMap_map, List.flatMap_map]
  refine flatMap_trees (fun c hc => findDirect_tree hc) fun c s hs => ?_
  rw [logic_of_tree hs, tree_value hs]
  rfl

theorem dungeonSteps_marks (h : f.tree? n = some t) :
    Sentence.dungeonSteps t = (f.dungeonMarks n).flatMap Mark.steps := by
  rw [Sentence.dungeonSteps, EntityKind.typeName, tree_findDirect h, dungeonMarks,
    List.flatMap_map]
  refine flatMap_trees (fun c hc => findDirect_tree hc) fun c s hs => ?_
  rw [logic_of_tree hs, hs]
  rfl

theorem clauseFaults_children (h : f.tree? n = some t) :
    Sentence.clauseFaults t = (f.children n).flatMap f.faults := by
  rw [Sentence.clauseFaults, tree_children h]
  refine flatMap_trees (fun c hc => child_tree hc) fun c s hs => ?_
  rw [faults, hs]
  rfl

theorem roleFaults_children (h : f.tree? n = some t) (role : Role) :
    (t.descendantsNamed role.typeName).flatMap Sentence.clauseFaults =
      (f.findAll n role.typeName).flatMap fun c => (f.children c).flatMap f.faults := by
  rw [tree_descendantsNamed h]
  exact flatMap_trees (fun c hc => findAll_tree hc) fun c s hs => clauseFaults_children hs

end Forest

end TradeChat
