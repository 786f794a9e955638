import TradeChat.Token
import TradeChat.Tree

namespace TradeChat

/-- A node as it is stored: its token, and the number of its parent unless it is a root. -/
structure Entry where
  token : Token
  parent : Option Nat := none
deriving DecidableEq, Repr

/-- No node hangs from itself or from a later one; `start` is the number of the first entry. -/
def Rising : Nat → List Entry → Prop
  | _, [] => True
  | start, e :: rest => (∀ p ∈ e.parent, p < start) ∧ Rising (start + 1) rest

theorem Rising.append {start : Nat} {entries more : List Entry} (h : Rising start entries)
    (hmore : Rising (start + entries.length) more) : Rising start (entries ++ more) := by
  induction entries generalizing start with
  | nil => exact hmore
  | cons e rest ih =>
    refine ⟨h.1, ih h.2 ?_⟩
    rwa [Nat.add_assoc, Nat.add_comm 1]

structure Forest where
  entries : List Entry := []
  rising : Rising 0 entries := by trivial

namespace Forest

def empty : Forest := {}

def size (f : Forest) : Nat := f.entries.length

def addRoot (f : Forest) (token : Token) : Forest where
  entries := f.entries ++ [⟨token, none⟩]
  rising := f.rising.append ⟨nofun, trivial⟩

/-- The new node becomes the last child of `parent`. -/
def addChild (f : Forest) (parent : Fin f.size) (token : Token) : Forest where
  entries := f.entries ++ [⟨token, some parent⟩]
  rising := f.rising.append ⟨by
    intro p hp
    cases hp
    simpa [size] using parent.isLt, trivial⟩

def token? (f : Forest) (node : Nat) : Option Token := f.entries[node]?.map Entry.token

def parent? (f : Forest) (node : Nat) : Option Nat := f.entries[node]?.bind Entry.parent

/-- The numbers of the entries with this parent, the first entry having the number `start`. -/
def hanging (parent : Option Nat) : Nat → List Entry → List Nat
  | _, [] => []
  | start, e :: rest =>
    if e.parent = parent then start :: hanging parent (start + 1) rest
    else hanging parent (start + 1) rest

def roots (f : Forest) : List Nat := hanging none 0 f.entries

def children (f : Forest) (node : Nat) : List Nat := hanging (some node) 0 f.entries

/-- For each entry its parent and the tree below it, with the numbers of the nodes. The trees of
the later entries are at hand when an entry collects its children. -/
def places : Nat → List Entry → List (Option Nat × Tree (Nat × Token))
  | _, [] => []
  | start, e :: rest =>
    let later := places (start + 1) rest
    let children := (later.filter (·.1 = some start)).map (·.2)
    (e.parent, .node (start, e.token) children) :: later

/-- The tree at a node, with node numbers and tokens. -/
def place? (f : Forest) (node : Nat) : Option (Tree (Nat × Token)) :=
  (places 0 f.entries)[node]?.map (·.2)

/-- The tree of tokens at a node. -/
def tree? (f : Forest) (node : Nat) : Option (Tree Token) := (f.place? node).map (·.map (·.2))

/-- The tokens of each tree, in the order of the roots. -/
def trees (f : Forest) : List (Tree Token) := f.roots.filterMap f.tree?

/-- The children of a node that have a type. -/
def findDirect (f : Forest) (node : Nat) (name : String) : List Nat :=
  (f.children node).filter fun n => (f.token? n).any (·.isType name)

/-- The nodes below a node that have a type, in pre-order. -/
def findAll (f : Forest) (node : Nat) (name : String) : List Nat :=
  match f.place? node with
  | none => []
  | some t => ((t.descendants.map Tree.value).filter (·.2.isType name)).map (·.1)

mutual

/-- The entries of a tree in pre-order, the root having the number `start`. -/
def entriesOf (parent : Option Nat) (start : Nat) : Tree Token → List Entry
  | .node token ts => ⟨token, parent⟩ :: entriesOfList (some start) (start + 1) ts

def entriesOfList (parent : Option Nat) (start : Nat) : List (Tree Token) → List Entry
  | [] => []
  | t :: rest => entriesOf parent start t ++ entriesOfList parent (start + t.size) rest

end

mutual

theorem length_entriesOf (parent : Option Nat) (start : Nat) :
    (t : Tree Token) → (entriesOf parent start t).length = t.size
  | .node _ ts => by simp [entriesOf, Tree.size, length_entriesOfList]

theorem length_entriesOfList (parent : Option Nat) (start : Nat) :
    (ts : List (Tree Token)) → (entriesOfList parent start ts).length = Tree.sizeOfList ts
  | [] => rfl
  | t :: rest => by
    simp [entriesOfList, Tree.sizeOfList, length_entriesOf, length_entriesOfList]

end

mutual

theorem rising_entriesOf (parent : Option Nat) (start : Nat) (h : ∀ p ∈ parent, p < start) :
    (t : Tree Token) → Rising start (entriesOf parent start t)
  | .node _ ts => ⟨h, rising_entriesOfList (some start) (start + 1) (by simp) ts⟩

theorem rising_entriesOfList (parent : Option Nat) (start : Nat) (h : ∀ p ∈ parent, p < start) :
    (ts : List (Tree Token)) → Rising start (entriesOfList parent start ts)
  | [] => trivial
  | t :: rest => by
    refine (rising_entriesOf parent start h t).append ?_
    rw [length_entriesOf]
    exact rising_entriesOfList parent (start + t.size)
      (fun p hp => Nat.lt_of_lt_of_le (h p hp) (Nat.le_add_right ..)) rest

end

/-- Trees as a forest, numbered in pre-order and tree by tree. -/
def ofTrees (ts : List (Tree Token)) : Forest where
  entries := entriesOfList none 0 ts
  rising := rising_entriesOfList none 0 nofun ts

end Forest

end TradeChat
