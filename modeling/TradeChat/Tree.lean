namespace TradeChat

inductive Tree (α : Type) where
  | node (value : α) (children : List (Tree α))

namespace Tree

variable {α β : Type}

def value : Tree α → α
  | node a _ => a

def children : Tree α → List (Tree α)
  | node _ ts => ts

mutual

/-- A tree and all trees below it, each before those below it. -/
def subtrees : Tree α → List (Tree α)
  | node a ts => node a ts :: subtreesOf ts

def subtreesOf : List (Tree α) → List (Tree α)
  | [] => []
  | t :: rest => t.subtrees ++ subtreesOf rest

end

/-- The trees strictly below a tree, in pre-order. -/
def descendants (t : Tree α) : List (Tree α) := subtreesOf t.children

def values (t : Tree α) : List α := t.subtrees.map value

mutual

def map (f : α → β) : Tree α → Tree β
  | node a ts => node (f a) (mapList f ts)

def mapList (f : α → β) : List (Tree α) → List (Tree β)
  | [] => []
  | t :: rest => t.map f :: mapList f rest

end

mutual

/-- Every node in pre-order with its depth, that of the root being `depth`. -/
def levels (depth : Nat) : Tree α → List (Nat × α)
  | node a ts => (depth, a) :: levelsOf (depth + 1) ts

def levelsOf (depth : Nat) : List (Tree α) → List (Nat × α)
  | [] => []
  | t :: rest => t.levels depth ++ levelsOf depth rest

end

mutual

def size : Tree α → Nat
  | node _ ts => sizeOfList ts + 1

def sizeOfList : List (Tree α) → Nat
  | [] => 0
  | t :: rest => t.size + sizeOfList rest

end

/-- One line for each node, indented by one tab for each level. -/
def dump (text : α → String) (t : Tree α) : String :=
  String.join ((t.levels 0).map fun (depth, a) =>
    String.ofList (List.replicate depth '\t') ++ text a ++ "\n")

end Tree

end TradeChat
