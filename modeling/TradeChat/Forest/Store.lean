import TradeChat.Forest

namespace TradeChat.Forest

structure Node where
  token : Token
  parent : Option Nat := none
  children : List Nat := []
deriving DecidableEq, Repr

/-- A forest as it is stored while it grows: nodes in one list, and the numbers of the roots.
Children have greater numbers than their parents, so that going down comes to an end. -/
@[ext]
structure Store where
  nodes : List Node
  roots : List Nat
  rising : ∀ n (node : Node), nodes[n]? = some node → ∀ c ∈ node.children, n < c

namespace Store

def empty : Store where
  nodes := []
  roots := []
  rising := nofun

def size (s : Store) : Nat := s.nodes.length

def node? (s : Store) (n : Nat) : Option Node := s.nodes[n]?

def token? (s : Store) (n : Nat) : Option Token := (s.node? n).map Node.token

def parent? (s : Store) (n : Nat) : Option Nat := (s.node? n).bind Node.parent

def children? (s : Store) (n : Nat) : Option (List Nat) := (s.node? n).map Node.children

/-- Puts a node behind the others; its number is the size that the store had before. -/
def push (s : Store) (token : Token) (parent : Option Nat) : Store where
  nodes := s.nodes ++ [{ token, parent }]
  roots := s.roots
  rising := by
    intro n node hnode c hc
    rw [List.getElem?_append] at hnode
    split at hnode
    · exact s.rising n node hnode c hc
    · have hnew := List.mem_singleton.mp (List.mem_of_getElem? hnode)
      rw [hnew] at hc
      exact absurd hc List.not_mem_nil

def addRoot (s : Store) (token : Token) : Store :=
  { s.push token none with roots := s.roots ++ [s.size] }

/-- The new node becomes the last child of `parent`. -/
def addChild (s : Store) (parent : Fin s.size) (token : Token) : Store where
  nodes := (s.push token (some parent)).nodes.modify parent fun node =>
    { node with children := node.children ++ [s.size] }
  roots := s.roots
  rising := by
    intro n node hnode c hc
    rw [List.getElem?_modify] at hnode
    obtain ⟨old, hold, rfl⟩ := Option.map_eq_some_iff.mp hnode
    have hrising := (s.push token (some parent)).rising n old hold
    split at hc
    · rename_i hn
      rcases List.mem_append.mp hc with hc | hc
      · exact hrising c hc
      · have := parent.isLt
        have := List.mem_singleton.mp hc
        omega
    · exact hrising c hc

/-- Those of some nodes that have a type. -/
def ofType? (s : Store) (name : String) : List Nat → Option (List Nat)
  | [] => some []
  | n :: rest => do
    let token ← s.token? n
    let others ← ofType? s name rest
    return if token.isType name then n :: others else others

def findDirect? (s : Store) (n : Nat) (name : String) : Option (List Nat) := do
  let children ← s.children? n
  s.ofType? name children

section Walking

variable (s : Store)

/-- The greatest number of children of a node. -/
def most : Nat := s.nodes.foldr (fun node most => max node.children.length most) 0

/-- A node weighs more than all of its children together. -/
def weight (n : Nat) : Nat := Nat.pow (s.most + 1) (s.size - n)

def load : List (Nat × Nat) → Nat
  | [] => 0
  | (n, _) :: rest => s.weight n + load rest

theorem load_append (stack rest : List (Nat × Nat)) :
    s.load (stack ++ rest) = s.load stack + s.load rest := by
  induction stack with
  | nil => exact (Nat.zero_add _).symm
  | cons x stack ih => rw [List.cons_append, load, ih, load, Nat.add_assoc]

theorem length_le_most {n : Nat} {node : Node} (h : s.node? n = some node) :
    node.children.length ≤ s.most := by
  have hmem := List.mem_of_getElem? h
  rw [most]
  generalize s.nodes = nodes at hmem
  induction nodes with
  | nil => exact absurd hmem List.not_mem_nil
  | cons first rest ih =>
    rw [List.foldr_cons]
    rcases List.mem_cons.mp hmem with rfl | hmem
    · exact Nat.le_max_left ..
    · exact Nat.le_trans (ih hmem) (Nat.le_max_right ..)

theorem load_children {n depth : Nat} {children : List Nat} (h : ∀ c ∈ children, n < c) :
    s.load (children.map (·, depth)) ≤ children.length * Nat.pow (s.most + 1) (s.size - n - 1) := by
  induction children with
  | nil => exact Nat.zero_le _
  | cons c rest ih =>
    obtain ⟨hc, hrest⟩ := List.forall_mem_cons.mp h
    have hweight : s.weight c ≤ Nat.pow (s.most + 1) (s.size - n - 1) :=
      Nat.pow_le_pow_right (Nat.succ_pos _) (by omega)
    rw [List.map_cons, load, List.length_cons, Nat.succ_mul, Nat.add_comm]
    exact Nat.add_le_add (ih hrest) hweight

/-- The children of a node weigh less than the node, so that a stack gets lighter when they take
its place. -/
theorem load_lt {n depth : Nat} {node : Node} (h : s.node? n = some node)
    (rest : List (Nat × Nat)) :
    s.load (node.children.map (·, depth + 1) ++ rest) < s.load ((n, depth) :: rest) := by
  have hn : n < s.size := (List.getElem?_eq_some_iff.mp h).1
  have hsize : s.size - n = (s.size - n - 1).succ := by omega
  have hweight : s.weight n = (s.most + 1) * Nat.pow (s.most + 1) (s.size - n - 1) := by
    rw [weight, hsize, Nat.mul_comm]
    rfl
  have hless : node.children.length * Nat.pow (s.most + 1) (s.size - n - 1) < s.weight n := by
    rw [hweight]
    exact Nat.mul_lt_mul_of_pos_right (Nat.lt_succ_of_le (s.length_le_most h))
      (Nat.pow_pos (Nat.succ_pos _))
  have hchildren := @s.load_children n (depth + 1) _ (s.rising n node h)
  rw [load_append, load]
  omega

end Walking

/-- Visits the nodes on a stack, the next one first, each with its depth. The children of a node go
on top of the stack when it is visited. -/
def walk {β : Type} (s : Store) (visit : β → Nat → Nat → Token → β) (out : β)
    (stack : List (Nat × Nat)) : Option β :=
  match stack with
  | [] => some out
  | (n, depth) :: rest =>
    if h : n < s.nodes.length then
      let node := s.nodes[n]
      s.walk visit (visit out depth n node.token) (node.children.map (·, depth + 1) ++ rest)
    else none
termination_by s.load stack
decreasing_by exact s.load_lt (List.getElem?_eq_getElem h) rest

/-- A walk that starts at the children of a node, so that the node itself is not found. -/
def findAll? (s : Store) (n : Nat) (name : String) : Option (List Nat) := do
  let children ← s.children? n
  s.walk (fun found _ m token => if token.isType name then found ++ [m] else found) []
    (children.map (·, 1))

/-- One line for each node at or below `n`, indented by one tab for each level. -/
def dump? (s : Store) (n : Nat) : Option String :=
  s.walk (fun out depth _ token =>
    out ++ String.ofList (List.replicate depth '\t') ++ token.text ++ "\n") "" [(n, 0)]

def dumpEach? (s : Store) : List Nat → Option String
  | [] => some ""
  | root :: rest => do
    let dumped ← s.dump? root
    let others ← s.dumpEach? rest
    return dumped ++ "\n" ++ others

/-- Every tree, each with a blank line after it. -/
def treeDump? (s : Store) : Option String := s.dumpEach? s.roots

end Store

end TradeChat.Forest
