import TradeChat.Forest.Store
import TradeChat.Proofs.Forest.Nodes

namespace TradeChat

theorem Rising.of_append {start : Nat} {entries more : List Entry}
    (h : Rising start (entries ++ more)) :
    Rising start entries ∧ Rising (start + entries.length) more := by
  induction entries generalizing start with
  | nil => exact ⟨trivial, h⟩
  | cons e rest ih =>
    obtain ⟨hrest, hmore⟩ := ih h.2
    rw [Nat.add_assoc, Nat.add_comm 1] at hmore
    exact ⟨⟨h.1, hrest⟩, hmore⟩

/-- A node with its children written down. -/
def Entry.stored (e : Entry) (children : List Nat) : Forest.Node := ⟨e.token, e.parent, children⟩

namespace Forest

/-- A forest is empty or has come from another by one more root or one more child. -/
@[elab_as_elim]
theorem growth {motive : Forest → Prop} (empty : motive empty)
    (root : ∀ f token, motive f → motive (f.addRoot token))
    (child : ∀ f parent token, motive f → motive (f.addChild parent token)) (f : Forest) :
    motive f := by
  obtain ⟨entries, rising⟩ := f
  induction entries using List.reverseRecOn with
  | nil => exact empty
  | append_singleton entries e ih =>
    obtain ⟨hbefore, hlast⟩ := rising.of_append
    obtain ⟨token, parent⟩ := e
    cases parent with
    | none => exact root ⟨entries, hbefore⟩ token (ih hbefore)
    | some p =>
      have hp : p < entries.length := by simpa using hlast.1 p rfl
      exact child ⟨entries, hbefore⟩ ⟨p, hp⟩ token (ih hbefore)

theorem hanging_append (parent : Option Nat) (start : Nat) (entries more : List Entry) :
    hanging parent start (entries ++ more) =
      hanging parent start entries ++ hanging parent (start + entries.length) more := by
  induction entries generalizing start with
  | nil => rfl
  | cons e rest ih =>
    rw [List.cons_append, hanging, ih, hanging, List.length_cons, Nat.add_assoc, Nat.add_comm 1]
    split <;> rfl

section Growing

variable (f : Forest) (token : Token) (n : Nat) (p : Fin f.size)

@[simp] theorem size_addRoot : (f.addRoot token).size = f.size + 1 := by simp [addRoot, size]

@[simp] theorem size_addChild : (f.addChild p token).size = f.size + 1 := by simp [addChild, size]

theorem roots_addRoot : (f.addRoot token).roots = f.roots ++ [f.size] := by
  simp [roots, addRoot, hanging_append, hanging, size]

theorem roots_addChild : (f.addChild p token).roots = f.roots := by
  simp [roots, addChild, hanging_append, hanging]

theorem children_addRoot : (f.addRoot token).children n = f.children n := by
  simp [children, addRoot, hanging_append, hanging]

theorem children_addChild :
    (f.addChild p token).children n = if p = n then f.children n ++ [f.size] else f.children n := by
  by_cases hn : p.val = n <;> simp [children, addChild, hanging_append, hanging, size, hn]

/-- Nothing hangs from a number that no node has yet. -/
theorem children_fresh (hn : f.size ≤ n) : f.children n = [] := by
  apply List.eq_nil_iff_forall_not_mem.mpr
  intro m hm
  obtain ⟨e, he, hp⟩ := Option.bind_eq_some_iff.mp (mem_children.mp hm)
  have hlt := Rising.parent_lt f.rising he hp
  have hm := (List.getElem?_eq_some_iff.mp he).1
  rw [size] at hn
  omega

end Growing

theorem parent_rising {f : Forest} {n m : Nat} (h : f.parent? m = some n) : n < m ∧ m < f.size := by
  obtain ⟨e, he, hp⟩ := Option.bind_eq_some_iff.mp h
  have hlt := Rising.parent_lt f.rising he hp
  exact ⟨by omega, (List.getElem?_eq_some_iff.mp he).1⟩

/-- The forest as it is stored. -/
def store (f : Forest) : Store where
  nodes := f.entries.mapIdx fun n e => e.stored (f.children n)
  roots := f.roots
  rising := by
    intro n node hnode c hc
    rw [List.getElem?_mapIdx] at hnode
    obtain ⟨e, -, rfl⟩ := Option.map_eq_some_iff.mp hnode
    exact (parent_rising (mem_children.mp hc)).1

namespace Store

/-- The stores that calls make of the empty one. Children are added to nodes of the store. -/
inductive Grown : Store → Prop
  | empty : Grown .empty
  | root {s : Store} (h : Grown s) (token : Token) : Grown (s.addRoot token)
  | child {s : Store} (h : Grown s) (parent : Fin s.size) (token : Token) :
      Grown (s.addChild parent token)

end Store

variable (f : Forest)

theorem size_store : f.store.size = f.size := by simp [store, Store.size, size]

theorem node_store (n : Nat) : f.store.node? n =
    f.entries[n]?.map fun e => e.stored (f.children n) := by
  simp [store, Store.node?]

theorem nodes_push (token : Token) (parent : Option Nat) : (f.store.push token parent).nodes =
    (f.entries ++ [(⟨token, parent⟩ : Entry)]).mapIdx fun n e => e.stored (f.children n) := by
  have hfresh := f.children_fresh f.size (Nat.le_refl _)
  rw [size] at hfresh
  rw [List.mapIdx_concat, hfresh]
  rfl

theorem store_addRoot (token : Token) : (f.addRoot token).store = f.store.addRoot token := by
  apply Store.ext
  · rw [Store.addRoot, nodes_push]
    simp only [store, children_addRoot]
    rfl
  · have hroots : (f.addRoot token).roots = f.store.roots ++ [f.store.size] := by
      rw [size_store]
      exact f.roots_addRoot token
    exact hroots

theorem store_addChild (p : Fin f.size) (token : Token) :
    (f.addChild p token).store = f.store.addChild ⟨p, f.size_store.symm ▸ p.isLt⟩ token := by
  apply Store.ext
  · have hentries : (f.addChild p token).entries =
        f.entries ++ [(⟨token, some p.val⟩ : Entry)] := rfl
    have hnodes : (f.store.addChild ⟨p, f.size_store.symm ▸ p.isLt⟩ token).nodes =
        (f.store.push token (some p.val)).nodes.modify p fun node =>
          { node with children := node.children ++ [f.store.size] } := rfl
    rw [hnodes, nodes_push, size_store]
    apply List.ext_getElem?
    intro n
    simp only [store, hentries, children_addChild, List.getElem?_mapIdx, List.getElem?_modify]
    cases (f.entries ++ [(⟨token, some p.val⟩ : Entry)])[n]? with
    | none => rfl
    | some e => by_cases hn : p.val = n <;> simp [hn, Entry.stored]
  · exact f.roots_addChild token p

/-- What the calls make is a forest as it is stored. -/
theorem grown_store {s : Store} (h : s.Grown) : ∃ f : Forest, f.store = s := by
  induction h with
  | empty => exact ⟨empty, rfl⟩
  | root _ token ih =>
    obtain ⟨f, rfl⟩ := ih
    exact ⟨f.addRoot token, f.store_addRoot token⟩
  | child _ parent token ih =>
    obtain ⟨f, rfl⟩ := ih
    exact ⟨_, f.store_addChild ⟨parent, f.size_store ▸ parent.isLt⟩ token⟩

/-- Each forest is made by some calls. -/
theorem store_grown : f.store.Grown := by
  induction f using growth with
  | empty => exact .empty
  | root f token ih =>
    rw [store_addRoot]
    exact .root ih token
  | child f parent token ih =>
    rw [store_addChild]
    exact .child ih _ token

end Forest

end TradeChat
