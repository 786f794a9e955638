import Mathlib.Data.List.Sort
import TradeChat.Proofs.Forest.Stored
import TradeChat.Proofs.Tree.Levels

namespace TradeChat.Forest
open TradeChat.Tree

namespace Store

/-- A store in which parents, children and roots agree, and all of them are nodes. -/
structure Sound (s : Store) : Prop where
  within : ∀ n node, s.node? n = some node →
    (∀ p ∈ node.parent, p < s.size) ∧ ∀ c ∈ node.children, c < s.size
  rising : ∀ n node, s.node? n = some node → ∀ c ∈ node.children, n < c
  linked : ∀ n node, s.node? n = some node → ∀ c, c ∈ node.children ↔ s.parent? c = some n
  once : ∀ n node, s.node? n = some node → node.children.Nodup
  tops : s.roots = (List.range s.size).filter fun n => s.parent? n = none

/-- A node is below another if parents lead from it up to that one in one or more steps. -/
def Below (s : Store) : Nat → Nat → Prop :=
  Relation.TransGen fun upper lower => s.parent? lower = some upper

/-- A node is within the tree at another if parents lead up to that one, perhaps in no step. -/
def Within (s : Store) : Nat → Nat → Prop :=
  Relation.ReflTransGen fun upper lower => s.parent? lower = some upper

/-- Pre-order: a node comes before what is below it, and what is within one child of a node comes
before what is within a later one. -/
def Before (s : Store) (m k : Nat) : Prop :=
  s.Below m k ∨ ∃ n children a b, s.children? n = some children ∧ [a, b].Sublist children ∧
    s.Within a m ∧ s.Within b k

/-- What searching for a type from a node has to find: what is below the node and has the type,
and those of them that are its children. -/
structure Finds (s : Store) (n : Nat) (name : String) (all direct : List Nat) : Prop where
  mem : ∀ m, m ∈ all ↔ s.Below n m ∧ ∃ token, s.token? m = some token ∧ token.isType name = true
  once : all.Nodup
  preorder : all.Pairwise s.Before
  order : ∀ children, s.children? n = some children → direct.Sublist children
  direct : ∀ m, m ∈ direct ↔ m ∈ all ∧ s.parent? m = some n

end Store

variable {f : Forest} {n : Nat} {t : Tree (Nat × Token)}

section Lookups

theorem parent_store (n : Nat) : f.store.parent? n = f.parent? n := by
  rw [Store.parent?, node_store, parent?]
  cases f.entries[n]? with
  | none => rfl
  | some e => rfl

theorem token_store (n : Nat) : f.store.token? n = f.token? n := by
  rw [Store.token?, node_store, token?, Option.map_map]
  rfl

theorem node_place (h : f.place? n = some t) :
    ∃ parent, f.store.node? n = some ⟨t.value.2, parent, f.children n⟩ := by
  obtain ⟨q, -, he⟩ := place_entry h
  exact ⟨q, by rw [node_store, he]; rfl⟩

theorem children_place (h : f.place? n = some t) :
    f.store.children? n = some (t.children.map fun u => u.value.1) := by
  obtain ⟨q, hnode⟩ := node_place h
  rw [Store.children?, hnode, place_children_numbers h]
  rfl

theorem children_of_node {node : Node} (h : f.store.node? n = some node) :
    node.children = f.children n := by
  rw [node_store] at h
  obtain ⟨e, -, rfl⟩ := Option.map_eq_some_iff.mp h
  rfl

theorem below_store : f.store.Below = f.Below := by
  unfold Store.Below Below
  simp only [parent_store]

theorem store_sound (f : Forest) : f.store.Sound where
  within := by
    intro n node h
    rw [size_store, children_of_node h]
    constructor
    · intro p hp
      have hparent : f.store.parent? n = some p := by
        rw [Store.parent?, h]
        exact hp
      rw [parent_store] at hparent
      have := parent_rising hparent
      omega
    · intro c hc
      exact (parent_rising (mem_children.mp hc)).2
  rising := by
    intro n node h c hc
    rw [children_of_node h] at hc
    exact (parent_rising (mem_children.mp hc)).1
  linked := by
    intro n node h c
    rw [children_of_node h, mem_children, parent_store]
  once := by
    intro n node h
    rw [children_of_node h]
    exact f.children_nodup n
  tops := by
    refine f.roots_increasing.eq_of_mem_iff (List.pairwise_lt_range.filter _) fun n => ?_
    rw [mem_roots, List.mem_filter, List.mem_range, size_store, parent_store, decide_eq_true_eq]

end Lookups

section Walking

variable {β : Type} {visit : β → Nat → Nat → Token → β}

/-- What visiting nodes with their depths one after the other adds up to. -/
def visited (visit : β → Nat → Nat → Token → β) (out : β) (levels : List (Nat × Nat × Token)) : β :=
  levels.foldl (fun out x => visit out x.1 x.2.1 x.2.2) out

theorem visited_cons (out : β) (depth n : Nat) (token : Token)
    (rest : List (Nat × Nat × Token)) : visited visit out ((depth, n, token) :: rest) =
      visited visit (visit out depth n token) rest := rfl

theorem visited_append (out : β) (levels more : List (Nat × Nat × Token)) :
    visited visit out (levels ++ more) = visited visit (visited visit out levels) more :=
  List.foldl_append

theorem walk_nil (s : Store) (out : β) : s.walk visit out [] = some out := by
  rw [Store.walk]

theorem walk_node {depth : Nat} {rest : List (Nat × Nat)} (h : f.place? n = some t) (out : β) :
    f.store.walk visit out ((n, depth) :: rest) =
      f.store.walk visit (visit out depth n t.value.2)
        (t.children.map (fun u => (u.value.1, depth + 1)) ++ rest) := by
  obtain ⟨q, hnode⟩ := node_place h
  obtain ⟨hn, hget⟩ := List.getElem?_eq_some_iff.mp hnode
  have hchildren : (f.children n).map (·, depth + 1) =
      t.children.map fun u => (u.value.1, depth + 1) := by
    rw [← place_children_numbers h, List.map_map]
    rfl
  rw [Store.walk, dif_pos hn]
  simp only [hget, hchildren]

/-- Trees on the stack whose walks are known are gone through one after the other. -/
theorem walk_list {depth : Nat} {rest : List (Nat × Nat)} {ts : List (Tree (Nat × Token))}
    (h : ∀ t ∈ ts, ∀ out rest, f.store.walk visit out ((t.value.1, depth) :: rest) =
      f.store.walk visit (visited visit out (t.levels depth)) rest) (out : β) :
    f.store.walk visit out (ts.map (fun t => (t.value.1, depth)) ++ rest) =
      f.store.walk visit (visited visit out (levelsOf depth ts)) rest := by
  induction ts generalizing out with
  | nil => rfl
  | cons t ts ih =>
    obtain ⟨ht, hts⟩ := List.forall_mem_cons.mp h
    rw [List.map_cons, List.cons_append, ht, ih hts, levelsOf_cons, visited_append]

/-- A node on the stack is visited, then all that is below it, before the walk goes on with the
rest of the stack. -/
theorem walk_tree {depth : Nat} (h : f.place? t.value.1 = some t) (out : β)
    (rest : List (Nat × Nat)) : f.store.walk visit out ((t.value.1, depth) :: rest) =
      f.store.walk visit (visited visit out (t.levels depth)) rest := by
  induction t using induct generalizing depth out rest with
  | node a ts ih =>
    rw [walk_node h, children_node, walk_list fun u hu => ih u hu (place_of_child h hu)]
    rfl

theorem walk_trees {depth : Nat} {ts : List (Tree (Nat × Token))}
    (h : ∀ t ∈ ts, f.place? t.value.1 = some t) (out : β) :
    f.store.walk visit out (ts.map fun t => (t.value.1, depth)) =
      some (visited visit out (levelsOf depth ts)) := by
  rw [← List.append_nil (ts.map _), walk_list fun t ht => walk_tree (h t ht), walk_nil]

end Walking

section Searching

theorem visited_found (name : String) (found : List Nat) (levels : List (Nat × Nat × Token)) :
    visited (fun found _ m token => if token.isType name then found ++ [m] else found) found
      levels = found ++ ((levels.map Prod.snd).filter (·.2.isType name)).map Prod.fst := by
  induction levels generalizing found with
  | nil => exact (List.append_nil found).symm
  | cons x rest ih =>
    obtain ⟨depth, m, token⟩ := x
    rw [visited_cons, ih, List.map_cons, List.filter_cons]
    split
    · rw [List.append_assoc, List.map_cons, List.singleton_append]
    · rfl

theorem values_descendants (t : Tree (Nat × Token)) :
    t.descendants.map value = t.children.flatMap values := by
  rw [descendants_eq, List.map_flatMap]
  rfl

/-- The walk finds what the tree at the node holds. -/
theorem store_findAll (h : f.place? n = some t) (name : String) :
    f.store.findAll? n name = some (f.findAll n name) := by
  have hfound : f.findAll n name =
      ((t.children.flatMap values).filter (·.2.isType name)).map Prod.fst := by
    simp only [findAll, h, values_descendants]
  have hstack : (t.children.map fun u => u.value.1).map (·, 1) =
      t.children.map fun u => (u.value.1, 1) := by
    rw [List.map_map]
    rfl
  rw [Store.findAll?, children_place h, Option.bind_eq_bind, Option.bind_some, hstack,
    walk_trees fun u hu => place_of_child h hu, visited_found, levelsOf_values, List.nil_append,
    hfound]

theorem ofType_known {name : String} {ns : List Nat}
    (h : ∀ m ∈ ns, ∃ token, f.token? m = some token) :
    f.store.ofType? name ns = some (ns.filter fun m => (f.token? m).any (·.isType name)) := by
  induction ns with
  | nil => rfl
  | cons m ns ih =>
    obtain ⟨⟨token, hm⟩, hns⟩ := List.forall_mem_cons.mp h
    rw [Store.ofType?, token_store, hm, ih hns, List.filter_cons, hm, Option.any_some]
    rfl

theorem store_findDirect (h : f.place? n = some t) (name : String) :
    f.store.findDirect? n name = some (f.findDirect n name) := by
  have hknown : ∀ m ∈ f.children n, ∃ token, f.token? m = some token := by
    intro m hm
    rw [← place_children_numbers h] at hm
    obtain ⟨u, hu, rfl⟩ := List.mem_map.mp hm
    exact ⟨_, place_token (place_of_child h hu)⟩
  rw [Store.findDirect?, children_place h, place_children_numbers h, Option.bind_eq_bind,
    Option.bind_some, ofType_known hknown, findDirect]

end Searching

section Preorder

theorem mem_numbers {m : Nat} (h : f.place? n = some t) : m ∈ numbers t ↔ f.store.Within n m := by
  rw [Store.Within, Relation.reflTransGen_iff_eq_or_transGen, ← Store.Below, below_store,
    ← mem_descendants h, numbers, subtrees_eq, List.map_cons, List.mem_cons, place_number h,
    List.mem_map]

theorem numbers_node (a : Nat × Token) (ts : List (Tree (Nat × Token))) :
    numbers (node a ts) = a.1 :: ts.flatMap numbers := by
  rw [numbers, subtrees_node, List.map_cons, List.map_flatMap]
  rfl

/-- A tree counts off its nodes in pre-order. -/
theorem numbers_preorder (h : f.place? n = some t) : (numbers t).Pairwise f.store.Before := by
  induction t using induct generalizing n with
  | node a ts ih =>
    have hchild : ∀ u ∈ ts, f.place? u.value.1 = some u := fun u hu => place_of_child h hu
    have hn : a.1 = n := place_number h
    rw [numbers_node, List.pairwise_cons, List.pairwise_flatMap]
    refine ⟨?_, fun u hu => ih u hu (hchild u hu), ?_⟩
    · intro m hm
      left
      rw [below_store, hn, ← mem_descendants h, descendants_eq, children_node]
      obtain ⟨v, hv, hm⟩ := List.mem_flatMap.mp hm
      obtain ⟨u, hu, rfl⟩ := List.mem_map.mp hm
      exact ⟨u, List.mem_flatMap.mpr ⟨v, hv, hu⟩, rfl⟩
    · rw [List.pairwise_iff_forall_sublist]
      intro u v hsub x hx y hy
      have hu := hchild u (hsub.subset List.mem_cons_self)
      have hv := hchild v (hsub.subset (List.mem_cons_of_mem u List.mem_cons_self))
      have horder := hsub.map fun u : Tree (Nat × Token) => u.value.1
      exact .inr ⟨n, _, u.value.1, v.value.1, children_place h, horder, (mem_numbers hu).mp hx,
        (mem_numbers hv).mp hy⟩

theorem store_finds (h : f.place? n = some t) (name : String) :
    f.store.Finds n name (f.findAll n name) (f.findDirect n name) where
  mem := by
    intro m
    obtain ⟨q, -, he⟩ := place_entry h
    rw [mem_findAll (List.getElem?_eq_some_iff.mp he).1, below_store, token_store,
      Option.any_eq_true]
  once := f.findAll_nodup n name
  preorder := ((numbers_preorder h).sublist (findAll_sublist h name)).of_cons
  order := by
    intro children hchildren
    rw [children_place h, place_children_numbers h] at hchildren
    cases hchildren
    exact List.filter_sublist
  direct := by
    intro m
    obtain ⟨q, -, he⟩ := place_entry h
    rw [findDirect, List.mem_filter, mem_findAll (List.getElem?_eq_some_iff.mp he).1, mem_children,
      parent_store]
    constructor
    · rintro ⟨hparent, htype⟩
      exact ⟨⟨.single hparent, htype⟩, hparent⟩
    · rintro ⟨⟨-, htype⟩, hparent⟩
      exact ⟨hparent, htype⟩

end Preorder

/-- A store is sound whatever calls made it: searching it ends with the nodes that are to be found,
without a look-up that fails. -/
theorem Store.grown_finds {s : Store} (h : s.Grown) :
    s.Sound ∧ ∃ f : Forest, f.store = s ∧ ∀ n < s.size, ∀ name,
      s.findAll? n name = some (f.findAll n name) ∧
      s.findDirect? n name = some (f.findDirect n name) ∧
      s.Finds n name (f.findAll n name) (f.findDirect n name) := by
  obtain ⟨f, rfl⟩ := grown_store h
  refine ⟨store_sound f, f, rfl, ?_⟩
  intro n hn name
  rw [size_store] at hn
  obtain ⟨t, ht⟩ := place_exists hn
  exact ⟨store_findAll ht name, store_findDirect ht name, store_finds ht name⟩

/-- A root with one child. -/
def Store.request : Store :=
  (Store.empty.addRoot ⟨"Buy", some "a", none, none, none, false⟩).addChild ⟨0, by decide⟩
    ⟨"Object", some "b", some "a", none, none, false⟩

/-- The first child gets a child of its own after its sibling. -/
def Store.errand : Store :=
  (Store.request.addChild ⟨0, by decide⟩
    ⟨"Object", some "c", some "a", none, some .or, false⟩).addChild ⟨1, by decide⟩
    ⟨"object", some "d", some "b", none, none, false⟩

theorem Store.errand_grown : Store.errand.Grown :=
  .child (.child (.child (.root .empty _) _ _) _ _) _ _

theorem errand_nodes : Store.errand.nodes =
    [⟨⟨"Buy", some "a", none, none, none, false⟩, none, [1, 2]⟩,
      ⟨⟨"Object", some "b", some "a", none, none, false⟩, some 0, [3]⟩,
      ⟨⟨"Object", some "c", some "a", none, some .or, false⟩, some 0, []⟩,
      ⟨⟨"object", some "d", some "b", none, none, false⟩, some 1, []⟩] := rfl

theorem Store.grown_finds_errand : Store.errand.Grown ∧ Store.errand.Sound ∧
    Store.errand.findAll? 0 "OBJECT" = some [1, 3, 2] ∧
    Store.errand.findDirect? 0 "OBJECT" = some [1, 2] ∧
    Store.errand.Finds 0 "OBJECT" [1, 3, 2] [1, 2] := by
  obtain ⟨hsound, f, -, hfinds⟩ := Store.grown_finds Store.errand_grown
  obtain ⟨hall, hdirect, h⟩ := hfinds 0 (by decide) "OBJECT"
  have hwalk : Store.errand.findAll? 0 "OBJECT" = some [1, 3, 2] := by
    simp +decide [Store.findAll?, Store.children?, Store.node?, errand_nodes, Store.walk]
  have hlist : Store.errand.findDirect? 0 "OBJECT" = some [1, 2] := by decide +kernel
  have hfound := Option.some.inj (hwalk.symm.trans hall)
  have hlisted := Option.some.inj (hlist.symm.trans hdirect)
  rw [← hfound, ← hlisted] at h
  exact ⟨Store.errand_grown, hsound, hwalk, hlist, h⟩

end TradeChat.Forest
