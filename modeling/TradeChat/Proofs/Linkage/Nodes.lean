import TradeChat.Proofs.Forest.Numbering
import TradeChat.Proofs.Linkage.Placement

namespace TradeChat.Linkage
open TradeChat.Tree

/-- The trees of some tokens as a forest. -/
def forest (ts : List Token) : Forest := .ofTrees (ofTokens ts).trees

/-- The trees of some tokens with the numbers of the nodes and the positions of the tokens. -/
def numbered (ts : List Token) : List (Tree (Nat × Token × Nat)) :=
  numberList 0 (link Prod.fst ts.zipIdx).trees

def nodes (ts : List Token) : List (Tree (Nat × Token × Nat)) := (numbered ts).flatMap subtrees

/-- For each node the position of its token. -/
def positions (ts : List Token) : List Nat := (nodes ts).map fun u => u.value.2.2

theorem ofTokens_eq (ts : List Token) :
    ofTokens ts = ⟨(link Prod.fst ts.zipIdx).trees.map (Tree.map Prod.fst),
      (link Prod.fst ts.zipIdx).unreachable.map Prod.fst⟩ := by
  have h := @link_map _ _ id Prod.fst ts.zipIdx
  rw [List.zipIdx_map_fst] at h
  exact h

theorem numbered_values (ts : List Token) :
    (numbered ts).map (Tree.map (·.2)) = (link Prod.fst ts.zipIdx).trees := by
  rw [← mapList_eq, numbered, numberList_values]

theorem nodes_values (ts : List Token) :
    (nodes ts).map (Tree.map (·.2)) = (link Prod.fst ts.zipIdx).trees.flatMap subtrees := by
  rw [← numbered_values, nodes, subtreesOf_map]

theorem numbered_tokens (ts : List Token) :
    numberList 0 (ofTokens ts).trees = (numbered ts).map (Tree.map (Prod.map id Prod.fst)) := by
  rw [ofTokens_eq, ← mapList_eq, numberList_map, mapList_eq, numbered]

theorem forest_place (ts : List Token) (n : Nat) :
    (forest ts).place? n = (nodes ts)[n]?.map (Tree.map (Prod.map id Prod.fst)) := by
  rw [forest, Forest.place_ofTrees, numbered_tokens, subtreesOf_map, List.getElem?_map, nodes]

theorem node_number {ts : List Token} {n : Nat} {u : Tree (Nat × Token × Nat)}
    (h : (nodes ts)[n]? = some u) : u.value.1 = n := by
  have hn : (forest ts).place? n = some (u.map (Prod.map id Prod.fst)) := by
    rw [forest_place, h, Option.map_some]
  have := Forest.place_number hn
  rwa [value_map] at this

theorem node_exists {ts : List Token} {u : Tree (Nat × Token × Nat)} (h : u ∈ nodes ts) :
    (nodes ts)[u.value.1]? = some u := by
  obtain ⟨n, hn⟩ := List.mem_iff_getElem?.mp h
  rwa [node_number hn]

theorem child_node {ts : List Token} {u c : Tree (Nat × Token × Nat)} (hu : u ∈ nodes ts)
    (hc : c ∈ u.children) : c ∈ nodes ts :=
  mem_subtreesOf_trans hu (mem_subtrees_of_child hc)

theorem root_node {ts : List Token} {t : Tree (Nat × Token × Nat)} (ht : t ∈ numbered ts) :
    t ∈ nodes ts := List.mem_flatMap.mpr ⟨t, ht, mem_subtrees_self t⟩

theorem node_place {ts : List Token} {u : Tree (Nat × Token × Nat)} (h : u ∈ nodes ts) :
    (forest ts).place? u.value.1 = some (u.map (Prod.map id Prod.fst)) := by
  rw [forest_place, node_exists h, Option.map_some]

theorem node_children {ts : List Token} {u : Tree (Nat × Token × Nat)} (h : u ∈ nodes ts) :
    (forest ts).children u.value.1 = u.children.map fun c => c.value.1 := by
  rw [← Forest.place_children_numbers (node_place h), children_map, List.map_map]
  simp only [Function.comp_def, value_map]
  rfl

theorem node_token {ts : List Token} {u : Tree (Nat × Token × Nat)} (h : u ∈ nodes ts) :
    (forest ts).token? u.value.1 = some u.value.2.1 := by
  rw [Forest.place_token (node_place h), value_map]
  rfl

theorem no_token {ts : List Token} {n : Nat} (h : (nodes ts)[n]? = none) :
    (forest ts).token? n = none := by
  apply Forest.token_of_no_tree
  rw [Forest.tree?, forest_place, h]
  rfl

theorem node_linked {ts : List Token} {u : Tree (Nat × Token × Nat)} (h : u ∈ nodes ts) :
    u.map (·.2) ∈ (link Prod.fst ts.zipIdx).trees.flatMap subtrees := by
  rw [← nodes_values]
  exact List.mem_map.mpr ⟨u, h, rfl⟩

/-- Numbers of nodes lead back to the positions of their tokens. -/
theorem positions_of (ts : List Token) (us : List (Tree (Nat × Token × Nat)))
    (h : ∀ u ∈ us, u ∈ nodes ts) :
    (us.map fun u => u.value.1).filterMap ((positions ts)[·]?) = us.map fun u => u.value.2.2 := by
  induction us with
  | nil => rfl
  | cons u us ih =>
    obtain ⟨hu, hus⟩ := List.forall_mem_cons.mp h
    have hpos : (positions ts)[u.value.1]? = some u.value.2.2 := by
      rw [positions, List.getElem?_map, node_exists hu, Option.map_some]
    rw [List.map_cons, List.filterMap_cons_some hpos, ih hus, List.map_cons]

theorem zipIdx_positions (ts : List Token) : ts.zipIdx.map Prod.snd = List.range ts.length := by
  rw [List.zipIdx_map_snd, List.range_eq_range']

theorem zipIdx_nodup (ts : List Token) : ts.zipIdx.Nodup := by
  apply List.Nodup.of_map Prod.snd
  rw [zipIdx_positions]
  exact List.nodup_range

theorem node_values (ts : List Token) :
    (nodes ts).map (fun u => u.value.2) = items (link Prod.fst ts.zipIdx).trees := by
  rw [items_eq, ← nodes_values, List.map_map]
  simp only [Function.comp_def, value_map]

theorem node_item {ts : List Token} {u : Tree (Nat × Token × Nat)} (h : u ∈ nodes ts) :
    ts[u.value.2.2]? = some u.value.2.1 := by
  have hi : u.value.2 ∈ items (link Prod.fst ts.zipIdx).trees := by
    rw [← node_values]
    exact List.mem_map.mpr ⟨u, h, rfl⟩
  exact List.mem_zipIdx_iff_getElem?.mp
    ((link_perm Prod.fst ts.zipIdx).subset (List.mem_append_left _ hi))

theorem length_nodes (ts : List Token) : (nodes ts).length = (forest ts).size := by
  have h := congrArg List.length (numberList_numbers 0 (link Prod.fst ts.zipIdx).trees)
  rw [List.length_map, List.length_range'] at h
  rw [nodes, numbered, h, forest, Forest.size_ofTrees, ofTokens_eq, sizeOfList_map]

theorem no_children {ts : List Token} {p : Nat} (h : (nodes ts)[p]? = none) :
    (forest ts).children p = [] := by
  apply List.eq_nil_iff_forall_not_mem.mpr
  intro n hn
  obtain ⟨e, he, hp⟩ := Option.bind_eq_some_iff.mp (Forest.mem_children.mp hn)
  have hlt := Forest.Rising.parent_lt (forest ts).rising he hp
  have hn := (List.getElem?_eq_some_iff.mp he).1
  rw [List.getElem?_eq_none_iff, length_nodes, Forest.size] at h
  omega

theorem forest_tokens (ts : List Token) (n : Nat) :
    (forest ts).token? n = (positions ts)[n]?.bind (ts[·]?) := by
  rw [positions, List.getElem?_map]
  cases hn : (nodes ts)[n]? with
  | none => exact no_token hn
  | some u =>
    have hu := List.mem_of_getElem? hn
    rw [← node_number hn, node_token hu]
    exact (node_item hu).symm

theorem forest_roots (ts : List Token) :
    (forest ts).roots.filterMap ((positions ts)[·]?) =
      (List.range ts.length).filter fun i => (ts[i]?).any Token.isRoot := by
  have hnumbers : (forest ts).roots = (numbered ts).map fun t => t.value.1 := by
    rw [forest, Forest.roots_ofTrees, numbered_tokens, List.map_map]
    simp only [Function.comp_def, value_map]
    rfl
  have hvalues : (numbered ts).map (fun t => t.value.2) =
      ts.zipIdx.filter fun a => a.1.isRoot := by
    rw [← (link_planted Prod.fst ts.zipIdx).tops, ← numbered_values, List.map_map]
    simp only [Function.comp_def, value_map]
  have hroots : (ts.zipIdx.filter fun a => a.1.isRoot) =
      ts.zipIdx.filter fun a => (ts[a.2]?).any Token.isRoot := by
    apply List.filter_congr
    intro a ha
    rw [List.mem_zipIdx_iff_getElem?.mp ha, Option.any_some]
  calc (forest ts).roots.filterMap ((positions ts)[·]?)
      = (numbered ts).map fun t => t.value.2.2 := by
        rw [hnumbers, positions_of ts _ fun t ht => root_node ht]
    _ = ((numbered ts).map fun t => t.value.2).map Prod.snd := by rw [List.map_map]; rfl
    _ = (ts.zipIdx.filter fun a => (ts[a.2]?).any Token.isRoot).map Prod.snd := by
        rw [hvalues, hroots]
    _ = (List.range ts.length).filter fun i => (ts[i]?).any Token.isRoot := by
        rw [← zipIdx_positions, List.filter_map]
        rfl

theorem forest_order (ts : List Token) (p : Nat) :
    (((forest ts).children p).filterMap ((positions ts)[·]?)).Pairwise (· < ·) := by
  cases hp : (nodes ts)[p]? with
  | none =>
    rw [no_children hp]
    exact List.Pairwise.nil
  | some u =>
    have hu := List.mem_of_getElem? hp
    have hsub := ((link_planted Prod.fst ts.zipIdx).linked _ (node_linked hu)).1
    rw [← node_number hp, node_children hu, positions_of ts _ fun c hc => child_node hu hc]
    have hitems : ((u.map (·.2)).children.map value).map Prod.snd =
        u.children.map fun c => c.value.2.2 := by
      rw [children_map, List.map_map, List.map_map]
      simp only [Function.comp_def, value_map]
    rw [← hitems]
    have hall : (ts.zipIdx.map Prod.snd).Pairwise (· < ·) := by
      rw [zipIdx_positions]
      exact List.pairwise_lt_range
    exact hall.sublist ((hsub.trans List.filter_sublist).map Prod.snd)

end TradeChat.Linkage
