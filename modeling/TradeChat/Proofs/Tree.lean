import Mathlib.Data.List.Nodup
import TradeChat.Tree

namespace TradeChat.Tree

variable {α β γ : Type}

@[simp] theorem value_node (a : α) (ts : List (Tree α)) : (node a ts).value = a := rfl

@[simp] theorem children_node (a : α) (ts : List (Tree α)) : (node a ts).children = ts := rfl

mutual

/-- A property of all trees follows from its step from the children of a node to the node. -/
@[elab_as_elim]
theorem induct {motive : Tree α → Prop}
    (node : ∀ a ts, (∀ t ∈ ts, motive t) → motive (.node a ts)) : (t : Tree α) → motive t
  | .node a ts => node a ts (induct_list node ts)

theorem induct_list {motive : Tree α → Prop}
    (node : ∀ a ts, (∀ t ∈ ts, motive t) → motive (.node a ts)) :
    (ts : List (Tree α)) → ∀ t ∈ ts, motive t
  | [], _, h => absurd h List.not_mem_nil
  | u :: rest, t, h => by
    rcases List.mem_cons.mp h with he | h
    · exact he ▸ induct node u
    · exact induct_list node rest t h

end

theorem subtreesOf_eq (ts : List (Tree α)) : subtreesOf ts = ts.flatMap subtrees := by
  induction ts with
  | nil => rfl
  | cons t rest ih => rw [subtreesOf, ih, List.flatMap_cons]

theorem mapList_eq (f : α → β) (ts : List (Tree α)) : mapList f ts = ts.map (map f) := by
  induction ts with
  | nil => rfl
  | cons t rest ih => rw [mapList, ih, List.map_cons]

theorem subtrees_node (a : α) (ts : List (Tree α)) :
    (node a ts).subtrees = node a ts :: ts.flatMap subtrees := by
  rw [subtrees, subtreesOf_eq]

theorem subtrees_eq (t : Tree α) : t.subtrees = t :: t.descendants := by
  cases t with
  | node a ts => rfl

theorem descendants_eq (t : Tree α) : t.descendants = t.children.flatMap subtrees :=
  subtreesOf_eq t.children

@[simp] theorem value_map (f : α → β) (t : Tree α) : (t.map f).value = f t.value := by
  cases t with
  | node a ts => rfl

@[simp] theorem children_map (f : α → β) (t : Tree α) :
    (t.map f).children = t.children.map (map f) := by
  cases t with
  | node a ts => exact mapList_eq f ts

theorem map_map (f : α → β) (g : β → γ) (t : Tree α) : (t.map f).map g = t.map (g ∘ f) := by
  induction t using induct with
  | node a ts ih =>
    simp only [map, mapList_eq, List.map_map, node.injEq, Function.comp_apply, true_and]
    exact List.map_congr_left ih

theorem subtrees_map (f : α → β) (t : Tree α) : (t.map f).subtrees = t.subtrees.map (map f) := by
  induction t using induct with
  | node a ts ih =>
    have hrest : (ts.map (map f)).flatMap subtrees = (ts.flatMap subtrees).map (map f) := by
      rw [List.flatMap_map, List.map_flatMap]
      exact List.flatMap_congr ih
    rw [map, mapList_eq, subtrees_node, hrest, subtrees_node, List.map_cons, map, mapList_eq]

theorem values_map (f : α → β) (t : Tree α) : (t.map f).values = t.values.map f := by
  rw [values, values, subtrees_map, List.map_map, List.map_map]
  exact List.map_congr_left fun u _ => value_map f u

theorem subtreesOf_map (f : α → β) (ts : List (Tree α)) :
    (ts.map (map f)).flatMap subtrees = (ts.flatMap subtrees).map (map f) := by
  rw [List.flatMap_map, List.map_flatMap]
  exact List.flatMap_congr fun t _ => subtrees_map f t

theorem descendants_map (f : α → β) (t : Tree α) :
    (t.map f).descendants = t.descendants.map (map f) := by
  have h := subtrees_map f t
  rw [subtrees_eq, subtrees_eq, List.map_cons] at h
  exact (List.cons.inj h).2

theorem mem_subtrees_self (t : Tree α) : t ∈ t.subtrees := by
  rw [subtrees_eq]
  exact List.mem_cons_self

/-- What is below a tree that is below another is below that one too. -/
theorem mem_subtrees_trans {t u v : Tree α} (hu : u ∈ t.subtrees) (hv : v ∈ u.subtrees) :
    v ∈ t.subtrees := by
  induction t using induct with
  | node a ts ih =>
    rw [subtrees_node, List.mem_cons] at hu
    rcases hu with rfl | hu
    · exact hv
    · obtain ⟨w, hw, hu⟩ := List.mem_flatMap.mp hu
      rw [subtrees_node]
      exact List.mem_cons_of_mem _ (List.mem_flatMap.mpr ⟨w, hw, ih w hw hu⟩)

theorem mem_subtreesOf_trans {ts : List (Tree α)} {u v : Tree α} (hu : u ∈ ts.flatMap subtrees)
    (hv : v ∈ u.subtrees) : v ∈ ts.flatMap subtrees := by
  obtain ⟨t, ht, hu⟩ := List.mem_flatMap.mp hu
  exact List.mem_flatMap.mpr ⟨t, ht, mem_subtrees_trans hu hv⟩

theorem mem_subtrees_of_child {t u : Tree α} (h : u ∈ t.children) : u ∈ t.subtrees := by
  rw [subtrees_eq, descendants_eq]
  exact List.mem_cons_of_mem _ (List.mem_flatMap.mpr ⟨u, h, mem_subtrees_self u⟩)

/-- What holds of some trees, and of the children of each tree that it holds of, holds of all the
trees below them. -/
theorem downward {motive : Tree α → Prop} {ts : List (Tree α)} (top : ∀ t ∈ ts, motive t)
    (child : ∀ u ∈ ts.flatMap subtrees, motive u → ∀ c ∈ u.children, motive c) :
    ∀ u ∈ ts.flatMap subtrees, motive u := by
  intro u hu
  rw [List.mem_flatMap] at hu
  obtain ⟨t, ht, hu⟩ := hu
  induction t using induct generalizing ts with
  | node a us ih =>
    have hbelow : ∀ w ∈ us.flatMap subtrees, w ∈ ts.flatMap subtrees := by
      intro w hw
      refine List.mem_flatMap.mpr ⟨_, ht, ?_⟩
      rw [subtrees_node]
      exact List.mem_cons_of_mem _ hw
    rw [subtrees_node, List.mem_cons] at hu
    rcases hu with rfl | hu
    · exact top _ ht
    · obtain ⟨w, hw, hu⟩ := List.mem_flatMap.mp hu
      have hself : node a us ∈ ts.flatMap subtrees :=
        List.mem_flatMap.mpr ⟨_, ht, mem_subtrees_self _⟩
      exact ih w hw (child _ hself (top _ ht)) (fun v hv => child v (hbelow v hv)) hw hu

theorem downward_tree {motive : Tree α → Prop} {t : Tree α} (root : motive t)
    (child : ∀ u ∈ t.subtrees, motive u → ∀ c ∈ u.children, motive c) :
    ∀ u ∈ t.subtrees, motive u := by
  have h := @downward α motive [t] (List.forall_mem_singleton.mpr root)
  rw [List.flatMap_singleton] at h
  exact h child

mutual

theorem length_subtrees : (t : Tree α) → t.subtrees.length = t.size
  | node a ts => by rw [subtrees_node, List.length_cons, length_subtreesOf, size]

theorem length_subtreesOf : (ts : List (Tree α)) → (ts.flatMap subtrees).length = sizeOfList ts
  | [] => rfl
  | t :: rest => by
    rw [List.flatMap_cons, List.length_append, length_subtrees, length_subtreesOf, sizeOfList]

end

theorem size_map (f : α → β) (t : Tree α) : (t.map f).size = t.size := by
  rw [← length_subtrees, subtrees_map, List.length_map, length_subtrees]

theorem sizeOfList_map (f : α → β) (ts : List (Tree α)) :
    sizeOfList (ts.map (map f)) = sizeOfList ts := by
  rw [← length_subtreesOf, ← length_subtreesOf, subtreesOf_map, List.length_map]

end TradeChat.Tree
