import Mathlib.Logic.Relation
import TradeChat.Entity.Attribute
import TradeChat.Proofs.Forest.Places

namespace TradeChat.Forest
open TradeChat.Tree

variable {f : Forest} {n m : Nat} {t u : Tree (Nat × Token)}

theorem mem_children : m ∈ f.children n ↔ f.parent? m = some n := by
  rw [children, mem_hanging, parent?, Option.bind_eq_some_iff, Nat.sub_zero]
  simp

theorem mem_roots : m ∈ f.roots ↔ m < f.size ∧ f.parent? m = none := by
  rw [roots, mem_hanging, parent?, Nat.sub_zero, size]
  cases he : f.entries[m]? with
  | none =>
    have := List.getElem?_eq_none_iff.mp he
    simp
    omega
  | some e =>
    have := (List.getElem?_eq_some_iff.mp he).1
    simp [this]

theorem children_increasing (f : Forest) (n : Nat) : (f.children n).Pairwise (· < ·) :=
  hanging_increasing _ _ _

theorem roots_increasing (f : Forest) : f.roots.Pairwise (· < ·) := hanging_increasing _ _ _

theorem children_nodup (f : Forest) (n : Nat) : (f.children n).Nodup :=
  (f.children_increasing n).imp Nat.ne_of_lt

theorem place_entry (h : f.place? n = some t) :
    ∃ q, (places 0 f.entries)[n]? = some (q, t) ∧ f.entries[n]? = some ⟨t.value.2, q⟩ := by
  obtain ⟨⟨q, t'⟩, hq, rfl⟩ := Option.map_eq_some_iff.mp h
  exact ⟨q, hq, (places_entry hq).1⟩

theorem place_exists (h : n < f.size) : ∃ t, f.place? n = some t := by
  have hlt : n < (places 0 f.entries).length := by rwa [length_places]
  exact ⟨(places 0 f.entries)[n].2, by rw [place?, List.getElem?_eq_getElem hlt]; rfl⟩

theorem place_number (h : f.place? n = some t) : t.value.1 = n := by
  obtain ⟨q, hq, -⟩ := place_entry h
  simpa using (places_entry hq).2

theorem place_token (h : f.place? n = some t) : f.token? n = some t.value.2 := by
  obtain ⟨q, -, he⟩ := place_entry h
  simp [token?, he]

theorem place_children (h : f.place? n = some t) :
    t.children = ((places 0 f.entries).filter (·.1 = some n)).map (·.2) := by
  obtain ⟨q, hq, -⟩ := place_entry h
  simpa using places_children f.rising hq

/-- The trees right below a node are those of its children, in order. -/
theorem place_children_numbers (h : f.place? n = some t) :
    t.children.map (fun u => u.value.1) = f.children n := by
  rw [place_children h, children, hanging_places, List.map_map]
  rfl

theorem place_of_mem {q : Option Nat} (h : (q, t) ∈ places 0 f.entries) :
    f.place? t.value.1 = some t := by
  obtain ⟨i, hi⟩ := List.mem_iff_getElem?.mp h
  have hn := (places_entry hi).2
  rw [Nat.zero_add] at hn
  rw [place?, hn, hi]
  rfl

theorem place_of_child (h : f.place? n = some t) (hu : u ∈ t.children) :
    f.place? u.value.1 = some u := by
  rw [place_children h] at hu
  obtain ⟨⟨q, u'⟩, hm, rfl⟩ := List.mem_map.mp hu
  exact place_of_mem (List.mem_filter.mp hm).1

/-- Whatever stands in the tree at a node is itself the tree at its number. -/
theorem place_of_subtree (h : f.place? n = some t) (hu : u ∈ t.subtrees) :
    f.place? u.value.1 = some u := by
  induction t using induct generalizing n with
  | node a ts ih =>
    rw [subtrees_node, List.mem_cons] at hu
    rcases hu with rfl | hu
    · rwa [place_number h]
    · obtain ⟨v, hv, hu⟩ := List.mem_flatMap.mp hu
      exact ih v hv (place_of_child h hv) hu

/-- A tree meets no node twice. -/
theorem place_nodup (h : f.place? n = some t) : (numbers t).Nodup := by
  obtain ⟨q, hq, -⟩ := place_entry h
  exact nodup_numbers f.rising (q, t) (List.mem_of_getElem? hq)

theorem tree_of_place (h : f.place? n = some t) : f.tree? n = some (t.map (·.2)) := by
  rw [tree?, h, Option.map_some]

/-- Each node of a forest has a tree. -/
theorem tree_exists (h : n < f.size) : (f.tree? n).isSome := by
  obtain ⟨t, ht⟩ := place_exists h
  simp [tree_of_place ht]

/-- The tree at a node. -/
def treeAt (f : Forest) (n : Fin f.size) : Tree Token := (f.tree? n).get (tree_exists n.isLt)

theorem tree_treeAt (f : Forest) (n : Fin f.size) : f.tree? n = some (f.treeAt n) :=
  (Option.some_get _).symm

theorem tree_place {s : Tree Token} (h : f.tree? n = some s) :
    ∃ t, f.place? n = some t ∧ t.map (·.2) = s := Option.map_eq_some_iff.mp h

theorem tree_value {s : Tree Token} (h : f.tree? n = some s) : f.token? n = some s.value := by
  obtain ⟨t, ht, rfl⟩ := tree_place h
  rw [place_token ht, value_map]

theorem token_of_no_tree (h : f.tree? n = none) : f.token? n = none := by
  by_cases hn : n < f.size
  · have := tree_exists hn
    simp [h] at this
  · simp only [token?, Option.map_eq_none_iff, List.getElem?_eq_none_iff]
    exact Nat.le_of_not_lt hn

theorem filterMap_numbers (ts : List (Tree (Nat × Token)))
    (h : ∀ u ∈ ts, f.place? u.value.1 = some u) :
    (ts.map fun u => u.value.1).filterMap f.tree? = ts.map (Tree.map (·.2)) := by
  induction ts with
  | nil => rfl
  | cons u rest ih =>
    have hu := tree_of_place (h u List.mem_cons_self)
    rw [List.map_cons, List.filterMap_cons_some hu, List.map_cons,
      ih fun v hv => h v (List.mem_cons_of_mem _ hv)]

/-- The children of a tree are the trees of the node's children. -/
theorem tree_children {s : Tree Token} (h : f.tree? n = some s) :
    s.children = (f.children n).filterMap f.tree? := by
  obtain ⟨t, ht, rfl⟩ := tree_place h
  rw [← place_children_numbers ht, filterMap_numbers _ fun u hu => place_of_child ht hu,
    children_map]

/-- The children of a tree that have a type are the trees of the children that have it. -/
theorem tree_findDirect {s : Tree Token} (h : f.tree? n = some s) (name : String) :
    s.children.filter (fun u => u.value.isType name) =
      (f.findDirect n name).filterMap f.tree? := by
  rw [tree_children h, findDirect]
  induction f.children n with
  | nil => rfl
  | cons c rest ih =>
    cases hc : f.tree? c with
    | none =>
      rw [List.filterMap_cons_none hc, List.filter_cons, token_of_no_tree hc]
      exact ih
    | some u =>
      rw [List.filterMap_cons_some hc, List.filter_cons, List.filter_cons, tree_value hc]
      by_cases htype : u.value.isType name <;> simp [htype, hc, ih]

theorem child_tree (hm : m ∈ f.children n) : ∃ s, f.tree? m = some s := by
  obtain ⟨e, he, -⟩ := Option.bind_eq_some_iff.mp (mem_children.mp hm)
  exact Option.isSome_iff_exists.mp (tree_exists (List.getElem?_eq_some_iff.mp he).1)

theorem findDirect_tree {name : String} (hm : m ∈ f.findDirect n name) :
    ∃ s, f.tree? m = some s := child_tree (List.mem_filter.mp hm).1

/-- To go through the trees of some nodes is to go through the nodes. -/
theorem flatMap_trees {β : Type} {g : Tree Token → List β} {k : Nat → List β} {ns : List Nat}
    (hns : ∀ m ∈ ns, ∃ s, f.tree? m = some s) (hk : ∀ m s, f.tree? m = some s → g s = k m) :
    (ns.filterMap f.tree?).flatMap g = ns.flatMap k := by
  induction ns with
  | nil => rfl
  | cons m rest ih =>
    obtain ⟨s, hs⟩ := hns m List.mem_cons_self
    rw [List.filterMap_cons_some hs, List.flatMap_cons, List.flatMap_cons, hk m s hs,
      ih fun k hk => hns k (List.mem_cons_of_mem _ hk)]

theorem findAll_place (h : f.place? n = some t) (name : String) :
    f.findAll n name =
      (t.descendants.filter fun u => u.value.2.isType name).map fun u => u.value.1 := by
  simp only [findAll, h, List.filter_map, List.map_map]
  rfl

/-- The trees below a tree that have a type are those of the nodes that searching finds. -/
theorem tree_descendantsNamed {s : Tree Token} (h : f.tree? n = some s) (name : String) :
    s.descendantsNamed name = (f.findAll n name).filterMap f.tree? := by
  obtain ⟨t, ht, rfl⟩ := tree_place h
  have hsub : ∀ u ∈ t.descendants.filter fun u => u.value.2.isType name,
      f.place? u.value.1 = some u := by
    intro u hu
    apply place_of_subtree ht
    rw [subtrees_eq]
    exact List.mem_cons_of_mem _ (List.mem_filter.mp hu).1
  rw [findAll_place ht, filterMap_numbers _ hsub, descendantsNamed, descendants_map,
    List.filter_map]
  simp only [Function.comp_def, value_map]

/-- A node is below another if parents lead from it up to that one in one or more steps. -/
def Below (f : Forest) : Nat → Nat → Prop :=
  Relation.TransGen fun upper lower => f.parent? lower = some upper

theorem place_of_parent (h : f.place? n = some t) (hm : f.parent? m = some n) :
    ∃ u ∈ t.children, u.value.1 = m := by
  have hc := mem_children.mpr hm
  rw [← place_children_numbers h] at hc
  exact List.mem_map.mp hc

theorem parent_of_child (h : f.place? n = some t) (hu : u ∈ t.children) :
    f.parent? u.value.1 = some n := by
  rw [← mem_children, ← place_children_numbers h]
  exact List.mem_map_of_mem hu

/-- The tree at a node holds what is below the node, and nothing else. -/
theorem mem_descendants (h : f.place? n = some t) :
    (∃ u ∈ t.descendants, u.value.1 = m) ↔ f.Below n m := by
  constructor
  · rintro ⟨u, hu, rfl⟩
    induction t using induct generalizing n with
    | node a ts ih =>
      rw [descendants_eq] at hu
      obtain ⟨v, hv, hu⟩ := List.mem_flatMap.mp hu
      have hstep := parent_of_child h hv
      rw [subtrees_eq, List.mem_cons] at hu
      rcases hu with rfl | hu
      · exact .single hstep
      · exact .head hstep (ih v hv (place_of_child h hv) hu)
  · intro hb
    induction hb with
    | single hp =>
      obtain ⟨u, hu, hm⟩ := place_of_parent h hp
      refine ⟨u, ?_, hm⟩
      rw [descendants_eq]
      exact List.mem_flatMap.mpr ⟨u, hu, mem_subtrees_self u⟩
    | tail _ hp ih =>
      obtain ⟨u, hu, rfl⟩ := ih
      have hsub : u ∈ t.subtrees := by
        rw [subtrees_eq]
        exact List.mem_cons_of_mem _ hu
      obtain ⟨v, hv, hm⟩ := place_of_parent (place_of_subtree h hsub) hp
      refine ⟨v, ?_, hm⟩
      rw [descendants_eq] at hu ⊢
      obtain ⟨w, hw, hu⟩ := List.mem_flatMap.mp hu
      exact List.mem_flatMap.mpr ⟨w, hw, mem_subtrees_trans hu (mem_subtrees_of_child hv)⟩

/-- Searching finds what is below a node and has the type. -/
theorem mem_findAll (hn : n < f.size) (name : String) :
    m ∈ f.findAll n name ↔ f.Below n m ∧ (f.token? m).any (·.isType name) = true := by
  obtain ⟨t, ht⟩ := place_exists hn
  have hsub : ∀ u ∈ t.descendants, f.token? u.value.1 = some u.value.2 := by
    intro u hu
    apply place_token (place_of_subtree ht _)
    rw [subtrees_eq]
    exact List.mem_cons_of_mem _ hu
  rw [findAll_place ht, ← mem_descendants ht]
  constructor
  · intro hm
    obtain ⟨u, hu, rfl⟩ := List.mem_map.mp hm
    obtain ⟨hu, htype⟩ := List.mem_filter.mp hu
    exact ⟨⟨u, hu, rfl⟩, by simpa [hsub u hu] using htype⟩
  · rintro ⟨⟨u, hu, rfl⟩, htype⟩
    rw [hsub u hu] at htype
    exact List.mem_map.mpr ⟨u, List.mem_filter.mpr ⟨hu, by simpa using htype⟩, rfl⟩

/-- The nodes that searching finds are met once, and the root is not among them. -/
theorem findAll_sublist (h : f.place? n = some t) (name : String) :
    (n :: f.findAll n name).Sublist (numbers t) := by
  rw [findAll_place h, numbers, subtrees_eq, List.map_cons, place_number h]
  exact List.Sublist.cons_cons _ (List.filter_sublist.map _)

theorem findAll_tree {name : String} (hm : m ∈ f.findAll n name) : ∃ s, f.tree? m = some s := by
  cases h : f.place? n with
  | none => simp [findAll, h] at hm
  | some t =>
    rw [findAll_place h] at hm
    obtain ⟨u, hu, rfl⟩ := List.mem_map.mp hm
    refine ⟨_, tree_of_place (place_of_subtree h ?_)⟩
    rw [subtrees_eq]
    exact List.mem_cons_of_mem _ (List.mem_filter.mp hu).1

theorem findAll_nodup (f : Forest) (n : Nat) (name : String) : (f.findAll n name).Nodup := by
  cases h : f.place? n with
  | none => simp [findAll, h]
  | some t => exact ((place_nodup h).sublist (findAll_sublist h name)).of_cons

theorem not_mem_findAll_self (f : Forest) (n : Nat) (name : String) : n ∉ f.findAll n name := by
  cases h : f.place? n with
  | none => simp [findAll, h]
  | some t => exact (List.nodup_cons.mp ((place_nodup h).sublist (findAll_sublist h name))).1

theorem findAll_isType {name : String} (hm : m ∈ f.findAll n name) :
    ∃ token, f.token? m = some token ∧ token.isType name = true := by
  cases h : f.place? n with
  | none => simp [findAll, h] at hm
  | some t =>
    obtain ⟨q, -, he⟩ := place_entry h
    have hn := (List.getElem?_eq_some_iff.mp he).1
    exact (Option.any_eq_true _ _).mp ((mem_findAll hn name).mp hm).2

/-- Names that differ in more than letter case find different nodes. -/
theorem findAll_disjoint (f : Forest) (n : Nat) {name other : String}
    (hne : Text.fold name ≠ Text.fold other) :
    (f.findAll n name).Disjoint (f.findAll n other) := by
  intro m hm hm'
  obtain ⟨token, ht, hname⟩ := findAll_isType hm
  obtain ⟨token', ht', hother⟩ := findAll_isType hm'
  rw [ht, Option.some.injEq] at ht'
  subst ht'
  simp only [Token.isType, beq_iff_eq] at hname hother
  exact hne (hname.symm.trans hother)

/-- Nodes hang from one parent only, so different nodes have no child in common. -/
theorem children_disjoint (f : Forest) (hne : n ≠ m) : (f.children n).Disjoint (f.children m) := by
  intro k hn hm
  rw [mem_children] at hn hm
  exact hne (Option.some.inj (hn.symm.trans hm))

end TradeChat.Forest
