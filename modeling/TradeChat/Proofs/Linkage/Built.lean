import TradeChat.Proofs.Linkage.Worklist

namespace TradeChat.Linkage
open TradeChat.Tree

/-- The positions of tokens that a chain of tokens leads to: the first token of the chain has no
parent, and the parent of each later one is the id of the token before it. -/
inductive Reached (ts : List Token) : Nat → Prop
  | first {i : Nat} {t : Token} : ts[i]? = some t → t.parent = none → Reached ts i
  | next {i j : Nat} {a b : Token} :
      Reached ts i → ts[i]? = some a → ts[j]? = some b → b.parent = a.id → Reached ts j

/-- One position stands in the tree of another: a chain of tokens leads there from the root, each
hanging from the one before it. -/
inductive StandsIn (ts : List Token) (root : Nat) : Nat → Prop
  | root {t : Token} : ts[root]? = some t → t.parent = none → StandsIn ts root root
  | next {i j : Nat} {a b : Token} : StandsIn ts root i → ts[i]? = some a → ts[j]? = some b →
      Hangs id a b → StandsIn ts root j

theorem StandsIn.reached {ts : List Token} {root i : Nat} (h : StandsIn ts root i) :
    Reached ts i := by
  induction h with
  | root ht hroot => exact .first ht hroot
  | next _ ha hb hhang ih =>
    obtain ⟨name, hid, hparent⟩ := hhang
    exact .next ih ha hb (hparent.trans hid.symm)

section Trees

variable {ts : List Token} {t u : Tree (Token × Nat)}
  (ht : t ∈ (link Prod.fst ts.zipIdx).trees)

include ht

theorem mem_of_subtree (hu : u ∈ t.subtrees) : u.value ∈ ts.zipIdx :=
  mem_of_node (List.mem_flatMap.mpr ⟨t, ht, hu⟩)

theorem hangs_of_child (hu : u ∈ t.subtrees) :
    ∀ c ∈ u.children, Hangs Prod.fst u.value c.value :=
  ((link_planted Prod.fst ts.zipIdx).linked u (List.mem_flatMap.mpr ⟨t, ht, hu⟩)).2

theorem root_of_tree : ts[t.value.2]? = some t.value.1 ∧ t.value.1.parent = none := by
  obtain ⟨hmem, hroot⟩ := link_top ht
  exact ⟨List.mem_zipIdx_iff_getElem?.mp hmem, by simpa [Token.isRoot] using hroot⟩

/-- The chain to an item of a tree goes down from the root, one child after the other. -/
theorem standsIn_subtree : ∀ u ∈ t.subtrees, StandsIn ts t.value.2 u.value.2 := by
  obtain ⟨hitem, hroot⟩ := root_of_tree ht
  have hitems : ∀ {u}, u ∈ t.subtrees → ts[u.value.2]? = some u.value.1 :=
    fun hu => List.mem_zipIdx_iff_getElem?.mp (mem_of_subtree ht hu)
  refine downward_tree (.root hitem hroot) ?_
  intro u hu hstands c hc
  exact .next hstands (hitems hu) (hitems (mem_subtrees_trans hu (mem_subtrees_of_child hc)))
    (hangs_of_child ht hu c hc)

end Trees

section Items

variable {ts : List Token} {a : Token × Nat}

theorem items_of_root (h : ts[a.2]? = some a.1) (hroot : a.1.parent = none) :
    a ∈ items (link Prod.fst ts.zipIdx).trees := by
  have htop : a ∈ ts.zipIdx.filter fun a => a.1.isRoot :=
    List.mem_filter.mpr ⟨List.mem_zipIdx_iff_getElem?.mpr h, by simp [Token.isRoot, hroot]⟩
  rw [← (link_planted Prod.fst ts.zipIdx).tops] at htop
  obtain ⟨t, ht, rfl⟩ := List.mem_map.mp htop
  exact mem_items.mpr ⟨t, List.mem_flatMap.mpr ⟨t, ht, mem_subtrees_self t⟩, rfl⟩

/-- A token in the trees is at the end of a chain. -/
theorem reached_of_items (h : a ∈ items (link Prod.fst ts.zipIdx).trees) : Reached ts a.2 := by
  obtain ⟨u, hu, rfl⟩ := mem_items.mp h
  obtain ⟨t, ht, hu⟩ := List.mem_flatMap.mp hu
  exact (standsIn_subtree ht u hu).reached

/-- What a chain leads to is in the trees, since nothing left over hangs from a placed token. -/
theorem items_of_reached {i : Nat} (h : Reached ts i) :
    ∃ t, ts[i]? = some t ∧ (t, i) ∈ items (link Prod.fst ts.zipIdx).trees := by
  induction h with
  | @first i t ht hroot => exact ⟨t, ht, items_of_root ht hroot⟩
  | @next i j a b _ ha hb hlink ih =>
    obtain ⟨a', ha', hplaced⟩ := ih
    cases ha.symm.trans ha'
    refine ⟨b, hb, ?_⟩
    cases hparent : b.parent with
    | none => exact items_of_root hb hparent
    | some name =>
      have hmem : (b, j) ∈ ts.zipIdx := List.mem_zipIdx_iff_getElem?.mpr hb
      rw [← (link_perm Prod.fst ts.zipIdx).mem_iff, List.mem_append] at hmem
      refine hmem.resolve_right fun hleft => ?_
      exact (link_planted Prod.fst ts.zipIdx).closed _ hleft _ hplaced
        ⟨name, hlink.symm.trans hparent, hparent⟩

end Items

/-- A forest built from some tokens: the positions of the tokens of its nodes, and the positions
that were lost because no root reaches them. -/
structure Built (f : Forest) (ts : List Token) (positions lost : List Nat) : Prop where
  once : positions.Nodup
  size : f.size = positions.length
  tokens : ∀ n, f.token? n = positions[n]?.bind (ts[·]?)
  reached : ∀ i, i ∈ positions ↔ Reached ts i
  unreached : ∀ i, i ∈ lost ↔ i < ts.length ∧ ¬ Reached ts i
  listed : lost.Pairwise (· < ·)
  roots : f.roots.filterMap (positions[·]?) =
    (List.range ts.length).filter fun i => (ts[i]?).any Token.isRoot
  links : ∀ n p, n ∈ f.children p → ∃ name, (f.token? n).bind Token.parent = some name ∧
    (f.token? p).bind Token.id = some name
  preorder : (f.roots.filterMap f.place?).flatMap Forest.numbers = List.range f.size

section Forest

variable (ts : List Token)

/-- The positions of the tokens that are left over. -/
def lost : List Nat := (link Prod.fst ts.zipIdx).unreachable.map Prod.snd

theorem positions_eq :
    positions ts = (items (link Prod.fst ts.zipIdx).trees).map Prod.snd := by
  rw [← node_values, List.map_map]
  rfl

/-- Each position is that of a node or a lost one. -/
theorem positions_perm : (positions ts ++ lost ts).Perm (List.range ts.length) := by
  have h := (link_perm Prod.fst ts.zipIdx).map Prod.snd
  rwa [List.map_append, ← positions_eq, zipIdx_positions] at h

theorem mem_positions (i : Nat) : i ∈ positions ts ↔ Reached ts i := by
  rw [positions_eq, List.mem_map]
  constructor
  · rintro ⟨a, ha, rfl⟩
    exact reached_of_items ha
  · intro h
    obtain ⟨t, -, ht⟩ := items_of_reached h
    exact ⟨_, ht, rfl⟩

theorem mem_lost (i : Nat) : i ∈ lost ts ↔ i < ts.length ∧ ¬ Reached ts i := by
  have hperm := positions_perm ts
  have hapart := (List.nodup_append.mp (hperm.nodup_iff.mpr List.nodup_range)).2.2
  rw [← mem_positions, ← List.mem_range, ← hperm.mem_iff, List.mem_append]
  constructor
  · intro h
    exact ⟨Or.inr h, fun hplaced => hapart i hplaced i h rfl⟩
  · intro ⟨hmem, hnot⟩
    exact hmem.resolve_left hnot

theorem lost_sorted : (lost ts).Pairwise (· < ·) := by
  have hall : (ts.zipIdx.map Prod.snd).Pairwise (· < ·) := by
    rw [zipIdx_positions]
    exact List.pairwise_lt_range
  exact hall.sublist
    (((link_planted Prod.fst ts.zipIdx).sublist.trans List.filter_sublist).map Prod.snd)

theorem unreachable_lost : (ofTokens ts).unreachable = (lost ts).filterMap (ts[·]?) := by
  have hitem : ∀ a ∈ (link Prod.fst ts.zipIdx).unreachable, ts[a.2]? = some a.1 := by
    intro a ha
    exact List.mem_zipIdx_iff_getElem?.mp
      ((link_perm Prod.fst ts.zipIdx).subset (List.mem_append_right _ ha))
  rw [ofTokens_eq, lost, List.filterMap_map]
  exact ((List.filterMap_congr hitem).trans (congrFun List.filterMap_eq_map' _)).symm

theorem children_linked {n p : Nat} (h : n ∈ (forest ts).children p) :
    ∃ name, ((forest ts).token? n).bind Token.parent = some name ∧
      ((forest ts).token? p).bind Token.id = some name := by
  cases hp : (nodes ts)[p]? with
  | none =>
    rw [no_children hp] at h
    exact absurd h List.not_mem_nil
  | some u =>
    have hu := List.mem_of_getElem? hp
    rw [← node_number hp, node_children hu] at h
    obtain ⟨c, hc, rfl⟩ := List.mem_map.mp h
    have hchild : c.map (·.2) ∈ (u.map (·.2)).children := by
      rw [children_map]
      exact List.mem_map.mpr ⟨c, hc, rfl⟩
    obtain ⟨name, hid, hparent⟩ :=
      ((link_planted Prod.fst ts.zipIdx).linked _ (node_linked hu)).2 _ hchild
    rw [value_map] at hid hparent
    rw [← node_number hp, node_token hu, node_token (child_node hu hc)]
    exact ⟨name, hparent, hid⟩

theorem forest_preorder :
    ((forest ts).roots.filterMap (forest ts).place?).flatMap Forest.numbers =
      List.range (forest ts).size := by
  have h := numberList_numbers 0 (ofTokens ts).trees
  rw [List.map_flatMap] at h
  rw [forest, Forest.roots_places_ofTrees, Forest.size_ofTrees, List.range_eq_range']
  exact h

theorem forest_built : Built (forest ts) ts (positions ts) (lost ts) where
  once := (List.nodup_append.mp ((positions_perm ts).nodup_iff.mpr List.nodup_range)).1
  size := by rw [positions, List.length_map, length_nodes]
  tokens := forest_tokens ts
  reached := mem_positions ts
  unreached := mem_lost ts
  listed := lost_sorted ts
  roots := forest_roots ts
  links := fun _ _ h => children_linked ts h
  preorder := forest_preorder ts

/-- Building with a stack ends for all tokens, with the nodes that the recursion makes: all that a
chain of tokens leads to, each once, in pre-order, and the rest is reported in order. -/
theorem ofTokens_built :
    ∃ done : Worklist (Token × Nat),
      Worklist.Leads Prod.fst ts.zipIdx (.start Prod.fst ts.zipIdx) done ∧ done.stack = [] ∧
      (forest ts).entries = done.nodes.map (fun x => ⟨x.1.1, x.2⟩) ∧
      ∃ lost, (ofTokens ts).unreachable = lost.filterMap (ts[·]?) ∧
        Built (forest ts) ts (done.nodes.map fun x => x.1.2) lost := by
  refine ⟨_, Worklist.leads_link (zipIdx_nodup ts), rfl, ?_, lost ts, unreachable_lost ts, ?_⟩
  · rw [forest, Forest.entries_ofTrees, ofTokens_eq, ← mapList_eq, Forest.entriesOfList_placed]
  · have hpositions : (placedList none 0 (link Prod.fst ts.zipIdx).trees).map (fun x => x.1.2) =
        positions ts := by
      rw [positions_eq, items, ← placedList_values none 0, List.map_map]
      rfl
    rw [hpositions]
    exact forest_built ts

end Forest

end TradeChat.Linkage
