import Mathlib.Data.List.Induction
import TradeChat.Proofs.Linkage.Growth

namespace TradeChat.Linkage
open TradeChat.Tree

variable {α β : Type} {token : α → Token}

/-- Trees from some roots and from items that wait: everything is in the trees or left over, and
the trees hold what hangs together. -/
structure Planted (token : α → Token) (roots waiting : List α) (ts : List (Tree α))
    (left : List α) : Prop where
  perm : (items ts ++ left).Perm (roots ++ waiting)
  sublist : left.Sublist waiting
  tops : ts.map value = roots
  linked : ∀ u ∈ ts.flatMap subtrees, (u.children.map value).Sublist waiting ∧
    ∀ c ∈ u.children, Hangs token u.value c.value
  closed : ∀ b ∈ left, ∀ a ∈ items ts, ¬ Hangs token a b

theorem plant_planted (token : α → Token) (roots waiting : List α) :
    Planted token roots waiting (plant token roots waiting).1 (plant token roots waiting).2 := by
  induction roots generalizing waiting with
  | nil => exact ⟨.refl _, .refl _, rfl, by simp [plant], by simp [plant, items]⟩
  | cons root roots ih =>
    have hg := grow_grows token (token root).id waiting
    have hp := ih (grow token (token root).id waiting).1.2
    rw [plant]
    generalize (grow token (token root).id waiting).1 = inner at hg hp
    generalize plant token roots inner.2 = next at hp
    refine ⟨?_, hp.sublist.trans hg.sublist, ?_, ?_, ?_⟩
    · rw [items_cons, values_node, List.append_assoc, List.cons_append, List.cons_append]
      have hrest := (hp.perm.append_left (items inner.1)).trans (List.perm_append_comm_assoc ..)
      exact ((hrest.trans (hg.perm.append_left roots))).cons root
    · rw [List.map_cons, hp.tops, value_node]
    · intro u hu
      rw [List.flatMap_cons, subtrees_node, List.cons_append, List.mem_cons, List.mem_append] at hu
      rcases hu with rfl | hu | hu
      · exact ⟨hg.tops_sublist, fun c hc => hg.tops c hc⟩
      · exact hg.linked u hu
      · obtain ⟨hsub, hhang⟩ := hp.linked u hu
        exact ⟨hsub.trans hg.sublist, hhang⟩
    · intro b hb a ha
      rw [items_cons, values_node, List.cons_append, List.mem_cons, List.mem_append] at ha
      obtain ⟨hroot, hinner⟩ := hg.closed b (hp.sublist.subset hb)
      rcases ha with rfl | ha | ha
      · rintro ⟨name, hname, hparent⟩
        exact hroot name hname hparent
      · exact hinner a ha
      · exact hp.closed b hb a ha

theorem plant_map {token : β → Token} (g : α → β) (roots waiting : List α) :
    plant token (roots.map g) (waiting.map g) =
      ((plant (token ∘ g) roots waiting).1.map (Tree.map g),
        (plant (token ∘ g) roots waiting).2.map g) := by
  induction roots generalizing waiting with
  | nil => rfl
  | cons root roots ih =>
    simp only [List.map_cons, plant, grow_map, ih, Function.comp_apply, Tree.map, mapList_eq]

theorem link_planted (token : α → Token) (all : List α) :
    Planted token (all.filter fun a => (token a).isRoot) (all.filter fun a => !(token a).isRoot)
      (link token all).trees (link token all).unreachable := plant_planted _ _ _

theorem link_top {all : List α} {t : Tree α} (ht : t ∈ (link token all).trees) :
    t.value ∈ all ∧ (token t.value).isRoot = true := by
  have htop : t.value ∈ all.filter fun a => (token a).isRoot := by
    rw [← (link_planted token all).tops]
    exact List.mem_map.mpr ⟨t, ht, rfl⟩
  exact List.mem_filter.mp htop

theorem link_map {token : β → Token} (g : α → β) (all : List α) :
    link token (all.map g) =
      ⟨(link (token ∘ g) all).trees.map (Tree.map g),
        (link (token ∘ g) all).unreachable.map g⟩ := by
  simp only [link, List.filter_map, Function.comp_def, plant_map]

theorem link_perm (token : α → Token) (all : List α) :
    (items (link token all).trees ++ (link token all).unreachable).Perm all :=
  (link_planted token all).perm.trans (List.filter_append_perm _ all)

theorem mem_of_node {all : List α} {u : Tree α}
    (hu : u ∈ (link token all).trees.flatMap subtrees) : u.value ∈ all :=
  (link_perm token all).subset (List.mem_append_left _ (mem_items.mpr ⟨u, hu, rfl⟩))

/-- If each item is a root or hangs from an earlier one, all items are reached. -/
theorem link_reaches {all : List α}
    (h : ∀ before b after, all = before ++ b :: after →
      (token b).isRoot = true ∨ ∃ a ∈ before, Hangs token a b) :
    (link token all).unreachable = [] := by
  have hp := link_planted token all
  -- By induction from the front: what an item hangs from is reached before it.
  have hreach : ∀ before after, all = before ++ after →
      ∀ b ∈ before, b ∉ (link token all).unreachable := by
    intro before
    induction before using List.reverseRecOn with
    | nil => simp
    | append_singleton before c ih =>
      intro after he b hb
      rw [List.append_assoc] at he
      have hearlier := ih _ he
      rcases List.mem_append.mp hb with hb | hb
      · exact hearlier b hb
      · rw [List.mem_singleton.mp hb]
        intro hleft
        rcases h before c after he with hroot | ⟨a, ha, hhang⟩
        · have := (List.mem_filter.mp (hp.sublist.subset hleft)).2
          simp [hroot] at this
        · have hall : a ∈ items (link token all).trees ++ (link token all).unreachable := by
            rw [(link_perm token all).mem_iff, he]
            exact List.mem_append_left _ ha
          have hplaced := (List.mem_append.mp hall).resolve_right (hearlier a ha)
          exact hp.closed c hleft a hplaced hhang
  apply List.eq_nil_iff_forall_not_mem.mpr
  intro b hb
  have hall : b ∈ all := (link_perm token all).mem_iff.mp (List.mem_append_right _ hb)
  exact hreach all [] (by simp) b hall hb

/-- A tree in a forest is one of its tops or a child of another. -/
theorem mem_forest {ts : List (Tree α)} {u : Tree α} (hu : u ∈ ts.flatMap subtrees) :
    u ∈ ts ∨ ∃ v ∈ ts.flatMap subtrees, u ∈ v.children :=
  downward (motive := fun u => u ∈ ts ∨ ∃ v ∈ ts.flatMap subtrees, u ∈ v.children)
    (fun _ ht => Or.inl ht) (fun v hv _ _ hc => Or.inr ⟨v, hv, hc⟩) u hu

end TradeChat.Linkage
