import TradeChat.Proofs.Tree

namespace TradeChat.Tree

variable {α β : Type}

theorem levels_node (depth : Nat) (a : α) (ts : List (Tree α)) :
    (node a ts).levels depth = (depth, a) :: levelsOf (depth + 1) ts := rfl

theorem levelsOf_cons (depth : Nat) (t : Tree α) (rest : List (Tree α)) :
    levelsOf depth (t :: rest) = t.levels depth ++ levelsOf depth rest := rfl

mutual

theorem levels_values (depth : Nat) : (t : Tree α) → (t.levels depth).map Prod.snd = t.values
  | node a ts => by
    rw [levels_node, List.map_cons, levelsOf_values, values, subtrees_node, List.map_cons,
      List.map_flatMap]
    rfl

theorem levelsOf_values (depth : Nat) :
    (ts : List (Tree α)) → (levelsOf depth ts).map Prod.snd = ts.flatMap values
  | [] => rfl
  | t :: rest => by
    rw [levelsOf_cons, List.map_append, levels_values, levelsOf_values, List.flatMap_cons]

end

theorem mem_levels {depth : Nat} {t : Tree α} {x : Nat × α} (hx : x ∈ t.levels depth) :
    x.2 ∈ t.values := by
  rw [← levels_values depth]
  exact List.mem_map.mpr ⟨x, hx, rfl⟩

theorem mem_levelsOf {depth : Nat} {ts : List (Tree α)} {x : Nat × α} :
    x ∈ levelsOf depth ts ↔ ∃ t ∈ ts, x ∈ t.levels depth := by
  induction ts with
  | nil => simp [levelsOf]
  | cons t rest ih => rw [levelsOf_cons, List.mem_append, ih, List.exists_mem_cons_iff]

mutual

theorem levels_map (f : α → β) (depth : Nat) :
    (t : Tree α) → (t.map f).levels depth = (t.levels depth).map (Prod.map id f)
  | node a ts => by
    rw [map, levels_node, levelsOf_map, levels_node, List.map_cons]
    rfl

theorem levelsOf_map (f : α → β) (depth : Nat) :
    (ts : List (Tree α)) → levelsOf depth (mapList f ts) =
      (levelsOf depth ts).map (Prod.map id f)
  | [] => rfl
  | t :: rest => by
    rw [mapList, levelsOf_cons, levels_map, levelsOf_map, levelsOf_cons, List.map_append]

end

/-- The first node of a list of trees lies at the depth of the list. -/
theorem levelsOf_head {depth : Nat} {ts : List (Tree α)} {more : List (Nat × α)}
    (hmore : ∀ x ∈ more.head?, x.1 ≤ depth) :
    ∀ x ∈ (levelsOf depth ts ++ more).head?, x.1 ≤ depth := by
  cases ts with
  | nil => exact hmore
  | cons t rest =>
    cases t with
    | node a us =>
      intro x hx
      cases hx
      exact Nat.le_refl _

mutual

/-- A tree ends where the depth comes back to that of its root, so that the depths tell what
belongs to it. -/
theorem levels_cancel {depth : Nat} {xs ys : List (Nat × α)}
    (hxs : ∀ x ∈ xs.head?, x.1 ≤ depth) (hys : ∀ y ∈ ys.head?, y.1 ≤ depth) :
    (t u : Tree α) → t.levels depth ++ xs = u.levels depth ++ ys → t = u ∧ xs = ys
  | node a ts, node b us, h => by
    rw [levels_node, levels_node, List.cons_append, List.cons_append, List.cons.injEq,
      Prod.mk.injEq] at h
    obtain ⟨⟨-, rfl⟩, h⟩ := h
    obtain ⟨rfl, hrest⟩ := levelsOf_cancel (fun x hx => Nat.lt_succ_of_le (hxs x hx))
      (fun y hy => Nat.lt_succ_of_le (hys y hy)) ts us h
    exact ⟨rfl, hrest⟩

theorem levelsOf_cancel {depth : Nat} {xs ys : List (Nat × α)}
    (hxs : ∀ x ∈ xs.head?, x.1 < depth) (hys : ∀ y ∈ ys.head?, y.1 < depth) :
    (ts us : List (Tree α)) → levelsOf depth ts ++ xs = levelsOf depth us ++ ys →
      ts = us ∧ xs = ys
  | [], [], h => ⟨rfl, h⟩
  | [], node b us :: rest, h => by
    have := hxs (depth, b) (by rw [levelsOf, List.nil_append] at h; rw [h]; rfl)
    omega
  | node a ts :: rest, [], h => by
    have := hys (depth, a) (by rw [levelsOf, List.nil_append] at h; rw [← h]; rfl)
    omega
  | t :: ts, u :: us, h => by
    rw [levelsOf_cons, levelsOf_cons, List.append_assoc, List.append_assoc] at h
    obtain ⟨rfl, hrest⟩ := levels_cancel (levelsOf_head fun x hx => Nat.le_of_lt (hxs x hx))
      (levelsOf_head fun y hy => Nat.le_of_lt (hys y hy)) t u h
    obtain ⟨rfl, hmore⟩ := levelsOf_cancel hxs hys ts us hrest
    exact ⟨rfl, hmore⟩

end

/-- A tree is known by its nodes in pre-order with their depths. -/
theorem levels_injective {depth : Nat} {t u : Tree α} (h : t.levels depth = u.levels depth) :
    t = u := by
  rw [← List.append_nil (t.levels depth), ← List.append_nil (u.levels depth)] at h
  exact (levels_cancel (by simp) (by simp) t u h).1

end TradeChat.Tree
