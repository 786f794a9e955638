import TradeChat.Proofs.Forest.Nodes

namespace TradeChat

namespace Tree

variable {α β : Type}

mutual

/-- A tree with its nodes numbered in pre-order, from `start` on. -/
def number (start : Nat) : Tree α → Tree (Nat × α)
  | node a ts => node (start, a) (numberList (start + 1) ts)

def numberList (start : Nat) : List (Tree α) → List (Tree (Nat × α))
  | [] => []
  | t :: rest => t.number start :: numberList (start + t.size) rest

end

mutual

theorem number_values (start : Nat) : (t : Tree α) → (t.number start).map (·.2) = t
  | node a ts => by rw [number, map, numberList_values]

theorem numberList_values (start : Nat) :
    (ts : List (Tree α)) → mapList (·.2) (numberList start ts) = ts
  | [] => rfl
  | t :: rest => by rw [numberList, mapList, number_values, numberList_values]

end

mutual

theorem number_map (f : α → β) (start : Nat) :
    (t : Tree α) → (t.map f).number start = (t.number start).map (Prod.map id f)
  | node a ts => by rw [map, number, number, map, numberList_map]; rfl

theorem numberList_map (f : α → β) (start : Nat) :
    (ts : List (Tree α)) → numberList start (mapList f ts) =
      mapList (Prod.map id f) (numberList start ts)
  | [] => rfl
  | t :: rest => by
    rw [mapList, numberList, numberList, mapList, number_map, numberList_map, size_map]

end

mutual

theorem number_numbers (start : Nat) :
    (t : Tree α) → (t.number start).subtrees.map (fun u => u.value.1) = List.range' start t.size
  | node a ts => by
    rw [number, subtrees_node, List.map_cons, numberList_numbers, size, List.range'_succ]
    rfl

theorem numberList_numbers (start : Nat) :
    (ts : List (Tree α)) → ((numberList start ts).flatMap subtrees).map (fun u => u.value.1) =
      List.range' start (sizeOfList ts)
  | [] => rfl
  | t :: rest => by
    rw [numberList, List.flatMap_cons, List.map_append, number_numbers, numberList_numbers,
      sizeOfList, List.range'_append_1]

end

end Tree

namespace Forest
open TradeChat.Tree

mutual

/-- The places of a numbered tree that hangs from a node, or from none. -/
def links (parent : Option Nat) : Tree (Nat × Token) → List (Option Nat × Tree (Nat × Token))
  | node a ts => (parent, node a ts) :: linksOfList (some a.1) ts

def linksOfList (parent : Option Nat) :
    List (Tree (Nat × Token)) → List (Option Nat × Tree (Nat × Token))
  | [] => []
  | t :: rest => links parent t ++ linksOfList parent rest

end

mutual

theorem links_trees (parent : Option Nat) :
    (t : Tree (Nat × Token)) → (links parent t).map (·.2) = t.subtrees
  | node a ts => by rw [links, List.map_cons, linksOfList_trees, subtrees_node]

theorem linksOfList_trees (parent : Option Nat) :
    (ts : List (Tree (Nat × Token))) → (linksOfList parent ts).map (·.2) = ts.flatMap subtrees
  | [] => rfl
  | t :: rest => by
    rw [linksOfList, List.map_append, links_trees, linksOfList_trees, List.flatMap_cons]

end

mutual

/-- In a tree that is numbered from `start` on only the top hangs from outside. -/
theorem links_parent {parent : Option Nat} {start : Nat} {x : Option Nat × Tree (Nat × Token)} :
    (t : Tree Token) → x ∈ links parent (t.number start) →
      x = (parent, t.number start) ∨ ∃ p, x.1 = some p ∧ start ≤ p
  | node a ts, h => by
    rw [number, links, List.mem_cons] at h
    rcases h with rfl | h
    · exact Or.inl rfl
    · rcases linksOfList_parent ts h with ⟨t, -, rfl⟩ | ⟨p, hp, hle⟩
      · exact Or.inr ⟨start, rfl, Nat.le_refl _⟩
      · exact Or.inr ⟨p, hp, Nat.le_of_succ_le hle⟩

theorem linksOfList_parent {parent : Option Nat} {start : Nat}
    {x : Option Nat × Tree (Nat × Token)} :
    (ts : List (Tree Token)) → x ∈ linksOfList parent (numberList start ts) →
      (∃ t ∈ numberList start ts, x = (parent, t)) ∨ ∃ p, x.1 = some p ∧ start ≤ p
  | t :: rest, h => by
    rw [numberList, linksOfList, List.mem_append] at h
    rw [numberList]
    rcases h with h | h
    · rcases links_parent t h with rfl | hp
      · exact Or.inl ⟨_, List.mem_cons_self, rfl⟩
      · exact Or.inr hp
    · rcases linksOfList_parent rest h with ⟨u, hu, rfl⟩ | ⟨p, hp, hle⟩
      · exact Or.inl ⟨u, List.mem_cons_of_mem _ hu, rfl⟩
      · exact Or.inr ⟨p, hp, Nat.le_trans (Nat.le_add_right _ _) hle⟩

end

theorem links_tops {parent : Option Nat} {start : Nat} (h : ∀ p ∈ parent, p < start)
    (ts : List (Tree Token)) :
    ((linksOfList parent (numberList start ts)).filter (·.1 = parent)).map (·.2) =
      numberList start ts := by
  induction ts generalizing start with
  | nil => rfl
  | cons t rest ih =>
    have hrest := @ih (start + t.size) fun p hp => Nat.lt_add_right _ (h p hp)
    have htop : ((links parent (t.number start)).filter (·.1 = parent)).map (·.2) =
        [t.number start] := by
      cases t with
      | node a ts =>
        rw [number, links, List.filter_cons_of_pos (by simp), List.map_cons,
          List.filter_eq_nil_iff.mpr, List.map_nil]
        intro x hx
        have hlower : ∃ p, x.1 = some p ∧ start ≤ p := by
          rcases linksOfList_parent ts hx with ⟨t, -, rfl⟩ | ⟨p, hp, hle⟩
          · exact ⟨start, rfl, Nat.le_refl _⟩
          · exact ⟨p, hp, Nat.le_of_succ_le hle⟩
        obtain ⟨p, hp, hle⟩ := hlower
        intro he
        have := h p (by rw [← of_decide_eq_true he, hp]; rfl)
        omega
    rw [numberList, linksOfList, List.filter_append, List.map_append, htop, hrest]
    rfl

mutual

theorem entriesOf_parent {parent : Option Nat} {start : Nat} {e : Entry} :
    (t : Tree Token) → e ∈ entriesOf parent start t →
      e.parent = parent ∨ ∃ p, e.parent = some p ∧ start ≤ p
  | node a ts, h => by
    rw [entriesOf, List.mem_cons] at h
    rcases h with rfl | h
    · exact Or.inl rfl
    · rcases entriesOfList_parent ts h with hp | ⟨p, hp, hle⟩
      · exact Or.inr ⟨start, hp, Nat.le_refl _⟩
      · exact Or.inr ⟨p, hp, Nat.le_of_succ_le hle⟩

theorem entriesOfList_parent {parent : Option Nat} {start : Nat} {e : Entry} :
    (ts : List (Tree Token)) → e ∈ entriesOfList parent start ts →
      e.parent = parent ∨ ∃ p, e.parent = some p ∧ start ≤ p
  | t :: rest, h => by
    rw [entriesOfList, List.mem_append] at h
    rcases h with h | h
    · exact entriesOf_parent t h
    · rcases entriesOfList_parent rest h with hp | ⟨p, hp, hle⟩
      · exact Or.inl hp
      · exact Or.inr ⟨p, hp, Nat.le_trans (Nat.le_add_right _ _) hle⟩

end

theorem places_parent {start : Nat} {entries : List Entry} {x : Option Nat × Tree (Nat × Token)}
    (h : x ∈ places start entries) : ∃ e ∈ entries, e.parent = x.1 := by
  obtain ⟨i, hi⟩ := List.mem_iff_getElem?.mp h
  exact ⟨_, List.mem_of_getElem? (places_entry hi).1, rfl⟩

mutual

/-- The entries of a tree, with entries behind them that do not hang from it, have the places of
the numbered tree. -/
theorem places_entriesOf {parent : Option Nat} {start : Nat} {more : List Entry} :
    (t : Tree Token) →
      (∀ e ∈ more, ∀ p ∈ e.parent, p < start ∨ start + t.size ≤ p) →
      places start (entriesOf parent start t ++ more) =
        links parent (t.number start) ++ places (start + t.size) more
  | node a ts, hmore => by
    have hlater : places (start + 1) (entriesOfList (some start) (start + 1) ts ++ more) =
        linksOfList (some start) (numberList (start + 1) ts) ++
          places (start + 1 + sizeOfList ts) more :=
      places_entriesOfList (by simp) ts (by
        intro e he p hp
        have := hmore e he p hp
        rw [Tree.size] at this
        omega)
    -- What stands behind the tree hangs from outside it, so it adds no child to the root.
    have hinner : ((places (start + 1) (entriesOfList (some start) (start + 1) ts ++ more)).filter
        (·.1 = some start)).map (·.2) = numberList (start + 1) ts := by
      rw [hlater, List.filter_append, List.map_append, links_tops (by simp),
        List.filter_eq_nil_iff.mpr, List.map_nil, List.append_nil]
      intro x hx hx'
      obtain ⟨e, he, hp⟩ := places_parent hx
      have := hmore e he start (by rw [hp, of_decide_eq_true hx']; rfl)
      rw [Tree.size] at this
      omega
    rw [entriesOf, List.cons_append, places]
    simp only [hinner]
    rw [hlater, number, links, Tree.size, Nat.add_comm (sizeOfList ts) 1, Nat.add_assoc]
    rfl

theorem places_entriesOfList {parent : Option Nat} {start : Nat}
    (hparent : ∀ p ∈ parent, p < start) {more : List Entry} : (ts : List (Tree Token)) →
      (∀ e ∈ more, ∀ p ∈ e.parent, p < start ∨ start + sizeOfList ts ≤ p) →
      places start (entriesOfList parent start ts ++ more) =
        linksOfList parent (numberList start ts) ++ places (start + sizeOfList ts) more
  | [], _ => rfl
  | t :: rest, hmore => by
    have hrest : places (start + t.size) (entriesOfList parent (start + t.size) rest ++ more) =
        linksOfList parent (numberList (start + t.size) rest) ++
          places (start + t.size + sizeOfList rest) more :=
      places_entriesOfList (fun p hp => Nat.lt_add_right _ (hparent p hp)) rest (by
        intro e he p hp
        have := hmore e he p hp
        rw [sizeOfList] at this
        omega)
    rw [entriesOfList, List.append_assoc, places_entriesOf t, hrest, numberList,
      linksOfList, List.append_assoc, sizeOfList, Nat.add_assoc]
    intro e he p hp
    rcases List.mem_append.mp he with he | he
    · rcases entriesOfList_parent rest he with hq | ⟨q, hq, hle⟩
      · exact Or.inl (hparent p (hq ▸ hp))
      · rw [hq] at hp
        cases hp
        exact Or.inr hle
    · have := hmore e he p hp
      rw [sizeOfList] at this
      omega

end

theorem places_ofTrees (ts : List (Tree Token)) :
    places 0 (ofTrees ts).entries = linksOfList none (numberList 0 ts) := by
  have h : places 0 (entriesOfList none 0 ts ++ []) =
      linksOfList none (numberList 0 ts) ++ places (0 + sizeOfList ts) [] :=
    places_entriesOfList (by simp) ts (by simp)
  rwa [List.append_nil, places, List.append_nil] at h

theorem entries_ofTrees (ts : List (Tree Token)) :
    (ofTrees ts).entries = entriesOfList none 0 ts := rfl

theorem size_ofTrees (ts : List (Tree Token)) : (ofTrees ts).size = sizeOfList ts :=
  length_entriesOfList none 0 ts

theorem roots_ofTrees (ts : List (Tree Token)) :
    (ofTrees ts).roots = (numberList 0 ts).map (·.value.1) := by
  have htops : ((linksOfList none (numberList 0 ts)).filter (·.1 = none)).map (·.2) =
      numberList 0 ts := links_tops (by simp) ts
  rw [roots, hanging_places, places_ofTrees, ← congrArg (List.map _) htops, List.map_map]
  rfl

/-- The tree at a node of the forest is the numbered tree that has come so far in pre-order. -/
theorem place_ofTrees (ts : List (Tree Token)) (n : Nat) :
    (ofTrees ts).place? n = ((numberList 0 ts).flatMap subtrees)[n]? := by
  rw [place?, places_ofTrees, ← List.getElem?_map, linksOfList_trees]

theorem tree_ofTrees (ts : List (Tree Token)) (n : Nat) :
    (ofTrees ts).tree? n = (ts.flatMap subtrees)[n]? := by
  have hvalues : (numberList 0 ts).map (Tree.map (·.2)) = ts := by
    rw [← mapList_eq, numberList_values]
  rw [tree?, place_ofTrees, ← List.getElem?_map, ← subtreesOf_map, hvalues]

theorem place_top {ts : List (Tree Token)} {u : Tree (Nat × Token)} (hu : u ∈ numberList 0 ts) :
    (ofTrees ts).place? u.value.1 = some u := by
  have hnone : ∀ p ∈ (none : Option Nat), p < 0 := by simp
  rw [← links_tops hnone ts, ← places_ofTrees] at hu
  obtain ⟨⟨q, v⟩, hv, rfl⟩ := List.mem_map.mp hu
  exact place_of_mem (List.mem_filter.mp hv).1

/-- The trees at the roots are the trees that the forest was made of. -/
theorem roots_places_ofTrees (ts : List (Tree Token)) :
    (ofTrees ts).roots.filterMap (ofTrees ts).place? = numberList 0 ts := by
  rw [roots_ofTrees, List.filterMap_map]
  exact (List.filterMap_congr fun _ hu => place_top hu).trans List.filterMap_some

/-- An entry of a forest that stands behind `n` other nodes. -/
def shifted (n : Nat) (e : Entry) : Entry := { e with parent := e.parent.map (n + ·) }

mutual

theorem entriesOf_shifted (n : Nat) (parent : Option Nat) (start : Nat) :
    (t : Tree Token) → entriesOf (parent.map (n + ·)) (n + start) t =
      (entriesOf parent start t).map (shifted n)
  | node a ts => by
    rw [entriesOf, entriesOf, List.map_cons, ← entriesOfList_shifted, Option.map_some, shifted,
      Nat.add_assoc]

theorem entriesOfList_shifted (n : Nat) (parent : Option Nat) (start : Nat) :
    (ts : List (Tree Token)) → entriesOfList (parent.map (n + ·)) (n + start) ts =
      (entriesOfList parent start ts).map (shifted n)
  | [] => rfl
  | t :: rest => by
    rw [entriesOfList, entriesOfList, List.map_append, ← entriesOf_shifted,
      ← entriesOfList_shifted, Nat.add_assoc]

end

theorem entriesOfList_append (parent : Option Nat) (start : Nat) (ts us : List (Tree Token)) :
    entriesOfList parent start (ts ++ us) =
      entriesOfList parent start ts ++ entriesOfList parent (start + sizeOfList ts) us := by
  induction ts generalizing start with
  | nil => rfl
  | cons t rest ih =>
    rw [List.cons_append, entriesOfList, ih, entriesOfList, List.append_assoc, sizeOfList,
      Nat.add_assoc]

/-- More trees stand behind the nodes of the first ones, and keep their shape there. -/
theorem entries_append (ts us : List (Tree Token)) :
    (ofTrees (ts ++ us)).entries =
      (ofTrees ts).entries ++ (ofTrees us).entries.map (shifted (ofTrees ts).size) := by
  have h := entriesOfList_shifted (sizeOfList ts) none 0 us
  rw [Option.map_none, Nat.add_zero] at h
  simp only [entries_ofTrees, size_ofTrees, entriesOfList_append, Nat.zero_add, h]

end Forest

end TradeChat
