import TradeChat.Proofs.Linkage.Placement

namespace TradeChat

namespace Tree

variable {α : Type}

mutual

/-- The tree without the trees below it whose root is not kept. -/
def prune (keep : α → Bool) : Tree α → Tree α
  | node a ts => node a (pruneList keep ts)

def pruneList (keep : α → Bool) : List (Tree α) → List (Tree α)
  | [] => []
  | t :: rest => if keep t.value then t.prune keep :: pruneList keep rest else pruneList keep rest

end

theorem pruneList_eq (keep : α → Bool) (ts : List (Tree α)) :
    pruneList keep ts = (ts.filter fun t => keep t.value).map (prune keep) := by
  induction ts with
  | nil => rfl
  | cons t rest ih =>
    rw [pruneList, ih, List.filter_cons]
    split <;> rfl

theorem value_prune (keep : α → Bool) (t : Tree α) : (t.prune keep).value = t.value := by
  cases t with
  | node a ts => rfl

end Tree

namespace Linkage
open TradeChat.Tree

variable {α : Type} {token : α → Token} {keep : α → Bool} {all waiting roots : List α}

/-- With an item, all that hangs from it is dropped. -/
def Closed (token : α → Token) (keep : α → Bool) (all : List α) : Prop :=
  ∀ a ∈ all, keep a = false → ∀ b ∈ all, Hangs token a b → keep b = false

theorem Closed.mono {more : List α} (h : Closed token keep all) (hsub : more ⊆ all) :
    Closed token keep more :=
  fun a ha hkeep b hb => h a (hsub ha) hkeep b (hsub hb)

/-- What waits once an item has been taken out is closed too, and if the item is dropped, so is
all of it that hangs from the item. -/
theorem Closed.taken {before after : List α} {a : α}
    (h : Closed token keep (before ++ a :: after)) :
    Closed token keep (before ++ after) ∧ (keep a = false → ∀ b ∈ before ++ after, ∀ name,
      (token a).id = some name → (token b).parent = some name → keep b = false) := by
  have hsub := (taken_sublist before after a).subset
  refine ⟨h.mono hsub, ?_⟩
  intro hkeep b hb name hid hparent
  exact h a (List.mem_append_right before List.mem_cons_self) hkeep b (hsub hb)
    ⟨name, hid, hparent⟩

namespace Grows

variable {id : Option String} {left : List α} {ts : List (Tree α)}

/-- Below what is dropped nothing that is kept has grown. -/
theorem dropped (h : Grows token id waiting ts left) (hclosed : Closed token keep waiting)
    (hid : ∀ b ∈ waiting, ∀ name, id = some name → (token b).parent = some name →
      keep b = false) : left.filter keep = waiting.filter keep := by
  induction h with
  | bare waiting => rfl
  | done hnone => rfl
  | @next name before after left last a inner ts hbefore ha hinner hrest ih1 ih2 =>
    obtain ⟨hothers, hbelow⟩ := hclosed.taken
    have hkeep : keep a = false :=
      hid a (List.mem_append_right before List.mem_cons_self) name rfl ha
    have hleft := (hinner.sublist.trans (taken_sublist before after a)).subset
    rw [ih2 (hclosed.mono hleft) fun b hb => hid b (hleft hb), ih1 hothers (hbelow hkeep),
      List.filter_append, List.filter_append, List.filter_cons_of_neg (by simp [hkeep])]

/-- The items that are kept grow into the same trees without the items that are dropped. -/
theorem filter (h : Grows token id waiting ts left) (hclosed : Closed token keep waiting) :
    Grows token id (waiting.filter keep) (pruneList keep ts) (left.filter keep) := by
  induction h with
  | bare waiting => exact .bare _
  | done hnone => exact .done fun b hb => hnone b (List.mem_filter.mp hb).1
  | @next name before after left last a inner ts hbefore ha hinner hrest ih1 ih2 =>
    obtain ⟨hothers, hbelow⟩ := hclosed.taken
    have hinside := ih1 hothers
    have hbeside := ih2 (hothers.mono hinner.sublist.subset)
    cases hkeep : keep a with
    | true =>
      rw [List.filter_append] at hinside
      rw [List.filter_append, List.filter_cons_of_pos hkeep, pruneList, value_node, hkeep,
        if_pos rfl, prune]
      exact .next (fun b hb => hbefore b (List.mem_filter.mp hb).1) ha hinside hbeside
    | false =>
      rw [hinner.dropped hothers (hbelow hkeep), List.filter_append] at hbeside
      rw [List.filter_append, List.filter_cons_of_neg (by simp [hkeep]), pruneList, value_node,
        hkeep, if_neg Bool.false_ne_true]
      exact hbeside

end Grows

theorem plant_filter (hclosed : Closed token keep (roots ++ waiting)) :
    plant token (roots.filter keep) (waiting.filter keep) =
      (pruneList keep (plant token roots waiting).1,
        (plant token roots waiting).2.filter keep) := by
  induction roots generalizing waiting with
  | nil => rfl
  | cons root roots ih =>
    have hgrown := grow_grows token (token root).id waiting
    have hwaiting : Closed token keep waiting := hclosed.mono (List.subset_append_right _ _)
    have hleft : (grow token (token root).id waiting).1.2 ⊆ waiting := hgrown.sublist.subset
    have hnext := ih (hclosed.mono (List.append_subset.mpr
      ⟨fun a ha => List.mem_append_left _ (List.mem_cons_of_mem _ ha),
        fun a ha => List.mem_append_right _ (hleft ha)⟩))
    cases hkeep : keep root with
    | true =>
      obtain ⟨hinner, hrest⟩ :=
        (grow_grows token (token root).id (waiting.filter keep)).unique (hgrown.filter hwaiting)
      simp only [List.filter_cons, hkeep, ↓reduceIte, plant, hinner, hrest, hnext, pruneList,
        value_node, prune]
    | false =>
      have hnone := hgrown.dropped hwaiting fun b hb own hown hparent =>
        hclosed root List.mem_cons_self hkeep b (List.mem_append_right _ hb) ⟨own, hown, hparent⟩
      simp only [List.filter_cons, hkeep, Bool.false_eq_true, ↓reduceIte, plant, ← hnone, hnext,
        pruneList, value_node]

/-- Items can be dropped before or after linking, if all that hangs from them is dropped too. -/
theorem link_filter (hclosed : Closed token keep all) :
    link token (all.filter keep) =
      ⟨pruneList keep (link token all).trees, (link token all).unreachable.filter keep⟩ := by
  have hparts : (all.filter fun a => (token a).isRoot) ++
      (all.filter fun a => !(token a).isRoot) ⊆ all :=
    List.append_subset.mpr ⟨List.filter_sublist.subset, List.filter_sublist.subset⟩
  rw [link, List.filter_comm, List.filter_comm (fun a => !(token a).isRoot),
    plant_filter (hclosed.mono hparts), link]

end Linkage

end TradeChat
