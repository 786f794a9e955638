import TradeChat.Proofs.Linkage.Placement

namespace TradeChat.Linkage
open TradeChat.Tree

variable {α : Type} {token : α → Token}

/-- Items that hang from none of the others wait until those have grown. -/
theorem Grows.append {id : Option String} {waiting left more : List α} {ts : List (Tree α)}
    (h : Grows token id waiting ts left)
    (hid : ∀ b ∈ more, ∀ name, id = some name → (token b).parent ≠ some name)
    (hmore : ∀ a ∈ waiting, ∀ b ∈ more, ¬ Hangs token a b) :
    Grows token id (waiting ++ more) ts (left ++ more) := by
  induction h with
  | bare waiting => exact .bare _
  | @done name waiting h =>
    refine .done ?_
    intro b hb
    rcases List.mem_append.mp hb with hb | hb
    · exact h b hb
    · exact hid b hb name rfl
  | @next name before after left last a inner ts hbefore ha hinner hrest ih1 ih2 =>
    have hothers : ∀ c ∈ before ++ after, ∀ b ∈ more, ¬ Hangs token c b := by
      intro c hc
      apply hmore
      rcases List.mem_append.mp hc with hc | hc
      · exact List.mem_append_left _ hc
      · exact List.mem_append_right _ (List.mem_cons_of_mem a hc)
    have hown : ∀ b ∈ more, ∀ own, (token a).id = some own → (token b).parent ≠ some own := by
      intro b hb own hown hparent
      exact hmore a (List.mem_append_right _ List.mem_cons_self) b hb ⟨own, hown, hparent⟩
    have h1 := ih1 hown hothers
    have h2 := ih2 hid fun c hc => hothers c (hinner.sublist.subset hc)
    rw [List.append_assoc] at h1
    rw [List.append_assoc, List.cons_append]
    exact .next hbefore ha h1 h2

theorem plant_append (token : α → Token) (roots more waiting : List α) :
    plant token (roots ++ more) waiting =
      ((plant token roots waiting).1 ++ (plant token more (plant token roots waiting).2).1,
        (plant token more (plant token roots waiting).2).2) := by
  induction roots generalizing waiting with
  | nil => rfl
  | cons root roots ih => simp only [List.cons_append, plant, ih]

theorem plant_waiting {roots waiting more : List α}
    (hroots : ∀ a ∈ roots, ∀ b ∈ more, ¬ Hangs token a b)
    (hwaiting : ∀ a ∈ waiting, ∀ b ∈ more, ¬ Hangs token a b) :
    plant token roots (waiting ++ more) =
      ((plant token roots waiting).1, (plant token roots waiting).2 ++ more) := by
  induction roots generalizing waiting with
  | nil => rfl
  | cons root roots ih =>
    obtain ⟨hroot, hroots⟩ := List.forall_mem_cons.mp hroots
    have hgrown := grow_grows token (token root).id waiting
    have happend := hgrown.append
      (fun b hb name hid hparent => hroot b hb ⟨name, hid, hparent⟩) hwaiting
    obtain ⟨hinner, hleft⟩ := (grow_grows token (token root).id (waiting ++ more)).unique happend
    have hnext := ih hroots fun a ha => hwaiting a (hgrown.sublist.subset ha)
    simp only [plant, hinner, hleft, hnext]

/-- Where all of the first items are reached and none of the second hangs from one of them, the
trees of both stand one behind the other. -/
theorem link_append {all more : List α} (hreached : (link token all).unreachable = [])
    (hapart : ∀ a ∈ all, ∀ b ∈ more, ¬ Hangs token a b) :
    link token (all ++ more) =
      ⟨(link token all).trees ++ (link token more).trees, (link token more).unreachable⟩ := by
  have hleft : (plant token (all.filter fun a => (token a).isRoot)
      (all.filter fun a => !(token a).isRoot)).2 = [] := hreached
  have hfirst := @plant_waiting _ token (all.filter fun a => (token a).isRoot)
    (all.filter fun a => !(token a).isRoot) (more.filter fun a => !(token a).isRoot)
    (fun a ha b hb => hapart a (List.mem_filter.mp ha).1 b (List.mem_filter.mp hb).1)
    (fun a ha b hb => hapart a (List.mem_filter.mp ha).1 b (List.mem_filter.mp hb).1)
  simp only [link, List.filter_append, plant_append, hfirst, hleft, List.nil_append]

end TradeChat.Linkage
