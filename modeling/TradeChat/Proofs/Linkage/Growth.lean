import TradeChat.Linkage
import TradeChat.Proofs.Tree

namespace TradeChat.Linkage
open TradeChat.Tree

variable {α β : Type} {token : α → Token}

/-- One item hangs from another that declares its parent id. -/
def Hangs (token : α → Token) (a b : α) : Prop :=
  ∃ name, (token a).id = some name ∧ (token b).parent = some name

theorem hangs_iff {a b : α} :
    Hangs token a b ↔ (token a).id.isSome ∧ (token b).parent = (token a).id := by
  rw [Hangs, Option.isSome_iff_exists]
  constructor
  · rintro ⟨name, hid, hparent⟩
    exact ⟨⟨name, hid⟩, hparent.trans hid.symm⟩
  · rintro ⟨⟨name, hid⟩, hparent⟩
    exact ⟨name, hid, hparent.trans hid⟩

instance (token : α → Token) (a b : α) : Decidable (Hangs token a b) :=
  decidable_of_iff _ hangs_iff.symm

theorem pick_some {name : String} {items others : List α} {a : α}
    (h : pick token name items = some (a, others)) :
    ∃ before after, items = before ++ a :: after ∧ others = before ++ after ∧
      (token a).parent = some name ∧ ∀ b ∈ before, (token b).parent ≠ some name := by
  induction items generalizing others with
  | nil => simp [pick] at h
  | cons b rest ih =>
    rw [pick] at h
    split at h
    · rename_i hb
      cases h
      exact ⟨[], rest, rfl, rfl, hb, by simp⟩
    · rename_i hb
      obtain ⟨⟨found, others'⟩, hp, he⟩ := Option.map_eq_some_iff.mp h
      cases he
      obtain ⟨before, after, rfl, rfl, ha, hbefore⟩ := ih hp
      exact ⟨b :: before, after, rfl, rfl, ha, List.forall_mem_cons.mpr ⟨hb, hbefore⟩⟩

theorem pick_none {name : String} {items : List α} (h : pick token name items = none) :
    ∀ b ∈ items, (token b).parent ≠ some name := by
  induction items with
  | nil => simp
  | cons b rest ih =>
    rw [pick] at h
    split at h
    · cases h
    · rename_i hb
      exact List.forall_mem_cons.mpr ⟨hb, ih (Option.map_eq_none_iff.mp h)⟩

/-- How trees grow from an id: the first item that hangs from it is taken with all that hangs
from that item in turn, and then the next, until none is left. -/
inductive Grows (token : α → Token) :
    Option String → List α → List (Tree α) → List α → Prop
  | bare (waiting : List α) : Grows token none waiting [] waiting
  | done {name : String} {waiting : List α} :
      (∀ b ∈ waiting, (token b).parent ≠ some name) →
      Grows token (some name) waiting [] waiting
  | next {name : String} {before after left last : List α} {a : α} {inner ts : List (Tree α)} :
      (∀ b ∈ before, (token b).parent ≠ some name) → (token a).parent = some name →
      Grows token (token a).id (before ++ after) inner left →
      Grows token (some name) left ts last →
      Grows token (some name) (before ++ a :: after) (.node a inner :: ts) last

theorem grow_grows (token : α → Token) (id : Option String) (waiting : List α) :
    Grows token id waiting (grow token id waiting).1.1 (grow token id waiting).1.2 := by
  fun_induction grow token id waiting with
  | case1 waiting => exact .bare waiting
  | case2 waiting name h => exact .done (pick_none h)
  | case3 waiting name a others h hlen inner left hleft hi hle next last hlast hn hle' ih1 ih2 =>
    obtain ⟨before, after, rfl, rfl, ha, hbefore⟩ := pick_some h
    rw [hi] at ih1
    rw [hn] at ih2
    exact .next hbefore ha ih1 ih2

/-- The items of some trees, each tree in pre-order. -/
def items (ts : List (Tree α)) : List α := ts.flatMap values

theorem items_eq (ts : List (Tree α)) : items ts = (ts.flatMap subtrees).map value := by
  rw [List.map_flatMap]
  rfl

theorem values_node (a : α) (ts : List (Tree α)) : (node a ts).values = a :: items ts := by
  rw [values, subtrees_node, List.map_cons, List.map_flatMap]
  rfl

theorem items_cons (t : Tree α) (ts : List (Tree α)) : items (t :: ts) = t.values ++ items ts :=
  List.flatMap_cons

theorem items_map (g : α → β) (ts : List (Tree α)) :
    items (ts.map (Tree.map g)) = (items ts).map g := by
  rw [items_eq, items_eq, subtreesOf_map, List.map_map, List.map_map]
  simp only [Function.comp_def, value_map]

theorem mem_items {ts : List (Tree α)} {a : α} :
    a ∈ items ts ↔ ∃ u ∈ ts.flatMap subtrees, u.value = a := by
  rw [items_eq, List.mem_map]

theorem taken_sublist (before after : List α) (a : α) :
    (before ++ after).Sublist (before ++ a :: after) :=
  (List.Sublist.refl before).append (List.sublist_cons_self a after)

namespace Grows

variable {id : Option String} {waiting left : List α} {ts : List (Tree α)}

/-- Growing neither loses nor doubles an item. -/
theorem perm (h : Grows token id waiting ts left) : (items ts ++ left).Perm waiting := by
  induction h with
  | bare waiting => exact .refl _
  | done h => exact .refl _
  | @next name before after left last a inner ts hbefore ha hinner hrest ih1 ih2 =>
    rw [items_cons, values_node, List.append_assoc, List.cons_append]
    exact (((ih2.append_left _).trans ih1).cons a).trans List.perm_middle.symm

theorem sublist (h : Grows token id waiting ts left) : left.Sublist waiting := by
  induction h with
  | bare waiting => exact .refl _
  | done h => exact .refl _
  | @next name before after left last a inner ts hbefore ha hinner hrest ih1 ih2 =>
    exact (ih2.trans ih1).trans (taken_sublist before after a)

theorem tops (h : Grows token id waiting ts left) :
    ∀ t ∈ ts, ∃ name, id = some name ∧ (token t.value).parent = some name := by
  induction h with
  | bare waiting => simp
  | done h => simp
  | next hbefore ha hinner hrest ih1 ih2 =>
    exact List.forall_mem_cons.mpr ⟨⟨_, rfl, ha⟩, ih2⟩

/-- The trees stand in the order in which their tops waited. -/
theorem tops_sublist (h : Grows token id waiting ts left) : (ts.map value).Sublist waiting := by
  induction h with
  | bare waiting => exact List.nil_sublist _
  | done h => exact List.nil_sublist _
  | @next name before after left last a inner ts hbefore ha hinner hrest ih1 ih2 =>
    obtain ⟨early, late, he, hearly, hlate⟩ :=
      List.sublist_append_iff.mp (ih2.trans hinner.sublist)
    -- Nothing before the first hit hangs from the id, so no later tree starts there.
    have hnone : early = [] := by
      apply List.eq_nil_iff_forall_not_mem.mpr
      intro b hb
      obtain ⟨t, ht, rfl⟩ := List.mem_map.mp (he ▸ List.mem_append_left late hb)
      obtain ⟨_, hname, hp⟩ := hrest.tops t ht
      cases hname
      exact hbefore t.value (hearly.subset hb) hp
    subst hnone
    rw [List.map_cons, he, value_node]
    exact (hlate.cons_cons a).trans (List.sublist_append_right before _)

/-- Below each node stand items that hang from it, in the order in which they waited. -/
theorem linked (h : Grows token id waiting ts left) :
    ∀ u ∈ ts.flatMap subtrees, (u.children.map value).Sublist waiting ∧
      ∀ c ∈ u.children, Hangs token u.value c.value := by
  induction h with
  | bare waiting => simp
  | done h => simp
  | @next name before after left last a inner ts hbefore ha hinner hrest ih1 ih2 =>
    have hskip := taken_sublist before after a
    intro u hu
    rw [List.flatMap_cons, subtrees_node, List.cons_append, List.mem_cons, List.mem_append] at hu
    rcases hu with rfl | hu | hu
    · exact ⟨hinner.tops_sublist.trans hskip, fun c hc => hinner.tops c hc⟩
    · obtain ⟨hsub, hhang⟩ := ih1 u hu
      exact ⟨hsub.trans hskip, hhang⟩
    · obtain ⟨hsub, hhang⟩ := ih2 u hu
      exact ⟨(hsub.trans hinner.sublist).trans hskip, hhang⟩

/-- What is left over hangs neither from the id nor from anything that was placed. -/
theorem closed (h : Grows token id waiting ts left) :
    ∀ b ∈ left, (∀ name, id = some name → (token b).parent ≠ some name) ∧
      ∀ a ∈ items ts, ¬ Hangs token a b := by
  induction h with
  | bare waiting => simp [items]
  | done h =>
    intro b hb
    refine ⟨?_, by simp [items]⟩
    rintro name ⟨⟩
    exact h b hb
  | @next name before after left last a inner ts hbefore ha hinner hrest ih1 ih2 =>
    intro b hb
    obtain ⟨hid, hplaced⟩ := ih2 b hb
    obtain ⟨hown, hinside⟩ := ih1 b (hrest.sublist.subset hb)
    refine ⟨hid, ?_⟩
    intro c hc
    rw [items_cons, values_node, List.cons_append, List.mem_cons, List.mem_append] at hc
    rcases hc with rfl | hc | hc
    · rintro ⟨own, hc, hb⟩
      exact hown own hc hb
    · exact hinside c hc
    · exact hplaced c hc

/-- Only the tokens of the items count, so items may be named differently. -/
theorem map {token : β → Token} (g : α → β) (h : Grows (token ∘ g) id waiting ts left) :
    Grows token id (waiting.map g) (ts.map (Tree.map g)) (left.map g) := by
  induction h with
  | bare waiting => exact .bare _
  | done h => exact .done (by simpa using h)
  | @next name before after left last a inner ts hbefore ha hinner hrest ih1 ih2 =>
    rw [List.map_append] at ih1
    rw [List.map_append, List.map_cons, List.map_cons, Tree.map, mapList_eq]
    exact .next (by simpa using hbefore) ha ih1 ih2

end Grows

theorem split_unique {p : α → Bool} {before before' after after' : List α} {a a' : α}
    (he : before ++ a :: after = before' ++ a' :: after') (hb : ∀ b ∈ before, p b = true)
    (hb' : ∀ b ∈ before', p b = true) (ha : p a = false) (ha' : p a' = false) :
    before = before' ∧ a = a' ∧ after = after' := by
  have htake := congrArg (List.takeWhile p) he
  rw [List.takeWhile_append_of_pos hb, List.takeWhile_append_of_pos hb'] at htake
  simp only [List.takeWhile_cons, ha, ha', Bool.false_eq_true, ↓reduceIte, List.append_nil] at htake
  subst htake
  obtain ⟨rfl, rfl⟩ := List.cons.inj (List.append_cancel_left he)
  exact ⟨rfl, rfl, rfl⟩

/-- Growing has one outcome. -/
theorem Grows.unique {id : Option String} {waiting left left' : List α} {ts ts' : List (Tree α)}
    (h : Grows token id waiting ts left) (h' : Grows token id waiting ts' left') :
    ts = ts' ∧ left = left' := by
  induction h generalizing ts' left' with
  | bare waiting =>
    cases h'
    exact ⟨rfl, rfl⟩
  | @done name waiting h =>
    cases h' with
    | done _ => exact ⟨rfl, rfl⟩
    | @next _ before after _ _ a _ _ _ ha _ _ =>
      exact absurd ha (h a (List.mem_append_right before List.mem_cons_self))
  | @next name before after left last a inner ts hbefore ha hinner hrest ih1 ih2 =>
    generalize he : before ++ a :: after = items at h'
    cases h' with
    | done h =>
      subst he
      exact absurd ha (h a (List.mem_append_right before List.mem_cons_self))
    | @next _ before' after' left' _ a' inner' ts' hbefore' ha' hinner' hrest' =>
      obtain ⟨rfl, rfl, rfl⟩ := split_unique
        (p := fun b => decide ((token b).parent ≠ some name)) he (by simpa using hbefore)
        (by simpa using hbefore') (by simpa using ha) (by simpa using ha')
      obtain ⟨rfl, rfl⟩ := ih1 hinner'
      obtain ⟨rfl, rfl⟩ := ih2 hrest'
      exact ⟨rfl, rfl⟩

theorem grow_map {token : β → Token} (g : α → β) (id : Option String) (waiting : List α) :
    (grow token id (waiting.map g)).1 =
      ((grow (token ∘ g) id waiting).1.1.map (Tree.map g),
        (grow (token ∘ g) id waiting).1.2.map g) := by
  obtain ⟨hts, hleft⟩ := (grow_grows token id (waiting.map g)).unique
    ((grow_grows (token ∘ g) id waiting).map g)
  exact Prod.ext hts hleft

end TradeChat.Linkage
