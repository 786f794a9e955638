import TradeChat.Generation
import TradeChat.Proofs.Linkage.Nodes

namespace TradeChat.Linkage
open TradeChat.Tree Notation

section Items

variable {α : Type} {token : α → Token} {all others waiting waiting' left : List α}

/-- Each parent id, and the lack of one, has the same items in the same order. How the items of
different parents are mixed is left open. -/
def SameSiblings (token : α → Token) (all others : List α) : Prop :=
  ∀ parent, all.filter (fun a => (token a).parent = parent) =
    others.filter fun a => (token a).parent = parent

theorem sameSiblings_iff : SameSiblings token all others ↔
    ∀ parent ∈ (all ++ others).map fun a => (token a).parent,
      all.filter (fun a => (token a).parent = parent) =
        others.filter fun a => (token a).parent = parent := by
  constructor
  · intro h parent _
    exact h parent
  · intro h parent
    by_cases hmem : parent ∈ (all ++ others).map fun a => (token a).parent
    · exact h parent hmem
    · have hnone : ∀ a ∈ all ++ others, (token a).parent ≠ parent := by
        rintro a ha rfl
        exact hmem (List.mem_map.mpr ⟨a, ha, rfl⟩)
      rw [List.forall_mem_append] at hnone
      rw [List.filter_eq_nil_iff.mpr (by simpa using hnone.1),
        List.filter_eq_nil_iff.mpr (by simpa using hnone.2)]

instance [DecidableEq α] : Decidable (SameSiblings token all others) :=
  decidable_of_iff _ sameSiblings_iff.symm

namespace SameSiblings

theorem perm [DecidableEq α] (h : SameSiblings token all others) : all.Perm others := by
  rw [List.perm_iff_count]
  intro a
  have hcount : ∀ l : List α,
      (l.filter fun b => (token b).parent = (token a).parent).count a = l.count a :=
    fun l => List.count_filter (by simp)
  rw [← hcount all, h, hcount]

theorem filter (h : SameSiblings token all others) (p : α → Bool) :
    SameSiblings token (all.filter p) (others.filter p) := by
  intro parent
  rw [List.filter_comm, h parent, List.filter_comm]

/-- The first item that hangs from an id is the same in both lists, and so are the siblings among
the items that are left once it is taken out. -/
theorem pick {before after : List α} {a : α} {name : String}
    (h : SameSiblings token (before ++ a :: after) others)
    (hbefore : ∀ b ∈ before, (token b).parent ≠ some name) (ha : (token a).parent = some name) :
    ∃ before' after', others = before' ++ a :: after' ∧
      (∀ b ∈ before', (token b).parent ≠ some name) ∧
      SameSiblings token (before ++ after) (before' ++ after') := by
  have hnone : before.filter (fun b => (token b).parent = some name) = [] :=
    List.filter_eq_nil_iff.mpr (by simpa using hbefore)
  have hfirst := h (some name)
  rw [List.filter_append, hnone, List.nil_append, List.filter_cons_of_pos (by simpa using ha)]
    at hfirst
  obtain ⟨before', after', rfl, hbefore', -, hafter⟩ := List.filter_eq_cons_iff.mp hfirst.symm
  have hbefore' : ∀ b ∈ before', (token b).parent ≠ some name := by simpa using hbefore'
  have hnone' : before'.filter (fun b => (token b).parent = some name) = [] :=
    List.filter_eq_nil_iff.mpr (by simpa using hbefore')
  refine ⟨before', after', rfl, hbefore', ?_⟩
  intro parent
  by_cases hparent : parent = some name
  · rw [hparent, List.filter_append, List.filter_append, hnone, hnone', hafter]
  · have hskip : (token a).parent ≠ parent := by
      rw [ha]
      exact Ne.symm hparent
    have hall := h parent
    rw [List.filter_append, List.filter_append, List.filter_cons_of_neg (by simpa using hskip),
      List.filter_cons_of_neg (by simpa using hskip)] at hall
    rw [List.filter_append, List.filter_append, hall]

end SameSiblings

/-- Growing looks at siblings only: it takes the same items, and leaves the same siblings. -/
theorem Grows.sameSiblings {id : Option String} {ts : List (Tree α)}
    (h : Grows token id waiting ts left) (hs : SameSiblings token waiting waiting') :
    ∃ left', Grows token id waiting' ts left' ∧ SameSiblings token left left' := by
  induction h generalizing waiting' with
  | bare waiting => exact ⟨waiting', .bare _, hs⟩
  | @done name waiting hnone =>
    refine ⟨waiting', .done ?_, hs⟩
    have hnil := hs (some name)
    rw [List.filter_eq_nil_iff.mpr (by simpa using hnone)] at hnil
    simpa using List.filter_eq_nil_iff.mp hnil.symm
  | @next name before after left last a inner ts hbefore ha hinner hrest ih1 ih2 =>
    obtain ⟨before', after', rfl, hbefore', hothers⟩ := hs.pick hbefore ha
    obtain ⟨left', hinner', hleft⟩ := ih1 hothers
    obtain ⟨last', hrest', hlast⟩ := ih2 hleft
    exact ⟨last', .next hbefore' ha hinner' hrest', hlast⟩

theorem plant_sameSiblings (roots : List α) (hs : SameSiblings token waiting waiting') :
    (plant token roots waiting).1 = (plant token roots waiting').1 ∧
      SameSiblings token (plant token roots waiting).2 (plant token roots waiting').2 := by
  induction roots generalizing waiting waiting' with
  | nil => exact ⟨rfl, hs⟩
  | cons root roots ih =>
    obtain ⟨left', hgrows, hleft⟩ := (grow_grows token (token root).id waiting).sameSiblings hs
    obtain ⟨hinner, rfl⟩ := hgrows.unique (grow_grows token (token root).id waiting')
    obtain ⟨hnext, hlast⟩ := ih hleft
    simp only [plant]
    exact ⟨by rw [hinner, hnext], hlast⟩

theorem link_sameSiblings (hs : SameSiblings token all others) :
    (link token all).trees = (link token others).trees ∧
      SameSiblings token (link token all).unreachable (link token others).unreachable := by
  have hroots : all.filter (fun a => (token a).isRoot) =
      others.filter fun a => (token a).isRoot := by
    have hroot : ∀ a, (token a).isRoot = decide ((token a).parent = none) := by
      intro a
      rw [Token.isRoot, Bool.eq_iff_iff, Option.isNone_iff_eq_none, decide_eq_true_eq]
    simp only [hroot]
    exact hs none
  rw [link, link, hroots]
  exact plant_sameSiblings _ (hs.filter fun a => !(token a).isRoot)

end Items

/-- Only the order among siblings matters. If each parent id has the same tokens in the same order,
however the tokens of different parents are mixed, then the nodes are the same, with their
numbers and links, the lost tokens are the same up to their order, and so is all that is made of
the trees. -/
theorem forest_sameSiblings {ts us : List Token} (h : SameSiblings id ts us) :
    forest ts = forest us ∧ (ofTokens ts).unreachable.Perm (ofTokens us).unreachable ∧
      (∀ settings, Generation.ofTrees settings (ofTokens ts).trees =
        Generation.ofTrees settings (ofTokens us).trees) ∧
      ∀ x y, parse x = .ok ts → parse y = .ok us →
        ∀ settings, ∃ g, generate settings x = .ok g ∧ generate settings y = .ok g := by
  obtain ⟨htrees, hleft⟩ := link_sameSiblings h
  have htrees : (ofTokens ts).trees = (ofTokens us).trees := htrees
  refine ⟨by rw [forest, forest, htrees], hleft.perm, fun settings => by rw [htrees], ?_⟩
  intro x y hx hy settings
  refine ⟨.ofTrees settings (ofTokens ts).trees, ?_, ?_⟩
  · rw [generate, hx]
    rfl
  · rw [generate, hy, htrees]
    rfl

/-- The tokens of two items of one sentence, each item followed by what it has. -/
def apart : List Token :=
  [⟨"Sell", some "a", none, none, none, false⟩, ⟨"Item", some "b", some "a", none, none, false⟩,
    ⟨"Name", none, some "b", some "Axe", none, false⟩,
    ⟨"Quantity", none, some "b", some "2", none, false⟩,
    ⟨"Item", some "c", some "a", none, some .or, false⟩,
    ⟨"Name", none, some "c", some "Bow", none, false⟩]

/-- The same tokens, the items first and what they have mixed behind them. -/
def mixed : List Token :=
  [⟨"Sell", some "a", none, none, none, false⟩, ⟨"Item", some "b", some "a", none, none, false⟩,
    ⟨"Item", some "c", some "a", none, some .or, false⟩,
    ⟨"Name", none, some "b", some "Axe", none, false⟩,
    ⟨"Name", none, some "c", some "Bow", none, false⟩,
    ⟨"Quantity", none, some "b", some "2", none, false⟩]

theorem forest_sameSiblings_mixed :
    SameSiblings id apart mixed ∧ forest apart = forest mixed ∧
      parse "Sell(a) Item(a,b) Name(b,'Axe') Quantity(b,'2'); Item(a,c) Name(c,'Bow')" =
        .ok apart ∧
      parse "Sell(a) Item(a,b); Item(a,c) Name(b,'Axe') Name(c,'Bow') Quantity(b,'2')" =
        .ok mixed ∧
      ∀ settings, ∃ g,
        generate settings
          "Sell(a) Item(a,b) Name(b,'Axe') Quantity(b,'2'); Item(a,c) Name(c,'Bow')" = .ok g ∧
        generate settings
          "Sell(a) Item(a,b); Item(a,c) Name(b,'Axe') Name(c,'Bow') Quantity(b,'2')" = .ok g := by
  have hsiblings : SameSiblings id apart mixed := by decide
  have hapart : parse "Sell(a) Item(a,b) Name(b,'Axe') Quantity(b,'2'); Item(a,c) Name(c,'Bow')" =
      .ok apart := by decide +kernel
  have hmixed : parse "Sell(a) Item(a,b); Item(a,c) Name(b,'Axe') Name(c,'Bow') Quantity(b,'2')" =
      .ok mixed := by decide +kernel
  obtain ⟨hforest, -, -, hlines⟩ := forest_sameSiblings hsiblings
  exact ⟨hsiblings, hforest, hapart, hmixed, hlines _ _ hapart hmixed⟩

end TradeChat.Linkage
