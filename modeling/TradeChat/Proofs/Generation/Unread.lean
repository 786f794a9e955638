import TradeChat.Generation
import TradeChat.Proofs.Linkage.Built
import TradeChat.Proofs.Linkage.Parsed
import TradeChat.Proofs.Linkage.Pruned
import TradeChat.Proofs.Sentence.Abridged

namespace TradeChat
open TradeChat.Tree Notation

/-- What is left of a tree without trees in which nothing is looked for is an abridged tree. -/
theorem Tree.abridged_prune {α : Type} {token : α → Token} {keep : α → Bool} (t : Tree α)
    (h : ∀ u ∈ t.subtrees, keep u.value = false → (u.map token).Unread) :
    (t.map token).Abridged ((t.prune keep).map token) := by
  induction t using induct with
  | node a ts ih =>
    have hchild : ∀ t ∈ ts, t ∈ (node a ts).subtrees := fun t ht => mem_subtrees_of_child ht
    have hchildren : AbridgedList (ts.map (map token))
        ((ts.filter fun t => keep t.value).map fun t => (t.prune keep).map token) := by
      apply abridgedList_filter
      · intro t ht _
        exact ih t ht fun u hu => h u (mem_subtrees_trans (hchild t ht) hu)
      · intro t ht
        exact h t (hchild t ht)
    rw [prune, map, map, mapList_eq, mapList_eq, pruneList_eq, List.map_map]
    exact .node (.refl _) hchildren

namespace Linkage

/-- In a line, where no two tokens declare one id, a token stands in one tree only. -/
theorem StandsIn.unique {ts : List Token} (hw : WellFormed ts) {r s i : Nat}
    (h : StandsIn ts r i) (h' : StandsIn ts s i) : r = s := by
  induction h with
  | root ht hroot =>
    cases h' with
    | root _ _ => rfl
    | next _ _ hb hhang =>
      obtain ⟨name, -, hparent⟩ := hhang
      cases ht.symm.trans hb
      cases hroot.symm.trans hparent
  | @next i j a b _ ha hb hhang ih =>
    obtain ⟨name, hid, hparent⟩ := hhang
    cases h' with
    | root ht hroot =>
      cases hb.symm.trans ht
      cases hroot.symm.trans hparent
    | @next i' _ a' b' hrest ha' hb' hhang' =>
      obtain ⟨name', hid', hparent'⟩ := hhang'
      cases hb.symm.trans hb'
      cases hparent.symm.trans hparent'
      have hsame : (a, i) = (a', i') := same_id (zipIdx_wellFormed hw)
        (List.mem_zipIdx_iff_getElem?.mpr ha) (List.mem_zipIdx_iff_getElem?.mpr ha') hid hid'
      cases hsame
      exact ih hrest

end Linkage

open Linkage

/-- Positions of tokens that need not be known: with a token all that hangs from it is gone, and
what is gone stands in the tree of a root that names no event, or below a root and with a type that
is not looked for there. -/
structure Ignorable (ts : List Token) (gone : Nat → Bool) : Prop where
  closed : ∀ a ∈ ts.zipIdx, ∀ b ∈ ts.zipIdx, Hangs Prod.fst a b → gone a.2 = true →
    gone b.2 = true
  unread : ∀ a ∈ ts.zipIdx, gone a.2 = true →
    (∃ root ∈ ts.zipIdx, StandsIn ts root.2 a.2 ∧ EventKind.ofToken? root.1 = none) ∨
      a.1.isRoot = false ∧ a.1.Unnamed

/-- The tokens at the positions that are not gone. -/
def without (gone : Nat → Bool) (ts : List Token) : List Token :=
  (ts.zipIdx.filter fun a => !gone a.2).map Prod.fst

theorem Linkage.ofTokens_without {ts : List Token} {gone : Nat → Bool}
    (hclosed : Closed Prod.fst (fun a => !gone a.2) ts.zipIdx) :
    (ofTokens (without gone ts)).trees =
      ((link Prod.fst ts.zipIdx).trees.filter fun t => !gone t.value.2).map fun t =>
        (t.prune fun a => !gone a.2).map Prod.fst := by
  have hlink : (ofTokens (without gone ts)).trees =
      (link Prod.fst (ts.zipIdx.filter fun a => !gone a.2)).trees.map (Tree.map Prod.fst) :=
    congrArg Linked.trees (link_map Prod.fst _)
  rw [hlink, link_filter hclosed, pruneList_eq, List.map_map]
  rfl

namespace Ignorable

variable {ts : List Token} {gone : Nat → Bool} (hgone : Ignorable ts gone)

include hgone

section Trees

variable {t u : Tree (Token × Nat)} (ht : t ∈ (link Prod.fst ts.zipIdx).trees)

include ht

theorem below (hu : u ∈ t.subtrees) (hown : gone u.value.2 = true) :
    ∀ v ∈ u.subtrees, gone v.value.2 = true := by
  refine downward_tree hown ?_
  intro v hv hgone' c hc
  have hmem := mem_subtrees_trans hu hv
  exact hgone.closed _ (mem_of_subtree ht hmem) _
    (mem_of_subtree ht (mem_subtrees_trans hmem (mem_subtrees_of_child hc)))
    (hangs_of_child ht hmem c hc) hgone'

/-- What is gone from the tree of an event is nothing that is looked for there. -/
theorem unnamed (hw : WellFormed ts) {kind : EventKind}
    (hkind : EventKind.ofToken? t.value.1 = some kind) (hu : u ∈ t.subtrees)
    (hown : gone u.value.2 = true) : u.value.1.isRoot = false ∧ u.value.1.Unnamed := by
  refine (hgone.unread _ (mem_of_subtree ht hu) hown).resolve_left ?_
  rintro ⟨root, hroot, hstands, hnone⟩
  have hsame := hstands.unique hw (standsIn_subtree ht u hu)
  rw [List.mem_zipIdx_iff_getElem?, hsame, (root_of_tree ht).1, Option.some.injEq] at hroot
  rw [← hroot, hkind] at hnone
  cases hnone

/-- The tree of an event keeps its root, and gives the same sentence without what is gone. -/
theorem ofTree_prune (hw : WellFormed ts) (whitelist : Whitelist) :
    Sentence.ofTree? whitelist ((t.prune fun a => !gone a.2).map Prod.fst) =
      Sentence.ofTree? whitelist (t.map Prod.fst) := by
  cases hkind : EventKind.ofToken? t.value.1 with
  | none =>
    rw [Sentence.ofTree?, Sentence.ofTree?, value_map, value_map, value_prune, hkind]
    rfl
  | some kind =>
    refine (Sentence.abridged_ofTree (abridged_prune t ?_) whitelist).symm
    intro u hu hown v hv
    rw [subtrees_map] at hv
    obtain ⟨w, hw', rfl⟩ := List.mem_map.mp hv
    rw [value_map]
    have hdown := hgone.below ht hu (by simpa using hown) w hw'
    exact (hgone.unnamed ht hw hkind (mem_subtrees_trans hu hw') hdown).2

/-- A root that is gone names no event. -/
theorem ofTree_gone (hw : WellFormed ts) (hown : gone t.value.2 = true) (whitelist : Whitelist) :
    Sentence.ofTree? whitelist (t.map Prod.fst) = none := by
  rw [Sentence.ofTree?, value_map]
  cases hkind : EventKind.ofToken? t.value.1 with
  | none => rfl
  | some kind =>
    have hnot := (hgone.unnamed ht hw hkind (mem_subtrees_self t) hown).1
    simp [Token.isRoot, (root_of_tree ht).2] at hnot

end Trees

theorem trees_without : (ofTokens (without gone ts)).trees =
    ((link Prod.fst ts.zipIdx).trees.filter fun t => !gone t.value.2).map fun t =>
      (t.prune fun a => !gone a.2).map Prod.fst := by
  apply ofTokens_without
  intro a ha hkeep b hb hhang
  have hdown := hgone.closed a ha b hb hhang (by simpa using hkeep)
  simpa using hdown

end Ignorable

/-- What is not known is ignored. Tokens may be taken out of a line with all that hangs from them,
whatever connectives and negations they carry, if they stand in trees of no event or their types
are not looked for below a root: the sentences stay the same, whatever the settings allow. -/
theorem generate_without {line : String} {ts : List Token} {gone : Nat → Bool}
    (h : parse line = .ok ts) (hgone : Ignorable ts gone) (settings : Settings) :
    ∃ g, generate settings line = .ok g ∧
      (Generation.ofTrees settings (ofTokens (without gone ts)).trees).sentences = g.sentences := by
  have hw := parse_wellFormed h
  refine ⟨.ofTrees settings (ofTokens ts).trees, by rw [generate, h]; rfl, ?_⟩
  rw [Generation.ofTrees, Generation.ofTrees, hgone.trees_without, ofTokens_eq, List.filterMap_map,
    List.filterMap_map, List.filterMap_filter]
  refine List.filterMap_congr fun t ht => ?_
  cases hown : gone t.value.2 with
  | false =>
    simp only [Bool.not_false, ↓reduceIte, Function.comp_apply]
    exact hgone.ofTree_prune ht hw settings.whitelist
  | true =>
    simp only [Bool.not_true, Bool.false_eq_true, ↓reduceIte, Function.comp_apply]
    exact (hgone.ofTree_gone ht hw hown settings.whitelist).symm

/-- The tokens of a line with an attribute and a root that are not known. -/
def novelties : List Token :=
  [⟨"Sell", some "a", none, none, none, false⟩,
    ⟨"Glow", some "g", some "a", none, some .or, false⟩,
    ⟨"Hue", none, some "g", some "red", some .and, true⟩,
    ⟨"Item", some "b", some "a", none, some .and, false⟩,
    ⟨"Name", none, some "b", some "Axe", none, false⟩,
    ⟨"Foo", some "x", none, none, none, false⟩,
    ⟨"Item", some "y", some "x", none, some .or, false⟩]

theorem generate_without_novelties : Ignorable novelties ([1, 2, 5, 6].contains ·) ∧
    ∀ settings, ∃ g, generate settings
        "Sell(a); Glow(a,g), -Hue(g,'red'), Item(a,b) Name(b,'Axe') Foo(x); Item(x,y)" = .ok g ∧
      (Generation.ofTrees settings
        (ofTokens (without ([1, 2, 5, 6].contains ·) novelties)).trees).sentences =
          g.sentences := by
  have hparse : parse "Sell(a); Glow(a,g), -Hue(g,'red'), Item(a,b) Name(b,'Axe') Foo(x); Item(x,y)"
      = .ok novelties := by decide +kernel
  have hroot : StandsIn novelties 5 5 := .root rfl rfl
  have hitem : StandsIn novelties 5 6 := .next hroot rfl rfl ⟨"x", rfl, rfl⟩
  have hkinds : ∀ a ∈ novelties.zipIdx, [1, 2, 5, 6].contains a.2 = true →
      (a.2 = 5 ∨ a.2 = 6) ∨ a.1.isRoot = false ∧ a.1.Unnamed := by decide
  have hignorable : Ignorable novelties ([1, 2, 5, 6].contains ·) := by
    refine ⟨by decide, fun a ha hgone => (hkinds a ha hgone).imp_left fun hfoo => ?_⟩
    refine ⟨(⟨"Foo", some "x", none, none, none, false⟩, 5), by decide, ?_, by decide⟩
    rcases hfoo with h | h
    · rwa [h]
    · rwa [h]
  exact ⟨hignorable, generate_without hparse hignorable⟩

end TradeChat
