import TradeChat.Proofs.Forest.Dumping
import TradeChat.Proofs.Generation.Joined
import TradeChat.Proofs.Generation.OneLine

namespace TradeChat
open Text TradeChat.Tree Notation

/-- The lines of a dump of trees, the last of each tree being empty. -/
def treeLines (ts : List (Tree String)) : List (List Char) :=
  ts.flatMap fun t => dumpLines t ++ [[]]

theorem toList_treeDump (g : Generation) :
    g.treeDump.toList = (treeLines (g.trees.map (Tree.map Token.text))).flatMap (· ++ ['\n']) := by
  have htree : ∀ t : Tree Token, (t.dump Token.text ++ "\n").toList =
      (dumpLines (t.map Token.text) ++ [[]]).flatMap (· ++ ['\n']) := by
    intro t
    rw [String.toList_append, toList_dump, List.flatMap_append]
    rfl
  rw [Generation.treeDump, String.toList_join, List.flatMap_map, treeLines, List.flatMap_map,
    List.flatMap_assoc]
  exact List.flatMap_congr fun t _ => htree t

section Lines

variable {ts : List (Tree String)} (h : ∀ t ∈ ts, ∀ s ∈ t.values, Lined s)

include h

theorem treeLines_fields :
    fields '\n' ((treeLines ts).flatMap (· ++ ['\n'])) = treeLines ts ++ [[]] := by
  apply fields_ended
  intro line hline
  obtain ⟨t, ht, hline⟩ := List.mem_flatMap.mp hline
  rcases List.mem_append.mp hline with hline | hline
  · exact dumpLines_oneLine (h t ht) line hline
  · simp [List.mem_singleton.mp hline]

theorem filter_shown :
    (treeLines ts).filter (fun line => !line.all isBlank) = ts.flatMap dumpLines := by
  rw [treeLines, List.filter_flatMap]
  apply List.flatMap_congr
  intro t ht
  have hshown : (dumpLines t).filter (fun line => !line.all isBlank) = dumpLines t :=
    List.filter_eq_self.mpr fun line hline => by rw [dumpLines_shown (h t ht) line hline]; rfl
  rw [List.filter_append, hshown]
  exact List.append_nil _

theorem filter_blank :
    (treeLines ts).filter (fun line => line.all isBlank) = List.replicate ts.length [] := by
  rw [treeLines, List.filter_flatMap, ← List.map_const', List.map_eq_flatMap]
  apply List.flatMap_congr
  intro t ht
  have hnone : (dumpLines t).filter (fun line => line.all isBlank) = [] :=
    List.filter_eq_nil_iff.mpr fun line hline => by simp [dumpLines_shown (h t ht) line hline]
  rw [List.filter_append, hnone]
  rfl

theorem dumpLines_texts :
    (ts.flatMap dumpLines).map (fun line => (unindented line).2) = ts.flatMap values := by
  rw [List.map_flatMap]
  apply List.flatMap_congr
  intro t ht
  have hlevels := congrArg (List.map Prod.snd) (dumpLines_levels (h t ht))
  rwa [levels_values, List.map_map] at hlevels

end Lines

section Parsed

/-- The trees of tokens with the texts of the tokens. -/
def textTrees (ts : List Token) : List (Tree String) :=
  (Linkage.ofTokens ts).trees.map (Tree.map Token.text)

theorem length_textTrees (ts : List Token) :
    (textTrees ts).length = (ts.filter Token.isRoot).length := by
  have htops : (Linkage.ofTokens ts).trees.map value = ts.filter Token.isRoot :=
    (Linkage.link_planted id ts).tops
  rw [textTrees, List.length_map, ← htops, List.length_map]

variable {line : String} {ts : List Token} (hparse : parse line = .ok ts)

include hparse

/-- The trees of a line hold the texts of all its tokens. -/
theorem textTrees_perm : ((textTrees ts).flatMap values).Perm (ts.map Token.text) := by
  have hperm := (Linkage.link_perm id ts).map Token.text
  have hreached := Linkage.ofTokens_reached (parse_wellFormed hparse)
  rw [Linkage.ofTokens] at hreached
  rwa [hreached, List.append_nil, ← Linkage.items_map] at hperm

theorem textTrees_lined (hline : OneLine line) : ∀ t ∈ textTrees ts, ∀ s ∈ t.values, Lined s := by
  intro t ht s hs
  have hmem := (textTrees_perm hparse).subset (List.mem_flatMap.mpr ⟨t, ht, hs⟩)
  obtain ⟨token, htoken, rfl⟩ := List.mem_map.mp hmem
  exact Token.lined_text (parse_shown hparse hline token htoken)

end Parsed

/-- A dump shows each node of a tree on a line of its own, in pre-order and indented by its level;
as long as texts take one line each, trees with the same dump have the same shape and texts, and
the dump of a line holds its tokens, and a blank line for each root. -/
theorem dump_faithful :
    (∀ s : Forest.Store, s.Grown → ∀ n < s.size,
      ∃ nodes lines, s.dump? n = some (String.join lines) ∧ s.Shows n nodes lines) ∧
    (∀ s s' : Forest.Store, s.Grown → s'.Grown → ∀ n < s.size, ∀ m < s'.size,
      s.OneLineTexts n → s'.OneLineTexts m → s.dump? n = s'.dump? m →
        ∀ path, s.shown? n path = s'.shown? m path) ∧
    ∀ line ts, parse line = .ok ts → OneLine line → ∀ settings, ∃ g lines,
      generate settings line = .ok g ∧
      (Linkage.forest ts).store.treeDump? = some g.treeDump ∧
      fields '\n' g.treeDump.toList = lines ++ [[]] ∧
      ((lines.filter fun line => !line.all isBlank).map fun line => (unindented line).2).Perm
        (ts.map Token.text) ∧
      (lines.filter fun line => line.all isBlank) =
        List.replicate (ts.filter Token.isRoot).length [] := by
  refine ⟨?shows, ?apart, ?lines⟩
  case shows =>
    intro s hs n hn
    obtain ⟨f, rfl⟩ := Forest.grown_store hs
    rw [Forest.size_store] at hn
    obtain ⟨t, ht⟩ := Forest.place_exists hn
    exact ⟨_, _, Forest.store_lines ht, Forest.store_shows ht⟩
  case apart =>
    intro s s' hs hs' n hn m hm hline hline' h
    obtain ⟨f, rfl⟩ := Forest.grown_store hs
    obtain ⟨g, rfl⟩ := Forest.grown_store hs'
    rw [Forest.size_store] at hn hm
    obtain ⟨t, ht⟩ := Forest.place_exists hn
    obtain ⟨u, hu⟩ := Forest.place_exists hm
    exact Forest.store_dump_apart ht hu hline hline' h
  case lines =>
    intro line ts hparse hline settings
    have hlined := textTrees_lined hparse hline
    refine ⟨_, treeLines (textTrees ts), generate_ok hparse, Forest.treeDump_ofTrees _, ?fields,
      ?tokens, ?roots⟩
    case fields =>
      rw [toList_treeDump]
      exact treeLines_fields hlined
    case tokens =>
      rw [filter_shown hlined, dumpLines_texts hlined]
      exact textTrees_perm hparse
    case roots => rw [filter_blank hlined, length_textTrees]

section Errand

open Forest

/-- The nodes of the errand, added in another order. -/
def errandAgain : Store :=
  (Store.request.addChild ⟨1, by decide⟩ ⟨"object", some "d", some "b", none, none, false⟩).addChild
    ⟨0, by decide⟩ ⟨"Object", some "c", some "a", none, some .or, false⟩

theorem errandAgain_grown : errandAgain.Grown :=
  .child (.child (.child (.root .empty _) _ _) _ _) _ _

theorem oneLineTexts_of_nodes {s : Store}
    (h : ∀ node ∈ s.nodes, OneLine node.token.type ∧ (∀ id ∈ node.token.id, OneLine id) ∧
      (∀ p ∈ node.token.parent, OneLine p) ∧ ∀ v ∈ node.token.value, OneLine v) (n : Nat) :
    s.OneLineTexts n := by
  intro m token _ htoken
  obtain ⟨node, hnode, rfl⟩ := Option.map_eq_some_iff.mp htoken
  obtain ⟨htype, hid, hparent, hvalue⟩ := h node (List.mem_of_getElem? hnode)
  exact oneLine_token htype hid hparent hvalue

theorem dump_faithful_errand :
    (∃ nodes lines, Store.errand.dump? 0 = some (String.join lines) ∧
      Store.errand.Shows 0 nodes lines) ∧
    Store.errand.dump? 0 = errandAgain.dump? 0 ∧
    (∀ path, Store.errand.shown? 0 path = errandAgain.shown? 0 path) ∧
    ∃ g lines, generate {} "Buy(a), Item(a,b) Item(a,c) Name(b,'Sword')" = .ok g ∧
      fields '\n' g.treeDump.toList = lines ++ [[]] ∧
      (lines.filter fun line => line.all isBlank) = [[]] := by
  obtain ⟨hshows, hapart, hlines⟩ := dump_faithful
  have hsame : Store.errand.dump? 0 = errandAgain.dump? 0 := by
    have hnodes : errandAgain.nodes =
        [⟨⟨"Buy", some "a", none, none, none, false⟩, none, [1, 3]⟩,
          ⟨⟨"Object", some "b", some "a", none, none, false⟩, some 0, [2]⟩,
          ⟨⟨"object", some "d", some "b", none, none, false⟩, some 1, []⟩,
          ⟨⟨"Object", some "c", some "a", none, some .or, false⟩, some 0, []⟩] := rfl
    simp +decide [Store.dump?, errand_nodes, hnodes, Store.walk]
  refine ⟨hshows _ Store.errand_grown 0 (by decide), hsame, ?_, ?_⟩
  · exact hapart _ _ Store.errand_grown errandAgain_grown 0 (by decide) 0 (by decide)
      (oneLineTexts_of_nodes (by decide +kernel) 0) (oneLineTexts_of_nodes (by decide +kernel) 0)
      hsame
  · have hparse : parse "Buy(a), Item(a,b) Item(a,c) Name(b,'Sword')" = .ok Linkage.purchase := by
      decide +kernel
    obtain ⟨g, lines, hg, -, hfields, -, hblank⟩ := hlines _ _ hparse (by decide +kernel) {}
    exact ⟨g, lines, hg, hfields, hblank⟩

end Errand

end TradeChat
