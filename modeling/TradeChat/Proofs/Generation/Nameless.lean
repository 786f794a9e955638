import TradeChat.Proofs.Entity.Nameless
import TradeChat.Proofs.Linkage.Nodes
import TradeChat.Proofs.Notation.Scanning

namespace TradeChat
open TradeChat.Tree Linkage Notation

/-- The tokens right below a node of the forest are among those that it was built from. -/
theorem Linkage.attributes_forest {ts : List Token} (n : Fin (forest ts).size) :
    ∀ a ∈ ((forest ts).treeAt n).attributes, a ∈ ts := by
  intro a ha
  obtain ⟨c, hc, rfl⟩ := List.mem_map.mp ha
  have hnode : (forest ts).treeAt n ∈ (ofTokens ts).trees.flatMap subtrees :=
    List.mem_of_getElem? ((Forest.tree_ofTrees _ n).symm.trans ((forest ts).tree_treeAt n))
  exact mem_of_node (mem_subtreesOf_trans hnode (mem_subtrees_of_child hc))

section Line

variable {line : String} {ts : List Token} (h : parse line = .ok ts) (n : Fin (forest ts).size)
  {e : Entity} (he : Entity.ofTree? ((forest ts).treeAt n) = some e)

include h he

theorem parsed_trimmed : e.Trimmed := by
  refine Entity.trimmed_ofTree ?_ he
  intro a ha v hv
  exact ((parse_wellFormed h).value a (attributes_forest n a ha) v hv).tight

/-- An entity of a line that nothing could be called by shows the notice of its kind, and no
entity shows nothing at all. The one exception to both is a player with an empty class: a class
counts for its being there, whatever it reads. -/
theorem nameless_flagged :
    (e.Nameless → (∀ p, e = .player p → "" ∉ p.classes) → e.text = e.kind.notice) ∧
      (e.text = "" ↔ ∃ p, e = .player p ∧ p.Silent) :=
  ⟨fun hnameless hclass => hnameless.text hclass, Entity.text_empty (parsed_trimmed h n he)⟩

end Line

/-- The tokens of a search for a group by a player of whom only a level is known. -/
def stranger : List Token :=
  [⟨"FindGroup", some "a", none, none, none, false⟩,
    ⟨"Subject", some "s", some "a", none, some .and, false⟩,
    ⟨"Player", some "p", some "s", none, none, false⟩,
    ⟨"Level", none, some "p", some "60", none, false⟩]

theorem nameless_flagged_stranger :
    parse "FindGroup(a), Subject(a,s) Player(s,p) Level(p,'60')" = .ok stranger ∧
    ∃ n e, Entity.ofTree? ((forest stranger).treeAt n) = some e ∧ e.Nameless ∧
      e.text = "< Error: Incomplete player encountered >" := by
  have hparse : parse "FindGroup(a), Subject(a,s) Player(s,p) Level(p,'60')" = .ok stranger := by
    decide +kernel
  have he : Entity.ofTree? ((forest stranger).treeAt ⟨2, by decide +kernel⟩) =
      some (.player { level := some 60 }) := by decide +kernel
  have hnameless : (Entity.player { level := some 60 }).Nameless := ⟨nofun, rfl⟩
  refine ⟨hparse, _, _, he, hnameless, (nameless_flagged hparse _ he).1 hnameless ?_⟩
  intro p hp
  cases hp
  exact List.not_mem_nil

/-- The tokens of a search for a group by a player with a class that is empty. -/
def classless : List Token :=
  [⟨"FindGroup", some "a", none, none, none, false⟩,
    ⟨"Subject", some "s", some "a", none, some .and, false⟩,
    ⟨"Player", some "p", some "s", none, some .and, false⟩,
    ⟨"Class", none, some "p", some "", some .and, false⟩]

/-- A player without a role, whose one class is empty, shows nothing. -/
theorem classless_silent :
    parse "FindGroup(a), Subject(a,s), Player(s,p), Class(p,'')" = .ok classless ∧
    ∃ n e, Entity.ofTree? ((forest classless).treeAt n) = some e ∧ e.Nameless ∧
      e.text = "" ∧ e.text ≠ e.kind.notice := by
  refine ⟨by decide +kernel, ⟨2, by decide +kernel⟩,
    .player { classes := [""], marks := ⟨false, some .and⟩ }, by decide +kernel, ⟨?_, rfl⟩,
    by decide +kernel, by decide +kernel⟩
  exact fun c hc => List.mem_singleton.mp hc

end TradeChat
