import TradeChat.Proofs.Linkage.Built
import TradeChat.Proofs.Sentence.Abridged

namespace TradeChat

/-- The second token is the first with `f` applied to its id and its parent, and with some letters
of its type in the other case. -/
structure Token.Renamed (f : String → String) (a b : Token) : Prop extends Token.Alike a b where
  id : b.id = a.id.map f
  parent : b.parent = a.parent.map f

namespace Forest

/-- The same numbers of nodes, linked in the same way. -/
structure SameShape (f g : Forest) : Prop where
  size : g.size = f.size
  parents : ∀ n, g.parent? n = f.parent? n
  children : ∀ n, g.children n = f.children n
  roots : g.roots = f.roots

theorem hanging_parents {parent : Option Nat} {start : Nat} {entries others : List Entry}
    (h : entries.map Entry.parent = others.map Entry.parent) :
    hanging parent start entries = hanging parent start others := by
  induction entries generalizing start others with
  | nil =>
    rw [List.map_eq_nil_iff.mp h.symm]
  | cons e rest ih =>
    cases others with
    | nil => cases h
    | cons d others =>
      obtain ⟨he, hrest⟩ := List.cons.inj h
      rw [hanging, hanging, he, ih hrest]

theorem sameShape_of_parents {f g : Forest}
    (h : g.entries.map Entry.parent = f.entries.map Entry.parent) : SameShape f g where
  size := by
    have hlength := congrArg List.length h
    rwa [List.length_map, List.length_map] at hlength
  parents := by
    intro n
    have hparent : (g.entries.map Entry.parent)[n]?.bind id =
        (f.entries.map Entry.parent)[n]?.bind id := by rw [h]
    rwa [List.getElem?_map, List.getElem?_map, Option.bind_map, Option.bind_map] at hparent
  children := fun _ => hanging_parents h
  roots := hanging_parents h

theorem sameShape_map {α : Type} (old new : α → Token) (ts : List (Tree α)) :
    (ofTrees (ts.map (Tree.map old))).SameShape (ofTrees (ts.map (Tree.map new))) := by
  apply sameShape_of_parents
  have hparents : ∀ token : α → Token,
      (ofTrees (ts.map (Tree.map token))).entries.map Entry.parent =
        (Tree.placedList none 0 ts).map Prod.snd := by
    intro token
    rw [entries_ofTrees, ← Tree.mapList_eq, entriesOfList_placed, List.map_map]
    rfl
  rw [hparents, hparents]

end Forest

namespace Linkage
open TradeChat.Tree

section Items

variable {α : Type} {old new : α → Token} {f : String → String} {all waiting : List α}

theorem renamed_parent {a b : Token} (hf : Function.Injective f) (h : a.Renamed f b)
    (name : String) : b.parent = some (f name) ↔ a.parent = some name := by
  rw [h.parent, Option.map_eq_some_iff]
  constructor
  · rintro ⟨_, hparent, he⟩
    rw [hparent, hf he]
  · intro hparent
    exact ⟨name, hparent, rfl⟩

/-- Growing only asks which parent is which id, and renaming does not change that. -/
theorem Grows.renamed {id : Option String} {left : List α} {ts : List (Tree α)}
    (h : Grows old id waiting ts left) (hf : Function.Injective f)
    (hw : ∀ a ∈ waiting, (old a).Renamed f (new a)) :
    Grows new (id.map f) waiting ts left := by
  induction h with
  | bare waiting => exact .bare waiting
  | @done name waiting hnone =>
    refine .done fun b hb => ?_
    rw [Ne, renamed_parent hf (hw b hb)]
    exact hnone b hb
  | @next name before after left last a inner ts hbefore ha hinner hrest ih1 ih2 =>
    obtain ⟨hearly, hlater⟩ := List.forall_mem_append.mp hw
    obtain ⟨hown, hlate⟩ := List.forall_mem_cons.mp hlater
    have hothers : ∀ b ∈ before ++ after, (old b).Renamed f (new b) :=
      List.forall_mem_append.mpr ⟨hearly, hlate⟩
    have hinside := ih1 hothers
    rw [← hown.id] at hinside
    refine .next ?_ ((renamed_parent hf hown name).mpr ha) hinside
      (ih2 fun b hb => hothers b (hinner.sublist.subset hb))
    intro b hb
    rw [Ne, renamed_parent hf (hearly b hb)]
    exact hbefore b hb

theorem plant_renamed {roots : List α} (hf : Function.Injective f)
    (hr : ∀ a ∈ roots, (old a).Renamed f (new a))
    (hw : ∀ a ∈ waiting, (old a).Renamed f (new a)) :
    plant new roots waiting = plant old roots waiting := by
  induction roots generalizing waiting with
  | nil => rfl
  | cons root roots ih =>
    obtain ⟨hroot, hroots⟩ := List.forall_mem_cons.mp hr
    have hgrown := grow_grows old (old root).id waiting
    have hrenamed := hgrown.renamed hf hw
    rw [← hroot.id] at hrenamed
    obtain ⟨hinner, hleft⟩ := (grow_grows new (new root).id waiting).unique hrenamed
    have hnext := ih hroots fun a ha => hw a (hgrown.sublist.subset ha)
    simp only [plant, hinner, hleft, hnext]

theorem link_renamed (hf : Function.Injective f) (h : ∀ a ∈ all, (old a).Renamed f (new a)) :
    link new all = link old all := by
  have hroot : ∀ a ∈ all, (new a).isRoot = (old a).isRoot := by
    intro a ha
    rw [Token.isRoot, (h a ha).parent, Option.isNone_map, Token.isRoot]
  have hroots : all.filter (fun a => (new a).isRoot) = all.filter fun a => (old a).isRoot :=
    List.filter_congr hroot
  have hothers : all.filter (fun a => !(new a).isRoot) = all.filter fun a => !(old a).isRoot :=
    List.filter_congr fun a ha => congrArg (!·) (hroot a ha)
  rw [link, link, hroots, hothers, plant_renamed hf]
  · intro a ha
    exact h a (List.mem_filter.mp ha).1
  · intro a ha
    exact h a (List.mem_filter.mp ha).1

end Items

section Forest

variable {f : String → String} {ts us : List Token}

/-- The tokens of two lists side by side, each pair with its position. -/
def pairs (ts us : List Token) : List ((Token × Token) × Nat) := (ts.zip us).zipIdx

theorem pairs_renamed (h : List.Forall₂ (Token.Renamed f) ts us) :
    ∀ a ∈ pairs ts us, a.1.1.Renamed f a.1.2 := by
  intro a ha
  have hzip : a.1 ∈ ts.zip us := by
    rw [← List.zipIdx_map_fst 0 (ts.zip us)]
    exact List.mem_map.mpr ⟨a, ha, rfl⟩
  exact (List.forall₂_iff_zip.mp h).2 hzip

theorem pairs_fst (h : ts.length = us.length) :
    (pairs ts us).map (Prod.map Prod.fst id) = ts.zipIdx := by
  rw [pairs, ← List.zipIdx_map, List.map_fst_zip h.le]

theorem pairs_snd (h : ts.length = us.length) :
    (pairs ts us).map (Prod.map Prod.snd id) = us.zipIdx := by
  rw [pairs, ← List.zipIdx_map, List.map_snd_zip h.ge]

/-- Both lists are linked as their pairs are. -/
theorem link_pairs (hf : Function.Injective f) (h : List.Forall₂ (Token.Renamed f) ts us) :
    ∃ linked : Linked ((Token × Token) × Nat),
      (∀ a ∈ items linked.trees, a.1.1.Renamed f a.1.2) ∧
      link Prod.fst ts.zipIdx = ⟨linked.trees.map (Tree.map (Prod.map Prod.fst id)),
        linked.unreachable.map (Prod.map Prod.fst id)⟩ ∧
      link Prod.fst us.zipIdx = ⟨linked.trees.map (Tree.map (Prod.map Prod.snd id)),
        linked.unreachable.map (Prod.map Prod.snd id)⟩ := by
  have hall := pairs_renamed h
  refine ⟨link (fun a => a.1.1) (pairs ts us), ?_, ?_, ?_⟩
  · intro a ha
    exact hall a ((link_perm _ _).subset (List.mem_append_left _ ha))
  · rw [← pairs_fst h.length_eq, link_map]
    rfl
  · rw [← pairs_snd h.length_eq, link_map, ← link_renamed hf hall]
    rfl

/-- The forest, the positions and the lost tokens of one side of some pairs. -/
theorem forest_side {linked : Linked ((Token × Token) × Nat)} {side : Token × Token → Token}
    (h : link Prod.fst ts.zipIdx = ⟨linked.trees.map (Tree.map (Prod.map side id)),
      linked.unreachable.map (Prod.map side id)⟩) :
    forest ts = .ofTrees (linked.trees.map (Tree.map fun a => side a.1)) ∧
      positions ts = (items linked.trees).map Prod.snd ∧
      lost ts = linked.unreachable.map Prod.snd := by
  refine ⟨?_, ?_, ?_⟩
  · rw [forest, ofTokens_eq, h, List.map_map]
    simp only [Function.comp_def, map_map, Prod.map_fst]
  · rw [positions_eq, h, items_map, List.map_map]
    rfl
  · rw [lost, h, List.map_map]
    rfl

theorem tree_renamed (hf : Function.Injective f) (h : List.Forall₂ (Token.Renamed f) ts us)
    (n : Nat) : Option.Rel Abridged ((forest ts).tree? n) ((forest us).tree? n) := by
  obtain ⟨linked, hitems, hts, hus⟩ := link_pairs hf h
  rw [(forest_side hts).1, (forest_side hus).1, Forest.tree_ofTrees, Forest.tree_ofTrees,
    subtreesOf_map, subtreesOf_map, List.getElem?_map, List.getElem?_map]
  cases hn : (linked.trees.flatMap subtrees)[n]? with
  | none => exact .none
  | some u =>
    refine .some (abridged_map u fun v hv => (hitems v.value ?_).toAlike)
    exact mem_items.mpr ⟨v, mem_subtreesOf_trans (List.mem_of_getElem? hn) hv, rfl⟩

theorem built_renamed (hf : Function.Injective f) (h : List.Forall₂ (Token.Renamed f) ts us) :
    Built (forest us) us (positions ts) (lost ts) ∧
      (ofTokens us).unreachable = (lost ts).filterMap (us[·]?) := by
  obtain ⟨linked, -, hts, hus⟩ := link_pairs hf h
  obtain ⟨-, hpositions, hlost⟩ := forest_side hts
  obtain ⟨-, hpositions', hlost'⟩ := forest_side hus
  rw [hpositions, ← hpositions', hlost, ← hlost']
  exact ⟨forest_built us, unreachable_lost us⟩

/-- Ids and letter case mean nothing beyond which ids are equal. If the ids of some tokens are
renamed without making two of them equal, and letters of the types are written in the other case,
then each node keeps its number, its place and the position of its token, the same positions are
lost, and each node names the same event and gives the same sentence. -/
theorem forest_renamed (hf : Function.Injective f) (h : List.Forall₂ (Token.Renamed f) ts us) :
    (forest ts).SameShape (forest us) ∧
      (∃ positions lost, Built (forest ts) ts positions lost ∧
        Built (forest us) us positions lost ∧
        (ofTokens ts).unreachable = lost.filterMap (ts[·]?) ∧
        (ofTokens us).unreachable = lost.filterMap (us[·]?)) ∧
      ∀ n, ((forest us).token? n).bind EventKind.ofToken? =
          ((forest ts).token? n).bind EventKind.ofToken? ∧
        ∀ kind rules, ((forest us).tree? n).map (Sentence.assemble kind rules) =
          ((forest ts).tree? n).map (Sentence.assemble kind rules) := by
  obtain ⟨hbuilt, hunreachable⟩ := built_renamed hf h
  refine ⟨?_, ⟨positions ts, lost ts, forest_built ts, hbuilt, unreachable_lost ts,
    hunreachable⟩, ?_⟩
  · obtain ⟨linked, -, hts, hus⟩ := link_pairs hf h
    rw [(forest_side hts).1, (forest_side hus).1]
    exact Forest.sameShape_map _ _ _
  · intro n
    have hn := tree_renamed hf h n
    generalize ht : (forest ts).tree? n = t at hn
    generalize hu : (forest us).tree? n = u at hn
    cases hn with
    | none =>
      rw [Forest.token_of_no_tree ht, Forest.token_of_no_tree hu]
      exact ⟨rfl, fun _ _ => rfl⟩
    | some hsame =>
      rw [Forest.tree_value ht, Forest.tree_value hu]
      refine ⟨hsame.value.eventKind.symm, fun kind rules => ?_⟩
      exact congrArg some (Sentence.abridged_assemble hsame kind rules).symm

/-- Tokens of which the last one hangs from none. -/
def stray : List Token :=
  [⟨"Buy", some "a", none, none, none, false⟩, ⟨"Item", some "b", some "a", none, none, false⟩,
    ⟨"Name", none, some "b", some "Axe", none, false⟩,
    ⟨"Item", some "d", some "c", none, some .or, false⟩]

/-- The same tokens with other ids and in other letters. -/
def strayRenamed : List Token :=
  [⟨"BUY", some "n.a", none, none, none, false⟩,
    ⟨"item", some "n.b", some "n.a", none, none, false⟩,
    ⟨"nAmE", none, some "n.b", some "Axe", none, false⟩,
    ⟨"Item", some "n.d", some "n.c", none, some .or, false⟩]

theorem forest_renamed_stray : List.Forall₂ (Token.Renamed ("n." ++ ·)) stray strayRenamed ∧
    (forest stray).SameShape (forest strayRenamed) ∧
    ∀ kind rules, ((forest strayRenamed).tree? 0).map (Sentence.assemble kind rules) =
      ((forest stray).tree? 0).map (Sentence.assemble kind rules) := by
  have hf : Function.Injective ("n." ++ · : String → String) := by
    intro a b h
    simpa using h
  have hrenamed : List.Forall₂ (Token.Renamed ("n." ++ ·)) stray strayRenamed :=
    .cons ⟨⟨by decide, rfl, rfl, rfl⟩, rfl, rfl⟩ <|
      .cons ⟨⟨by decide, rfl, rfl, rfl⟩, rfl, rfl⟩ <|
        .cons ⟨⟨by decide, rfl, rfl, rfl⟩, rfl, rfl⟩ <|
          .cons ⟨⟨by decide, rfl, rfl, rfl⟩, rfl, rfl⟩ .nil
  obtain ⟨hshape, -, hnodes⟩ := forest_renamed hf hrenamed
  exact ⟨hrenamed, hshape, (hnodes 0).2⟩

end Forest

end Linkage

end TradeChat
