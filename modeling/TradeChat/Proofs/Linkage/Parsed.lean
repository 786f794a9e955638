import TradeChat.Lint
import TradeChat.Proofs.Linkage.Nodes
import TradeChat.Proofs.Notation.Scanning

namespace TradeChat.Linkage
open TradeChat.Tree Notation

section Items

variable {α : Type} {token : α → Token} {all : List α}

/-- No two items declare one id. -/
theorem same_id (hw : WellFormed (all.map token)) {a b : α} (ha : a ∈ all) (hb : b ∈ all)
    {name : String} (hida : (token a).id = some name) (hidb : (token b).id = some name) :
    a = b := by
  have hdistinct := hw.distinct
  rw [List.filterMap_map, List.Nodup, List.pairwise_filterMap] at hdistinct
  by_contra hne
  have hsymm : Std.Symm fun a b => ∀ x, (Token.id ∘ token) a = some x →
      ∀ y, (Token.id ∘ token) b = some y → x ≠ y := by
    constructor
    intro a b h x hx y hy he
    exact h y hy x hx he.symm
  exact hdistinct.forall ha hb hne name hida name hidb rfl

theorem all_reached (hw : WellFormed (all.map token)) : (link token all).unreachable = [] := by
  apply link_reaches
  intro before b after he
  cases hp : (token b).parent with
  | none => exact Or.inl (by simp [Token.isRoot, hp])
  | some name =>
    right
    have hsplit : all.map token = before.map token ++ token b :: after.map token := by
      rw [he, List.map_append, List.map_cons]
    obtain ⟨t, ht, hid⟩ := hw.earlier _ _ _ hsplit name hp
    obtain ⟨a, ha, rfl⟩ := List.mem_map.mp ht
    exact ⟨a, ha, name, hid, hp⟩

theorem ofTokens_reached {ts : List Token} (hw : WellFormed ts) :
    (ofTokens ts).unreachable = [] := all_reached (by rwa [List.map_id])

theorem items_perm (hw : WellFormed (all.map token)) :
    (items (link token all).trees).Perm all := by
  have h := link_perm token all
  rwa [all_reached hw, List.append_nil] at h

/-- The children of an item are all that hang from it. -/
theorem mem_children (hw : WellFormed (all.map token)) (hall : all.Nodup) {u : Tree α}
    (hu : u ∈ (link token all).trees.flatMap subtrees) {b : α} (hb : b ∈ all) :
    b ∈ u.children.map value ↔ Hangs token u.value b := by
  have hp := link_planted token all
  have hperm := items_perm hw
  have hplaced : ∀ {v : Tree α}, v ∈ (link token all).trees.flatMap subtrees → v.value ∈ all := by
    intro v hv
    exact hperm.subset (mem_items.mpr ⟨v, hv, rfl⟩)
  constructor
  · intro h
    obtain ⟨c, hc, rfl⟩ := List.mem_map.mp h
    exact (hp.linked u hu).2 c hc
  · intro h
    obtain ⟨name, hid, hparent⟩ := h
    -- The item has some place. Whatever it hangs from there declares the same id.
    obtain ⟨w, hw', rfl⟩ := mem_items.mp (hperm.mem_iff.mpr hb)
    rcases mem_forest hw' with htop | ⟨v, hv, hc⟩
    · have hroot := (link_top htop).2
      simp [Token.isRoot, hparent] at hroot
    · obtain ⟨name', hid', hparent'⟩ := (hp.linked v hv).2 w hc
      rw [hparent] at hparent'
      cases hparent'
      have hvalue := same_id hw (hplaced hv) (hplaced hu) hid' hid
      have hnodup : (((link token all).trees.flatMap subtrees).map value).Nodup := by
        rw [← items_eq]
        exact hperm.nodup_iff.mpr hall
      have hsame : v = u := List.inj_on_of_nodup_map hnodup hv hu hvalue
      exact List.mem_map.mpr ⟨w, hsame ▸ hc, rfl⟩

end Items

/-- A forest with all of some tokens, each node holding the one at its position in the list. -/
structure Holds (f : Forest) (ts : List Token) (positions : List Nat) : Prop where
  once : positions.Perm (List.range ts.length)
  size : f.size = ts.length
  tokens : ∀ n, f.token? n = positions[n]?.bind (ts[·]?)
  roots : f.roots.filterMap (positions[·]?) =
    (List.range ts.length).filter fun i => (ts[i]?).any Token.isRoot
  links : ∀ n p, n ∈ f.children p ↔ ∃ name, (f.token? n).bind Token.parent = some name ∧
    (f.token? p).bind Token.id = some name
  order : ∀ p, ((f.children p).filterMap (positions[·]?)).Pairwise (· < ·)

section Forest

variable {ts : List Token}

theorem zipIdx_wellFormed (hw : WellFormed ts) : WellFormed (ts.zipIdx.map Prod.fst) := by
  rwa [List.zipIdx_map_fst]

/-- A node is below another exactly if its token hangs from the token of the other. -/
theorem node_links (hw : WellFormed ts) {u c : Tree (Nat × Token × Nat)} (hu : u ∈ nodes ts)
    (hc : c ∈ nodes ts) : c ∈ u.children ↔ Hangs Prod.fst u.value.2 c.value.2 := by
  have hz := zipIdx_wellFormed hw
  have hc' : c.value.2 ∈ ts.zipIdx := List.mem_zipIdx_iff_getElem?.mpr (node_item hc)
  have hmem := mem_children hz (zipIdx_nodup ts) (node_linked hu) hc'
  rw [value_map, children_map, List.map_map] at hmem
  rw [← hmem, List.mem_map]
  constructor
  · intro h
    exact ⟨c, h, value_map _ c⟩
  · intro h
    obtain ⟨d, hd, hvalue⟩ := h
    have hnodup : ((nodes ts).map fun u => u.value.2).Nodup := by
      rw [node_values]
      exact (items_perm hz).nodup_iff.mpr (zipIdx_nodup ts)
    have hsame : d.value.2 = c.value.2 := by
      rw [← hvalue]
      exact (value_map _ d).symm
    exact List.inj_on_of_nodup_map hnodup (child_node hu hd) hc hsame ▸ hd

theorem forest_links (hw : WellFormed ts) (n p : Nat) :
    n ∈ (forest ts).children p ↔ ∃ name, ((forest ts).token? n).bind Token.parent = some name ∧
      ((forest ts).token? p).bind Token.id = some name := by
  cases hp : (nodes ts)[p]? with
  | none => simp [no_children hp, no_token hp]
  | some u =>
    have hu := List.mem_of_getElem? hp
    have hup := node_number hp
    subst hup
    rw [node_children hu, node_token hu, List.mem_map]
    constructor
    · intro h
      obtain ⟨c, hc, rfl⟩ := h
      have hnode := child_node hu hc
      obtain ⟨name, hid, hparent⟩ := (node_links hw hu hnode).mp hc
      rw [node_token hnode]
      exact ⟨name, hparent, hid⟩
    · intro h
      obtain ⟨name, hparent, hid⟩ := h
      cases hn : (nodes ts)[n]? with
      | none => simp [no_token hn] at hparent
      | some c =>
        have hc := List.mem_of_getElem? hn
        have hcn := node_number hn
        subst hcn
        rw [node_token hc] at hparent
        exact ⟨c, (node_links hw hu hc).mpr ⟨name, hid, hparent⟩, rfl⟩

theorem forest_holds (hw : WellFormed ts) : Holds (forest ts) ts (positions ts) := by
  have honce : (positions ts).Perm (List.range ts.length) := by
    have h := (items_perm (zipIdx_wellFormed hw)).map Prod.snd
    rw [zipIdx_positions, ← node_values, List.map_map] at h
    exact h
  refine ⟨honce, ?_, forest_tokens ts, forest_roots ts, forest_links hw, forest_order ts⟩
  have := honce.length_eq
  rwa [positions, List.length_map, length_nodes, List.length_range] at this

end Forest

theorem no_unreachable_warning {whitelist : Whitelist} {ts : List Token} {w : Lint.Warning}
    (h : (ofTokens ts).unreachable = []) (hw : w ∈ Lint.tokenWarnings whitelist ts)
    (type : String) (parent : Option String) : w ≠ .unreachable type parent := by
  intro he
  subst he
  rw [Lint.tokenWarnings, h, List.map_nil, List.nil_append] at hw
  obtain ⟨t, -, ht⟩ := List.mem_flatMap.mp hw
  rw [Lint.treeWarnings] at ht
  split at ht
  · simp at ht
  · rename_i s hs
    rw [Lint.sentenceWarnings] at ht
    rcases List.mem_append.mp ht with hd | hf
    · simp at hd
    · split at hf
      · simp at hf
      · split at hf
        · simp at hf
        · cases hf

/-- All tokens of a line that parses are in the forest, each where it hangs, and none is reported
as unreachable. -/
theorem parsed_holds {line : String} {ts : List Token} (h : parse line = .ok ts) :
    (ofTokens ts).unreachable = [] ∧ (∃ positions, Holds (forest ts) ts positions) ∧
      ∀ whitelist, ∀ w ∈ Lint.tokenWarnings whitelist ts,
        ∀ type parent, w ≠ .unreachable type parent := by
  have hw := parse_wellFormed h
  have hreached : (ofTokens ts).unreachable = [] := by
    rw [ofTokens_eq, all_reached (zipIdx_wellFormed hw)]
    rfl
  exact ⟨hreached, ⟨positions ts, forest_holds hw⟩,
    fun whitelist w hmem => no_unreachable_warning hreached hmem⟩

/-- Tokens among which the second child of the root stands before the grandchild. -/
def purchase : List Token :=
  [⟨"Buy", some "a", none, none, none, false⟩, ⟨"Item", some "b", some "a", none, some .and, false⟩,
    ⟨"Item", some "c", some "a", none, none, false⟩,
    ⟨"Name", none, some "b", some "Sword", none, false⟩]

theorem parsed_holds_purchase :
    parse "Buy(a), Item(a,b) Item(a,c) Name(b,'Sword')" = .ok purchase ∧
      (ofTokens purchase).unreachable = [] ∧
      ∃ positions, Holds (forest purchase) purchase positions := by
  have hparse : parse "Buy(a), Item(a,b) Item(a,c) Name(b,'Sword')" = .ok purchase := by
    decide +kernel
  obtain ⟨hreached, hholds, -⟩ := parsed_holds hparse
  exact ⟨hparse, hreached, hholds⟩

end TradeChat.Linkage
