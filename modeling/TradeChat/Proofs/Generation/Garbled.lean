import TradeChat.Proofs.Generation.Unread
import TradeChat.Proofs.Sentence.Garbled

namespace TradeChat
open TradeChat.Tree Linkage Notation

/-- What is left of a tree without leaves that are garbled numbers is a cleared tree. -/
theorem Tree.cleared_prune {α : Type} {token : α → Token} {keep : α → Bool} {v : String}
    (t : Tree α) (h : ∀ u ∈ t.subtrees, keep u.value = false →
      (token u.value).Garbled v ∧ u.children = []) :
    (t.map token).Cleared v ((t.prune keep).map token) := by
  induction t using induct with
  | node a ts ih =>
    have hchild : ∀ t ∈ ts, t ∈ (node a ts).subtrees := fun t ht => mem_subtrees_of_child ht
    have hchildren : ClearedList v (ts.map (map token))
        ((ts.filter fun t => keep t.value).map fun t => (t.prune keep).map token) := by
      apply clearedList_filter
      · intro t ht _
        exact ih t ht fun u hu => h u (mem_subtrees_trans (hchild t ht) hu)
      · intro t ht hgone
        obtain ⟨hgarbled, hleaf⟩ := h t (hchild t ht) hgone
        rw [value_map, children_map, hleaf]
        exact ⟨hgarbled, rfl⟩
    rw [prune, map, map, mapList_eq, mapList_eq, pruneList_eq, List.map_map]
    exact .node hchildren

section Garbled

variable {v : String} {before after : List Token} {a : Token}

theorem without_split (before after : List Token) (a : Token) :
    without (· == before.length) (before ++ a :: after) = before ++ after := by
  have hbefore : ∀ b ∈ before.zipIdx, (!(b.2 == before.length)) = true := by
    intro b hb
    have := List.snd_lt_of_mem_zipIdx hb
    simp
    omega
  have hafter : ∀ b ∈ after.zipIdx (before.length + 1), (!(b.2 == before.length)) = true := by
    intro b hb
    have := List.le_snd_of_mem_zipIdx hb
    simp
    omega
  rw [without, List.zipIdx_append, List.filter_append, Nat.zero_add, List.zipIdx_cons,
    List.filter_cons_of_neg (by simp), List.filter_eq_self.mpr hbefore,
    List.filter_eq_self.mpr hafter, List.map_append, List.zipIdx_map_fst, List.zipIdx_map_fst]

variable (hw : WellFormed (before ++ a :: after)) (ha : a.Garbled v)

include hw ha

/-- A token with a value declares no id, so nothing hangs from it. -/
theorem garbled_id : a.id = none := by
  have heither := hw.either a (List.mem_append_right before List.mem_cons_self)
  simpa [ha.value] using heither

/-- Without a garbled number there are the same trees without a leaf. -/
theorem trees_garbled : List.Forall₂ (Cleared v) (ofTokens (before ++ a :: after)).trees
    (ofTokens (before ++ after)).trees := by
  have hid := garbled_id hw ha
  have hat : ∀ b ∈ (before ++ a :: after).zipIdx, b.2 = before.length → b.1 = a := by
    intro b hb hposition
    rw [List.mem_zipIdx_iff_getElem?, hposition] at hb
    simpa using hb.symm
  have hclosed : Closed Prod.fst (fun b => !(b.2 == before.length))
      (before ++ a :: after).zipIdx := by
    intro b hb hgone c hc hhang
    obtain ⟨name, hown, -⟩ := hhang
    rw [hat b hb (by simpa using hgone), hid] at hown
    cases hown
  have hroots : ∀ t ∈ (link Prod.fst (before ++ a :: after).zipIdx).trees,
      (!(t.value.2 == before.length)) = true := by
    intro t ht
    by_contra hgone
    have hself := hat _ (mem_of_subtree ht (mem_subtrees_self t)) (by simpa using hgone)
    have hparent := (root_of_tree ht).2
    rw [hself] at hparent
    have hdeclares := hw.rooted a (List.mem_append_right before List.mem_cons_self) hparent
    rw [hid] at hdeclares
    cases hdeclares
  rw [← without_split before after a, ofTokens_without hclosed, ofTokens_eq,
    List.filter_eq_self.mpr hroots, List.forall₂_map_left_iff, List.forall₂_map_right_iff,
    List.forall₂_same]
  intro t ht
  refine cleared_prune t ?_
  intro u hu hgone
  have hself : u.value.1 = a := hat _ (mem_of_subtree ht hu) (by simpa using hgone)
  refine ⟨hself ▸ ha, ?_⟩
  refine List.eq_nil_iff_forall_not_mem.mpr fun c hc => ?_
  obtain ⟨name, hown, -⟩ := hangs_of_child ht hu c hc
  rw [hself, hid] at hown
  cases hown

end Garbled

/-- The second of two generations says the same as the first, and reports the same faults without
some that show `v`. -/
structure Generation.Quieter (v : String) (g left : Generation) : Prop where
  sentences : List.Forall₂ (Sentence.Quieter v) g.sentences left.sentences
  texts : left.texts = g.texts
  diagnostics : Fewer v g.diagnostics left.diagnostics

theorem Generation.quieter_ofTrees {v : String} {ts us : List (Tree Token)}
    (h : List.Forall₂ (Cleared v) ts us) (settings : Settings) :
    (Generation.ofTrees settings ts).Quieter v (.ofTrees settings us) := by
  have hsentences : List.Forall₂ (Sentence.Quieter v) (Generation.ofTrees settings ts).sentences
      (Generation.ofTrees settings us).sentences :=
    List.rel_filterMap (R := Cleared v) (P := Sentence.Quieter v)
      (fun _ _ h => Sentence.cleared_ofTree h settings.whitelist) h
  refine ⟨hsentences, ?_, .paired hsentences fun _ _ h => h.diagnostics⟩
  exact (forall₂_map_eq hsentences fun _ _ h => h.text.symm).symm

/-- A number that cannot be read is as good as none, wherever it stands. Without its token a line
gives the same sentences, whatever the settings allow, and only faults that show its value are no
longer reported. -/
theorem generate_garbled {line v : String} {before after : List Token} {a : Token}
    (h : parse line = .ok (before ++ a :: after)) (ha : a.Garbled v) (settings : Settings) :
    ∃ g, generate settings line = .ok g ∧
      g.Quieter v (.ofTrees settings (ofTokens (before ++ after)).trees) := by
  refine ⟨.ofTrees settings (ofTokens (before ++ a :: after)).trees, by rw [generate, h]; rfl, ?_⟩
  exact Generation.quieter_ofTrees (trees_garbled (parse_wellFormed h) ha) settings

/-- The tokens of a sale of two axes. -/
def axes : List Token :=
  [⟨"Sell", some "a", none, none, none, false⟩, ⟨"Item", some "b", some "a", none, none, false⟩,
    ⟨"Name", none, some "b", some "Axe", none, false⟩,
    ⟨"Quantity", none, some "b", some "2", none, false⟩]

/-- A second number for the axes, which does not stand for one. -/
def axesAgain : Token := ⟨"QUANTITY", none, some "b", some "two", none, false⟩

theorem generate_garbled_axes : axesAgain.Garbled "two" ∧ ∀ settings, ∃ g,
    generate settings "Sell(a) Item(a,b) Name(b,'Axe') Quantity(b,'2') QUANTITY(b,'two')" = .ok g ∧
      g.Quieter "two" (.ofTrees settings (ofTokens axes).trees) := by
  have hparse : parse "Sell(a) Item(a,b) Name(b,'Axe') Quantity(b,'2') QUANTITY(b,'two')" =
      .ok (axes ++ axesAgain :: []) := by decide +kernel
  have hgarbled : axesAgain.Garbled "two" := ⟨⟨"quantity", by decide, by decide⟩, rfl, by decide⟩
  have hgenerate := fun settings => generate_garbled hparse hgarbled settings
  rw [List.append_nil] at hgenerate
  exact ⟨hgarbled, hgenerate⟩

end TradeChat
