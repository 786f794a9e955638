import TradeChat.Proofs.Forest.Numbering
import TradeChat.Proofs.Forest.Searching
import TradeChat.Proofs.Text.OneLine

namespace TradeChat
open Text

/-- A text that is known on a line of a dump: it takes one line, and what it starts with is not
white space such as the tabs before it. -/
structure Lined (s : String) : Prop where
  oneLine : OneLine s
  start : ∃ c rest, s.toList = c :: rest ∧ isBlank c = false

theorem Token.lined_text {t : Token} (h : OneLine t.text) : Lined t.text where
  oneLine := h
  start := by
    have hbrace : ∃ rest, t.text.toList = '\x7b' :: rest := by
      unfold Token.text
      simp only [String.toList_append, List.append_assoc]
      exact ⟨_, rfl⟩
    obtain ⟨rest, hrest⟩ := hbrace
    exact ⟨_, rest, hrest, by decide⟩

namespace Tree

variable {α : Type}

/-- A line of a dump: a text with one tab for each level above it. -/
def indented (x : Nat × String) : List Char := List.replicate x.1 '\t' ++ x.2.toList

/-- The level and the text that a line shows. -/
def unindented (line : List Char) : Nat × String :=
  ((line.takeWhile (· == '\t')).length, String.ofList (line.dropWhile (· == '\t')))

/-- The lines that a tree of texts makes in a dump. -/
def dumpLines (t : Tree String) : List (List Char) := (t.levels 0).map indented

theorem unindented_indented {x : Nat × String} (h : Lined x.2) : unindented (indented x) = x := by
  obtain ⟨depth, s⟩ := x
  obtain ⟨c, rest, hs, hc⟩ : ∃ c rest, s.toList = c :: rest ∧ isBlank c = false := h.start
  have htab : ¬ (c == '\t') = true := by
    rw [beq_iff_eq]
    rintro rfl
    exact absurd hc (by decide)
  have hnone : s.toList.takeWhile (· == '\t') = [] := by
    rw [hs]
    exact List.takeWhile_cons_of_neg htab
  have hown : s.toList.dropWhile (· == '\t') = s.toList := by
    rw [hs]
    exact List.dropWhile_cons_of_neg htab
  have htabs : ∀ c ∈ List.replicate depth '\t', (c == '\t') = true := by
    intro c hc
    rw [List.eq_of_mem_replicate hc]
    rfl
  rw [unindented, indented, List.takeWhile_append_of_pos htabs, List.dropWhile_append_of_pos htabs,
    hnone, hown, List.append_nil, List.length_replicate, String.ofList_toList]

theorem toList_dump (text : α → String) (t : Tree α) :
    (t.dump text).toList = (dumpLines (t.map text)).flatMap (· ++ ['\n']) := by
  rw [dump, String.toList_join, dumpLines, levels_map, List.map_map, List.flatMap_map,
    List.flatMap_map]
  apply List.flatMap_congr
  intro x _
  simp only [String.toList_append, String.toList_ofList, Function.comp_apply, indented, Prod.map]
  rfl

section Reading

variable {t u : Tree String}

theorem dumpLines_oneLine (h : ∀ s ∈ t.values, Lined s) :
    ∀ line ∈ dumpLines t, ∀ c ∈ line, c ≠ '\n' := by
  rintro line hline c hc rfl
  obtain ⟨x, hx, rfl⟩ := List.mem_map.mp hline
  rcases List.mem_append.mp hc with hc | hc
  · exact absurd (List.eq_of_mem_replicate hc) (by decide)
  · exact (h x.2 (mem_levels hx)).oneLine hc

theorem dumpLines_shown (h : ∀ s ∈ t.values, Lined s) :
    ∀ line ∈ dumpLines t, line.all isBlank = false := by
  intro line hline
  obtain ⟨x, hx, rfl⟩ := List.mem_map.mp hline
  obtain ⟨c, rest, hs, hc⟩ := (h x.2 (mem_levels hx)).start
  rw [indented, hs, List.all_append, List.all_cons, hc, Bool.false_and, Bool.and_false]

/-- The levels are read back from the lines. -/
theorem dumpLines_levels (h : ∀ s ∈ t.values, Lined s) :
    (dumpLines t).map unindented = t.levels 0 := by
  rw [dumpLines, List.map_map]
  refine (List.map_congr_left fun x hx => ?_).trans (List.map_id _)
  exact unindented_indented (h x.2 (mem_levels hx))

/-- Trees of texts that are dumped the same are the same: the lines are the pieces between
newlines, they tell the texts with their levels, and those tell the tree. -/
theorem dumpLines_injective (ht : ∀ s ∈ t.values, Lined s) (hu : ∀ s ∈ u.values, Lined s)
    (h : (dumpLines t).flatMap (· ++ ['\n']) = (dumpLines u).flatMap (· ++ ['\n'])) : t = u := by
  have hfields := congrArg (fields '\n') h
  rw [fields_ended (dumpLines_oneLine ht), fields_ended (dumpLines_oneLine hu)] at hfields
  have hlines := congrArg (List.map unindented) (List.append_cancel_right hfields)
  rw [dumpLines_levels ht, dumpLines_levels hu] at hlines
  exact levels_injective hlines

end Reading

end Tree

namespace Forest
open TradeChat.Tree

namespace Store

/-- The node that one comes to by some steps from a node to its parent. -/
def climb? (s : Store) : Nat → Nat → Option Nat
  | 0, n => some n
  | steps + 1, n => (s.climb? steps n).bind s.parent?

/-- What dumping a node has to show: the nodes within its tree, each on one line, with one tab for
each step up to it. -/
structure Shows (s : Store) (n : Nat) (nodes : List Nat) (lines : List String) : Prop where
  mem : ∀ m, m ∈ nodes ↔ s.Within n m
  once : nodes.Nodup
  preorder : nodes.Pairwise s.Before
  lines : List.Forall₂ (fun m line => ∃ depth token, s.climb? depth m = some n ∧
    s.token? m = some token ∧
    line = String.ofList (List.replicate depth '\t') ++ token.text ++ "\n") nodes lines

/-- No token in the tree at a node has a newline in its text. -/
def OneLineTexts (s : Store) (n : Nat) : Prop :=
  ∀ m token, s.Within n m → s.token? m = some token → OneLine token.text

/-- The text of the node at a position below another, and the number of its children. A position
is given by places among children, from the top down. -/
def shown? (s : Store) (n : Nat) : List Nat → Option (String × Nat)
  | [] => do
    let node ← s.node? n
    return (node.token.text, node.children.length)
  | place :: rest => do
    let node ← s.node? n
    let child ← node.children[place]?
    s.shown? child rest

end Store

variable {f g : Forest} {n m : Nat} {t u : Tree (Nat × Token)}

section Dumping

theorem visited_dump (out : String) (levels : List (Nat × Nat × Token)) :
    visited (fun out depth _ token =>
      out ++ String.ofList (List.replicate depth '\t') ++ token.text ++ "\n") out levels =
      out ++ String.join (levels.map fun x =>
        String.ofList (List.replicate x.1 '\t') ++ x.2.2.text ++ "\n") := by
  induction levels generalizing out with
  | nil => exact String.append_empty.symm
  | cons x rest ih =>
    obtain ⟨depth, k, token⟩ := x
    rw [visited_cons, ih, List.map_cons, String.join_cons]
    simp only [String.append_assoc]

theorem store_lines (h : f.place? n = some t) :
    f.store.dump? n = some (String.join ((t.levels 0).map fun x =>
      String.ofList (List.replicate x.1 '\t') ++ x.2.2.text ++ "\n")) := by
  have hself : f.place? t.value.1 = some t := by rwa [place_number h]
  rw [Store.dump?, ← place_number h, walk_tree hself, walk_nil, visited_dump, String.empty_append]

/-- The stack loop dumps the tree at the node. -/
theorem store_dump (h : f.place? n = some t) :
    f.store.dump? n = some ((t.map (·.2)).dump Token.text) := by
  rw [store_lines h, dump, levels_map, List.map_map]
  rfl

theorem dumpEach_trees {ts : List (Tree (Nat × Token))}
    (h : ∀ t ∈ ts, f.place? t.value.1 = some t) :
    f.store.dumpEach? (ts.map fun t => t.value.1) =
      some (String.join (ts.map fun t => (t.map (·.2)).dump Token.text ++ "\n")) := by
  induction ts with
  | nil => rfl
  | cons t rest ih =>
    obtain ⟨ht, hrest⟩ := List.forall_mem_cons.mp h
    rw [List.map_cons, Store.dumpEach?, store_dump ht, ih hrest, List.map_cons, String.join_cons]
    rfl

/-- The trees that a forest was made of are dumped in their order. -/
theorem treeDump_ofTrees (ts : List (Tree Token)) : (ofTrees ts).store.treeDump? =
    some (String.join (ts.map fun t => t.dump Token.text ++ "\n")) := by
  have hvalues : (numberList 0 ts).map (Tree.map (·.2)) = ts := by
    rw [← mapList_eq, numberList_values]
  have hroots : (ofTrees ts).store.roots = (numberList 0 ts).map fun t => t.value.1 :=
    roots_ofTrees ts
  rw [Store.treeDump?, hroots, dumpEach_trees fun t ht => place_top ht]
  conv => rhs; rw [← hvalues, List.map_map]
  rfl

/-- The level of a node tells how many steps it is below the root of its tree. -/
theorem levels_climb {depth : Nat} {x : Nat × Nat × Token} (h : f.place? n = some t)
    (hx : x ∈ t.levels depth) : ∃ steps, x.1 = depth + steps ∧
      f.store.climb? steps x.2.1 = some n ∧ f.store.token? x.2.1 = some x.2.2 := by
  induction t using induct generalizing n depth with
  | node a ts ih =>
    have hn : a.1 = n := place_number h
    rw [levels_node, List.mem_cons] at hx
    rcases hx with rfl | hx
    · refine ⟨0, rfl, congrArg some hn, ?_⟩
      rw [token_store, hn]
      exact place_token h
    · obtain ⟨u, hu, hx⟩ := mem_levelsOf.mp hx
      obtain ⟨steps, hdepth, hclimb, htoken⟩ := ih u hu (place_of_child h hu) hx
      have hparent : f.store.parent? u.value.1 = some n := by
        rw [parent_store, ← mem_children, ← place_children_numbers h]
        exact List.mem_map.mpr ⟨u, hu, rfl⟩
      refine ⟨steps + 1, by omega, ?_, htoken⟩
      rw [Store.climb?, hclimb, Option.bind_some, hparent]

theorem store_shows (h : f.place? n = some t) : f.store.Shows n (numbers t)
    ((t.levels 0).map fun x =>
      String.ofList (List.replicate x.1 '\t') ++ x.2.2.text ++ "\n") where
  mem := fun m => mem_numbers h
  once := place_nodup h
  preorder := numbers_preorder h
  lines := by
    have hnumbers : numbers t = (t.levels 0).map fun x => x.2.1 := by
      have hvalues := congrArg (List.map Prod.fst) (levels_values 0 t)
      rw [List.map_map, values, List.map_map] at hvalues
      exact hvalues.symm
    rw [hnumbers, List.forall₂_map_left_iff, List.forall₂_map_right_iff, List.forall₂_same]
    intro x hx
    obtain ⟨steps, hsteps, hclimb, htoken⟩ := levels_climb h hx
    rw [Nat.zero_add] at hsteps
    exact ⟨x.1, x.2.2, hsteps ▸ hclimb, htoken, rfl⟩

end Dumping

section Reading

/-- The texts of the tokens in a tree. -/
def textsOf (t : Tree (Nat × Token)) : Tree String := t.map fun x => x.2.text

theorem store_dump_lines (h : f.place? n = some t) : ∃ out, f.store.dump? n = some out ∧
    out.toList = (dumpLines (textsOf t)).flatMap (· ++ ['\n']) := by
  refine ⟨_, store_dump h, ?_⟩
  rw [toList_dump, map_map]
  rfl

theorem lined_textsOf (h : f.place? n = some t) (htexts : f.store.OneLineTexts n) :
    ∀ s ∈ (textsOf t).values, Lined s := by
  intro s hs
  rw [textsOf, values_map, values, List.map_map] at hs
  obtain ⟨u, hu, rfl⟩ := List.mem_map.mp hs
  have hwithin : f.store.Within n u.value.1 := (mem_numbers h).mp (List.mem_map.mpr ⟨u, hu, rfl⟩)
  have htoken := (token_store u.value.1).trans (place_token (place_of_subtree h hu))
  exact Token.lined_text (htexts _ _ hwithin htoken)

theorem shown_nil (h : f.place? n = some t) :
    f.store.shown? n [] = some (t.value.2.text, t.children.length) := by
  obtain ⟨p, hn⟩ := node_place h
  rw [Store.shown?, hn, ← place_children_numbers h, Option.bind_eq_bind, Option.bind_some,
    List.length_map]
  rfl

theorem shown_cons (h : f.place? n = some t) (place : Nat) (rest : List Nat) :
    f.store.shown? n (place :: rest) =
      t.children[place]?.bind fun u => f.store.shown? u.value.1 rest := by
  obtain ⟨p, hn⟩ := node_place h
  rw [Store.shown?, hn, ← place_children_numbers h, Option.bind_eq_bind, Option.bind_some,
    List.getElem?_map, Option.bind_eq_bind, Option.bind_map]
  rfl

theorem children_textsOf (h : textsOf t = textsOf u) :
    t.children.map textsOf = u.children.map textsOf := by
  have hchildren := congrArg Tree.children h
  rwa [textsOf, textsOf, children_map, children_map] at hchildren

/-- Nodes whose trees hold the same texts show the same at each position. -/
theorem shown_textsOf (ht : f.place? n = some t) (hu : g.place? m = some u)
    (h : textsOf t = textsOf u) (path : List Nat) :
    f.store.shown? n path = g.store.shown? m path := by
  induction path generalizing n m t u with
  | nil =>
    have htext := congrArg value h
    have hcount := congrArg List.length (children_textsOf h)
    rw [textsOf, textsOf, value_map, value_map] at htext
    rw [List.length_map, List.length_map] at hcount
    rw [shown_nil ht, shown_nil hu, htext, hcount]
  | cons place rest ih =>
    have hplace := congrArg (·[place]?) (children_textsOf h)
    simp only [List.getElem?_map] at hplace
    rw [shown_cons ht, shown_cons hu]
    cases hv : t.children[place]? with
    | none =>
      rw [hv, Option.map_none, eq_comm, Option.map_eq_none_iff] at hplace
      rw [hplace]
      rfl
    | some v =>
      rw [hv, Option.map_some, eq_comm, Option.map_eq_some_iff] at hplace
      obtain ⟨w, hw, hsame⟩ := hplace
      rw [hw]
      exact ih (place_of_child ht (List.mem_of_getElem? hv))
        (place_of_child hu (List.mem_of_getElem? hw)) hsame.symm

/-- Dumps tell trees of tokens without newlines apart. -/
theorem store_dump_apart (ht : f.place? n = some t) (hu : g.place? m = some u)
    (htexts : f.store.OneLineTexts n) (hothers : g.store.OneLineTexts m)
    (h : f.store.dump? n = g.store.dump? m) (path : List Nat) :
    f.store.shown? n path = g.store.shown? m path := by
  obtain ⟨out, hout, hlines⟩ := store_dump_lines ht
  obtain ⟨other, hother, hothers'⟩ := store_dump_lines hu
  rw [hout, hother, Option.some.injEq] at h
  subst h
  have hsame := dumpLines_injective (lined_textsOf ht htexts) (lined_textsOf hu hothers)
    (hlines.symm.trans hothers')
  exact shown_textsOf ht hu hsame path

end Reading

end Forest

end TradeChat
