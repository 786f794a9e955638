import TradeChat.Proofs.Linkage.Nodes

namespace TradeChat

namespace Tree

variable {α : Type}

mutual

/-- The values of a tree in pre-order, each with the number of the node it hangs from. The root has
the number `start`. -/
def placed (parent : Option Nat) (start : Nat) : Tree α → List (α × Option Nat)
  | node a ts => (a, parent) :: placedList (some start) (start + 1) ts

def placedList (parent : Option Nat) (start : Nat) : List (Tree α) → List (α × Option Nat)
  | [] => []
  | t :: rest => t.placed parent start ++ placedList parent (start + t.size) rest

end

mutual

theorem placed_values (parent : Option Nat) (start : Nat) :
    (t : Tree α) → (t.placed parent start).map Prod.fst = t.values
  | node a ts => by
    rw [placed, List.map_cons, placedList_values, values, subtrees_node, List.map_cons,
      List.map_flatMap]
    rfl

theorem placedList_values (parent : Option Nat) (start : Nat) :
    (ts : List (Tree α)) → (placedList parent start ts).map Prod.fst = ts.flatMap values
  | [] => rfl
  | t :: rest => by
    rw [placedList, List.map_append, placed_values, placedList_values, List.flatMap_cons]

end

theorem length_placedList (parent : Option Nat) (start : Nat) (ts : List (Tree α)) :
    (placedList parent start ts).length = sizeOfList ts := by
  have h := congrArg List.length (placedList_values parent start ts)
  have hvalues : ts.flatMap values = (ts.flatMap subtrees).map value := by
    rw [List.map_flatMap]
    rfl
  rwa [hvalues, List.length_map, List.length_map, length_subtreesOf] at h

/-- Behind some nodes: a node, then all below it, then the trees beside it. -/
theorem placedList_cons (before : List (α × Option Nat)) (parent : Option Nat) (a : α)
    (inner ts : List (Tree α)) :
    before ++ placedList parent before.length (node a inner :: ts) =
      before ++ [(a, parent)] ++ placedList (some before.length) (before.length + 1) inner ++
        placedList parent
          (before ++ [(a, parent)] ++
            placedList (some before.length) (before.length + 1) inner).length ts := by
  have hlength : (before ++ [(a, parent)] ++
      placedList (some before.length) (before.length + 1) inner).length =
        before.length + (node a inner).size := by
    simp only [List.length_append, length_placedList, List.length_singleton, size]
    omega
  rw [hlength, placedList, placed]
  simp only [List.append_assoc, List.cons_append, List.nil_append]

end Tree

namespace Forest
open TradeChat.Tree

variable {α : Type}

mutual

theorem entriesOf_placed (token : α → Token) (parent : Option Nat) (start : Nat) :
    (t : Tree α) → entriesOf parent start (t.map token) =
      (t.placed parent start).map fun x => ⟨token x.1, x.2⟩
  | node a ts => by
    rw [Tree.map, entriesOf, entriesOfList_placed, placed, List.map_cons]

theorem entriesOfList_placed (token : α → Token) (parent : Option Nat) (start : Nat) :
    (ts : List (Tree α)) → entriesOfList parent start (mapList token ts) =
      (placedList parent start ts).map fun x => ⟨token x.1, x.2⟩
  | [] => rfl
  | t :: rest => by
    rw [mapList, entriesOfList, entriesOf_placed, entriesOfList_placed, placedList,
      List.map_append, size_map]

end

end Forest

namespace Linkage
open TradeChat.Tree

/-- Building with a stack instead of a recursion: the nodes so far, each with the number of the
node it hangs from, and the items on the stack, the next one first, each with the node that it was
put there for. -/
structure Worklist (α : Type) where
  nodes : List (α × Option Nat) := []
  stack : List (α × Option Nat) := []

variable {α : Type} [DecidableEq α] {token : α → Token} {all : List α}

/-- The items that hang from an id, in order. -/
def hanging (token : α → Token) (all : List α) (id : Option String) : List α :=
  all.filter fun b => !(token b).isRoot && (token b).parent = id

namespace Worklist

def start (token : α → Token) (all : List α) : Worklist α where
  stack := (all.filter fun a => (token a).isRoot).map (·, none)

/-- Takes one item off the stack. Unless it has become a node before, it does so now, and all that
hangs from its id goes on the stack. -/
def step? (token : α → Token) (all : List α) (w : Worklist α) : Option (Worklist α) :=
  match w.stack with
  | [] => none
  | (a, parent) :: rest =>
    if a ∈ w.nodes.map Prod.fst then some { w with stack := rest }
    else some {
      nodes := w.nodes ++ [(a, parent)]
      stack := (hanging token all (token a).id).map (·, some w.nodes.length) ++ rest }

/-- One worklist leads to another in some number of steps. -/
def Leads (token : α → Token) (all : List α) : Worklist α → Worklist α → Prop :=
  Relation.ReflTransGen fun w w' => w.step? token all = some w'

/-- The items that may still become nodes below others. -/
def waiting (token : α → Token) (all : List α) (nodes : List (α × Option Nat)) : List α :=
  all.filter fun b => !(token b).isRoot && b ∉ nodes.map Prod.fst

variable {nodes rest : List (α × Option Nat)}

theorem step_place {a : α} (ha : a ∉ nodes.map Prod.fst) (parent : Option Nat) :
    step? token all ⟨nodes, (a, parent) :: rest⟩ = some ⟨nodes ++ [(a, parent)],
      (hanging token all (token a).id).map (·, some nodes.length) ++ rest⟩ := by
  simp only [step?, ha, ↓reduceIte]

theorem leads_skip {parent : Option Nat} {kids : List α}
    (h : ∀ b ∈ kids, b ∈ nodes.map Prod.fst) :
    Leads token all ⟨nodes, kids.map (·, parent) ++ rest⟩ ⟨nodes, rest⟩ := by
  induction kids with
  | nil => exact .refl
  | cons b kids ih =>
    obtain ⟨hb, hkids⟩ := List.forall_mem_cons.mp h
    exact .head (by simp only [step?, List.map_cons, List.cons_append, hb, ↓reduceIte]) (ih hkids)

/-- Children of which none waits any more have all been placed. -/
theorem leads_settled {parent : Option Nat} {kids items : List α} {p : α → Bool}
    (hkids : kids.filter (fun b => b ∉ nodes.map Prod.fst) = items.filter p)
    (hnone : ∀ b ∈ items, p b = false) :
    Leads token all ⟨nodes, kids.map (·, parent) ++ rest⟩ ⟨nodes, rest⟩ := by
  have hnil : items.filter p = [] := List.filter_eq_nil_iff.mpr (by simpa using hnone)
  rw [hnil, List.filter_eq_nil_iff] at hkids
  apply leads_skip
  intro b hb
  simpa only [decide_eq_true_eq, not_not] using hkids b hb

theorem filter_other {before after : List α} {a : α} (h : (before ++ a :: after).Nodup) :
    (before ++ a :: after).filter (· ≠ a) = before ++ after := by
  obtain ⟨-, hafter, hapart⟩ := List.nodup_append.mp h
  have hkeep : ∀ {l : List α}, a ∉ l → l.filter (· ≠ a) = l := by
    intro l hl
    apply List.filter_eq_self.mpr
    intro b hb
    have : b ≠ a := ne_of_mem_of_not_mem hb hl
    simpa using this
  rw [List.filter_append, List.filter_cons_of_neg (by simp),
    hkeep fun hb => hapart a hb a List.mem_cons_self rfl, hkeep (List.nodup_cons.mp hafter).1]

theorem waiting_place (nodes : List (α × Option Nat)) (a : α) (parent : Option Nat) :
    waiting token all (nodes ++ [(a, parent)]) = (waiting token all nodes).filter (· ≠ a) := by
  rw [waiting, waiting, List.filter_filter]
  apply List.filter_congr
  intro b _
  rw [Bool.eq_iff_iff, List.map_append]
  simp only [Bool.and_eq_true, decide_eq_true_eq, List.mem_append, List.map_cons, List.map_nil,
    List.mem_singleton, not_or]
  tauto

/-- Nodes that are added later take items away from those that wait, and no others. -/
theorem waiting_append (nodes more : List (α × Option Nat)) :
    waiting token all (nodes ++ more) =
      (waiting token all nodes).filter fun b => b ∉ (nodes ++ more).map Prod.fst := by
  rw [waiting, waiting, List.filter_filter]
  apply List.filter_congr
  intro b _
  rw [Bool.eq_iff_iff, List.map_append]
  simp only [Bool.and_eq_true, decide_eq_true_eq, List.mem_append, not_or]
  tauto

/-- Children on the stack that still wait are found among the items, also once more nodes have been
added. -/
theorem filter_later {kids items placed later : List α} {p : α → Bool}
    (h : kids.filter (fun b => b ∉ placed) = items.filter p) (hsub : placed ⊆ later) :
    kids.filter (fun b => b ∉ later) = (items.filter fun b => b ∉ later).filter p := by
  have hkids : kids.filter (fun b => b ∉ later) =
      (kids.filter fun b => b ∉ placed).filter fun b => b ∉ later := by
    rw [List.filter_filter]
    apply List.filter_congr
    intro b _
    rw [Bool.eq_iff_iff, Bool.and_eq_true, decide_eq_true_eq, decide_eq_true_eq]
    exact ⟨fun hb => ⟨hb, fun hold => hb (hsub hold)⟩, And.left⟩
  rw [hkids, h, List.filter_filter, List.filter_filter]
  apply List.filter_congr
  intro b _
  exact Bool.and_comm _ _

/-- The first child that is not placed yet stands behind children that are. -/
theorem first_waiting {kids others placed : List α} {a : α}
    (h : kids.filter (fun b => b ∉ placed) = a :: others) :
    ∃ early late, kids = early ++ a :: late ∧ (∀ b ∈ early, b ∈ placed) ∧ a ∉ placed := by
  obtain ⟨early, late, rfl, hearly, hfresh, -⟩ := List.filter_eq_cons_iff.mp h
  refine ⟨early, late, rfl, ?_, by simpa only [decide_eq_true_eq] using hfresh⟩
  intro b hb
  simpa only [decide_eq_true_eq, not_not] using hearly b hb

/-- Once a child is placed, like those in front of it, only the ones behind it still count. -/
theorem filter_behind {early late placed : List α} {a : α} (hearly : ∀ b ∈ early, b ∈ placed)
    (ha : a ∈ placed) : (early ++ a :: late).filter (fun b => b ∉ placed) =
      late.filter fun b => b ∉ placed := by
  have hnone : early.filter (fun b => b ∉ placed) = [] := by
    apply List.filter_eq_nil_iff.mpr
    intro b hb
    simpa only [decide_eq_true_eq, not_not] using hearly b hb
  rw [List.filter_append, hnone, List.nil_append, List.filter_cons_of_neg]
  simpa only [decide_eq_true_eq, not_not] using ha

theorem filter_hanging (nodes : List (α × Option Nat)) (id : Option String) :
    (hanging token all id).filter (fun b => b ∉ nodes.map Prod.fst) =
      (waiting token all nodes).filter fun b => (token b).parent = id := by
  rw [hanging, waiting, List.filter_filter, List.filter_filter]
  apply List.filter_congr
  intro b _
  rw [Bool.and_left_comm, Bool.and_comm (x := decide ((token b).parent = id)), Bool.and_assoc]

/-- While a node's children lie on the stack, all that grows from its id is placed before anything
else, and the children that were placed further down are passed over. -/
theorem leads_grow {id : Option String} {left : List α} {ts : List (Tree α)} {kids items : List α}
    (h : Grows token id items ts left) (hall : all.Nodup) (p : Nat)
    (hitems : waiting token all nodes = items)
    (hkids : kids.filter (fun b => b ∉ nodes.map Prod.fst) =
      items.filter fun b => (token b).parent = id) :
    Leads token all ⟨nodes, kids.map (·, some p) ++ rest⟩
        ⟨nodes ++ placedList (some p) nodes.length ts, rest⟩ ∧
      waiting token all (nodes ++ placedList (some p) nodes.length ts) = left := by
  induction h generalizing nodes kids rest p with
  | bare items =>
    rw [placedList, List.append_nil]
    refine ⟨leads_settled hkids ?_, hitems⟩
    intro b hb
    rw [← hitems] at hb
    have hroot := (List.mem_filter.mp hb).2
    cases hp : (token b).parent with
    | none => simp [Token.isRoot, hp] at hroot
    | some name => rfl
  | done hnone =>
    rw [placedList, List.append_nil]
    exact ⟨leads_settled hkids (by simpa using hnone), hitems⟩
  | @next name before after left last a inner ts hbefore ha hinner hrest ih1 ih2 =>
    have hnodup : (before ++ a :: after).Nodup := hitems ▸ hall.filter _
    have hfirst : kids.filter (fun b => b ∉ nodes.map Prod.fst) =
        a :: after.filter fun b => (token b).parent = some name := by
      have hskipped : before.filter (fun b => (token b).parent = some name) = [] :=
        List.filter_eq_nil_iff.mpr (by simpa using hbefore)
      rw [hkids, List.filter_append, hskipped, List.nil_append,
        List.filter_cons_of_pos (by simpa using ha)]
    obtain ⟨early, late, rfl, hearly, hfresh⟩ := first_waiting hfirst
    let inside := nodes ++ [(a, some p)] ++ placedList (some nodes.length) (nodes.length + 1) inner
    have hlength : (nodes ++ [(a, some p)]).length = nodes.length + 1 := by simp
    -- The items below the new node are placed first.
    obtain ⟨hrun1, hleft⟩ := @ih1 (nodes ++ [(a, some p)]) (late.map (·, some p) ++ rest)
      (hanging token all (token a).id) nodes.length
      (by rw [waiting_place, hitems, filter_other hnodup])
      (by rw [filter_hanging, waiting_place, hitems, filter_other hnodup])
    rw [hlength] at hrun1 hleft
    -- Some of them may hang from the first id too, and still be on the stack for it.
    have hold : nodes.map Prod.fst ⊆ inside.map Prod.fst := by
      rw [List.map_append, List.map_append, List.append_assoc]
      exact List.subset_append_left _ _
    have hown : a ∈ inside.map Prod.fst := by
      rw [List.map_append, List.map_append]
      exact List.mem_append_left _ (List.mem_append_right _ List.mem_cons_self)
    have hlate : late.filter (fun b => b ∉ inside.map Prod.fst) =
        left.filter fun b => (token b).parent = some name := by
      rw [← filter_behind (fun b hb => hold (hearly b hb)) hown, filter_later hkids hold, ← hleft,
        ← hitems, List.append_assoc, waiting_append nodes, ← List.append_assoc]
    obtain ⟨hrun2, hlast⟩ := @ih2 inside rest late p hleft hlate
    rw [← placedList_cons nodes (some p) a inner ts] at hrun2 hlast
    rw [List.map_append, List.append_assoc, List.map_cons, List.cons_append]
    exact ⟨(leads_skip hearly).trans (.head (step_place hfresh _) (hrun1.trans hrun2)), hlast⟩

theorem waiting_isRoot {b : α} (hb : b ∈ waiting token all nodes) : (token b).isRoot = false := by
  have h := (List.mem_filter.mp hb).2
  rw [Bool.and_eq_true, Bool.not_eq_eq_eq_not] at h
  exact h.1

/-- A root does not wait, whether or not it is a node yet. -/
theorem waiting_root {a : α} (ha : (token a).isRoot = true) (parent : Option Nat) :
    waiting token all (nodes ++ [(a, parent)]) = waiting token all nodes := by
  rw [waiting_place, List.filter_eq_self]
  intro b hb
  have hne : b ≠ a := by
    rintro rfl
    simp [waiting_isRoot hb] at ha
  simpa using hne

/-- The roots on the stack become nodes one after the other, each with all that grows from it. -/
theorem leads_plant {roots items : List α} (hall : all.Nodup) (hroots : roots.Nodup)
    (htops : ∀ a ∈ roots, (token a).isRoot = true) (hfresh : ∀ a ∈ roots, a ∉ nodes.map Prod.fst)
    (hitems : waiting token all nodes = items) :
    Leads token all ⟨nodes, roots.map (·, none)⟩
      ⟨nodes ++ placedList none nodes.length (plant token roots items).1, []⟩ := by
  induction roots generalizing nodes items with
  | nil =>
    rw [plant, placedList, List.append_nil]
    exact .refl
  | cons a roots ih =>
    obtain ⟨ha, htops⟩ := List.forall_mem_cons.mp htops
    obtain ⟨hnew, hfresh⟩ := List.forall_mem_cons.mp hfresh
    obtain ⟨hother, hroots⟩ := List.nodup_cons.mp hroots
    have hwaits : waiting token all (nodes ++ [(a, none)]) = items :=
      (waiting_root ha none).trans hitems
    have hgrows := grow_grows token (token a).id items
    rw [plant]
    generalize (grow token (token a).id items).1 = inner at hgrows
    obtain ⟨hrun, hleft⟩ := @leads_grow _ _ _ _ _ (roots.map (·, none)) _ _ _ _ _ hgrows hall
      nodes.length hwaits (by rw [filter_hanging, hwaits])
    rw [List.length_append, List.length_singleton] at hrun hleft
    -- What has grown from this root is no root, so the other roots are still to come.
    have hstill : ∀ b ∈ roots, b ∉ (nodes ++ [(a, none)] ++
        placedList (some nodes.length) (nodes.length + 1) inner.1).map Prod.fst := by
      intro b hb hplaced
      rw [List.map_append, List.map_append, placedList_values, List.append_assoc,
        List.mem_append, List.mem_append] at hplaced
      rcases hplaced with hold | hsame | hgrown
      · exact hfresh b hb hold
      · have hsame : b = a := List.eq_of_mem_singleton hsame
        exact hother (hsame ▸ hb)
      · have hitem : b ∈ items := hgrows.perm.subset (List.mem_append_left _ hgrown)
        rw [← hitems] at hitem
        exact absurd (htops b hb) (by simp [waiting_isRoot hitem])
    rw [placedList_cons]
    exact .head (step_place hnew none) (hrun.trans (ih hroots htops hstill hleft))

/-- With an empty stack at the end, the worklist has made the nodes of the linked trees, in the
order of their numbers. -/
theorem leads_link (hall : all.Nodup) :
    Leads token all (start token all) ⟨placedList none 0 (link token all).trees, []⟩ := by
  have hwaits : waiting token all [] = all.filter fun a => !(token a).isRoot := by
    simp [waiting]
  exact leads_plant hall (hall.filter _) (by simp) (by simp) hwaits

end Worklist

end Linkage

end TradeChat
