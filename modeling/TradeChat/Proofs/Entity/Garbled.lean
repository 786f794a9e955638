import TradeChat.Proofs.Entity.Abridged

namespace TradeChat
open TradeChat.Tree

/-- The type names whose values are read as numbers. -/
def numberNames : List String := ["level", "itemlevel", "quantity", "denomination"]

namespace Token

/-- A token that should carry a number and carries `v`, which is none. -/
structure Garbled (v : String) (t : Token) : Prop where
  type : ∃ name ∈ numberNames, t.isType name = true
  value : t.value = some v
  unread : Text.integer? v = none

namespace Garbled

variable {v : String} {t : Token} (h : t.Garbled v)

include h

theorem isType {name : String} (hname : ∀ n ∈ numberNames, Text.fold n ≠ Text.fold name) :
    t.isType name = false := by
  obtain ⟨own, hown, htype⟩ := h.type
  exact Token.isType_other htype (hname own hown)

theorem valueText : t.valueText = v := by
  rw [Token.valueText, h.value, Option.getD_some]

theorem number : t.number? = none := by
  rw [number?, h.valueText, h.unread]

theorem amounts : Item.amounts (node t []) = [] := by
  simp (disch := decide) [Item.amounts, h.isType]

theorem entityKind : EntityKind.ofToken? t = none := by
  rw [EntityKind.ofToken?, List.find?_eq_none]
  intro kind _
  cases kind <;> simp (disch := decide) [EntityKind.typeName, h.isType]

end Garbled

end Token

/-- The second list is the first without some of the faults that show `v`. -/
structure Fewer (v : String) (faults left : List NumberFault) : Prop where
  sublist : left.Sublist faults
  others : left.filter (·.value ≠ v) = faults.filter (·.value ≠ v)

namespace Fewer

variable {v : String} {faults left more rest : List NumberFault}

theorem refl (v : String) (faults : List NumberFault) : Fewer v faults faults := ⟨.refl _, rfl⟩

theorem append (h : Fewer v faults left) (hmore : Fewer v more rest) :
    Fewer v (faults ++ more) (left ++ rest) where
  sublist := h.sublist.append hmore.sublist
  others := by rw [List.filter_append, List.filter_append, h.others, hmore.others]

theorem paired {α : Type} {R : α → α → Prop} {read : α → List NumberFault} {l l' : List α}
    (h : List.Forall₂ R l l') (hread : ∀ a b, R a b → Fewer v (read a) (read b)) :
    Fewer v (l.flatMap read) (l'.flatMap read) := by
  induction h with
  | nil => exact .refl v []
  | cons h _ ih => exact (hread _ _ h).append ih

/-- What one garbled token reports is a fault that shows its value. -/
theorem garbled {t : Token} (h : t.Garbled v) (field : String) :
    Fewer v (t.numberFaults field) [] where
  sublist := List.nil_sublist _
  others := by simp [Token.numberFaults, h.number, h.valueText]

end Fewer

namespace Tree

mutual

/-- A tree, and what is left of it without some leaves that are garbled numbers of the value
`v`. -/
inductive Cleared (v : String) : Tree Token → Tree Token → Prop
  | node {a : Token} {ts us : List (Tree Token)} : ClearedList v ts us →
      Cleared v (node a ts) (node a us)

inductive ClearedList (v : String) : List (Tree Token) → List (Tree Token) → Prop
  | nil : ClearedList v [] []
  | keep {t u : Tree Token} {ts us : List (Tree Token)} : Cleared v t u → ClearedList v ts us →
      ClearedList v (t :: ts) (u :: us)
  | skip {a : Token} {ts us : List (Tree Token)} : a.Garbled v → ClearedList v ts us →
      ClearedList v (node a [] :: ts) us

end

theorem clearedList_filter {α : Type} {v : String} {l : List α} {f g : α → Tree Token}
    {p : α → Bool} (hkeep : ∀ x ∈ l, p x = true → (f x).Cleared v (g x))
    (hskip : ∀ x ∈ l, p x = false → (f x).value.Garbled v ∧ (f x).children = []) :
    ClearedList v (l.map f) ((l.filter p).map g) := by
  induction l with
  | nil => exact .nil
  | cons x l ih =>
    obtain ⟨hown, hkeep⟩ := List.forall_mem_cons.mp hkeep
    obtain ⟨hown', hskip⟩ := List.forall_mem_cons.mp hskip
    cases hp : p x with
    | true =>
      rw [List.filter_cons_of_pos hp]
      exact .keep (hown hp) (ih hkeep hskip)
    | false =>
      obtain ⟨hgarbled, hleaf⟩ := hown' hp
      rw [List.filter_cons_of_neg (by simp [hp]), List.map_cons]
      cases hx : f x with
      | node a ts =>
        rw [hx, value_node] at hgarbled
        rw [hx, children_node] at hleaf
        rw [hleaf]
        exact .skip hgarbled (ih hkeep hskip)

section Reading

variable {β : Type} {v name : String} {t u : Tree Token} {ts us : List (Tree Token)}

theorem Cleared.value : t.Cleared v u → t.value = u.value
  | .node _ => rfl

theorem Cleared.children : t.Cleared v u → ClearedList v t.children u.children
  | .node h => h

namespace ClearedList

/-- A relation between what is read off the lists, tree by tree. -/
theorem flatMap {R : List β → List β → Prop} (hnil : R [] [])
    (happend : ∀ {a b c d}, R a b → R c d → R (a ++ c) (b ++ d)) {read : Tree Token → List β}
    (hread : ∀ t u, t.Cleared v u → R (read t) (read u))
    (hskip : ∀ a : Token, a.Garbled v → R (read (node a [])) []) :
    {ts us : List (Tree Token)} → ClearedList v ts us → R (ts.flatMap read) (us.flatMap read)
  | _, _, .nil => hnil
  | _, _, .keep h hrest =>
    happend (hread _ _ h) (ClearedList.flatMap hnil happend hread hskip hrest)
  | _, _, .skip h hrest =>
    happend (hskip _ h) (ClearedList.flatMap hnil happend hread hskip hrest)

theorem flatMap_eq (h : ClearedList v ts us) {read : Tree Token → List β}
    (hread : ∀ t u, t.Cleared v u → read t = read u)
    (hskip : ∀ a : Token, a.Garbled v → read (node a []) = []) :
    ts.flatMap read = us.flatMap read :=
  flatMap rfl (fun h h' => by rw [h, h']) hread hskip h

theorem fewer (h : ClearedList v ts us) {read : Tree Token → List NumberFault}
    (hread : ∀ t u, t.Cleared v u → Fewer v (read t) (read u))
    (hskip : ∀ a : Token, a.Garbled v → Fewer v (read (node a [])) []) :
    Fewer v (ts.flatMap read) (us.flatMap read) :=
  flatMap (.refl v []) .append hread hskip h

theorem filter (p : Token → Bool) : {ts us : List (Tree Token)} → ClearedList v ts us →
    ClearedList v (ts.filter fun t => p t.value) (us.filter fun u => p u.value)
  | _, _, .nil => .nil
  | _, _, .keep h hrest => by
    rw [List.filter_cons, List.filter_cons, h.value]
    split
    · exact .keep h (ClearedList.filter p hrest)
    · exact ClearedList.filter p hrest
  | _, _, .skip h hrest => by
    rw [List.filter_cons]
    split
    · exact .skip h (ClearedList.filter p hrest)
    · exact ClearedList.filter p hrest

/-- The trees of a type that is not read as a number are all still there. -/
theorem named (hname : ∀ n ∈ numberNames, Text.fold n ≠ Text.fold name) :
    {ts us : List (Tree Token)} → ClearedList v ts us →
    List.Forall₂ (Cleared v) (ts.filter (·.value.isType name)) (us.filter (·.value.isType name))
  | _, _, .nil => .nil
  | _, _, .keep h hrest => by
    rw [List.filter_cons, List.filter_cons, h.value]
    split
    · exact .cons h (ClearedList.named hname hrest)
    · exact ClearedList.named hname hrest
  | _, _, .skip h hrest => by
    rw [List.filter_cons_of_neg (by simp [h.isType hname])]
    exact ClearedList.named hname hrest

theorem numbers (h : ClearedList v ts us) :
    ts.filterMap (·.value.number?) = us.filterMap (·.value.number?) := by
  rw [List.filterMap_eq_flatMap_toList, List.filterMap_eq_flatMap_toList]
  refine h.flatMap_eq ?_ ?_
  · intro t u h
    rw [h.value]
  · intro a h
    rw [value_node, h.number]
    rfl

theorem append {rest left : List (Tree Token)} : {ts us : List (Tree Token)} →
    ClearedList v ts us → ClearedList v rest left → ClearedList v (ts ++ rest) (us ++ left)
  | _, _, .nil, hmore => hmore
  | _, _, .keep h hrest, hmore => .keep h (ClearedList.append hrest hmore)
  | _, _, .skip h hrest, hmore => .skip h (ClearedList.append hrest hmore)

end ClearedList

mutual

theorem Cleared.subtrees : {t u : Tree Token} → t.Cleared v u →
    ClearedList v t.subtrees u.subtrees
  | _, _, .node h => by
    rw [subtrees_node, subtrees_node]
    exact .keep (.node h) (ClearedList.subtrees h)

theorem ClearedList.subtrees : {ts us : List (Tree Token)} → ClearedList v ts us →
    ClearedList v (ts.flatMap Tree.subtrees) (us.flatMap Tree.subtrees)
  | _, _, .nil => .nil
  | _, _, .keep h hrest => (Cleared.subtrees h).append (ClearedList.subtrees hrest)
  | _, _, .skip h hrest => .skip h (ClearedList.subtrees hrest)

end

namespace Cleared

variable (h : t.Cleared v u)

include h

theorem descendants : ClearedList v t.descendants u.descendants := by
  rw [descendants_eq, descendants_eq]
  exact h.children.subtrees

theorem found (name : String) :
    ClearedList v (t.descendantsNamed name) (u.descendantsNamed name) :=
  h.descendants.filter (·.isType name)

theorem descendantsNamed (hname : ∀ n ∈ numberNames, Text.fold n ≠ Text.fold name) :
    List.Forall₂ (Cleared v) (t.descendantsNamed name) (u.descendantsNamed name) :=
  h.descendants.named hname

theorem attributesNamed (hname : ∀ n ∈ numberNames, Text.fold n ≠ Text.fold name) :
    t.attributesNamed name = u.attributesNamed name := by
  rw [attributesNamed_eq, attributesNamed_eq]
  exact forall₂_map_eq (h.children.named hname) fun _ _ h => h.value

theorem texts (hname : ∀ n ∈ numberNames, Text.fold n ≠ Text.fold name) :
    t.texts name = u.texts name := by
  rw [Tree.texts, Tree.texts, h.attributesNamed hname]

theorem lastText (hname : ∀ n ∈ numberNames, Text.fold n ≠ Text.fold name) :
    t.lastText name = u.lastText name := by
  rw [Tree.lastText, Tree.lastText, h.attributesNamed hname]

theorem lastNumber (name : String) : t.lastNumber? name = u.lastNumber? name := by
  have hnumbers := (h.children.filter (·.isType name)).numbers
  rw [lastNumber?, lastNumber?, attributesNamed_eq, attributesNamed_eq, List.filterMap_map,
    List.filterMap_map]
  exact congrArg List.getLast? hnumbers

end Cleared

end Reading

end Tree

section Entities

variable {v : String} {t u : Tree Token} (h : t.Cleared v u)

include h

theorem Tree.Cleared.dungeon : Dungeon.ofTree t = Dungeon.ofTree u := by
  simp (disch := decide) only [Dungeon.ofTree, h.lastText, h.value]

theorem Tree.Cleared.player : Player.ofTree t = Player.ofTree u := by
  simp (disch := decide) only [Player.ofTree, h.texts, h.lastText, h.lastNumber, h.value]

theorem Tree.Cleared.playerFaults : Fewer v (Player.faults t) (Player.faults u) := by
  rw [Player.faults, Player.faults, attributes, attributes, List.flatMap_map, List.flatMap_map]
  refine h.children.fewer ?_ ?_
  · intro t u h
    rw [h.value]
    exact .refl v _
  · intro a h
    rw [value_node, Player.attributeFaults]
    split
    · exact .garbled h "level"
    · split
      · exact .garbled h "item level"
      · split
        · exact .garbled h "quantity"
        · exact .refl v []

theorem Tree.Cleared.money : Money.ofTree t = Money.ofTree u := by
  have hnumbers : (t.descendantsNamed "denomination").filterMap (·.value.number?) =
      (u.descendantsNamed "denomination").filterMap (·.value.number?) :=
    (h.found "denomination").numbers
  have htexts : (t.descendantsNamed "currency").filterMap (·.value.value) =
      (u.descendantsNamed "currency").filterMap (·.value.value) :=
    forall₂_filterMap_eq (h.descendantsNamed (by decide)) fun _ _ h => by rw [h.value]
  rw [Money.ofTree, Money.ofTree, hnumbers, htexts]

theorem Tree.Cleared.moneyFaults : Fewer v (Money.faults t) (Money.faults u) := by
  refine (h.found "denomination").fewer ?_ ?_
  · intro t u h
    rw [h.value]
    exact .refl v _
  · intro a h
    exact .garbled h "denomination"

theorem Tree.Cleared.amounts :
    List.Forall₂ (Cleared v) (Item.amounts t) (Item.amounts u) := by
  rw [Item.amounts, Item.amounts, h.value]
  split
  · exact h.descendantsNamed (by decide)
  · exact .nil

theorem Tree.Cleared.item : Item.ofTree t = Item.ofTree u := by
  have hprice : (t.children.flatMap Item.amounts).map Money.ofTree =
      (u.children.flatMap Item.amounts).map Money.ofTree := by
    rw [List.map_flatMap, List.map_flatMap]
    refine h.children.flatMap_eq ?_ ?_
    · intro t u h
      exact forall₂_map_eq h.amounts fun _ _ h => h.money
    · intro a h
      rw [h.amounts, List.map_nil]
  simp (disch := decide) only [Item.ofTree, h.lastText, h.lastNumber, h.value, hprice]

theorem Tree.Cleared.itemFaults : Fewer v (Item.faults t) (Item.faults u) := by
  refine h.children.fewer ?_ ?_
  · intro t u h
    rw [Item.attributeFaults, Item.attributeFaults, h.value]
    split
    · exact .refl v _
    · split
      · exact .refl v _
      · exact .paired h.amounts fun _ _ h => h.moneyFaults
  · intro a h
    rw [Item.attributeFaults, value_node]
    split
    · exact .garbled h "level"
    · split
      · exact .garbled h "quantity"
      · rw [h.amounts]
        exact .refl v []

theorem Tree.Cleared.entity : Entity.ofTree? t = Entity.ofTree? u := by
  rw [Entity.ofTree?, Entity.ofTree?, h.value, h.player, h.item, h.dungeon]

theorem Tree.Cleared.entityFaults : Fewer v (Entity.faults t) (Entity.faults u) := by
  rw [Entity.faults, Entity.faults, h.value]
  split
  · exact h.playerFaults
  · exact h.itemFaults
  · exact .refl v []

end Entities

end TradeChat
