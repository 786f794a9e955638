import Mathlib.Data.List.Count
import Mathlib.Data.List.Perm.Basic
import Mathlib.Logic.Function.Basic
import TradeChat.Proofs.Entity.Abridged
import TradeChat.Proofs.Forest.Nodes

namespace TradeChat
open TradeChat.Tree

section Lists

variable {α κ β : Type} {l l' : List α}

/-- Lists agree as bags of pairs if they agree on the values of each key. -/
theorem perm_of_classes [DecidableEq κ] [DecidableEq β] {key : α → κ} {value : α → β}
    (h : ∀ k, (l.filter fun a => key a = k).map value =
      (l'.filter fun a => key a = k).map value) :
    (l.map fun a => (key a, value a)).Perm (l'.map fun a => (key a, value a)) := by
  rw [List.perm_iff_count]
  rintro ⟨k, v⟩
  have hcount : ∀ l : List α, (l.map fun a => (key a, value a)).count (k, v) =
      ((l.filter fun a => key a = k).map value).count v := by
    intro l
    rw [List.count_eq_countP, List.count_eq_countP, List.countP_map, List.countP_map,
      List.countP_filter]
    refine List.countP_congr fun a _ => ?_
    simp [and_comm]
  rw [hcount, h, hcount]

end Lists

/-- Two trees whose roots are marked alike and whose attributes agree, name by name, on the values
in their order. The prices of an item agree in all that stands below them too. -/
structure SameAttributes (t u : Tree Token) : Prop where
  type : Text.fold t.value.type = Text.fold u.value.type
  negated : t.value.negated = u.value.negated
  logic : t.value.logic = u.value.logic
  values : ∀ name, (t.attributesNamed name).map Token.value =
    (u.attributesNamed name).map Token.value
  prices : t.value.isType "item" = true →
    (t.children.filter (·.value.isType "value")).map (Tree.map Token.face) =
      (u.children.filter (·.value.isType "value")).map (Tree.map Token.face)

section Prices

variable {t u : Tree Token} (h : t.map Token.face = u.map Token.face)

include h

theorem face_root : t.value.face = u.value.face := by
  have hvalue := congrArg Tree.value h
  rwa [value_map, value_map] at hvalue

theorem face_descendantsNamed (name : String) :
    List.Forall₂ (fun b c => b.map Token.face = c.map Token.face)
      (t.descendantsNamed name) (u.descendantsNamed name) := by
  have hnamed : ∀ t : Tree Token, (t.descendantsNamed name).map (Tree.map Token.face) =
      (t.map Token.face).descendants.filter fun b => b.value.1 == Text.fold name := by
    intro t
    rw [descendants_map, List.filter_map, Tree.descendantsNamed]
    simp only [Function.comp_def, value_map]
    rfl
  apply forall₂_of_map
  rw [hnamed, hnamed, h]

theorem face_money : Money.ofTree t = Money.ofTree u := by
  have hvalues : ∀ name, List.Forall₂ (fun b c => b.value.value = c.value.value)
      (t.descendantsNamed name) (u.descendantsNamed name) := fun name =>
    (face_descendantsNamed h name).imp fun _ _ h => Token.face_value (face_root h)
  exact Money.ofTree_congr (hvalues "denomination") (hvalues "currency")

theorem face_moneyFaults : Money.faults t = Money.faults u :=
  forall₂_flatMap_eq (face_descendantsNamed h _) fun _ _ h => Token.face_faults (face_root h) _

end Prices

theorem Item.amounts_eq (ts : List (Tree Token)) : ts.flatMap amounts =
    (ts.filter (·.value.isType "value")).flatMap (·.descendantsNamed "moneyamount") := by
  induction ts with
  | nil => rfl
  | cons t ts ih =>
    rw [List.flatMap_cons, ih, amounts, List.filter_cons]
    split
    · rw [List.flatMap_cons]
    · rw [List.nil_append]

/-- What an attribute of an item reports for itself, apart from the amounts below it. -/
def Item.ownFaults (t : Token) : List NumberFault :=
  if t.isType "level" then t.numberFaults "level"
  else if t.isType "quantity" then t.numberFaults "quantity"
  else []

theorem Item.attributeFaults_eq (a : Tree Token) :
    attributeFaults a = ownFaults a.value ++ (amounts a).flatMap Money.faults := by
  have hother : ∀ name, Text.fold name ≠ Text.fold "value" → a.value.isType name = true →
      amounts a = [] := by
    intro name hname htype
    simp [amounts, Token.isType_other htype hname]
  rw [attributeFaults, ownFaults]
  split
  · rename_i hlevel
    rw [hother "level" (by decide) hlevel, List.flatMap_nil, List.append_nil]
  · split
    · rename_i hquantity
      rw [hother "quantity" (by decide) hquantity, List.flatMap_nil, List.append_nil]
    · rw [List.nil_append]

namespace SameAttributes

variable {t u : Tree Token} (h : SameAttributes t u)

include h

theorem marks : t.value.marks = u.value.marks := by
  rw [Token.marks, Token.marks, h.negated, h.logic]

theorem isType (name : String) : t.value.isType name = u.value.isType name := by
  rw [Token.isType, Token.isType, h.type]

theorem texts (name : String) : t.texts name = u.texts name := texts_values (h.values name)

theorem lastText (name : String) : t.lastText name = u.lastText name :=
  lastText_values (h.values name)

theorem lastNumber (name : String) : t.lastNumber? name = u.lastNumber? name :=
  lastNumber_values (h.values name)

/-- All attributes, each with its name and its value, are the same but for their order. -/
theorem faces_perm : (t.attributes.map Token.face).Perm (u.attributes.map Token.face) := by
  apply perm_of_classes
  intro folded
  by_cases hname : ∃ name, Text.fold name = folded
  · obtain ⟨name, rfl⟩ := hname
    exact h.values name
  · -- No name reads as this key, so no attribute has it.
    have hnone : ∀ l : List Token, (l.filter fun a => Text.fold a.type = folded) = [] := by
      intro l
      refine List.filter_eq_nil_iff.mpr fun a _ => ?_
      simpa using fun htype => hname ⟨a.type, htype⟩
    rw [hnone, hnone]

theorem reads_perm {β : Type} {read : Token → List β}
    (hread : ∀ a b : Token, a.face = b.face → read a = read b) :
    (t.attributes.flatMap read).Perm (u.attributes.flatMap read) := by
  obtain ⟨look, rfl⟩ := (Function.factorsThrough_iff read).mp fun a b => hread a b
  have hperm := h.faces_perm.flatMap_right look
  rwa [List.flatMap_map, List.flatMap_map] at hperm

theorem dungeon : Dungeon.ofTree t = Dungeon.ofTree u := by
  rw [Dungeon.ofTree, Dungeon.ofTree, h.lastText, h.lastText, h.lastText, h.marks]

theorem player : Player.ofTree t = Player.ofTree u := by
  simp only [Player.ofTree, h.texts, h.lastText, h.lastNumber, h.marks]

theorem playerFaults : (Player.faults t).Perm (Player.faults u) := by
  refine h.reads_perm fun a b h => ?_
  simp only [Player.attributeFaults, Token.face_isType h, Token.face_faults h]

section Item

variable (hitem : t.value.isType "item" = true)

include hitem

theorem amounts : List.Forall₂ (fun b c => b.map Token.face = c.map Token.face)
    (t.children.flatMap Item.amounts) (u.children.flatMap Item.amounts) := by
  rw [Item.amounts_eq, Item.amounts_eq]
  exact List.rel_flatMap (forall₂_of_map (h.prices hitem))
    fun _ _ h => face_descendantsNamed h "moneyamount"

theorem item : Item.ofTree t = Item.ofTree u := by
  have hprice := forall₂_map_eq (h.amounts hitem) fun _ _ h => face_money h
  simp only [Item.ofTree, h.lastText, h.lastNumber, h.marks, hprice]

theorem itemFaults : (Item.faults t).Perm (Item.faults u) := by
  have hparts : ∀ t : Tree Token, (t.attributes.flatMap Item.ownFaults ++
      (t.children.flatMap Item.amounts).flatMap Money.faults).Perm (Item.faults t) := by
    intro t
    rw [attributes, List.flatMap_map, List.flatMap_assoc, Item.faults,
      List.flatMap_congr fun a _ => Item.attributeFaults_eq a]
    exact List.flatMap_append_perm _ _ _
  have hown : (t.attributes.flatMap Item.ownFaults).Perm (u.attributes.flatMap Item.ownFaults) := by
    refine h.reads_perm fun a b h => ?_
    simp only [Item.ownFaults, Token.face_isType h, Token.face_faults h]
  have hmoney : (t.children.flatMap Item.amounts).flatMap Money.faults =
      (u.children.flatMap Item.amounts).flatMap Money.faults :=
    forall₂_flatMap_eq (h.amounts hitem) fun _ _ h => face_moneyFaults h
  exact (hparts t).symm.trans ((hown.append (.of_eq hmoney)).trans (hparts u))

end Item

theorem kind : EntityKind.ofToken? t.value = EntityKind.ofToken? u.value := by
  simp only [EntityKind.ofToken?, h.isType]

theorem entity : Entity.ofTree? t = Entity.ofTree? u := by
  rw [Entity.ofTree?, Entity.ofTree?, ← h.kind]
  cases hkind : EntityKind.ofToken? t.value with
  | none => rfl
  | some kind =>
    cases kind with
    | player => rw [Option.map_some, Option.map_some, h.player]
    | item => rw [Option.map_some, Option.map_some, h.item (EntityKind.item.isType hkind)]
    | dungeon => rw [Option.map_some, Option.map_some, h.dungeon]

theorem faults : (Entity.faults t).Perm (Entity.faults u) := by
  rw [Entity.faults, Entity.faults, ← h.kind]
  split
  · exact h.playerFaults
  · rename_i hkind
    exact h.itemFaults (EntityKind.item.isType hkind)
  · exact .refl _

end SameAttributes

section Changes

variable {a : Token} {ts us : List (Tree Token)}

/-- Attributes of different names may change their places. -/
theorem SameAttributes.of_order (h : ∀ name, ts.filter (·.value.isType name) =
    us.filter (·.value.isType name)) : SameAttributes (node a ts) (node a us) where
  type := rfl
  negated := rfl
  logic := rfl
  values := by
    intro name
    rw [attributesNamed_eq, attributesNamed_eq, children_node, children_node, h]
  prices := by
    intro _
    rw [children_node, children_node, h]

/-- What stands below an attribute may change, if it is no price of an item. -/
theorem SameAttributes.of_below (h : List.Forall₂ (fun c d : Tree Token => c.value = d.value ∧
    (a.isType "item" = true → c.value.isType "value" = true → c = d)) ts us) :
    SameAttributes (node a ts) (node a us) where
  type := rfl
  negated := rfl
  logic := rfl
  values := by
    intro name
    have hvalues : ts.map value = us.map value := forall₂_map_eq h fun _ _ h => h.1
    rw [attributesNamed, attributesNamed, attributes, attributes, children_node, children_node,
      hvalues]
  prices := by
    intro hitem
    refine congrArg (List.map (Tree.map Token.face)) ?_
    rw [value_node] at hitem
    rw [children_node, children_node]
    induction h with
    | nil => rfl
    | @cons c d ts us hcd _ ih =>
      rw [List.filter_cons, List.filter_cons, ← hcd.1, ih]
      split
      · rename_i hvalue
        rw [hcd.2 hitem hvalue]
      · rfl

/-- Two neighbours of different names trade places. -/
theorem filter_swap {x y : Tree Token} (before after : List (Tree Token))
    (h : Text.fold x.value.type ≠ Text.fold y.value.type) (name : String) :
    (before ++ x :: y :: after).filter (·.value.isType name) =
      (before ++ y :: x :: after).filter (·.value.isType name) := by
  rw [List.filter_append, List.filter_append]
  refine congrArg (before.filter _ ++ ·) ?_
  cases hx : x.value.isType name with
  | false => simp [List.filter_cons, hx]
  | true =>
    have hy : y.value.isType name = false := by
      simp only [Token.isType, beq_iff_eq, beq_eq_false_iff_ne] at hx ⊢
      exact fun hy => h (hx.trans hy.symm)
    simp [List.filter_cons, hy]

end Changes

/-- The same entity is read off two trees, and the same faults in some order. -/
structure SameReading (t u : Tree Token) : Prop where
  entity : Entity.ofTree? t = Entity.ofTree? u
  faults : (Entity.faults t).Perm (Entity.faults u)

theorem SameAttributes.reading {t u : Tree Token} (h : SameAttributes t u) : SameReading t u :=
  ⟨h.entity, h.faults⟩

/-- An entity depends on its own marks and, for each name, on the values of its attributes of that
name in their order; of what stands deeper only the prices of an item count. So attributes of
different names may change their places, and all may change below those that are no prices. -/
theorem Forest.sameReading (f g : Forest) (n : Fin f.size) (m : Fin g.size) :
    (SameAttributes (f.treeAt n) (g.treeAt m) → SameReading (f.treeAt n) (g.treeAt m)) ∧
    ∀ a ts us, f.treeAt n = node a ts → g.treeAt m = node a us →
      ((∀ name, ts.filter (·.value.isType name) = us.filter (·.value.isType name)) →
        SameReading (f.treeAt n) (g.treeAt m)) ∧
      (List.Forall₂ (fun c d => c.value = d.value ∧
          (a.isType "item" = true → c.value.isType "value" = true → c = d)) ts us →
        SameReading (f.treeAt n) (g.treeAt m)) := by
  refine ⟨SameAttributes.reading, ?_⟩
  intro a ts us hf hg
  rw [hf, hg]
  exact ⟨fun h => (SameAttributes.of_order h).reading, fun h => (SameAttributes.of_below h).reading⟩

section Axe

/-- The token of an axe. -/
def axe : Token := { type := "Item", id := some "a" }

def axeName : Tree Token := node { type := "Name", parent := some "a", value := some "Axe" } []

/-- The name with a token below it that nothing reads. -/
def axeNamed : Tree Token :=
  node { type := "Name", parent := some "a", value := some "Axe" }
    [node { type := "Level", value := some "9" } []]

def axePrice : Tree Token :=
  node { type := "Value", id := some "v", parent := some "a" }
    [node { type := "MoneyAmount", id := some "m", parent := some "v" }
      [node { type := "Denomination", parent := some "m", value := some "4" } [],
        node { type := "Currency", parent := some "m", value := some "Gold" } []]]

/-- The forest of an axe with some attributes. -/
def axeForest (attributes : List (Tree Token)) : Forest := .ofTrees [node axe attributes]

theorem Forest.sameReading_axe :
    SameReading ((axeForest [axeName, axePrice]).treeAt ⟨0, by decide⟩)
      ((axeForest [axePrice, axeName]).treeAt ⟨0, by decide⟩) ∧
    SameReading ((axeForest [axeNamed, axePrice]).treeAt ⟨0, by decide⟩)
      ((axeForest [axePrice, axeNamed]).treeAt ⟨0, by decide⟩) ∧
    SameReading ((axeForest [axeName, axePrice]).treeAt ⟨0, by decide⟩)
      ((axeForest [axeNamed, axePrice]).treeAt ⟨0, by decide⟩) := by
  have hswap := filter_swap (x := axeName) (y := axePrice) [] [] (by decide)
  have hswap' := filter_swap (x := axeNamed) (y := axePrice) [] [] (by decide)
  have hattributes : SameAttributes (node axe [axeName, axePrice]) (node axe [axePrice, axeName]) :=
    .of_order hswap
  refine ⟨(sameReading _ _ _ _).1 hattributes, ((sameReading _ _ _ _).2 axe _ _ rfl rfl).1 hswap',
    ((sameReading _ _ _ _).2 axe _ _ rfl rfl).2 ?_⟩
  refine .cons ⟨rfl, fun _ hvalue => ?_⟩ (.cons ⟨rfl, fun _ _ => rfl⟩ .nil)
  exact absurd hvalue (by decide)

end Axe

end TradeChat
