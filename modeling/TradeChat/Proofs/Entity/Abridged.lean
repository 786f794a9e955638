import Mathlib.Data.List.Forall2
import TradeChat.Entity
import TradeChat.Proofs.Tree

namespace TradeChat
open TradeChat.Tree

/-- A type goes by one name only, whatever the case of its letters. -/
theorem Token.isType_other {t : Token} {name other : String} (h : t.isType name = true)
    (hne : Text.fold name ≠ Text.fold other) : t.isType other = false := by
  simp only [Token.isType, beq_iff_eq] at h
  simp only [Token.isType, beq_eq_false_iff_ne, h]
  exact hne

theorem EntityKind.isType {t : Token} (kind : EntityKind) (h : ofToken? t = some kind) :
    t.isType kind.typeName = true := by
  have hfound := List.find?_some h
  exact hfound

/-- The type names that are looked for below a root. -/
def vocabulary : List String :=
  ["subject", "object", "player", "item", "instance", "contactmethod", "class", "specialization",
    "race", "role", "level", "itemlevel", "quantity", "name", "rarity", "type", "value",
    "moneyamount", "denomination", "currency", "mode", "difficulty"]

namespace Token

/-- Tokens that differ at most in their id, their parent, and the case of ASCII letters in the
type. -/
structure Alike (a b : Token) : Prop where
  type : Text.fold a.type = Text.fold b.type
  value : a.value = b.value
  logic : a.logic = b.logic
  negated : a.negated = b.negated

/-- The type of the token is not looked for below a root. -/
def Unnamed (t : Token) : Prop := ∀ name ∈ vocabulary, t.isType name = false

instance (t : Token) : Decidable t.Unnamed :=
  inferInstanceAs (Decidable (∀ name ∈ vocabulary, t.isType name = false))

variable {a b : Token}

/-- What is read of an attribute: its type, without regard to case, and its value. -/
def face (t : Token) : String × Option String := (Text.fold t.type, t.value)

section Face

theorem number_of_value (h : a.value = b.value) : a.number? = b.number? := by
  rw [number?, number?, valueText, valueText, h]

variable (h : a.face = b.face)

include h

theorem face_isType (name : String) : a.isType name = b.isType name := by
  rw [isType, isType, (Prod.mk.inj h).1]

theorem face_value : a.value = b.value := (Prod.mk.inj h).2

theorem face_faults (field : String) : a.numberFaults field = b.numberFaults field := by
  rw [numberFaults, numberFaults, number_of_value (face_value h), valueText, valueText,
    face_value h]

end Face

namespace Alike

theorem refl (a : Token) : a.Alike a := ⟨rfl, rfl, rfl, rfl⟩

theorem face (h : a.Alike b) : a.face = b.face := Prod.ext h.type h.value

theorem isType (h : a.Alike b) (name : String) : a.isType name = b.isType name :=
  face_isType h.face name

theorem marks (h : a.Alike b) : a.marks = b.marks := by
  rw [Token.marks, Token.marks, h.negated, h.logic]

theorem numberFaults (h : a.Alike b) (field : String) :
    a.numberFaults field = b.numberFaults field := face_faults h.face field

theorem entityKind (h : a.Alike b) : EntityKind.ofToken? a = EntityKind.ofToken? b := by
  simp only [EntityKind.ofToken?, h.isType]

end Alike

theorem Unnamed.isType (h : a.Unnamed) : ∀ name ∈ vocabulary, a.isType name = false := h

theorem Unnamed.entityKind (h : a.Unnamed) : EntityKind.ofToken? a = none := by
  rw [EntityKind.ofToken?, List.find?_eq_none]
  intro kind _
  have hname : kind.typeName ∈ vocabulary := by
    cases kind <;> simp [EntityKind.typeName, vocabulary]
  simp [h.isType _ hname]

end Token

namespace Tree

theorem attributesNamed_eq (t : Tree Token) (name : String) :
    t.attributesNamed name = (t.children.filter (·.value.isType name)).map value := by
  rw [attributesNamed, attributes, List.filter_map]
  rfl

/-- Nothing in the tree is looked for below a root. -/
def Unread (t : Tree Token) : Prop := ∀ u ∈ t.subtrees, u.value.Unnamed

theorem Unread.value {t : Tree Token} (h : t.Unread) : t.value.Unnamed := h t (mem_subtrees_self t)

mutual

/-- A tree and one that tells the same in fewer nodes: it may leave out trees in which nothing is
looked for, and write the tokens of the others in another way. -/
inductive Abridged : Tree Token → Tree Token → Prop
  | node {a b : Token} {ts us : List (Tree Token)} : a.Alike b → AbridgedList ts us →
      Abridged (node a ts) (node b us)

inductive AbridgedList : List (Tree Token) → List (Tree Token) → Prop
  | nil : AbridgedList [] []
  | keep {t u : Tree Token} {ts us : List (Tree Token)} : Abridged t u → AbridgedList ts us →
      AbridgedList (t :: ts) (u :: us)
  | skip {t : Tree Token} {ts us : List (Tree Token)} : Unread t → AbridgedList ts us →
      AbridgedList (t :: ts) us

end

section Making

variable {α : Type} {old new : α → Token} {keep : α → Bool}

theorem abridgedList_filter {ts : List (Tree α)} {f g : Tree α → Tree Token} {p : Tree α → Bool}
    (hkeep : ∀ t ∈ ts, p t = true → (f t).Abridged (g t))
    (hskip : ∀ t ∈ ts, p t = false → (f t).Unread) :
    AbridgedList (ts.map f) ((ts.filter p).map g) := by
  induction ts with
  | nil => exact .nil
  | cons t ts ih =>
    obtain ⟨hown, hkeep⟩ := List.forall_mem_cons.mp hkeep
    obtain ⟨hown', hskip⟩ := List.forall_mem_cons.mp hskip
    cases hp : p t with
    | true =>
      rw [List.filter_cons_of_pos hp]
      exact .keep (hown hp) (ih hkeep hskip)
    | false =>
      rw [List.filter_cons_of_neg (by simp [hp])]
      exact .skip (hown' hp) (ih hkeep hskip)

/-- Trees of one shape with tokens that are alike. -/
theorem abridged_map (t : Tree α) (h : ∀ u ∈ t.subtrees, (old u.value).Alike (new u.value)) :
    (t.map old).Abridged (t.map new) := by
  induction t using induct with
  | node a ts ih =>
    have hchildren : AbridgedList (ts.map (map old)) ((ts.filter fun _ => true).map (map new)) := by
      apply abridgedList_filter
      · intro t ht _
        exact ih t ht fun u hu => h u (mem_subtrees_trans (mem_subtrees_of_child ht) hu)
      · intro t _ hfalse
        cases hfalse
    rw [List.filter_true] at hchildren
    rw [map, map, mapList_eq, mapList_eq]
    exact .node (h _ (mem_subtrees_self _)) hchildren

end Making

section Reading

variable {β : Type} {t u : Tree Token} {ts us : List (Tree Token)} {name : String}

theorem Abridged.value : t.Abridged u → t.value.Alike u.value
  | .node h _ => h

theorem Abridged.children : t.Abridged u → AbridgedList t.children u.children
  | .node _ h => h

theorem AbridgedList.flatMap {read : Tree Token → List β}
    (hread : ∀ t u, t.Abridged u → read t = read u) (hskip : ∀ t, t.Unread → read t = []) :
    {ts us : List (Tree Token)} → AbridgedList ts us → ts.flatMap read = us.flatMap read
  | _, _, .nil => rfl
  | _, _, .keep h hrest => by
    rw [List.flatMap_cons, List.flatMap_cons, hread _ _ h, AbridgedList.flatMap hread hskip hrest]
  | _, _, .skip h hrest => by
    rw [List.flatMap_cons, hskip _ h, List.nil_append, AbridgedList.flatMap hread hskip hrest]

/-- The trees of a type are all still there. -/
theorem AbridgedList.named (hname : name ∈ vocabulary) :
    {ts us : List (Tree Token)} → AbridgedList ts us →
    List.Forall₂ Abridged (ts.filter (·.value.isType name)) (us.filter (·.value.isType name))
  | _, _, .nil => .nil
  | _, _, .keep h hrest => by
    rw [List.filter_cons, List.filter_cons, h.value.isType]
    split
    · exact .cons h (AbridgedList.named hname hrest)
    · exact AbridgedList.named hname hrest
  | _, _, .skip h hrest => by
    rw [List.filter_cons_of_neg (by simp [h.value.isType _ hname])]
    exact AbridgedList.named hname hrest

theorem Unread.named (h : t.Unread) (hname : name ∈ vocabulary) :
    t.subtrees.filter (·.value.isType name) = [] := by
  rw [List.filter_eq_nil_iff]
  intro u hu
  simp [(h u hu).isType _ hname]

mutual

theorem Abridged.subtreesNamed (hname : name ∈ vocabulary) :
    {t u : Tree Token} → t.Abridged u →
    List.Forall₂ Abridged (t.subtrees.filter (·.value.isType name))
      (u.subtrees.filter (·.value.isType name))
  | _, _, .node h hts => by
    have hrest := AbridgedList.subtreesNamed hname hts
    rw [subtrees_node, subtrees_node, List.filter_cons, List.filter_cons, value_node, value_node,
      h.isType]
    split
    · exact .cons (.node h hts) hrest
    · exact hrest

theorem AbridgedList.subtreesNamed (hname : name ∈ vocabulary) :
    {ts us : List (Tree Token)} → AbridgedList ts us →
    List.Forall₂ Abridged ((ts.flatMap subtrees).filter (·.value.isType name))
      ((us.flatMap subtrees).filter (·.value.isType name))
  | _, _, .nil => .nil
  | _, _, .keep h hrest => by
    rw [List.flatMap_cons, List.flatMap_cons, List.filter_append, List.filter_append]
    exact List.rel_append (Abridged.subtreesNamed hname h)
      (AbridgedList.subtreesNamed hname hrest)
  | _, _, .skip h hrest => by
    rw [List.flatMap_cons, List.filter_append, h.named hname, List.nil_append]
    exact AbridgedList.subtreesNamed hname hrest

end

theorem forall₂_of_map {γ : Type} {read : β → γ} {l l' : List β}
    (h : l.map read = l'.map read) :
    List.Forall₂ (fun a b => read a = read b) l l' := by
  rw [← List.forall₂_eq_eq_eq, List.forall₂_map_left_iff, List.forall₂_map_right_iff] at h
  exact h

section Pairs

variable {γ : Type} {R : β → β → Prop} {l l' : List β} (h : List.Forall₂ R l l')

include h

theorem forall₂_map_eq {f : β → γ} (hf : ∀ a b, R a b → f a = f b) : l.map f = l'.map f := by
  have hmaps := List.rel_map (P := Eq) hf h
  rwa [List.forall₂_eq_eq_eq] at hmaps

theorem forall₂_filterMap_eq {f : β → Option γ} (hf : ∀ a b, R a b → f a = f b) :
    l.filterMap f = l'.filterMap f := by
  have hmaps := congrArg (List.filterMap id) (forall₂_map_eq h hf)
  rwa [List.filterMap_map, List.filterMap_map] at hmaps

theorem forall₂_flatMap_eq {f : β → List γ} (hf : ∀ a b, R a b → f a = f b) :
    l.flatMap f = l'.flatMap f := by
  rw [List.flatMap_def, List.flatMap_def, forall₂_map_eq h hf]

end Pairs

section Values

-- Of the attributes of a name only the values count.
variable (h : (t.attributesNamed name).map Token.value = (u.attributesNamed name).map Token.value)

include h

theorem texts_values : t.texts name = u.texts name :=
  forall₂_filterMap_eq (forall₂_of_map h) fun _ _ h => h

theorem lastText_values : t.lastText name = u.lastText name := by
  have hlast := congrArg (fun values => (values.getLast?.bind id).getD "") h
  simp only [List.getLast?_map, Option.bind_map] at hlast
  exact hlast

theorem lastNumber_values : t.lastNumber? name = u.lastNumber? name := by
  rw [lastNumber?, lastNumber?,
    forall₂_filterMap_eq (forall₂_of_map h) fun _ _ h => Token.number_of_value h]

end Values

namespace Abridged

theorem attributesNamed (h : t.Abridged u) (hname : name ∈ vocabulary) :
    List.Forall₂ Token.Alike (t.attributesNamed name) (u.attributesNamed name) := by
  rw [attributesNamed_eq, attributesNamed_eq]
  exact List.rel_map (fun _ _ h => h.value) (h.children.named hname)

theorem descendantsNamed (h : t.Abridged u) (hname : name ∈ vocabulary) :
    List.Forall₂ Abridged (t.descendantsNamed name) (u.descendantsNamed name) := by
  rw [Tree.descendantsNamed, Tree.descendantsNamed, descendants_eq, descendants_eq]
  exact h.children.subtreesNamed hname

theorem values (h : t.Abridged u) (hname : name ∈ vocabulary) :
    (t.attributesNamed name).map Token.value = (u.attributesNamed name).map Token.value :=
  forall₂_map_eq (h.attributesNamed hname) fun _ _ h => h.value

theorem texts (h : t.Abridged u) : ∀ name ∈ vocabulary, t.texts name = u.texts name :=
  fun _ hname => texts_values (h.values hname)

theorem lastText (h : t.Abridged u) :
    ∀ name ∈ vocabulary, t.lastText name = u.lastText name :=
  fun _ hname => lastText_values (h.values hname)

theorem lastNumber (h : t.Abridged u) :
    ∀ name ∈ vocabulary, t.lastNumber? name = u.lastNumber? name :=
  fun _ hname => lastNumber_values (h.values hname)

end Abridged

end Reading

end Tree

section Unread

variable {t : Tree Token} (h : t.Unread)

include h

theorem Tree.Unread.amounts : Item.amounts t = [] := by
  simp (disch := decide) [Item.amounts, h.value.isType]

theorem Tree.Unread.entity : Entity.ofTree? t = none := by
  rw [Entity.ofTree?, h.value.entityKind]
  rfl

theorem Tree.Unread.entityFaults : Entity.faults t = [] := by
  rw [Entity.faults, h.value.entityKind]

end Unread

/-- Of what stands below an amount only the values of two names count. -/
theorem Money.ofTree_congr {t u : Tree Token}
    (hnumbers : List.Forall₂ (fun b c => b.value.value = c.value.value)
      (t.descendantsNamed "denomination") (u.descendantsNamed "denomination"))
    (htexts : List.Forall₂ (fun b c => b.value.value = c.value.value)
      (t.descendantsNamed "currency") (u.descendantsNamed "currency")) :
    ofTree t = ofTree u := by
  have hamounts : (t.descendantsNamed "denomination").filterMap (·.value.number?) =
      (u.descendantsNamed "denomination").filterMap (·.value.number?) :=
    forall₂_filterMap_eq hnumbers fun _ _ h => Token.number_of_value h
  have hcurrencies : (t.descendantsNamed "currency").filterMap (·.value.value) =
      (u.descendantsNamed "currency").filterMap (·.value.value) :=
    forall₂_filterMap_eq htexts fun _ _ h => h
  rw [ofTree, ofTree, hamounts, hcurrencies]

section Entities

variable {t u : Tree Token} (h : t.Abridged u)

include h

theorem Tree.Abridged.dungeon : Dungeon.ofTree t = Dungeon.ofTree u := by
  simp (disch := decide) [Dungeon.ofTree, h.lastText, h.value.marks]

theorem Tree.Abridged.player : Player.ofTree t = Player.ofTree u := by
  simp (disch := decide) [Player.ofTree, h.texts, h.lastText, h.lastNumber, h.value.marks]

theorem Tree.Abridged.playerFaults : Player.faults t = Player.faults u := by
  rw [Player.faults, Player.faults, attributes, attributes, List.flatMap_map, List.flatMap_map]
  refine h.children.flatMap ?_ ?_
  · intro t u h
    simp only [Player.attributeFaults, h.value.isType, h.value.numberFaults]
  · intro t h
    simp (disch := decide) [Player.attributeFaults, h.value.isType]

theorem Tree.Abridged.money : Money.ofTree t = Money.ofTree u := by
  apply Money.ofTree_congr
  · exact (h.descendantsNamed (by simp [vocabulary])).imp fun _ _ h => h.value.value
  · exact (h.descendantsNamed (by simp [vocabulary])).imp fun _ _ h => h.value.value

theorem Tree.Abridged.moneyFaults : Money.faults t = Money.faults u :=
  forall₂_flatMap_eq (h.descendantsNamed (by simp [vocabulary])) fun _ _ h =>
    h.value.numberFaults _

theorem Tree.Abridged.amounts : List.Forall₂ Abridged (Item.amounts t) (Item.amounts u) := by
  rw [Item.amounts, Item.amounts, h.value.isType]
  split
  · exact h.descendantsNamed (by simp [vocabulary])
  · exact .nil

theorem Tree.Abridged.item : Item.ofTree t = Item.ofTree u := by
  have hprice : (t.children.flatMap Item.amounts).map Money.ofTree =
      (u.children.flatMap Item.amounts).map Money.ofTree := by
    rw [List.map_flatMap, List.map_flatMap]
    refine h.children.flatMap ?_ ?_
    · intro t u h
      exact forall₂_map_eq h.amounts fun _ _ h => h.money
    · intro t h
      rw [h.amounts, List.map_nil]
  simp (disch := decide) [Item.ofTree, h.lastText, h.lastNumber, h.value.marks, hprice]

theorem Tree.Abridged.itemFaults : Item.faults t = Item.faults u := by
  refine h.children.flatMap ?_ ?_
  · intro t u h
    simp only [Item.attributeFaults, h.value.isType, h.value.numberFaults,
      forall₂_flatMap_eq h.amounts fun _ _ h => h.moneyFaults]
  · intro t h
    simp (disch := decide) [Item.attributeFaults, h.value.isType, h.amounts]

theorem Tree.Abridged.entity : Entity.ofTree? t = Entity.ofTree? u := by
  rw [Entity.ofTree?, Entity.ofTree?, h.value.entityKind, h.player, h.item, h.dungeon]

theorem Tree.Abridged.entityFaults : Entity.faults t = Entity.faults u := by
  rw [Entity.faults, Entity.faults, h.value.entityKind, h.playerFaults, h.itemFaults]

end Entities

end TradeChat
