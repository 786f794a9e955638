import TradeChat.Proofs.Grouping.Selected
import TradeChat.Proofs.Sentence.Filling
import TradeChat.Proofs.Sentence.Reading

namespace TradeChat

namespace Groups

variable {α : Type}

theorem only_only (keep more : α → Bool) (groups : Groups α) :
    only keep (only more groups) = only (fun a => keep a && more a) groups := by
  induction groups with
  | nil => rfl
  | cons group rest ih =>
    rw [← List.singleton_append, only_append, only_append, only_append, ih, only_single,
      only_single, ← List.filter_filter]
    cases hmore : group.filter more with
    | nil => rfl
    | cons a kept => rw [List.isEmpty_cons, if_neg Bool.false_ne_true, only_single]

end Groups

namespace Sentence

variable {f : Forest} {root : Nat} {t : Tree Token} {role : Role} {rules whole : Rules}

/-- The readings under narrower rules are those under wider ones, with more entities turned away. -/
theorem roleMarks_only (h : ∀ kind, rules.allows role kind = true → whole.allows role kind = true) :
    (f.roleMarks whole role root).map (Mark.only fun e => rules.allows role e.kind) =
      f.roleMarks rules role root := by
  rw [Forest.roleMarks, Forest.roleMarks, List.map_map]
  refine List.map_congr_left fun r _ => ?_
  have hkeep : (fun e : Entity => whole.allows role e.kind && rules.allows role e.kind) =
      fun e => rules.allows role e.kind := by
    funext e
    cases hallowed : rules.allows role e.kind with
    | false => rw [Bool.and_false]
    | true => rw [h e.kind hallowed, Bool.and_true]
  rw [Function.comp_apply, Mark.only, Reading.mark, Reading.mark, Option.filter_filter, hkeep]

theorem groups_start (h : f.tree? root = some t) (kind : EventKind) :
    (Sentence.readRole { kind, rules } role t).groups role =
      Groups.fill [] false (f.roleMarks rules role root) := by
  have hstart : Sentence.groups { kind, rules } role = [] := by cases role <;> rfl
  rw [(groups_readRole _ role t).1, hstart, Forest.roleSteps_marks h]
  exact (Grouping.Tracks.start.run _).1

theorem groups_narrowed (h : f.tree? root = some t) (kind : EventKind) (rules : Rules)
    (hwider : ∀ kind, rules.allows role kind = true → whole.allows role kind = true) :
    (Sentence.readRole { kind, rules } role t).groups role =
      ((Sentence.readRole { kind, rules := whole } role t).groups role).only
        fun e => rules.allows role e.kind := by
  rw [groups_start h, groups_start h, Groups.only_fill, roleMarks_only hwider]
  exact (Groups.fill_nil _ _).symm

/-- The rules of a sentence do not show in its diagnostics. -/
theorem diagnostics_start (kind : EventKind) (rules : Rules) (role : Role) (t : Tree Token) :
    (Sentence.readRole { kind, rules } role t).diagnostics =
      (t.descendantsNamed role.typeName).flatMap clauseFaults := by
  cases role <;> rfl

/-- Rules take entities out of the groups, and the groups that are left empty, but move nothing
else: a clause reads as it would if every kind were allowed. Whatever rules two sentences have, the
entities that both allow stand in the same groups. -/
theorem readRole_filters (f : Forest) (root : Fin f.size) (kind : EventKind) (role : Role) :
    let read (rules : Rules) := Sentence.readRole { kind, rules } role (f.treeAt root)
    let taken (rules : Rules) (e : Entity) := rules.allows role e.kind
    (∀ rules whole, (∀ k, whole.allows role k = true) →
      (read rules).groups role = ((read whole).groups role).only (taken rules) ∧
        (read rules).diagnostics = (read whole).diagnostics) ∧
    ∀ rules other, ((read rules).groups role).only (taken other) =
      ((read other).groups role).only (taken rules) := by
  have h := f.tree_treeAt root
  refine ⟨fun rules whole hwhole => ⟨?_, ?_⟩, fun rules other => ?_⟩
  · exact groups_narrowed h kind rules fun k _ => hwhole k
  · rw [diagnostics_start, diagnostics_start]
  · let whole : Rules := ⟨EntityKind.all, EntityKind.all⟩
    have hwhole : ∀ k, whole.allows role k = true := by
      intro k
      cases role <;> cases k <;> rfl
    rw [groups_narrowed h kind rules fun k _ => hwhole k,
      groups_narrowed h kind other fun k _ => hwhole k, Groups.only_only, Groups.only_only]
    simp only [Bool.and_comm]

/-- An order with a player between two items, each behind an "or" of its own. -/
def mixedOrder : Forest :=
  .ofTrees [.node ⟨"Buy", some "a", none, none, none, false⟩
    [.node ⟨"Object", some "o", some "a", none, none, false⟩
      [.node ⟨"Item", some "i", some "o", none, none, false⟩
          [.node ⟨"Name", none, some "i", some "Axe", none, false⟩ []],
        .node ⟨"Player", some "p", some "o", none, some .or, false⟩
          [.node ⟨"Role", none, some "p", some "Tank", none, false⟩ []],
        .node ⟨"Item", some "j", some "o", none, some .and, false⟩
          [.node ⟨"Level", none, some "j", some "high", none, false⟩ []]]]]

/-- The "or" of the player parts the items, whether or not the player may stand between them. -/
theorem readRole_filters_order :
    let items : Rules := ⟨[], [.item]⟩
    let whole : Rules := ⟨EntityKind.all, EntityKind.all⟩
    let read (rules : Rules) :=
      Sentence.readRole { kind := .buy, rules } .object (mixedOrder.treeAt ⟨0, by decide⟩)
    (∀ k, whole.allows .object k = true) ∧
      ((read items).groups .object =
          ((read whole).groups .object).only (fun e => items.allows .object e.kind) ∧
        (read items).diagnostics = (read whole).diagnostics) ∧
      (read items).objects.map List.length = [1, 1] ∧
      (read whole).objects.map List.length = [1, 2] ∧
      (read items).diagnostics.length = 1 := by
  have hwhole : ∀ k, Rules.allows ⟨EntityKind.all, EntityKind.all⟩ .object k = true := by
    intro k
    cases k <;> rfl
  refine ⟨hwhole, ?_, by decide +kernel⟩
  exact (readRole_filters mixedOrder ⟨0, by decide⟩ .buy .object).1 _ _ hwhole

end Sentence

end TradeChat
