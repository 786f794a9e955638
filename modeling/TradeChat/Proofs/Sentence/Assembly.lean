import TradeChat.Proofs.Grouping.Neighbours
import TradeChat.Proofs.Sentence.Reading

namespace TradeChat

namespace Forest

/-- The children of a clause whose type names a kind that the rules allow. -/
def takenNodes (f : Forest) (rules : Rules) (role : Role) (clause : Nat) : List Nat :=
  (f.children clause).filter fun n => (f.kind? n).any (rules.allows role)

variable {f : Forest}

theorem takenNodes_entity {rules : Rules} {role : Role} {clause n : Nat}
    (hn : n ∈ f.takenNodes rules role clause) (negated : Bool) :
    ∃ e, f.entity? negated n = some e ∧ rules.allows role e.kind = true := by
  obtain ⟨kind, hkind, hallowed⟩ := (Option.any_eq_true _ _).mp (List.mem_filter.mp hn).2
  obtain ⟨e, he, hek⟩ := entity_of_kind hkind negated
  exact ⟨e, he, hek ▸ hallowed⟩

theorem members_taken (rules : Rules) (role : Role) (negated : Bool) (clause : Nat) :
    (f.entityNodes clause).filterMap (fun n =>
        (f.entity? negated n).filter fun e => rules.allows role e.kind) =
      (f.takenNodes rules role clause).filterMap (f.entity? negated) := by
  rw [entityNodes, takenNodes]
  induction f.children clause with
  | nil => rfl
  | cons n rest ih =>
    rw [List.filter_cons, List.filter_cons]
    cases hk : f.kind? n with
    | none => simpa using ih
    | some kind =>
      obtain ⟨e, he, rfl⟩ := entity_of_kind hk negated
      cases hallowed : rules.allows role e.kind with
      | true =>
        have hkeep : (some e).filter (fun e => rules.allows role e.kind) = some e := by
          simp [hallowed, Option.filter]
        simp only [Option.isSome_some, Option.any_some, hallowed, ↓reduceIte,
          List.filterMap_cons, he, hkeep, ih]
      | false =>
        have hdrop : (some e).filter (fun e => rules.allows role e.kind) = none := by
          simp [hallowed, Option.filter]
        simp only [Option.isSome_some, Option.any_some, hallowed, ↓reduceIte, Bool.false_eq_true,
          List.filterMap_cons, he, hdrop, ih]

theorem roleMarks_members (rules : Rules) (role : Role) (root : Nat) :
    (f.roleMarks rules role root).filterMap Mark.member =
      (f.findAll root role.typeName).flatMap fun c =>
        (f.takenNodes rules role c).filterMap (f.entity? (f.isNegated c)) := by
  rw [roleMarks, clauseReadings, List.map_flatMap, List.filterMap_flatMap]
  refine List.flatMap_congr fun c _ => ?_
  rw [List.map_cons, List.filterMap_cons_none rfl, List.filterMap_map, List.filterMap_map,
    ← members_taken]
  rfl

theorem bareMarks_members (rules : Rules) (root : Nat) :
    (f.bareMarks rules root).filterMap Mark.member =
      (f.takenNodes rules .object root).filterMap (f.entity? false) := by
  rw [bareMarks, bareReadings, List.filterMap_map, List.filterMap_map, ← members_taken]
  rfl

/-- No node is a clause of both roles, and no root is a clause of its own. -/
theorem clauses_nodup (f : Forest) (root : Nat) :
    (f.findAll root Role.subject.typeName ++
      (f.findAll root Role.object.typeName ++ [root])).Nodup := by
  have hroot : ∀ role : Role, root ∉ f.findAll root role.typeName :=
    fun role => not_mem_findAll_self f root role.typeName
  refine List.nodup_append.mpr ⟨findAll_nodup f root _, ?_, ?_⟩
  · refine List.nodup_append.mpr ⟨findAll_nodup f root _, by simp, ?_⟩
    intro c hc d hd he
    rw [List.mem_singleton.mp hd] at he
    exact hroot .object (he ▸ hc)
  · intro c hc d hd he
    subst he
    rcases List.mem_append.mp hd with hd | hd
    · exact findAll_disjoint f root (by decide) hc hd
    · exact hroot .subject (List.mem_singleton.mp hd ▸ hc)

/-- A node that gives an entity stands in one clause only. -/
theorem takenNodes_nodup (f : Forest) (rules : Rules) (root : Nat) :
    ((f.findAll root Role.subject.typeName).flatMap (f.takenNodes rules .subject) ++
      ((f.findAll root Role.object.typeName).flatMap (f.takenNodes rules .object) ++
        f.takenNodes rules .object root)).Nodup := by
  have hchildren : ((f.findAll root Role.subject.typeName ++
      (f.findAll root Role.object.typeName ++ [root])).flatMap f.children).Nodup := by
    apply List.nodup_flatMap.mpr
    refine ⟨fun c _ => children_nodup f c, (clauses_nodup f root).imp ?_⟩
    intro c d hne
    exact children_disjoint f hne
  rw [List.flatMap_append, List.flatMap_append, List.flatMap_singleton] at hchildren
  have hsub : ∀ role, ∀ c : Nat, (f.takenNodes rules role c).Sublist (f.children c) :=
    fun _ _ => List.filter_sublist
  exact hchildren.sublist ((List.Sublist.flatMap_right _ fun c _ => hsub .subject c).append
    ((List.Sublist.flatMap_right _ fun c _ => hsub .object c).append (hsub .object root)))

end Forest

namespace Sentence

variable {f : Forest} {n : Nat} {t : Tree Token}

/-- The readings that a sentence collects, as marks on the nodes of the forest. -/
theorem assemble_groups (h : f.tree? n = some t) (kind : EventKind) (rules : Rules) :
    (assemble kind rules t).subjects = Groups.ofMarks (f.roleMarks rules .subject n) [] ∧
      (assemble kind rules t).objects =
        Groups.ofMarks (f.roleMarks rules .object n) (f.bareMarks rules n) := by
  let s : Sentence := { kind, rules }
  have hobjects : (s.readRole .object t).objects =
      Groups.ofMarks (f.roleMarks rules .object n) [] := by
    rw [← Grouping.run_marks, ← Forest.roleSteps_marks h]
    rfl
  have hsubjects : (assemble kind rules t).subjects =
      (Grouping.run {} (roleSteps rules .subject t)).groups := by
    cases kind <;> rfl
  have hbare : (assemble kind rules t).objects =
      (Grouping.run ⟨.atLast (s.readRole .object t).objects, (s.readRole .object t).objects⟩
        (clauseSteps rules .object false t)).groups := by
    cases kind <;> rfl
  rw [hsubjects, hbare, hobjects, Forest.roleSteps_marks h, Forest.clauseSteps_bare h]
  exact ⟨Grouping.run_marks _, Grouping.run_marks_then _ _⟩

theorem assemble_sides (h : f.tree? n = some t) (kind : EventKind) (rules : Rules) :
    (assemble kind rules t).contacts =
        (if kind = .buy ∨ kind = .sell then Groups.ofMarks (f.contactMarks n) [] else []) ∧
      (assemble kind rules t).dungeons =
        if kind = .findMore then Groups.ofMarks (f.dungeonMarks n) [] else [] := by
  rw [← Grouping.run_marks, ← Grouping.run_marks, ← Forest.contactSteps_marks h,
    ← Forest.dungeonSteps_marks h]
  cases kind <;> exact ⟨rfl, rfl⟩

theorem assemble_faults (h : f.tree? n = some t) (kind : EventKind) (rules : Rules) :
    (assemble kind rules t).diagnostics =
      (f.findAll n Role.object.typeName ++ [n] ++ f.findAll n Role.subject.typeName).flatMap
        fun c => (f.children c).flatMap f.faults := by
  have hread : (assemble kind rules t).diagnostics =
      (t.descendantsNamed Role.object.typeName).flatMap clauseFaults ++ clauseFaults t ++
        (t.descendantsNamed Role.subject.typeName).flatMap clauseFaults := by
    cases kind <;> rfl
  rw [hread, Forest.roleFaults_children h, Forest.roleFaults_children h,
    Forest.clauseFaults_children h, List.flatMap_append, List.flatMap_append,
    List.flatMap_singleton]

/-- Groups are parted by "or" and by nothing else. Role clauses are read in pre-order, each with
its own connective and then those of the entities in it, allowed or not; entities right below the
root go on from the last object group, without regard to an "or" that the clauses left over. -/
theorem assemble_parted (f : Forest) (root : Fin f.size) (kind : EventKind) (rules : Rules) :
    let s := assemble kind rules (f.treeAt root)
    Groups.PartedAtOr (f.roleMarks rules .subject root) [] s.subjects ∧
      Groups.PartedAtOr (f.roleMarks rules .object root) (f.bareMarks rules root) s.objects ∧
      (if kind = .buy ∨ kind = .sell then
        Groups.PartedAtOr (f.contactMarks root) [] s.contacts else s.contacts = []) ∧
      (if kind = .findMore then
        Groups.PartedAtOr (f.dungeonMarks root) [] s.dungeons else s.dungeons = []) := by
  obtain ⟨hsubjects, hobjects⟩ := assemble_groups (f.tree_treeAt root) kind rules
  obtain ⟨hcontacts, hdungeons⟩ := assemble_sides (f.tree_treeAt root) kind rules
  refine ⟨?_, ?_, ?_, ?_⟩
  · rw [hsubjects]
    exact Groups.ofMarks_parted _ _
  · rw [hobjects]
    exact Groups.ofMarks_parted _ _
  · rw [hcontacts]
    split
    · exact Groups.ofMarks_parted _ _
    · rfl
  · rw [hdungeons]
    split
    · exact Groups.ofMarks_parted _ _
    · rfl

/-- Nothing is lost, doubled or moved. The clauses of a role are all nodes of its type below the
root. Every child of a clause with an allowed kind gives one entity, and it gives it once among
subjects and objects together. Numbers that cannot be read are reported for every entity, allowed
or not. -/
theorem assemble_complete (f : Forest) (root : Fin f.size) (kind : EventKind) (rules : Rules) :
    let s := assemble kind rules (f.treeAt root)
    let clauses (role : Role) := f.findAll root role.typeName
    (∀ role c, c ∈ clauses role ↔
        f.Below root c ∧ (f.token? c).any (·.isType role.typeName) = true) ∧
      s.subjects.flatten = (clauses .subject).flatMap (fun c =>
        (f.takenNodes rules .subject c).filterMap (f.entity? (f.isNegated c))) ∧
      s.objects.flatten = (clauses .object).flatMap (fun c =>
          (f.takenNodes rules .object c).filterMap (f.entity? (f.isNegated c))) ++
        (f.takenNodes rules .object root).filterMap (f.entity? false) ∧
      (∀ role c, ∀ n ∈ f.takenNodes rules role c, ∀ negated,
        ∃ e, f.entity? negated n = some e ∧ rules.allows role e.kind = true) ∧
      ((clauses .subject).flatMap (f.takenNodes rules .subject) ++
        ((clauses .object).flatMap (f.takenNodes rules .object) ++
          f.takenNodes rules .object root)).Nodup ∧
      s.diagnostics = (clauses .object ++ [root.val] ++ clauses .subject).flatMap fun c =>
        (f.children c).flatMap f.faults := by
  have h := f.tree_treeAt root
  obtain ⟨hsubjects, hobjects⟩ := assemble_groups h kind rules
  refine ⟨fun role c => Forest.mem_findAll root.isLt _, ?_, ?_, fun role c n hn negated =>
    Forest.takenNodes_entity hn negated, f.takenNodes_nodup rules root,
    assemble_faults h kind rules⟩
  · rw [hsubjects, Groups.flatten_ofMarks, List.append_nil, Forest.roleMarks_members]
  · rw [hobjects, Groups.flatten_ofMarks, List.filterMap_append, Forest.roleMarks_members,
      Forest.bareMarks_members]

end Sentence

end TradeChat
