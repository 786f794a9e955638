import TradeChat.Proofs.Entity.Garbled
import TradeChat.Sentence.Template

namespace TradeChat
open TradeChat.Tree

namespace Sentence

/-- The second sentence says the same as the first, and reports the same faults without some that
show `v`. -/
structure Quieter (v : String) (s s' : Sentence) : Prop where
  kind : s'.kind = s.kind
  rules : s'.rules = s.rules
  subjects : s'.subjects = s.subjects
  objects : s'.objects = s.objects
  contacts : s'.contacts = s.contacts
  dungeons : s'.dungeons = s.dungeons
  diagnostics : Fewer v s.diagnostics s'.diagnostics

section Clauses

variable {v : String} {t u : Tree Token} (h : t.Cleared v u)

include h

theorem cleared_clauseSteps (rules : Rules) (role : Role) (negated : Bool) :
    clauseSteps rules role negated t = clauseSteps rules role negated u := by
  have hentities : t.children.filterMap Entity.ofTree? = u.children.filterMap Entity.ofTree? := by
    rw [List.filterMap_eq_flatMap_toList, List.filterMap_eq_flatMap_toList]
    refine h.children.flatMap_eq ?_ ?_
    · intro t u h
      rw [h.entity]
    · intro a h
      rw [Entity.ofTree?, value_node, h.entityKind]
      rfl
  rw [clauseSteps, clauseSteps, entities, entities, hentities]

theorem cleared_clauseFaults : Fewer v (clauseFaults t) (clauseFaults u) := by
  refine h.children.fewer (fun _ _ h => h.entityFaults) ?_
  intro a h
  rw [Entity.faults, value_node, h.entityKind]
  exact .refl v []

theorem cleared_clauses (role : Role) : List.Forall₂ (Cleared v)
    (t.descendantsNamed role.typeName) (u.descendantsNamed role.typeName) :=
  h.descendantsNamed (by cases role <;> decide)

theorem cleared_roleSteps (rules : Rules) (role : Role) :
    roleSteps rules role t = roleSteps rules role u := by
  refine forall₂_flatMap_eq (cleared_clauses h role) ?_
  intro c d h
  rw [h.value, cleared_clauseSteps h]

theorem cleared_contactSteps : contactSteps t = contactSteps u := by
  rw [contactSteps, contactSteps, h.attributesNamed (by decide)]

theorem cleared_dungeonSteps : dungeonSteps t = dungeonSteps u := by
  refine forall₂_flatMap_eq (h.children.named (by decide)) ?_
  intro c d h
  rw [h.value, h.dungeon]

end Clauses

namespace Quieter

variable {v : String} {s s' : Sentence} {t u : Tree Token}

theorem refl (v : String) (s : Sentence) : s.Quieter v s :=
  ⟨rfl, rfl, rfl, rfl, rfl, rfl, .refl v _⟩

theorem text (h : s.Quieter v s') : s'.text = s.text := by
  obtain ⟨kind, rules, subjects, objects, contacts, dungeons, diagnostics⟩ := s
  obtain ⟨rfl, rfl, rfl, rfl, rfl, rfl, -⟩ := h
  rfl

variable (hs : s.Quieter v s') (h : t.Cleared v u)

include hs h

theorem readRole (role : Role) : (s.readRole role t).Quieter v (s'.readRole role u) := by
  have hfaults : Fewer v (s.readRole role t).diagnostics (s'.readRole role u).diagnostics :=
    hs.diagnostics.append (.paired (cleared_clauses h role) fun _ _ h => cleared_clauseFaults h)
  have hgroups : s'.groups role = s.groups role := by
    cases role with
    | subject => exact hs.subjects
    | object => exact hs.objects
  have hfilled : Grouping.run ⟨{}, s'.groups role⟩ (roleSteps s'.rules role u) =
      Grouping.run ⟨{}, s.groups role⟩ (roleSteps s.rules role t) := by
    rw [hgroups, hs.rules, cleared_roleSteps h]
  cases role with
  | subject =>
    exact ⟨hs.kind, hs.rules, congrArg Grouping.groups hfilled, hs.objects, hs.contacts,
      hs.dungeons, hfaults⟩
  | object =>
    exact ⟨hs.kind, hs.rules, hs.subjects, congrArg Grouping.groups hfilled, hs.contacts,
      hs.dungeons, hfaults⟩

theorem readBareObjects : (s.readBareObjects t).Quieter v (s'.readBareObjects u) := by
  refine ⟨hs.kind, hs.rules, hs.subjects, ?_, hs.contacts, hs.dungeons,
    hs.diagnostics.append (cleared_clauseFaults h)⟩
  simp only [Sentence.readBareObjects, hs.objects, hs.rules, cleared_clauseSteps h]

theorem readSides : (s.readSides t).Quieter v (s'.readSides u) := by
  rw [Sentence.readSides, Sentence.readSides, hs.kind, cleared_contactSteps h,
    cleared_dungeonSteps h]
  split
  · exact { hs with kind := rfl, contacts := rfl }
  · exact { hs with kind := rfl, contacts := rfl }
  · exact { hs with kind := rfl, dungeons := rfl }
  · exact hs

end Quieter

section Assembly

variable {v : String} {t u : Tree Token} (h : t.Cleared v u)

include h

/-- A number that cannot be read adds to the diagnostics of a sentence and to nothing else. -/
theorem cleared_assemble (kind : EventKind) (rules : Rules) :
    (assemble kind rules t).Quieter v (assemble kind rules u) :=
  ((((Quieter.refl v _).readRole h .object).readBareObjects h).readRole h .subject).readSides h

theorem cleared_ofTree (whitelist : Whitelist) :
    Option.Rel (Quieter v) (ofTree? whitelist t) (ofTree? whitelist u) := by
  rw [ofTree?, ofTree?, h.value]
  cases EventKind.ofToken? u.value with
  | none => exact .none
  | some kind => exact .some (cleared_assemble h kind _)

end Assembly

end Sentence

end TradeChat
