import TradeChat.Proofs.Entity.Abridged
import TradeChat.Sentence.Basic

namespace TradeChat
open TradeChat.Tree

theorem Token.Alike.eventKind {a b : Token} (h : a.Alike b) :
    EventKind.ofToken? a = EventKind.ofToken? b := by
  simp only [EventKind.ofToken?, h.isType]

namespace Sentence

variable {t u : Tree Token} (h : t.Abridged u)

include h

theorem abridged_entities (negated : Bool) : entities negated t = entities negated u := by
  have hentities : t.children.filterMap Entity.ofTree? = u.children.filterMap Entity.ofTree? := by
    rw [List.filterMap_eq_flatMap_toList, List.filterMap_eq_flatMap_toList]
    refine h.children.flatMap ?_ ?_
    · intro t u h
      rw [h.entity]
    · intro t h
      rw [h.entity]
      rfl
  rw [entities, entities, hentities]

theorem abridged_clauseFaults : clauseFaults t = clauseFaults u :=
  h.children.flatMap (fun _ _ h => h.entityFaults) fun _ h => h.entityFaults

theorem abridged_clauseSteps (rules : Rules) (role : Role) (negated : Bool) :
    clauseSteps rules role negated t = clauseSteps rules role negated u := by
  rw [clauseSteps, clauseSteps, abridged_entities h]

theorem abridged_clauses (role : Role) : List.Forall₂ Abridged
    (t.descendantsNamed role.typeName) (u.descendantsNamed role.typeName) :=
  h.descendantsNamed (by cases role <;> simp [Role.typeName, vocabulary])

theorem abridged_readRole (s : Sentence) (role : Role) :
    s.readRole role t = s.readRole role u := by
  have hclauses := abridged_clauses h role
  have hsteps : roleSteps s.rules role t = roleSteps s.rules role u := by
    refine forall₂_flatMap_eq hclauses ?_
    intro c d h
    rw [h.value.logic, h.value.negated, abridged_clauseSteps h]
  rw [readRole, readRole, hsteps, forall₂_flatMap_eq hclauses fun _ _ h => abridged_clauseFaults h]

theorem abridged_readBareObjects (s : Sentence) : s.readBareObjects t = s.readBareObjects u := by
  rw [readBareObjects, readBareObjects, abridged_clauseSteps h, abridged_clauseFaults h]

theorem abridged_contactSteps : contactSteps t = contactSteps u := by
  refine forall₂_flatMap_eq (h.attributesNamed (by simp [vocabulary])) ?_
  intro a b h
  rw [h.logic, h.value]

theorem abridged_dungeonSteps : dungeonSteps t = dungeonSteps u := by
  refine forall₂_flatMap_eq (h.children.named (by simp [EntityKind.typeName, vocabulary])) ?_
  intro c d h
  rw [h.value.logic, h.dungeon]

theorem abridged_readSides (s : Sentence) : s.readSides t = s.readSides u := by
  rw [readSides, readSides, abridged_contactSteps h, abridged_dungeonSteps h]

/-- A tree and an abridged one give the same sentence. What is left out is passed over before its
connective is read. -/
theorem abridged_assemble (kind : EventKind) (rules : Rules) :
    assemble kind rules t = assemble kind rules u := by
  rw [assemble, assemble, abridged_readRole h, abridged_readBareObjects h, abridged_readRole h,
    abridged_readSides h]

theorem abridged_ofTree (whitelist : Whitelist) : ofTree? whitelist t = ofTree? whitelist u := by
  rw [ofTree?, ofTree?, h.value.eventKind]
  simp only [abridged_assemble h]

end Sentence

end TradeChat
