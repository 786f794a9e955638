import TradeChat.Lint
import TradeChat.Proofs.Grouping.Members
import TradeChat.Proofs.Text.Within

namespace TradeChat
open Text Lint

/-- There is something that an entity can be called by. -/
def Entity.Identified : Entity → Prop
  | .player p => p.classes ≠ [] ∨ p.role ≠ ""
  | .item i => i.name ≠ "" ∨ i.type ≠ ""
  | .dungeon d => d.name ≠ ""

theorem Entity.isComplete_iff {e : Entity} : e.isComplete = true ↔ e.Identified := by
  cases e <;>
    simp [isComplete, Identified, Player.isComplete, Item.isComplete, Dungeon.isComplete]

/-- An entity that cannot be called by anything shows as an error. -/
theorem Entity.within_text {e : Entity} (h : ¬ e.Identified) : Within errorMark e.text := by
  rw [← isComplete_iff] at h
  cases e with
  | player p =>
    have htext : p.text = "< Error: Incomplete player encountered >" := if_neg h
    rw [text, htext]
    decide
  | item i =>
    have htext : i.text = "< Error: Incomplete item encountered >" := if_neg h
    rw [text, htext]
    decide
  | dungeon d =>
    have htext : d.text = "< Error Incomplete Instance Encountered >" := if_neg h
    rw [text, htext]
    decide

theorem Lint.errorMark_ne : errorMark ≠ "" := by decide

theorem Lint.errorMark_tight : Tight errorMark.toList :=
  tight_between [' ', 'E', 'r', 'r', 'o'] (by decide) (by decide)

namespace Sentence

/-- All that a sentence speaks of can be called by something. -/
structure Identified (s : Sentence) : Prop where
  subjects : s.subjects.All Entity.Identified
  objects : s.objects.All Entity.Identified
  dungeons : s.dungeons.All fun d => d.name ≠ ""

section Texts

variable {s : Sentence}

theorem within_groups {α : Type} {text : α → String} {groups : Groups α} {group : List α} {a : α}
    (h : Within errorMark (text a)) (hgroup : group ∈ groups) (ha : a ∈ group) :
    Within errorMark (alternatives (groups.map (·.map text))) :=
  within_alternatives h errorMark_ne errorMark_tight (List.mem_map_of_mem hgroup)
    (List.mem_map_of_mem ha)

theorem nonempty_of_within {α : Type} {text : α → String} {groups : Groups α}
    (h : Within errorMark (alternatives (groups.map (·.map text)))) : groups.isEmpty = false := by
  cases groups with
  | nil => exact absurd rfl (h.ne_empty errorMark_ne)
  | cons group rest => rfl

theorem within_opening (h : Within errorMark s.subjectText) : Within errorMark s.opening := by
  rw [opening, if_neg (h.ne_empty errorMark_ne)]
  exact h.append_right _

theorem within_tradeText (marker : String)
    (h : Within errorMark s.subjectText ∨ Within errorMark s.objectText) :
    Within errorMark (s.tradeText marker) := by
  rw [tradeText]
  refine (Within.append_right ?_ _).append_right _
  rcases h with h | h
  · exact (((within_opening h).append_right _).append_right _).append_right _
  · exact h.append_left _

theorem within_findGroupText
    (h : Within errorMark s.subjectText ∨ Within errorMark s.objectText) :
    Within errorMark s.findGroupText := by
  rw [findGroupText]
  refine Within.append_right ?_ _
  rcases h with h | h
  · exact ((within_opening h).append_right _).append_right _
  · rw [nonempty_of_within h]
    exact (h.append_left _).append_left _

theorem within_findMoreText (h : Within errorMark s.subjectText ∨ Within errorMark s.objectText ∨
    Within errorMark s.dungeonText) : Within errorMark s.findMoreText := by
  rw [findMoreText]
  refine Within.trimmed (Within.append_right ?_ _) errorMark_ne errorMark_tight
  rcases h with h | h | h
  · exact ((((h.append_right _).append_right _).append_right _).append_right _).append_right _
  · exact (h.append_left _).append_right _
  · rw [nonempty_of_within h]
    exact (h.append_left _).append_left _

/-- Where a template is filled, all roles are written out. -/
theorem within_text (hfault : s.fault? = none)
    (h : Within errorMark s.subjectText ∨ Within errorMark s.objectText) :
    Within errorMark s.text := by
  rw [text, hfault]
  cases s.kind with
  | buy => exact within_tradeText _ h
  | sell => exact within_tradeText _ h
  | findGroup => exact within_findGroupText h
  | findMore => exact within_findMoreText (h.imp_right .inl)

/-- No error shows in a filled template only if all that it speaks of can be called by
something. -/
theorem identified_of_text (hfault : s.fault? = none)
    (hdungeons : s.kind ≠ .findMore → s.dungeons = []) (h : ¬ Within errorMark s.text) :
    s.Identified := by
  refine ⟨?_, ?_, ?_⟩
  · intro group hgroup e he
    by_contra hnot
    exact h (within_text hfault (.inl (within_groups (Entity.within_text hnot) hgroup he)))
  · intro group hgroup e he
    by_contra hnot
    exact h (within_text hfault (.inr (within_groups (Entity.within_text hnot) hgroup he)))
  · intro group hgroup d hd
    by_cases hkind : s.kind = .findMore
    · by_contra hnot
      have hshown : Within errorMark (Entity.dungeon d).text :=
        Entity.within_text fun hname => hname hnot
      rw [text, hfault, hkind] at h
      exact h (within_findMoreText (.inr (.inr (within_groups hshown hgroup hd))))
    · rw [hdungeons hkind] at hgroup
      cases hgroup

end Texts

theorem dungeons_assemble {kind : EventKind} (hkind : kind ≠ .findMore) (rules : Rules)
    (root : Tree Token) : (assemble kind rules root).dungeons = [] := by
  cases kind with
  | findMore => exact absurd rfl hkind
  | _ => rfl

theorem kind_assemble (kind : EventKind) (rules : Rules) (root : Tree Token) :
    (assemble kind rules root).kind = kind := by
  cases kind <;> rfl

end Sentence

end TradeChat
