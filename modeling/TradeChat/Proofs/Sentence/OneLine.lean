import TradeChat.Proofs.Entity.OneLine
import TradeChat.Proofs.Sentence.Filling

namespace TradeChat
open Text

namespace Sentence

/-- All that a sentence shows stands on one line. -/
structure Flat (s : Sentence) : Prop where
  subjects : s.subjects.All fun e => OneLine e.text
  objects : s.objects.All fun e => OneLine e.text
  contacts : s.contacts.All OneLine
  dungeons : s.dungeons.All fun d => OneLine d.text
  diagnostics : ∀ f ∈ s.diagnostics, OneLine f.message

section Reading

variable {root clause : Tree Token} {s : Sentence}

theorem oneLine_entities (h : clause.Flat) (negated : Bool) :
    ∀ e ∈ entities negated clause, OneLine e.text := by
  intro e he
  obtain ⟨e', he', rfl⟩ := List.mem_map.mp he
  obtain ⟨t, ht, hread⟩ := List.mem_filterMap.mp he'
  have hone := Entity.oneLine_ofTree (h.child ht) hread
  split
  · rwa [Entity.text_negate]
  · exact hone

theorem oneLine_clauseFaults (h : clause.Flat) : ∀ f ∈ clauseFaults clause, OneLine f.message := by
  intro f hf
  obtain ⟨t, ht, hf⟩ := List.mem_flatMap.mp hf
  exact Entity.oneLine_faults (h.child ht) f hf

theorem oneLine_clauseSteps (h : clause.Flat) (rules : Rules) (role : Role) (negated : Bool) :
    ∀ e, Step.place e ∈ clauseSteps rules role negated clause → OneLine e.text := by
  intro e he
  exact oneLine_entities h negated e (mem_clauseSteps he).1

theorem oneLine_roleSteps (h : root.Flat) (rules : Rules) (role : Role) :
    ∀ e, Step.place e ∈ roleSteps rules role root → OneLine e.text := by
  intro e he
  obtain ⟨clause, hclause, hentity, -⟩ := mem_roleSteps he
  exact oneLine_entities (h.descendant hclause) _ e hentity

theorem Flat.readRole (hs : s.Flat) (h : root.Flat) (role : Role) :
    (s.readRole role root).Flat := by
  have hfaults : ∀ f ∈ s.diagnostics ++ (root.descendantsNamed role.typeName).flatMap clauseFaults,
      OneLine f.message := by
    intro f hf
    rcases List.mem_append.mp hf with hf | hf
    · exact hs.diagnostics f hf
    · obtain ⟨clause, hclause, hf⟩ := List.mem_flatMap.mp hf
      exact oneLine_clauseFaults (h.descendant hclause) f hf
  cases role with
  | subject =>
    exact ⟨Grouping.run_all hs.subjects (oneLine_roleSteps h s.rules .subject), hs.objects,
      hs.contacts, hs.dungeons, hfaults⟩
  | object =>
    exact ⟨hs.subjects, Grouping.run_all hs.objects (oneLine_roleSteps h s.rules .object),
      hs.contacts, hs.dungeons, hfaults⟩

theorem Flat.readBareObjects (hs : s.Flat) (h : root.Flat) : (s.readBareObjects root).Flat := by
  refine ⟨hs.subjects, Grouping.run_all hs.objects (oneLine_clauseSteps h s.rules .object false),
    hs.contacts, hs.dungeons, ?_⟩
  intro f hf
  rcases List.mem_append.mp hf with hf | hf
  · exact hs.diagnostics f hf
  · exact oneLine_clauseFaults h f hf

theorem oneLine_contactSteps (h : root.Flat) :
    ∀ text, Step.place text ∈ contactSteps root → OneLine text := by
  intro text htext
  obtain ⟨t, ht, hstep⟩ := List.mem_flatMap.mp htext
  rcases List.mem_cons.mp hstep with hstep | hstep
  · cases hstep
  · obtain ⟨v, hv, hplace⟩ := Option.map_eq_some_iff.mp (Option.mem_toList.mp hstep)
    cases hplace
    exact h.attributeNamed ht text hv

theorem oneLine_dungeonSteps (h : root.Flat) :
    ∀ d, Step.place d ∈ dungeonSteps root → OneLine d.text := by
  intro d hd
  obtain ⟨t, ht, hstep⟩ := List.mem_flatMap.mp hd
  rcases List.mem_cons.mp hstep with hstep | hstep
  · cases hstep
  · cases List.mem_singleton.mp hstep
    exact Dungeon.oneLine_ofTree (h.child (List.mem_filter.mp ht).1)

theorem Flat.readSides (hs : s.Flat) (h : root.Flat) : (s.readSides root).Flat := by
  have hnone : ∀ {α : Type} {P : α → Prop}, Groups.All P ({} : Grouping α).groups := by
    intro α P group hgroup
    cases hgroup
  have hcontacts : (Groups.ofSteps (contactSteps root)).All OneLine :=
    Grouping.run_all hnone (oneLine_contactSteps h)
  have hdungeons : (Groups.ofSteps (dungeonSteps root)).All fun d => OneLine d.text :=
    Grouping.run_all hnone (oneLine_dungeonSteps h)
  unfold Sentence.readSides
  split
  · exact ⟨hs.subjects, hs.objects, hcontacts, hs.dungeons, hs.diagnostics⟩
  · exact ⟨hs.subjects, hs.objects, hcontacts, hs.dungeons, hs.diagnostics⟩
  · exact ⟨hs.subjects, hs.objects, hs.contacts, hdungeons, hs.diagnostics⟩
  · exact hs

theorem flat_assemble (h : root.Flat) (kind : EventKind) (rules : Rules) :
    (assemble kind rules root).Flat := by
  have hstart : ({ kind, rules } : Sentence).Flat :=
    ⟨nofun, nofun, nofun, nofun, nofun⟩
  exact (((hstart.readRole h .object).readBareObjects h).readRole h .subject).readSides h

end Reading

section Texts

variable {s : Sentence}

theorem oneLine_fault (kind : EventKind) (fault : SentenceFault) :
    OneLine (fault.message kind) := by
  cases kind <;> cases fault <;> decide +kernel

theorem oneLine_groups {α : Type} {text : α → String} {groups : Groups α}
    (h : groups.All fun a => OneLine (text a)) :
    OneLine (alternatives (groups.map (·.map text))) := by
  refine oneLine_alternatives ?_
  intro texts htexts t ht
  obtain ⟨group, hgroup, rfl⟩ := List.mem_map.mp htexts
  obtain ⟨a, ha, rfl⟩ := List.mem_map.mp ht
  exact h group hgroup a ha

theorem Flat.opening (hs : s.Flat) : OneLine s.opening := by
  have hsubjects : OneLine s.subjectText := oneLine_groups hs.subjects
  rw [Sentence.opening]
  split <;> simp +decide [hsubjects]

theorem Flat.tradeText (hs : s.Flat) {marker : String} (hmarker : OneLine marker) :
    OneLine (s.tradeText marker) := by
  have hobjects : OneLine s.objectText := oneLine_groups hs.objects
  have hcontacts : OneLine s.contactText := oneLine_alternatives hs.contacts
  rw [Sentence.tradeText]
  split <;> simp +decide [hs.opening, hmarker, hobjects, hcontacts]

theorem Flat.findGroupText (hs : s.Flat) : OneLine s.findGroupText := by
  have hobjects : OneLine s.objectText := oneLine_groups hs.objects
  rw [Sentence.findGroupText]
  split <;> simp +decide [hs.opening, hobjects]

theorem oneLine_headcountText (s : Sentence) : OneLine s.headcountText := by
  rw [Sentence.headcountText]
  split
  · split <;> simp +decide
  · exact oneLine_empty

theorem Flat.findMoreText (hs : s.Flat) : OneLine s.findMoreText := by
  have hsubjects : OneLine s.subjectText := oneLine_groups hs.subjects
  have hobjects : OneLine s.objectText := oneLine_groups hs.objects
  have hdungeons : OneLine s.dungeonText := oneLine_groups hs.dungeons
  have hplaces : OneLine (if s.dungeons.isEmpty then ""
      else (if s.objects.isEmpty then "" else " ") ++ "for " ++ s.dungeonText) := by
    split
    · exact oneLine_empty
    · split <;> simp +decide [hdungeons]
  rw [Sentence.findMoreText]
  refine OneLine.trimmed ?_
  simp +decide only [oneLine_append, hsubjects, s.oneLine_headcountText, hobjects, hplaces,
    and_self]

/-- A sentence is one line, whatever it is about. -/
theorem Flat.text (hs : s.Flat) : OneLine s.text := by
  unfold Sentence.text
  split
  · exact oneLine_fault _ _
  · split
    · exact hs.tradeText (by decide)
    · exact hs.tradeText (by decide)
    · exact hs.findGroupText
    · exact hs.findMoreText

end Texts

end Sentence

end TradeChat
