import TradeChat.Proofs.Sentence.Shown
import TradeChat.Proofs.Sentence.Filling
import TradeChat.Proofs.Text.Spacing

namespace TradeChat
open Text

namespace Sentence

/-- All that a sentence speaks of shows as a phrase. -/
structure Phrased (s : Sentence) : Prop where
  subjects : s.subjects.All fun e => Phrase e.text
  objects : s.objects.All fun e => Phrase e.text
  contacts : s.contacts.All Phrase
  dungeons : s.dungeons.All fun d => Phrase d.text

/-- No group is empty, of whatever it is. -/
structure Filled (s : Sentence) : Prop where
  subjects : [] ∉ s.subjects
  objects : [] ∉ s.objects
  contacts : [] ∉ s.contacts
  dungeons : [] ∉ s.dungeons

theorem filled_assemble (kind : EventKind) (rules : Rules) (root : Tree Token) :
    (assemble kind rules root).Filled := by
  have hroles := (sound_assemble kind rules root).filled
  have hcontacts : [] ∉ Groups.ofSteps (contactSteps root) :=
    Grouping.run_filled List.not_mem_nil _
  have hdungeons : [] ∉ Groups.ofSteps (dungeonSteps root) :=
    Grouping.run_filled List.not_mem_nil _
  refine ⟨hroles .subject, hroles .object, ?_, ?_⟩
  · cases kind with
    | buy | sell => exact hcontacts
    | findGroup | findMore => exact List.not_mem_nil
  · cases kind with
    | findMore => exact hdungeons
    | buy | sell | findGroup => exact List.not_mem_nil

/-- What a search is for: players, and places to go with them. -/
def targetText (s : Sentence) : String :=
  s.objectText ++ if s.dungeons.isEmpty then ""
    else (if s.objects.isEmpty then "" else " ") ++ "for " ++ s.dungeonText

/-- The mark of a search, with the number of players that are missing. -/
def searchMark (s : Sentence) : String := "LF" ++ s.headcountText ++ "M"

section Texts

theorem phrase_groups {α : Type} {text : α → String} {groups : Groups α} (hne : groups ≠ [])
    (hfilled : [] ∉ groups) (h : groups.All fun a => Phrase (text a)) :
    Phrase (alternatives (groups.map (·.map text))) := by
  refine phrase_alternatives (mt List.map_eq_nil_iff.mp hne) ?_ ?_
  · intro hnil
    obtain ⟨group, hgroup, he⟩ := List.mem_map.mp hnil
    exact hfilled (List.map_eq_nil_iff.mp he ▸ hgroup)
  · intro texts htexts t ht
    obtain ⟨group, hgroup, rfl⟩ := List.mem_map.mp htexts
    obtain ⟨a, ha, rfl⟩ := List.mem_map.mp ht
    exact h group hgroup a ha

variable {s : Sentence}

theorem plain_headcountText (s : Sentence) : Plain s.headcountText := by
  rw [headcountText]
  split
  · split <;> simp +decide
  · decide

theorem phrase_searchMark (s : Sentence) : Phrase s.searchMark := by
  have hplain : Plain s.searchMark := by
    simp +decide only [searchMark, plain_append, s.plain_headcountText, and_self]
  refine .of_plain hplain ?_
  rw [searchMark, ne_eq, String.append_eq_empty_iff]
  exact fun h => absurd h.2 (by decide)

/-- The mark stands between the subjects and what the search is for. -/
theorem findMoreText_mark (s : Sentence) : s.findMoreText =
    trimmed (s.subjectText ++ " " ++ (s.searchMark ++ " " ++ (s.targetText ++ "."))) := by
  have hlead : " LF" = " " ++ "LF" := rfl
  have hclose : "M " = "M" ++ " " := rfl
  rw [findMoreText, hlead, hclose, searchMark, targetText]
  simp only [String.append_assoc, -String.reduceAppend]

theorem targetText_empty (hobjects : s.objects = []) (hdungeons : s.dungeons = []) :
    s.targetText = "" := by
  rw [targetText, objectText, hobjects, hdungeons]
  rfl

variable (hs : s.Phrased) (hfilled : s.Filled)

include hs hfilled

theorem phrase_subjectText (hshown : s.subjectText ≠ "") : Phrase s.subjectText := by
  refine phrase_groups ?_ hfilled.subjects hs.subjects
  intro hnone
  exact hshown (by rw [subjectText, hnone]; rfl)

theorem phrase_objectText (hne : s.objects ≠ []) : Phrase s.objectText :=
  phrase_groups hne hfilled.objects hs.objects

theorem phrase_contactText (hne : s.contacts ≠ []) : Phrase s.contactText :=
  phrase_alternatives hne hfilled.contacts hs.contacts

theorem phrase_dungeonText (hne : s.dungeons ≠ []) : Phrase s.dungeonText :=
  phrase_groups hne hfilled.dungeons hs.dungeons

theorem phrase_opening {body : String} (h : Phrase body) : Phrase (s.opening ++ body) := by
  rw [opening]
  split
  · rwa [String.empty_append]
  · rename_i hshown
    exact (phrase_subjectText hs hfilled hshown).join h " " (by decide)

/-- A trade is a phrase up to the full stop, if there is something to trade. -/
theorem tradeText_body {marker : String} (hmarker : Phrase marker) (hne : s.objects ≠ []) :
    ∃ body, Phrase body ∧ s.tradeText marker = body ++ "." := by
  have htrade : Phrase (marker ++ " " ++ s.objectText) :=
    hmarker.join (phrase_objectText hs hfilled hne) " " (by decide)
  by_cases hcontacts : s.contacts = []
  · refine ⟨_, phrase_opening hs hfilled htrade, ?_⟩
    simp only [tradeText, hcontacts, List.isEmpty_nil, ↓reduceIte, String.append_empty,
      String.append_assoc]
  · have hbody := htrade.join (phrase_contactText hs hfilled hcontacts) ", " (by decide)
    refine ⟨_, phrase_opening hs hfilled hbody, ?_⟩
    simp only [tradeText, List.isEmpty_iff, hcontacts, ↓reduceIte, String.append_assoc]

theorem findGroupText_body : ∃ body, Phrase body ∧ s.findGroupText = body ++ "." := by
  have hmarker : Phrase "LFG" := .of_plain (by decide) (by decide)
  by_cases hobjects : s.objects = []
  · refine ⟨_, phrase_opening hs hfilled hmarker, ?_⟩
    simp only [findGroupText, hobjects, List.isEmpty_nil, ↓reduceIte, String.append_empty]
  · have hbody := hmarker.join (phrase_objectText hs hfilled hobjects) " for " (by decide)
    refine ⟨_, phrase_opening hs hfilled hbody, ?_⟩
    simp only [findGroupText, List.isEmpty_iff, hobjects, ↓reduceIte, String.append_assoc]

theorem phrase_targetText (hne : s.objects ≠ [] ∨ s.dungeons ≠ []) : Phrase s.targetText := by
  by_cases hdungeons : s.dungeons = []
  · have hobjects : s.objects ≠ [] := hne.resolve_right (not_not.mpr hdungeons)
    rw [targetText, hdungeons, List.isEmpty_nil, if_pos rfl, String.append_empty]
    exact phrase_objectText hs hfilled hobjects
  · have hplaces := phrase_dungeonText hs hfilled hdungeons
    by_cases hobjects : s.objects = []
    · have hfor : Phrase "for" := .of_plain (by decide) (by decide)
      have hnone : s.objectText = "" := by rw [objectText, hobjects]; rfl
      have hbody := hfor.join hplaces " " (by decide)
      simpa [targetText, hnone, hobjects, hdungeons] using hbody
    · have hbody := (phrase_objectText hs hfilled hobjects).join hplaces " for " (by decide)
      simpa [targetText, hobjects, hdungeons, String.append_assoc] using hbody

/-- Before the mark of a search a subject has a space behind it. Without a subject the space goes
when the whole is trimmed. -/
theorem findMoreText_opening (hrest : Phrase (s.searchMark ++ " " ++ (s.targetText ++ "."))) :
    s.findMoreText = s.opening ++ (s.searchMark ++ " " ++ (s.targetText ++ ".")) := by
  rw [findMoreText_mark, opening]
  split
  · rename_i hnone
    rw [hnone, String.empty_append, String.empty_append, hrest.trimmed_behind (by decide)]
  · rename_i hshown
    rw [((phrase_subjectText hs hfilled hshown).join hrest " " (by decide)).trimmed_eq]

/-- A search for nothing in particular has a space before the full stop. -/
theorem findMoreText_stopped :
    Stopped s.findMoreText (s.objects = [] ∧ s.dungeons = []) := by
  have hstop : Phrase "." := .of_plain (by decide) (by decide)
  by_cases hnone : s.objects = [] ∧ s.dungeons = []
  · have hrest : Phrase (s.searchMark ++ " " ++ ".") :=
      s.phrase_searchMark.join hstop " " (by decide)
    have hopening := findMoreText_opening hs hfilled
    rw [targetText_empty hnone.1 hnone.2, String.empty_append] at hopening
    rw [hopening hrest]
    refine ⟨phrase_opening hs hfilled hrest, s.opening ++ (s.searchMark ++ " "), ?_, ?_⟩
    · simp only [String.append_assoc]
    · simp [hnone, String.toList_append]
  · have htarget := phrase_targetText hs hfilled (not_and_or.mp hnone)
    have hbody := s.phrase_searchMark.join htarget " " (by decide)
    have hrest := s.phrase_searchMark.join (htarget.append hstop) " " (by decide)
    have hstopped := (phrase_opening hs hfilled hbody).stopped hnone
    rw [findMoreText_opening hs hfilled hrest]
    simpa only [String.append_assoc] using hstopped

/-- Whatever the template, the parts that are missing leave no gap but one. -/
theorem text_stopped (hfault : s.fault? = none) :
    Stopped s.text (s.kind = .findMore ∧ s.objects = [] ∧ s.dungeons = []) := by
  have hneeded : s.isEmpty = false := by
    cases hempty : s.isEmpty with
    | false => rfl
    | true => simp [fault?, hempty] at hfault
  have htrade : ∀ marker, Phrase marker → s.objects ≠ [] → ∀ loose, ¬ loose →
      Stopped (s.tradeText marker) loose := by
    intro marker hmarker hne loose hloose
    obtain ⟨body, hbody, htext⟩ := tradeText_body hs hfilled hmarker hne
    rw [htext]
    exact hbody.stopped hloose
  have hother : ∀ kind : EventKind, kind ≠ .findMore →
      ¬(kind = .findMore ∧ s.objects = [] ∧ s.dungeons = []) := fun _ hne hloose => hne hloose.1
  rw [text, hfault]
  cases hkind : s.kind with
  | buy =>
    have hne : s.objects ≠ [] := by simpa [isEmpty, hkind] using hneeded
    exact htrade "WTB" (.of_plain (by decide) (by decide)) hne _ (hother .buy (by decide))
  | sell =>
    have hne : s.objects ≠ [] := by simpa [isEmpty, hkind] using hneeded
    exact htrade "WTS" (.of_plain (by decide) (by decide)) hne _ (hother .sell (by decide))
  | findGroup =>
    obtain ⟨body, hbody, htext⟩ := findGroupText_body hs hfilled
    simp only [htext]
    exact hbody.stopped (hother .findGroup (by decide))
  | findMore =>
    simpa using findMoreText_stopped hs hfilled

end Texts

/-- A sentence whose parts are phrases is a phrase itself, and ends in a full stop. The full stop
stands right behind the last part, but for a search that is for nothing in particular: there the
space that was to part the mark from the rest is left. -/
theorem text_spaced (f : Forest) (root : Fin f.size) (kind : EventKind) (rules : Rules)
    (hfault : (assemble kind rules (f.treeAt root)).fault? = none)
    (hs : (assemble kind rules (f.treeAt root)).Phrased) :
    let s := assemble kind rules (f.treeAt root)
    Stopped s.text (kind = .findMore ∧ s.objects = [] ∧ s.dungeons = []) := by
  have h := text_stopped hs (filled_assemble kind rules _) hfault
  rwa [kind_assemble] at h

/-- A warlock looks for what stands in `parts`. -/
def warlockSearch (parts : List (Tree Token)) : Forest :=
  .ofTrees [.node ⟨"FindMore", some "a", none, none, none, false⟩
    (.node ⟨"Subject", some "s", some "a", none, none, false⟩
      [.node ⟨"Player", some "p", some "s", none, none, false⟩
        [.node ⟨"Class", none, some "p", some "Warlock", none, false⟩ []]] :: parts)]

theorem text_spaced_search :
    let parts : List (Tree Token) := [
      .node ⟨"Player", some "q", some "a", none, none, false⟩
        [.node ⟨"Role", none, some "q", some "Healer", none, false⟩ []],
      .node ⟨"Instance", some "i", some "a", none, none, false⟩
        [.node ⟨"Name", none, some "i", some "Stockade", none, false⟩ []]]
    let s := assemble .findMore ⟨[.player], [.player]⟩
      ((warlockSearch parts).treeAt ⟨0, by decide +kernel⟩)
    s.fault? = none ∧ s.Phrased ∧ Stopped s.text
        (EventKind.findMore = .findMore ∧ s.objects = [] ∧ s.dungeons = []) ∧
      s.text = "Warlock LF1M Healer for Stockade." := by
  intro parts s
  have hfault : s.fault? = none := by decide +kernel
  have hphrased : s.Phrased := by
    constructor <;> unfold Groups.All <;> decide +kernel
  exact ⟨hfault, hphrased, text_spaced (warlockSearch parts) _ .findMore _ hfault hphrased,
    by decide +kernel⟩

/-- A warlock who does not say what for leaves a gap. -/
theorem warlockSearch_gap :
    let s := assemble .findMore ⟨[.player], [.player]⟩
      ((warlockSearch []).treeAt ⟨0, by decide +kernel⟩)
    s.fault? = none ∧ s.Phrased ∧ s.text = "Warlock LFM ." := by
  intro s
  have hphrased : s.Phrased := by
    constructor <;> unfold Groups.All <;> decide +kernel
  exact ⟨by decide +kernel, hphrased, by decide +kernel⟩

end Sentence

end TradeChat
