import TradeChat.Proofs.Forest.Numbering
import TradeChat.Proofs.Entity.OneLine
import TradeChat.Proofs.Text.Blank

namespace TradeChat
open Text TradeChat.Tree

/-- What is shown in place of an entity that cannot be called by anything. -/
def EntityKind.notice : EntityKind → String
  | player => "< Error: Incomplete player encountered >"
  | item => "< Error: Incomplete item encountered >"
  | dungeon => "< Error Incomplete Instance Encountered >"

/-- Nothing that the entity could be called by is more than the empty text. -/
def Entity.Nameless : Entity → Prop
  | player p => (∀ c ∈ p.classes, c = "") ∧ p.role = ""
  | item i => i.name = "" ∧ i.type = ""
  | dungeon d => d.name = ""

/-- A player with one class, which is empty, and with nothing else that is shown. -/
structure Player.Silent (p : Player) : Prop where
  classes : p.classes = [""]
  specializations : p.specializations = [] ∨ p.specializations = [""]
  race : p.race = ""
  level : ∀ l ∈ p.level, l ≤ -1
  itemLevel : ∀ l ∈ p.itemLevel, l ≤ -1
  quantity : p.quantity ≤ 1

/-- The texts of the entity have no white space at their ends. -/
def Entity.Trimmed : Entity → Prop
  | player p => (∀ s ∈ p.race :: p.role :: (p.classes ++ p.specializations), Tight s.toList)
  | item i => Tight i.name.toList ∧ Tight i.type.toList
  | dungeon d => Tight d.name.toList

namespace Player

variable {p : Player}

theorem blank_levelText : Blank p.levelText ↔
    (∀ l ∈ p.level, l ≤ -1) ∧ ∀ l ∈ p.itemLevel, l ≤ -1 := by
  have hnone : ∀ level : Option Int32,
      (∀ l ∈ level, l ≤ -1) ↔ level.filter (· > -1) = none := by
    intro level
    simp [Option.filter_eq_none_iff]
  rw [hnone, hnone, levelText]
  cases p.level.filter (· > -1) <;> cases p.itemLevel.filter (· > -1) <;> simp

theorem blank_names {names : List String} (h : ∀ s ∈ names, Tight s.toList) :
    Blank (delimited " / " names) ↔ names = [] ∨ names = [""] := by
  rw [blank_delimited (by decide)]
  refine or_congr_right ⟨?_, ?_⟩
  · rintro ⟨t, rfl, ht⟩
    rw [(blank_tight (h t List.mem_cons_self)).mp ht]
  · rintro rfl
    exact ⟨"", rfl, blank_empty⟩

variable (h : (Entity.player p).Trimmed)

include h

theorem blank_originText (hclasses : p.classes ≠ []) : Blank p.originText ↔
    p.race = "" ∧ (p.specializations = [] ∨ p.specializations = [""]) := by
  have hrace : Blank (if p.race = "" then "" else p.race ++ " ") ↔ p.race = "" := by
    split
    · simp [*]
    · simp +decide [blank_tight (h p.race (by simp))]
  have hnames : Blank (delimited " / " p.specializations) ↔ _ :=
    blank_names fun s hs => h s (by simp [hs])
  have hskills : Blank (if p.specializations.isEmpty then ""
      else delimited " / " p.specializations ++ " ") ↔
      p.specializations = [] ∨ p.specializations = [""] := by
    split
    · rename_i hempty
      simp [List.isEmpty_iff.mp hempty]
    · simp +decide [hnames]
  rw [originText, if_neg (by simpa using hclasses), blank_append, hrace, hskills]

theorem blank_nameText (hcomplete : p.isComplete = true) (hquantity : p.quantity ≤ 1) :
    Blank p.nameText ↔ p.classes = [""] := by
  have hnames : Blank (delimited " / " p.classes) ↔ _ :=
    blank_names fun s hs => h s (by simp [hs])
  have hsingle : ¬ p.quantity > 1 := Int32.not_lt.mpr hquantity
  rw [nameText]
  split
  · rename_i hclasses
    have hrole : p.role ≠ "" := by simpa [isComplete, hclasses] using hcomplete
    simp [hsingle, blank_tight (h p.role (by simp)), hrole, hclasses]
  · rename_i c hclasses
    rw [if_neg hsingle, ← hclasses, hnames, hclasses]
    simp
  · rename_i hnil _
    rw [hnames, or_iff_right hnil]

theorem text_empty : p.text = "" ↔ p.Silent := by
  rw [text]
  split
  · rename_i hcomplete
    rw [trimmed_empty, blank_append, blank_append, blank_append, blank_numbered, Int32.not_lt,
      blank_levelText]
    constructor
    · rintro ⟨⟨⟨hquantity, hlevel, hitem⟩, horigin⟩, hname⟩
      have hclasses := (blank_nameText h hcomplete hquantity).mp hname
      obtain ⟨hrace, hskills⟩ := (blank_originText h (by simp [hclasses])).mp horigin
      exact ⟨hclasses, hskills, hrace, hlevel, hitem, hquantity⟩
    · intro hs
      refine ⟨⟨⟨hs.quantity, hs.level, hs.itemLevel⟩, ?_⟩, ?_⟩
      · exact (blank_originText h (by simp [hs.classes])).mpr ⟨hs.race, hs.specializations⟩
      · exact (blank_nameText h hcomplete hs.quantity).mpr hs.classes
  · rename_i hincomplete
    refine iff_of_false (by decide) fun hs => hincomplete ?_
    simp [isComplete, hs.classes]

end Player

theorem Item.text_shown {i : Item} (h : (Entity.item i).Trimmed) : i.text ≠ "" := by
  rw [text]
  split
  · rename_i hcomplete
    rw [ne_eq, trimmed_empty, blank_append, blank_append, blank_append, blank_numbered]
    rintro ⟨⟨⟨hquantity, hnoun⟩, -⟩, -⟩
    have hfew : ¬ i.quantity > 1 := fun hmany => hquantity (Int32.lt_trans (by decide) hmany)
    rw [nounText] at hnoun
    split at hnoun
    · rename_i hname
      rw [counted, if_neg hfew, blank_tight h.1] at hnoun
      exact hname hnoun
    · rename_i hname
      rw [counted, if_neg hfew, blank_append] at hnoun
      have htype := (blank_tight h.2).mp (blank_lowercase hnoun.2)
      simp [isComplete, htype, not_not.mp hname] at hcomplete
  · decide

theorem Dungeon.text_shown {d : Dungeon} (h : (Entity.dungeon d).Trimmed) : d.text ≠ "" := by
  rw [text]
  split
  · rename_i hcomplete
    have hname : d.name ≠ "" := by simpa [isComplete] using hcomplete
    rw [ne_eq, trimmed_empty]
    intro hblank
    have hown := blank_intercalate hblank d.name (by simp [hname])
    exact hname ((blank_tight h).mp hown)
  · decide

namespace Entity

variable {e : Entity}

/-- Only a player can show as nothing at all. -/
theorem text_empty (h : e.Trimmed) : e.text = "" ↔ ∃ p, e = .player p ∧ p.Silent := by
  cases e with
  | player p => simpa [text] using Player.text_empty h
  | item i => simpa [text] using Item.text_shown h
  | dungeon d => simpa [text] using Dungeon.text_shown h

/-- What has no name shows a notice, unless it is a player with a class that is empty. -/
theorem Nameless.text (h : e.Nameless) (hclass : ∀ p, e = .player p → "" ∉ p.classes) :
    e.text = e.kind.notice := by
  cases e with
  | player p =>
    have hnone : p.classes = [] :=
      List.eq_nil_iff_forall_not_mem.mpr fun c hc => hclass p rfl (h.1 c hc ▸ hc)
    have hincomplete : ¬ p.isComplete = true := by simp [Player.isComplete, hnone, h.2]
    exact if_neg hincomplete
  | item i =>
    have hincomplete : ¬ i.isComplete = true := by simp [Item.isComplete, h.1, h.2]
    exact if_neg hincomplete
  | dungeon d =>
    have hname : d.name = "" := h
    have hincomplete : ¬ d.isComplete = true := by simp [Dungeon.isComplete, hname]
    exact if_neg hincomplete

/-- Texts that stand in attributes have no white space at their ends if the values have none. -/
theorem trimmed_ofTree {t : Tree Token}
    (h : ∀ a ∈ t.attributes, ∀ v ∈ a.value, Tight v.toList) (he : ofTree? t = some e) :
    e.Trimmed := by
  obtain ⟨kind, -, rfl⟩ := Option.map_eq_some_iff.mp he
  have hlast : ∀ name, Tight (t.lastText name).toList :=
    lastText_all (P := fun s => Tight s.toList) h ⟨nofun, nofun⟩
  cases kind with
  | player =>
    intro s hs
    simp only [Player.ofTree, List.mem_cons, List.mem_append] at hs
    rcases hs with rfl | rfl | hs | hs
    · exact hlast "race"
    · exact hlast "role"
    · exact texts_all (P := fun s => Tight s.toList) h "class" s hs
    · exact texts_all (P := fun s => Tight s.toList) h "specialization" s hs
  | item => exact ⟨hlast "name", hlast "type"⟩
  | dungeon => exact hlast "name"

end Entity

end TradeChat
