import TradeChat.Entity
import TradeChat.Proofs.Text.OneLine
import TradeChat.Proofs.Tree

namespace TradeChat
open Text

/-- The value of a token, if it has one, holds no newline. -/
def Token.Flat (t : Token) : Prop := ∀ v ∈ t.value, OneLine v

/-- No value in a tree holds a newline. -/
def Tree.Flat (t : Tree Token) : Prop := ∀ u ∈ t.subtrees, u.value.Flat

namespace Tree

variable {t u : Tree Token}

theorem Flat.value (h : t.Flat) : t.value.Flat := h t (mem_subtrees_self t)

theorem Flat.subtree (h : t.Flat) (hu : u ∈ t.subtrees) : u.Flat :=
  fun _ hv => h _ (mem_subtrees_trans hu hv)

theorem Flat.child (h : t.Flat) (hu : u ∈ t.children) : u.Flat :=
  h.subtree (mem_subtrees_of_child hu)

theorem Flat.descendant (h : t.Flat) {name : String} (hu : u ∈ t.descendantsNamed name) :
    u.Flat := by
  apply h.subtree
  rw [subtrees_eq]
  exact List.mem_cons_of_mem t (List.mem_filter.mp hu).1

theorem Flat.attribute (h : t.Flat) {a : Token} (ha : a ∈ t.attributes) : a.Flat := by
  obtain ⟨u, hu, rfl⟩ := List.mem_map.mp ha
  exact (h.child hu).value

theorem Flat.attributeNamed (h : t.Flat) {a : Token} {name : String}
    (ha : a ∈ t.attributesNamed name) : a.Flat := h.attribute (List.mem_filter.mp ha).1

section Reading

variable {P : String → Prop} (h : ∀ a ∈ t.attributes, ∀ v ∈ a.value, P v)

include h

theorem texts_all (name : String) : ∀ s ∈ t.texts name, P s := by
  intro s hs
  obtain ⟨a, ha, hvalue⟩ := List.mem_filterMap.mp hs
  exact h a (List.mem_filter.mp ha).1 s hvalue

theorem lastText_all (hempty : P "") (name : String) : P (t.lastText name) := by
  rw [Tree.lastText]
  cases hlast : (t.attributesNamed name).getLast?.bind Token.value with
  | none => exact hempty
  | some s =>
    obtain ⟨a, ha, hvalue⟩ := Option.bind_eq_some_iff.mp hlast
    exact h a (List.mem_filter.mp (List.mem_of_getLast? ha)).1 s hvalue

end Reading

theorem Flat.texts (h : t.Flat) (name : String) : ∀ s ∈ t.texts name, OneLine s :=
  texts_all (fun _ ha => h.attribute ha) name

theorem Flat.lastText (h : t.Flat) (name : String) : OneLine (t.lastText name) :=
  lastText_all (fun _ ha => h.attribute ha) oneLine_empty name

end Tree

section Faults

theorem Token.Flat.numberFaults {t : Token} (h : t.Flat) {field : String} (hfield : OneLine field) :
    ∀ f ∈ t.numberFaults field, OneLine f.message := by
  intro f hf
  have hvalue : OneLine t.valueText := by
    rw [Token.valueText]
    cases hv : t.value with
    | none => exact oneLine_empty
    | some v => exact h v hv
  rw [Token.numberFaults] at hf
  split at hf
  · cases hf
  · obtain rfl := List.mem_singleton.mp hf
    unfold NumberFault.message
    simp +decide only [oneLine_append, hvalue, hfield, and_self]

theorem Money.oneLine_faults {t : Tree Token} (h : t.Flat) :
    ∀ f ∈ Money.faults t, OneLine f.message := by
  intro f hf
  obtain ⟨u, hu, hf⟩ := List.mem_flatMap.mp hf
  exact (h.descendant hu).value.numberFaults (by decide) f hf

theorem Item.amounts_flat {a b : Tree Token} (h : a.Flat) (hb : b ∈ Item.amounts a) : b.Flat := by
  rw [Item.amounts] at hb
  split at hb
  · exact h.descendant hb
  · cases hb

theorem Item.oneLine_faults {t : Tree Token} (h : t.Flat) :
    ∀ f ∈ Item.faults t, OneLine f.message := by
  intro f hf
  obtain ⟨a, ha, hf⟩ := List.mem_flatMap.mp hf
  have hflat := h.child ha
  simp only [Item.attributeFaults] at hf
  split at hf
  · exact hflat.value.numberFaults (by decide) f hf
  · split at hf
    · exact hflat.value.numberFaults (by decide) f hf
    · obtain ⟨b, hb, hf⟩ := List.mem_flatMap.mp hf
      exact Money.oneLine_faults (Item.amounts_flat hflat hb) f hf

theorem Player.oneLine_faults {t : Tree Token} (h : t.Flat) :
    ∀ f ∈ Player.faults t, OneLine f.message := by
  intro f hf
  obtain ⟨a, ha, hf⟩ := List.mem_flatMap.mp hf
  have hflat := h.attribute ha
  rw [Player.attributeFaults] at hf
  split at hf
  · exact hflat.numberFaults (by decide) f hf
  · split at hf
    · exact hflat.numberFaults (by decide) f hf
    · split at hf
      · exact hflat.numberFaults (by decide) f hf
      · cases hf

theorem Entity.oneLine_faults {t : Tree Token} (h : t.Flat) :
    ∀ f ∈ Entity.faults t, OneLine f.message := by
  rw [Entity.faults]
  split
  · exact Player.oneLine_faults h
  · exact Item.oneLine_faults h
  · simp

end Faults

section Texts

theorem Dungeon.oneLine_text {d : Dungeon} (hname : OneLine d.name) (hmode : OneLine d.mode)
    (hdifficulty : OneLine d.difficulty) : OneLine d.text := by
  rw [Dungeon.text]
  split
  · refine (oneLine_intercalate (by decide) ?_).trimmed
    intro s hs
    have hs := (List.mem_filter.mp hs).1
    rcases List.mem_cons.mp hs with rfl | hs
    · exact hdifficulty
    · rcases List.mem_cons.mp hs with rfl | hs
      · exact hmode
      · exact List.mem_singleton.mp hs ▸ hname
  · decide

theorem Money.oneLine_text {m : Money} (h : OneLine m.currency) : OneLine m.text := by
  have hamount : ∀ n, OneLine (Money.amountText n) := by
    intro n
    rw [Money.amountText]
    split
    · simp +decide [oneLine_thousands]
    · exact oneLine_int n
  rw [Money.text]
  split
  · split
    · decide
    · simp +decide [hamount, h.lowercase]
  · decide

theorem Item.oneLine_counted {noun : String} (i : Item) (h : OneLine noun) :
    OneLine (i.counted noun) := by
  rw [Item.counted]
  split
  · exact oneLine_plural h
  · exact h

theorem Item.oneLine_text {i : Item} (hname : OneLine i.name) (hrarity : OneLine i.rarity)
    (htype : OneLine i.type) (hprice : ∀ m ∈ i.price, OneLine m.text) : OneLine i.text := by
  have hnoun : OneLine i.nounText := by
    rw [Item.nounText]
    split
    · exact i.oneLine_counted hname
    · simp only [oneLine_append]
      refine ⟨⟨?_, ?_⟩, i.oneLine_counted htype.lowercase⟩
      · split <;> simp +decide [hrarity.lowercase]
      · split <;> simp +decide
  have hfor : OneLine i.priceText := by
    rw [Item.priceText]
    split
    · exact oneLine_empty
    · refine oneLine_append.mpr ⟨by decide, ?_⟩
      have hphrases : i.price.map (fun m => Member.phrase m.text) =
          (i.price.map Money.text).map .phrase := by rw [List.map_map]; rfl
      rw [commaList_texts, hphrases, memberTexts_phrases]
      refine oneLine_seriesFrom (by decide) ?_ _ _
      intro s hs
      obtain ⟨text, htext, rfl⟩ := List.mem_map.mp hs
      obtain ⟨m, hm, rfl⟩ := List.mem_map.mp htext
      exact (hprice m hm).trimmed
  rw [Item.text]
  split
  · refine OneLine.trimmed ?_
    split <;> simp +decide [hnoun, hfor]
  · decide

theorem Player.oneLine_levelText (p : Player) : OneLine p.levelText := by
  rw [Player.levelText]
  split <;> simp +decide

theorem Player.oneLine_text {p : Player} (hclasses : ∀ s ∈ p.classes, OneLine s)
    (hspecializations : ∀ s ∈ p.specializations, OneLine s) (hrace : OneLine p.race)
    (hrole : OneLine p.role) : OneLine p.text := by
  have hname : OneLine p.nameText := by
    rw [Player.nameText]
    split
    · split
      · exact oneLine_plural hrole
      · exact hrole
    · rename_i c hc
      rw [hc] at hclasses
      split
      · exact oneLine_plural (hclasses c List.mem_cons_self)
      · exact oneLine_delimited (by decide) hclasses
    · exact oneLine_delimited (by decide) hclasses
  have hskills : OneLine (delimited " / " p.specializations) :=
    oneLine_delimited (by decide) hspecializations
  have horigin : OneLine p.originText := by
    rw [Player.originText]
    split
    · exact oneLine_empty
    · refine oneLine_append.mpr ⟨?_, ?_⟩
      · split <;> simp +decide [hrace]
      · split <;> simp +decide [hskills]
  rw [Player.text]
  split
  · refine OneLine.trimmed ?_
    split <;> simp +decide [p.oneLine_levelText, horigin, hname]
  · decide

variable {t : Tree Token}

theorem Dungeon.oneLine_ofTree (h : t.Flat) : OneLine (Dungeon.ofTree t).text :=
  Dungeon.oneLine_text (h.lastText _) (h.lastText _) (h.lastText _)

theorem Money.oneLine_ofTree (h : t.Flat) : OneLine (Money.ofTree t).text := by
  refine Money.oneLine_text ?_
  rw [Money.ofTree]
  cases hlast : ((t.descendantsNamed "currency").filterMap (·.value.value)).getLast? with
  | none => exact oneLine_empty
  | some s =>
    obtain ⟨u, hu, hvalue⟩ := List.mem_filterMap.mp (List.mem_of_getLast? hlast)
    exact (h.descendant hu).value s hvalue

theorem Item.oneLine_ofTree (h : t.Flat) : OneLine (Item.ofTree t).text := by
  refine Item.oneLine_text (h.lastText _) (h.lastText _) (h.lastText _) ?_
  intro m hm
  obtain ⟨b, hb, rfl⟩ := List.mem_map.mp (List.mem_filter.mp hm).1
  obtain ⟨a, ha, hb⟩ := List.mem_flatMap.mp hb
  exact Money.oneLine_ofTree (Item.amounts_flat (h.child ha) hb)

theorem Player.oneLine_ofTree (h : t.Flat) : OneLine (Player.ofTree t).text :=
  Player.oneLine_text (h.texts _) (h.texts _) (h.lastText _) (h.lastText _)

theorem Entity.oneLine_ofTree (h : t.Flat) {e : Entity} (he : Entity.ofTree? t = some e) :
    OneLine e.text := by
  obtain ⟨kind, -, rfl⟩ := Option.map_eq_some_iff.mp he
  cases kind with
  | player => exact Player.oneLine_ofTree h
  | item => exact Item.oneLine_ofTree h
  | dungeon => exact Dungeon.oneLine_ofTree h

theorem Entity.text_negate (e : Entity) : e.negate.text = e.text := by
  cases e <;> rfl

end Texts

end TradeChat
