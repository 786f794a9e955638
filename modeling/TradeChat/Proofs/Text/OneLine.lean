import TradeChat.Decimal
import TradeChat.Proofs.Text.Pieces
import TradeChat.Proofs.Text.Casing
import TradeChat.Proofs.Text.Series

namespace TradeChat.Text

/-- A text without a newline. -/
def OneLine (s : String) : Prop := '\n' ∉ s.toList

instance (s : String) : Decidable (OneLine s) := inferInstanceAs (Decidable ('\n' ∉ s.toList))

theorem oneLine_ofList {cs : List Char} : OneLine (String.ofList cs) ↔ '\n' ∉ cs := by
  rw [OneLine, String.toList_ofList]

@[simp] theorem oneLine_append {s t : String} : OneLine (s ++ t) ↔ OneLine s ∧ OneLine t := by
  rw [OneLine, String.toList_append, List.mem_append, not_or]
  rfl

@[simp] theorem oneLine_empty : OneLine "" := by decide

theorem OneLine.trimmed {s : String} (h : OneLine s) : OneLine (trimmed s) := by
  rw [Text.trimmed, oneLine_ofList]
  exact fun hc => h ((trim_sublist _).subset hc)

theorem oneLine_intercalate {mark : String} {texts : List String} (hmark : OneLine mark)
    (htexts : ∀ t ∈ texts, OneLine t) : OneLine (mark.intercalate texts) := by
  induction texts with
  | nil => exact oneLine_empty
  | cons t rest ih =>
    obtain ⟨ht, hrest⟩ := List.forall_mem_cons.mp htexts
    cases rest with
    | nil => exact ht
    | cons u rest =>
      rw [String.intercalate_cons_cons, oneLine_append, oneLine_append]
      exact ⟨⟨ht, hmark⟩, ih hrest⟩

section Series

theorem oneLine_separator {word : String} (hword : OneLine word) (size place : Nat) :
    OneLine (separator word size place) := by
  unfold separator
  split
  · simp +decide [hword]
  · split
    · decide
    · split <;> simp +decide [hword]

theorem oneLine_seriesFrom {word : String} {texts : List String} (hword : OneLine word)
    (htexts : ∀ t ∈ texts, OneLine t) (size place : Nat) :
    OneLine (seriesFrom word size place texts) := by
  induction texts generalizing place with
  | nil => exact oneLine_empty
  | cons a rest ih =>
    obtain ⟨ha, hrest⟩ := List.forall_mem_cons.mp htexts
    simp only [seriesFrom, oneLine_append]
    exact ⟨⟨ha, oneLine_separator hword size place⟩, ih hrest (place + 1)⟩

theorem oneLine_alternatives {groups : List (List String)}
    (h : ∀ group ∈ groups, ∀ t ∈ group, OneLine t) : OneLine (alternatives groups) := by
  rw [alternatives, commaList_members]
  refine oneLine_seriesFrom (by decide) ?_ _ _
  intro text htext
  obtain ⟨group, hgroup, rfl⟩ := List.mem_map.mp htext
  refine oneLine_seriesFrom (by decide) ?_ _ _
  intro t ht
  obtain ⟨s, hs, rfl⟩ := List.mem_map.mp ht
  exact (h group hgroup s hs).trimmed

theorem oneLine_delimited {mark : String} {texts : List String} (hmark : OneLine mark)
    (htexts : ∀ t ∈ texts, OneLine t) : OneLine (delimited mark texts) := by
  refine oneLine_intercalate hmark ?_
  intro t ht
  obtain ⟨s, hs, rfl⟩ := List.mem_map.mp ht
  exact (htexts s hs).trimmed

theorem oneLine_plural {word : String} (h : OneLine word) : OneLine (plural word) := by
  have hinit : OneLine (String.ofList word.toList.dropLast) :=
    oneLine_ofList.mpr fun hc => h (List.dropLast_subset _ hc)
  unfold plural
  split
  · exact oneLine_empty
  · split
    · simp +decide [hinit]
    · split <;> simp +decide [h]

end Series

section Numbers

@[simp] theorem oneLine_nat (n : Nat) : OneLine n.repr := by
  rw [OneLine, Nat.repr_eq_ofList_toDigits, String.toList_ofList]
  intro hc
  exact absurd (Nat.isDigit_of_mem_toDigits (by decide) (by decide) hc) (by decide)

@[simp] theorem oneLine_int (n : Int) : OneLine n.repr := by
  cases n with
  | ofNat n => exact oneLine_nat n
  | negSucc n => exact oneLine_append.mpr ⟨by decide, oneLine_nat (n + 1)⟩

/-- A number of 64 bits is written as the number that it stands for. -/
@[simp] theorem toString_int64 (n : Int64) : toString n = n.toInt.repr := rfl

theorem oneLine_numeral (d : Decimal.Numeral) : OneLine d.text := by
  unfold Decimal.Numeral.text
  simp only
  split
  · exact oneLine_nat _
  · have hzeros : ∀ n, OneLine (String.ofList (List.replicate n '0')) := by
      intro n
      rw [oneLine_ofList]
      intro hc
      exact absurd (List.eq_of_mem_replicate hc) (by decide)
    simp +decide [hzeros]

theorem oneLine_thousands (n : Nat) : OneLine (Decimal.thousands n) := by
  unfold Decimal.thousands
  simp only
  split
  · exact oneLine_numeral _
  · exact oneLine_nat _

end Numbers

section Casing

/-- No other character has the newline for a small letter. -/
theorem lower_newline {c : Char} (h : '\n' ∈ lower c) : c = '\n' := by
  have hexpansions : ∀ x ∈ lowerExpansions, 10 ∉ x.2 := by decide
  have hshifts : ∀ s ∈ lowerShifts, 10 < s.target := by decide +kernel
  obtain ⟨code, hcode, he⟩ := List.mem_map.mp h
  rw [Utf8.newline_code he] at hcode
  rcases mem_mapCode hcode with ⟨x, hx, hmem⟩ | ⟨s, hs, hshift⟩ | hsame
  · exact absurd hmem (hexpansions x hx)
  · have := hshifts s hs
    have := (Shift.image_bounds hshift).1
    omega
  · exact Char.toNat_inj.mp hsame.symm

theorem lowerAfter_newline {before s : List Char} (h : '\n' ∈ lowerAfter before s) : '\n' ∈ s := by
  induction s generalizing before with
  | nil => cases h
  | cons c rest ih =>
    rw [lowerAfter] at h
    rcases List.mem_append.mp h with h | h
    · split at h
      · have hsigma := List.mem_singleton.mp h
        split at hsigma
        · exact absurd hsigma (by decide)
        · exact absurd hsigma (by decide)
      · rw [lower_newline h]
        exact List.mem_cons_self
    · exact List.mem_cons_of_mem c (ih h)

theorem OneLine.lowercase {s : String} (h : OneLine s) : OneLine (lowercase s) := by
  rw [Text.lowercase, oneLine_ofList]
  exact fun hc => h (lowerAfter_newline hc)

end Casing

end TradeChat.Text
