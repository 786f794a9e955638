import TradeChat.Proofs.Text.Casing
import TradeChat.Proofs.Text.Spacing

namespace TradeChat.Text

variable {s t : String}

@[simp] theorem blank_append : Blank (s ++ t) ↔ Blank s ∧ Blank t := by
  rw [Blank, String.toList_append, List.forall_mem_append]
  rfl

@[simp] theorem blank_empty : Blank "" := by decide

theorem trimmed_empty : trimmed s = "" ↔ Blank s := by
  rw [trimmed, String.ofList_eq_empty_iff]
  constructor
  · intro h c hc
    cases hblank : isBlank c with
    | true => rfl
    | false => exact absurd h (trim_ne_nil hc hblank)
  · intro h
    have := trim_append_blank h []
    rwa [List.nil_append] at this

theorem blank_tight (h : Tight s.toList) : Blank s ↔ s = "" := by
  rw [← trimmed_empty, trimmed, h.trim_eq, String.ofList_toList]

theorem blank_trimmed : Blank (trimmed s) ↔ Blank s := by
  have htight : Tight (trimmed s).toList := by
    rw [trimmed, String.toList_ofList]
    exact trim_tight _
  rw [blank_tight htight, trimmed_empty]

theorem Phrase.not_blank (h : Phrase s) : ¬ Blank s := fun hblank =>
  h.nonempty ((blank_tight h.tight).mp hblank)

@[simp] theorem not_blank_int (n : Int) : ¬ Blank n.repr :=
  (Phrase.of_plain (plain_int n) (int_ne_empty n)).not_blank

/-- A number shows wherever it is written. -/
theorem blank_numbered {c : Prop} [Decidable c] (n : Int) :
    Blank (if c then toString n ++ " " else "") ↔ ¬ c := by
  split
  · rename_i h
    simp [h]
  · rename_i h
    simp [h]

theorem blank_intercalate {mark : String} {texts : List String}
    (h : Blank (mark.intercalate texts)) : ∀ t ∈ texts, Blank t := by
  induction texts with
  | nil => nofun
  | cons t rest ih =>
    cases rest with
    | nil => simpa using h
    | cons u rest =>
      rw [String.intercalate_cons_cons, blank_append, blank_append] at h
      exact List.forall_mem_cons.mpr ⟨h.1.1, ih h.2⟩

/-- Of names in a row it shows that there are two. -/
theorem blank_delimited {mark : String} (hmark : ¬ Blank mark) {texts : List String} :
    Blank (delimited mark texts) ↔ texts = [] ∨ ∃ t, texts = [t] ∧ Blank t := by
  match texts with
  | [] => simp [delimited]
  | [t] => simp [delimited, blank_trimmed]
  | t :: u :: rest => simp [delimited, String.intercalate_cons_cons, hmark]

section Casing

/-- No character has white space for a small letter but white space. -/
theorem lower_blank {c d : Char} (h : d ∈ lower c) (hd : isBlank d = true) : isBlank c = true := by
  have hexpansions : ∀ x ∈ lowerExpansions, ∀ n ∈ x.2, isBlank (Char.ofNat n) = false := by
    decide
  have hshifts : ∀ s ∈ lowerShifts, ∀ r ∈ blankRanges,
      r.2 < s.target ∨ s.target + (s.last - s.first) < r.1 := by decide +kernel
  obtain ⟨image, himage, he⟩ := List.mem_map.mp h
  rcases mem_mapCode himage with ⟨x, hx, hmem⟩ | ⟨s, hs, hshift⟩ | hsame
  · rw [← he, hexpansions x hx image hmem] at hd
    cases hd
  · have hcode : image = d.toNat := Utf8.ofNat_code he (by rintro rfl; cases hd)
    obtain ⟨r, hr, hrange⟩ := List.any_eq_true.mp hd
    have hbounds := Shift.image_bounds hshift
    simp only [Bool.and_eq_true, decide_eq_true_eq] at hrange
    rcases hshifts s hs r hr with h | h <;> omega
  · rwa [← he, hsame, Char.ofNat_toNat] at hd

theorem lowerAfter_blank {before s : List Char}
    (h : ∀ d ∈ lowerAfter before s, isBlank d = true) : ∀ c ∈ s, isBlank c = true := by
  induction s generalizing before with
  | nil => nofun
  | cons c rest ih =>
    rw [lowerAfter, List.forall_mem_append] at h
    refine List.forall_mem_cons.mpr ⟨?_, ih h.2⟩
    have hsmall := h.1
    split at hsmall
    · -- Neither of the two small letters is white space.
      split at hsmall <;> exact absurd (hsmall _ List.mem_cons_self) (by decide)
    · obtain ⟨d, hd⟩ := List.exists_mem_of_ne_nil _ (lower_ne_nil c)
      exact lower_blank hd (hsmall d hd)

theorem blank_lowercase (h : Blank (lowercase s)) : Blank s := by
  rw [lowercase, Blank, String.toList_ofList] at h
  exact lowerAfter_blank h

end Casing

end TradeChat.Text
