import TradeChat.Proofs.Text.OneLine

namespace TradeChat.Text

theorem occursIn_iff {part s : List Char} : occursIn part s = true ↔ part <:+: s := by
  induction s with
  | nil => simp [occursIn]
  | cons c rest ih => simp [occursIn, ih, List.infix_cons_iff]

/-- A text that stands somewhere in another one. -/
def Within (part s : String) : Prop := part.toList <:+: s.toList

instance (part s : String) : Decidable (Within part s) := decidable_of_iff _ occursIn_iff

namespace Within

variable {part s : String}

theorem append_right (h : Within part s) (t : String) : Within part (s ++ t) := by
  unfold Within
  rw [String.toList_append]
  exact h.trans (List.prefix_append _ _).isInfix

theorem append_left (h : Within part s) (t : String) : Within part (t ++ s) := by
  unfold Within
  rw [String.toList_append]
  exact h.trans (List.suffix_append _ _).isInfix

theorem ne_empty (h : Within part s) (hpart : part ≠ "") : s ≠ "" := by
  rintro rfl
  exact hpart (String.toList_eq_nil_iff.mp (List.infix_nil.mp h))

end Within

section Trim

variable {part s : List Char}

/-- What starts with no white space is not reached by white space that goes at the front. -/
theorem infix_trimStart (h : part <:+: s) (hne : part ≠ [])
    (hstart : ∀ c ∈ part.head?, isBlank c = false) : part <:+: trimStart s := by
  obtain ⟨before, after, rfl⟩ := h
  cases part with
  | nil => exact absurd rfl hne
  | cons c part =>
    rw [List.append_assoc, List.cons_append, trimStart_append_cons (hstart c rfl),
      ← List.cons_append, ← List.append_assoc]
    exact List.infix_append _ _ _

theorem infix_trim (h : part <:+: s) (hne : part ≠ []) (htight : Tight part) :
    part <:+: trim s := by
  have hback := infix_trimStart (List.reverse_infix.mpr (infix_trimStart h hne htight.start))
    (by simpa using hne) htight.reverse.start
  rwa [trim, trimEnd, ← trimStart, ← List.reverse_infix, List.reverse_reverse]

end Trim

section Lists

variable {part : String}

theorem Within.trimmed {s : String} (h : Within part s) (hne : part ≠ "")
    (htight : Tight part.toList) : Within part (trimmed s) := by
  unfold Within Text.trimmed
  rw [String.toList_ofList]
  exact infix_trim h (mt String.toList_eq_nil_iff.mp hne) htight

theorem within_seriesFrom {word text : String} {texts : List String} (h : Within part text)
    (hmem : text ∈ texts) (size place : Nat) :
    Within part (seriesFrom word size place texts) := by
  induction texts generalizing place with
  | nil => cases hmem
  | cons a rest ih =>
    rcases List.mem_cons.mp hmem with rfl | hmem
    · exact (h.append_right _).append_right _
    · exact (ih hmem (place + 1)).append_left _

/-- The text of every member is written out, whatever group it is in. -/
theorem within_alternatives {groups : List (List String)} {group : List String} {text : String}
    (h : Within part text) (hne : part ≠ "") (htight : Tight part.toList)
    (hgroup : group ∈ groups) (hmem : text ∈ group) : Within part (alternatives groups) := by
  rw [alternatives, commaList_members]
  have hinner : Within part (series "and" (group.map trimmed)) :=
    within_seriesFrom (h.trimmed hne htight) (List.mem_map_of_mem hmem) _ _
  exact within_seriesFrom hinner (List.mem_map.mpr ⟨group, hgroup, rfl⟩) _ _

end Lists

end TradeChat.Text
