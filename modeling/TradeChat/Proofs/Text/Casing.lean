import TradeChat.Proofs.Text.Utf8
import TradeChat.Text.Casing

namespace TradeChat.Text

theorem Shift.image_bounds {s : Shift} {code image : Nat} (h : s.image? code = some image) :
    s.target ≤ image ∧ image ≤ s.target + (s.last - s.first) := by
  rw [image?] at h
  split at h
  · rename_i hholds
    cases h
    simp only [Run.holds, Bool.and_eq_true, decide_eq_true_eq] at hholds
    omega
  · cases h

/-- A code point is expanded, or it is shifted, or it stays. -/
theorem mem_mapCode {expansions : List (Nat × List Nat)} {shifts : List Shift} {code image : Nat}
    (h : image ∈ mapCode expansions shifts code) :
    (∃ x ∈ expansions, image ∈ x.2) ∨ (∃ s ∈ shifts, s.image? code = some image) ∨
      image = code := by
  rw [mapCode] at h
  split at h
  · rename_i codes hcodes
    obtain ⟨before, after, hlist, -⟩ := List.lookup_eq_some_iff.mp hcodes
    refine Or.inl ⟨(code, codes), ?_, h⟩
    rw [hlist]
    exact List.mem_append_right before List.mem_cons_self
  · rw [List.mem_singleton] at h
    cases hshift : shifts.findSome? (·.image? code) with
    | none =>
      rw [hshift] at h
      exact Or.inr (Or.inr h)
    | some shifted =>
      rw [hshift, Option.getD_some] at h
      obtain ⟨s, hs, himage⟩ := List.exists_of_findSome?_eq_some hshift
      exact Or.inr (Or.inl ⟨s, hs, h ▸ himage⟩)

theorem mapCode_ne_nil {expansions : List (Nat × List Nat)} (h : ∀ x ∈ expansions, x.2 ≠ [])
    (shifts : List Shift) (code : Nat) : mapCode expansions shifts code ≠ [] := by
  rw [mapCode]
  split
  · rename_i codes hcodes
    obtain ⟨before, after, hlist, -⟩ := List.lookup_eq_some_iff.mp hcodes
    refine h (code, codes) ?_
    rw [hlist]
    exact List.mem_append_right before List.mem_cons_self
  · exact List.cons_ne_nil _ _

theorem upper_ne_nil (c : Char) : upper c ≠ [] :=
  mt List.map_eq_nil_iff.mp (mapCode_ne_nil (by decide) upperShifts c.toNat)

theorem lower_ne_nil (c : Char) : lower c ≠ [] :=
  mt List.map_eq_nil_iff.mp (mapCode_ne_nil (by decide) lowerShifts c.toNat)

/-- No capital stands before the letters, so what does is the capital of itself alone. -/
theorem upper_mark {c d : Char} (hd : d ≠ '\x00') (hlow : d.toNat < 'A'.toNat)
    (h : d ∈ upper c) : c = d := by
  have hexpansions : ∀ x ∈ upperExpansions, ∀ n ∈ x.2, 'A'.toNat ≤ n := by decide +kernel
  have hshifts : ∀ s ∈ upperShifts, 'A'.toNat ≤ s.target := by decide +kernel
  obtain ⟨image, himage, he⟩ := List.mem_map.mp h
  rw [Utf8.ofNat_code he hd] at himage
  rcases mem_mapCode himage with ⟨x, hx, hmem⟩ | ⟨s, hs, hshift⟩ | hsame
  · have := hexpansions x hx _ hmem
    omega
  · have := hshifts s hs
    have := (Shift.image_bounds hshift).1
    omega
  · exact Char.toNat_inj.mp hsame.symm

theorem capitalize_ne_nil {s : List Char} (h : s ≠ []) : capitalize s ≠ [] := by
  cases s with
  | nil => exact absurd rfl h
  | cons c rest => exact List.append_ne_nil_of_left_ne_nil (upper_ne_nil c) rest

/-- A capital at the start brings no mark into a text. -/
theorem capitalize_mark {s : List Char} {d : Char} (hd : d ≠ '\x00')
    (hlow : d.toNat < 'A'.toNat) (h : d ∈ capitalize s) : d ∈ s := by
  cases s with
  | nil => cases h
  | cons c rest =>
    rcases List.mem_append.mp h with h | h
    · rw [upper_mark hd hlow h]
      exact List.mem_cons_self
    · exact List.mem_cons_of_mem c h

end TradeChat.Text
