import Mathlib.Data.List.Range
import TradeChat.Forest
import TradeChat.Proofs.Tree

namespace TradeChat.Forest
open TradeChat.Tree

/-- The numbers of a tree's nodes in pre-order. -/
def numbers (t : Tree (Nat × Token)) : List Nat := t.subtrees.map fun u => u.value.1

theorem length_places (start : Nat) (entries : List Entry) :
    (places start entries).length = entries.length := by
  induction entries generalizing start with
  | nil => rfl
  | cons e rest ih => simp [places, ih]

theorem Rising.parent_lt {start i p : Nat} {entries : List Entry} {e : Entry}
    (h : Rising start entries) (he : entries[i]? = some e) (hp : e.parent = some p) :
    p < start + i := by
  induction entries generalizing start i with
  | nil => simp at he
  | cons d rest ih =>
    cases i with
    | zero =>
      simp only [List.getElem?_cons_zero, Option.some.injEq] at he
      subst he
      exact h.1 p hp
    | succ i =>
      have := ih h.2 (by simpa using he)
      omega

/-- The place of an entry shows its parent, number and token. -/
theorem places_entry {start i : Nat} {entries : List Entry} {q : Option Nat}
    {t : Tree (Nat × Token)} (h : (places start entries)[i]? = some (q, t)) :
    entries[i]? = some ⟨t.value.2, q⟩ ∧ t.value.1 = start + i := by
  induction entries generalizing start i with
  | nil => simp [places] at h
  | cons e rest ih =>
    cases i with
    | zero =>
      simp only [places, List.getElem?_cons_zero, Option.some.injEq, Prod.mk.injEq] at h
      obtain ⟨rfl, rfl⟩ := h
      exact ⟨rfl, rfl⟩
    | succ i =>
      obtain ⟨he, hn⟩ := ih (by simpa [places] using h)
      exact ⟨by simpa using he, by omega⟩

/-- A node collects every entry that has its number as parent, also if one looks through all
entries and not only through the later ones. -/
theorem places_children {start i : Nat} {entries : List Entry} {q : Option Nat}
    {t : Tree (Nat × Token)} (hr : Rising start entries)
    (h : (places start entries)[i]? = some (q, t)) :
    t.children = ((places start entries).filter (·.1 = some (start + i))).map (·.2) := by
  induction entries generalizing start i with
  | nil => simp [places] at h
  | cons e rest ih =>
    have hfirst : ∀ n, start ≤ n → e.parent ≠ some n := by
      intro n hn he
      have := hr.1 n he
      omega
    cases i with
    | zero =>
      simp only [places, List.getElem?_cons_zero, Option.some.injEq, Prod.mk.injEq] at h
      obtain ⟨rfl, rfl⟩ := h
      simp [places, hfirst start (Nat.le_refl _)]
    | succ i =>
      have hi : start + (i + 1) = start + 1 + i := by omega
      rw [ih hr.2 (by simpa [places] using h), hi]
      simp [places, hfirst (start + 1 + i) (by omega)]

theorem hanging_places (q : Option Nat) (start : Nat) (entries : List Entry) :
    hanging q start entries = ((places start entries).filter (·.1 = q)).map (·.2.value.1) := by
  induction entries generalizing start with
  | nil => rfl
  | cons e rest ih => by_cases h : e.parent = q <;> simp [hanging, places, ih, h]

theorem hanging_lower (q : Option Nat) (start : Nat) (entries : List Entry) :
    ∀ n ∈ hanging q start entries, start ≤ n := by
  induction entries generalizing start with
  | nil => simp [hanging]
  | cons e rest ih =>
    intro n hn
    rw [hanging] at hn
    split at hn
    · rcases List.mem_cons.mp hn with rfl | hn
      · exact Nat.le_refl _
      · exact Nat.le_of_succ_le (ih (start + 1) n hn)
    · exact Nat.le_of_succ_le (ih (start + 1) n hn)

theorem hanging_increasing (q : Option Nat) (start : Nat) (entries : List Entry) :
    (hanging q start entries).Pairwise (· < ·) := by
  induction entries generalizing start with
  | nil => exact List.Pairwise.nil
  | cons e rest ih =>
    rw [hanging]
    split
    · exact List.pairwise_cons.mpr ⟨hanging_lower q (start + 1) rest, ih (start + 1)⟩
    · exact ih (start + 1)

theorem mem_hanging {q : Option Nat} {start : Nat} {entries : List Entry} {n : Nat} :
    n ∈ hanging q start entries ↔
      start ≤ n ∧ ∃ e, entries[n - start]? = some e ∧ e.parent = q := by
  induction entries generalizing start with
  | nil => simp [hanging]
  | cons e rest ih =>
    have hmem : n ∈ hanging q start (e :: rest) ↔
        (n = start ∧ e.parent = q) ∨ n ∈ hanging q (start + 1) rest := by
      by_cases h : e.parent = q <;> simp [hanging, h]
    rw [hmem, ih]
    rcases Nat.lt_trichotomy n start with hlt | rfl | hgt
    · constructor
      · rintro (⟨rfl, -⟩ | ⟨hle, -⟩) <;> omega
      · rintro ⟨hle, -⟩
        omega
    · simp
    · have hn : n - start = n - (start + 1) + 1 := by omega
      rw [hn, List.getElem?_cons_succ]
      constructor
      · rintro (⟨rfl, -⟩ | ⟨-, he⟩)
        · omega
        · exact ⟨Nat.le_of_lt hgt, he⟩
      · rintro ⟨-, he⟩
        exact Or.inr ⟨hgt, he⟩

/-- The tops of a list of places are those that hang from before it. They hold every number from
`start` on exactly once. -/
theorem perm_tops {start : Nat} {entries : List Entry} (h : Rising start entries) :
    (((places start entries).filter fun x => x.1.all (· < start)).flatMap fun x =>
      numbers x.2).Perm (List.range' start entries.length) := by
  induction entries generalizing start with
  | nil => exact List.Perm.refl _
  | cons e rest ih =>
    let later := places (start + 1) rest
    let inner := later.filter (·.1 = some start)
    let outer := later.filter fun x => x.1.all (· < start)
    have htop : e.parent.all (· < start) = true := by
      cases hp : e.parent with
      | none => rfl
      | some p => simpa using h.1 p hp
    have hparts : (inner ++ outer).Perm (later.filter fun x => x.1.all (· < start + 1)) := by
      have hp := List.filter_append_perm (fun x => decide (x.1 = some start))
        (later.filter fun x => x.1.all (· < start + 1))
      refine List.Perm.trans (List.Perm.of_eq ?_) hp
      congr 1
      · rw [List.filter_filter]
        apply List.filter_congr
        rintro ⟨_ | p, t⟩ -
        · simp
        · rw [Bool.eq_iff_iff]
          simp only [Bool.and_eq_true, decide_eq_true_eq, Option.all_some, Option.some.injEq]
          omega
      · rw [List.filter_filter]
        apply List.filter_congr
        rintro ⟨_ | p, t⟩ -
        · simp
        · rw [Bool.eq_iff_iff]
          simp only [Bool.and_eq_true, Bool.not_eq_true', decide_eq_false_iff_not,
            decide_eq_true_eq, Option.all_some, Option.some.injEq]
          omega
    have hnumbers : numbers (node (start, e.token) (inner.map (·.2))) =
        start :: inner.flatMap fun x => numbers x.2 := by
      simp only [numbers, subtrees_node, List.map_cons, value_node, List.map_flatMap,
        List.flatMap_map]
    have hrest := ((hparts.flatMap_right fun x => numbers x.2).trans (ih h.2)).cons start
    rw [List.flatMap_append] at hrest
    simp only [places, List.filter_cons, htop, ↓reduceIte, List.flatMap_cons, List.length_cons,
      List.range'_succ]
    rw [hnumbers]
    exact hrest

theorem nodup_numbers {start : Nat} {entries : List Entry} (h : Rising start entries) :
    ∀ x ∈ places start entries, (numbers x.2).Nodup := by
  induction entries generalizing start with
  | nil => simp [places]
  | cons e rest ih =>
    intro x hx
    have htop : e.parent.all (· < start) = true := by
      cases hp : e.parent with
      | none => rfl
      | some p => simpa using h.1 p hp
    have hall := (perm_tops h).nodup_iff.mpr List.nodup_range'
    rcases List.mem_cons.mp hx with rfl | hx
    · simp only [places, List.filter_cons, htop, ↓reduceIte, List.flatMap_cons] at hall
      exact (List.nodup_append.mp hall).1
    · exact ih h.2 x hx

end TradeChat.Forest
