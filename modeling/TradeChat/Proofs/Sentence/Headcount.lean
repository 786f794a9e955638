import Mathlib.Algebra.Ring.Int.Defs
import Mathlib.Data.List.Forall2
import Mathlib.Data.List.Perm.Basic
import TradeChat.Proofs.Sentence.Spacing
import TradeChat.Proofs.Text.Numerals

namespace TradeChat
open Text

/-- A quantity has 32 bits. -/
theorem Entity.headcount_bounds (e : Entity) :
    -2 ^ 31 ≤ e.headcount.toInt ∧ e.headcount.toInt < 2 ^ 31 := by
  cases e with
  | player p => simpa [headcount] using And.intro p.quantity.le_toInt p.quantity.toInt_lt
  | item i => simp [headcount]
  | dungeon d => simp [headcount]

namespace Sentence

/-- The players of a group, counted without a bound. -/
def players (group : List Entity) : Int := (group.map (·.headcount.toInt)).sum

/-- The numbers of players of all object groups, where there are any. -/
def sizes (s : Sentence) : List Int := (s.objects.map players).filter (0 < ·)

section Tallies

/-- Adds the players of some entities to a number of 64 bits, one entity after the other. There is
no outcome if a sum on the way does not fit. -/
def tally? (sum : Int64) : List Entity → Option Int64
  | [] => some sum
  | e :: rest =>
    let next := sum.toInt + e.headcount.toInt
    if -2 ^ 63 ≤ next ∧ next < 2 ^ 63 then tally? (sum + e.headcount) rest else none

/-- The sums of all groups. -/
def tallies? : Groups Entity → Option (List Int64)
  | [] => some []
  | group :: rest => do
    let sum ← tally? 0 group
    let others ← tallies? rest
    return sum :: others

theorem toInt_add {a b : Int64} (hlow : -2 ^ 63 ≤ a.toInt + b.toInt)
    (hhigh : a.toInt + b.toInt < 2 ^ 63) : (a + b).toInt = a.toInt + b.toInt := by
  rw [Int64.toInt_add, Int.bmod_eq_of_le_mul_two] <;> omega

/-- As long as there is room for as many of the greatest and of the least quantity as there are
entities, each sum on the way fits. -/
theorem tally_exact {sum : Int64} {group : List Entity}
    (hlow : -2 ^ 63 ≤ sum.toInt - 2 ^ 31 * group.length)
    (hhigh : sum.toInt + 2 ^ 31 * group.length < 2 ^ 63) :
    let total := (group.map Entity.headcount).foldl (· + ·) sum
    tally? sum group = some total ∧ total.toInt = sum.toInt + players group := by
  induction group generalizing sum with
  | nil => exact ⟨rfl, (Int.add_zero _).symm⟩
  | cons e rest ih =>
    obtain ⟨hleast, hmost⟩ := e.headcount_bounds
    rw [List.length_cons] at hlow hhigh
    have hfits : -2 ^ 63 ≤ sum.toInt + e.headcount.toInt ∧
        sum.toInt + e.headcount.toInt < 2 ^ 63 := by omega
    have hnext := toInt_add hfits.1 hfits.2
    obtain ⟨htotal, hexact⟩ := @ih (sum + e.headcount) (by omega) (by omega)
    refine ⟨?_, ?_⟩
    · simp only [tally?, hfits, and_self, ↓reduceIte]
      exact htotal
    · simpa [players, hnext, Int.add_assoc] using hexact

variable {groups : Groups Entity}

theorem tallies_exact (h : ∀ group ∈ groups, group.length < 2 ^ 32) :
    tallies? groups = some (groups.map headcount) ∧
      (groups.map headcount).map Int64.toInt = groups.map players := by
  induction groups with
  | nil => exact ⟨rfl, rfl⟩
  | cons group rest ih =>
    obtain ⟨hgroup, hrest⟩ := List.forall_mem_cons.mp h
    obtain ⟨hsums, hall⟩ := ih hrest
    have hsum : tally? 0 group = some (headcount group) ∧
        (headcount group).toInt = Int64.toInt 0 + players group :=
      tally_exact (by simp; omega) (by simp; omega)
    have hexact : (headcount group).toInt = players group := by
      rw [hsum.2, Int64.toInt_zero, Int.zero_add]
    refine ⟨?_, ?_⟩
    · simp [tallies?, hsum.1, hsums]
    · rw [List.map_cons, List.map_cons, List.map_cons, hexact, hall]

end Tallies

/-- The library has this for the lesser of two numbers only. -/
instance : Std.LawfulOrderLeftLeaningMax Int64 where
  max_eq_left a b hle := by
    change (if a ≤ b then b else a) = a
    split
    · next hge => exact Int64.le_antisymm hle hge
    · rfl
  max_eq_right a b hlt := if_pos (Std.le_of_not_ge hlt)

section Ranges

variable {s : Sentence} (hsize : ∀ group ∈ s.objects, group.length < 2 ^ 32)

include hsize

/-- The counts in 64 bits are the exact ones. -/
theorem headcounts_exact : s.headcounts.map Int64.toInt = s.sizes := by
  obtain ⟨-, hexact⟩ := tallies_exact hsize
  rw [sizes, ← hexact, headcounts]
  generalize s.objects.map headcount = sums
  rw [List.filter_map]
  congr 1
  apply List.filter_congr
  intro n _
  simp [Int64.lt_iff_toInt_lt]

omit hsize in
theorem sizes_positive : ∀ n ∈ s.sizes, 0 < n := by
  intro n hn
  simpa using (List.mem_filter.mp hn).2

theorem headcountText_none (h : s.sizes = []) : s.headcountText = "" := by
  rw [← headcounts_exact hsize, List.map_eq_nil_iff] at h
  simp [headcountText, h]

/-- The text of the counts that are there names the least and the greatest of them. -/
theorem headcountText_range (h : s.sizes ≠ []) :
    ∃ a b, a ∈ s.sizes ∧ b ∈ s.sizes ∧ (∀ n ∈ s.sizes, a ≤ n ∧ n ≤ b) ∧
      s.headcountText = if a = b then toString a else toString a ++ "-" ++ toString b := by
  rw [← headcounts_exact hsize] at h ⊢
  have hne : s.headcounts ≠ [] := by simpa using h
  cases hmin : s.headcounts.min? with
  | none => exact absurd (List.min?_eq_none_iff.mp hmin) hne
  | some a =>
    cases hmax : s.headcounts.max? with
    | none => exact absurd (List.max?_eq_none_iff.mp hmax) hne
    | some b =>
      obtain ⟨ha, hleast⟩ := List.min?_eq_some_iff.mp hmin
      obtain ⟨hb, hmost⟩ := List.max?_eq_some_iff.mp hmax
      refine ⟨a.toInt, b.toInt, List.mem_map_of_mem ha, List.mem_map_of_mem hb, ?_, ?_⟩
      · intro n hn
        obtain ⟨m, hm, rfl⟩ := List.mem_map.mp hn
        exact ⟨Int64.le_iff_toInt_le.mp (hleast m hm), Int64.le_iff_toInt_le.mp (hmost m hm)⟩
      · simp only [headcountText, hmin, hmax, Int64.toInt_inj]
        rfl

end Ranges

section Marks

theorem searchMark_inj {s : Sentence} {text : String} :
    s.searchMark = "LF" ++ text ++ "M" ↔ s.headcountText = text := by
  rw [searchMark, String.append_left_inj, String.append_right_inj]

variable {s : Sentence} (hsize : ∀ group ∈ s.objects, group.length < 2 ^ 32)

include hsize

theorem searchMark_none : s.searchMark = "LFM" ↔ s.sizes = [] := by
  have hbare : "LFM" = "LF" ++ "" ++ "M" := rfl
  rw [hbare, searchMark_inj]
  constructor
  · intro h
    by_contra hne
    obtain ⟨a, b, -, -, -, htext⟩ := headcountText_range hsize hne
    rw [htext] at h
    split at h
    · exact int_ne_empty a h
    · exact int_ne_empty b (String.append_eq_empty_iff.mp h).2
  · exact headcountText_none hsize

theorem searchMark_one {n : Int} : s.searchMark = "LF" ++ toString n ++ "M" ↔
    s.sizes ≠ [] ∧ ∀ m ∈ s.sizes, m = n := by
  rw [searchMark_inj]
  constructor
  · intro h
    have hne : s.sizes ≠ [] := by
      intro hnone
      rw [headcountText_none hsize hnone] at h
      exact int_ne_empty n h.symm
    obtain ⟨a, b, -, -, hbetween, htext⟩ := headcountText_range hsize hne
    rw [htext] at h
    split at h
    · rename_i hab
      have hn : a = n := toString_injective h
      refine ⟨hne, fun m hm => ?_⟩
      have := hbetween m hm
      omega
    · exact absurd h (range_ne_int a b n)
  · intro ⟨hne, hall⟩
    obtain ⟨a, b, ha, hb, -, htext⟩ := headcountText_range hsize hne
    rw [htext, hall a ha, hall b hb, if_pos rfl]

theorem searchMark_range (hne : s.sizes ≠ []) (hall : ¬ ∃ n, ∀ m ∈ s.sizes, m = n) :
    ∃ a b, 0 < a ∧ a < b ∧ a ∈ s.sizes ∧ b ∈ s.sizes ∧
      (∀ n ∈ s.sizes, a ≤ n ∧ n ≤ b) ∧
      s.searchMark = "LF" ++ (toString a ++ "-" ++ toString b) ++ "M" := by
  obtain ⟨a, b, ha, hb, hbetween, htext⟩ := headcountText_range hsize hne
  have hlt : a < b := by
    by_contra hle
    refine hall ⟨a, fun m hm => ?_⟩
    have := hbetween m hm
    omega
  rw [if_neg (Int.ne_of_lt hlt)] at htext
  exact ⟨a, b, sizes_positive a ha, hlt, ha, hb, hbetween, searchMark_inj.mpr htext⟩

end Marks

section Rearranging

/-- One sentence has the object groups of another in any order, each with its members in any
order. -/
def Rearranged (s s' : Sentence) : Prop :=
  ∃ groups, s.objects.Perm groups ∧ List.Forall₂ List.Perm groups s'.objects

theorem min_perm {xs ys : List Int64} (h : xs.Perm ys) : xs.min? = ys.min? := by
  apply Option.ext
  intro n
  simp only [List.min?_eq_some_iff, h.mem_iff]

theorem max_perm {xs ys : List Int64} (h : xs.Perm ys) : xs.max? = ys.max? := by
  apply Option.ext
  intro n
  simp only [List.max?_eq_some_iff, h.mem_iff]

theorem Rearranged.headcounts {s s' : Sentence} (h : Rearranged s s') :
    s.headcounts.Perm s'.headcounts := by
  obtain ⟨groups, horder, hmembers⟩ := h
  have hsums : groups.map headcount = s'.objects.map headcount := by
    rw [← List.forall₂_eq_eq_eq, List.forall₂_map_left_iff, List.forall₂_map_right_iff]
    exact hmembers.imp fun _ _ hp => (hp.map _).foldl_eq 0
  exact ((horder.map _).trans (List.Perm.of_eq hsums)).filter _

theorem Rearranged.searchMark {s s' : Sentence} (h : Rearranged s s') :
    s'.searchMark = s.searchMark := by
  simp only [Sentence.searchMark, headcountText, min_perm h.headcounts, max_perm h.headcounts]

end Rearranging

/-- A search names the exact range of the sizes of its groups: no sum overflows as long as no group
has 2 ^ 32 entities, sums that are not positive are left out, and the order of groups and of their
members does not matter. -/
theorem searchMark_exact {s : Sentence} (hkind : s.kind = .findMore) (hfault : s.fault? = none)
    (hsize : ∀ group ∈ s.objects, group.length < 2 ^ 32) :
    (∃ sums, tallies? s.objects = some sums ∧ sums.map Int64.toInt = s.objects.map players ∧
      sums.filter (0 < ·) = s.headcounts ∧ s.headcounts.map Int64.toInt = s.sizes) ∧
    s.text = trimmed (s.subjectText ++ " " ++ (s.searchMark ++ " " ++ (s.targetText ++ "."))) ∧
    (s.searchMark = "LFM" ↔ s.sizes = []) ∧
    (∀ n : Int, s.searchMark = "LF" ++ toString n ++ "M" ↔
      s.sizes ≠ [] ∧ ∀ m ∈ s.sizes, m = n) ∧
    (s.sizes ≠ [] → (¬ ∃ n, ∀ m ∈ s.sizes, m = n) →
      ∃ a b, 0 < a ∧ a < b ∧ a ∈ s.sizes ∧ b ∈ s.sizes ∧
        (∀ n ∈ s.sizes, a ≤ n ∧ n ≤ b) ∧
        s.searchMark = "LF" ++ (toString a ++ "-" ++ toString b) ++ "M") ∧
    ∀ s', Rearranged s s' → s'.searchMark = s.searchMark := by
  obtain ⟨hsums, hexact⟩ := tallies_exact hsize
  have htext : s.text = s.findMoreText := by
    simp only [text, hfault, hkind]
  exact ⟨⟨_, hsums, hexact, rfl, headcounts_exact hsize⟩, htext.trans (findMoreText_mark s),
    searchMark_none hsize, fun n => searchMark_one hsize, searchMark_range hsize,
    fun s' => Rearranged.searchMark⟩

/-- A search for a number of players in each of some groups. -/
def muster (groups : List (List Int32)) : Sentence where
  kind := .findMore
  rules := ⟨[.player], [.player]⟩
  objects := groups.map fun quantities => quantities.map fun quantity =>
    .player { role := "Tank", quantity }

theorem searchMark_exact_muster :
    let s := muster [[2, 3], [-4], [1]]
    let s' := muster [[1], [3, 2], [-4]]
    s.kind = .findMore ∧ s.fault? = none ∧ (∀ group ∈ s.objects, group.length < 2 ^ 32) ∧
      Rearranged s s' ∧ (∃ sums, tallies? s.objects = some sums) ∧
      s.searchMark = "LF1-5M" ∧ s'.searchMark = "LF1-5M" := by
  intro s s'
  have hfault : s.fault? = none := by decide +kernel
  have hsize : ∀ group ∈ s.objects, group.length < 2 ^ 32 := by decide +kernel
  have hcounts : s.sizes = [5, 1] := by decide +kernel
  have hrearranged : Rearranged s s' :=
    ⟨(muster [[1], [2, 3], [-4]]).objects, by decide +kernel,
      .cons (.refl _) (.cons (by decide +kernel) (.cons (.refl _) .nil))⟩
  obtain ⟨⟨sums, hsums, -⟩, -, -, -, hrange, hsame⟩ := searchMark_exact rfl hfault hsize
  rw [hcounts] at hrange
  obtain ⟨a, b, -, hlt, ha, hb, -, hmark⟩ := hrange (by decide) fun ⟨n, hn⟩ => by
    have hfive := hn 5 (by decide)
    have hone := hn 1 (by decide)
    omega
  have hends : a = 1 ∧ b = 5 := by
    simp only [List.mem_cons, List.not_mem_nil, or_false] at ha hb
    omega
  rw [hends.1, hends.2] at hmark
  exact ⟨rfl, hfault, hsize, hrearranged, ⟨sums, hsums⟩, hmark, (hsame s' hrearranged).trans hmark⟩

end Sentence

end TradeChat
