import Mathlib.Data.List.Chain
import TradeChat.Proofs.Text.Numerals
import TradeChat.Proofs.Text.Pieces
import TradeChat.Proofs.Text.Series

namespace TradeChat.Text

/-- A text without white space. -/
def Plain (s : String) : Prop := ∀ c ∈ s.toList, isBlank c = false

/-- A text that shows nothing. -/
def Blank (s : String) : Prop := ∀ c ∈ s.toList, isBlank c = true

-- The instances go along the characters of a text, not through all characters that there are.
instance (s : String) : Decidable (Plain s) := List.decidableBAll _ s.toList

instance (s : String) : Decidable (Blank s) := List.decidableBAll _ s.toList

/-- No two spaces stand next to each other. -/
def SingleSpaced (s : List Char) : Prop := s.IsChain fun a b => ¬(a = ' ' ∧ b = ' ')

instance (s : List Char) : Decidable (SingleSpaced s) :=
  inferInstanceAs (Decidable (s.IsChain fun a b => ¬(a = ' ' ∧ b = ' ')))

/-- A text that shows something, has no white space at either end, and no two spaces next to each
other. -/
structure Phrase (s : String) : Prop where
  nonempty : s ≠ ""
  tight : Tight s.toList
  spacing : SingleSpaced s.toList

section Plain

@[simp] theorem plain_append {s t : String} : Plain (s ++ t) ↔ Plain s ∧ Plain t := by
  rw [Plain, String.toList_append, List.forall_mem_append]
  rfl

theorem isBlank_digit {c : Char} (h : c.isDigit = true) : isBlank c = false := by
  have hrange : 48 ≤ c.toNat ∧ c.toNat ≤ 57 := by
    simpa [Char.isDigit, UInt32.le_iff_toNat_le] using h
  simp only [isBlank, blankRanges, List.any_cons, List.any_nil, Bool.or_false, Bool.or_eq_false_iff,
    Bool.and_eq_false_iff, decide_eq_false_iff_not]
  omega

@[simp] theorem plain_nat (n : Nat) : Plain n.repr := by
  rw [Plain, Nat.repr_eq_ofList_toDigits, String.toList_ofList]
  exact fun c hc => isBlank_digit (isDigit_toDigits hc)

@[simp] theorem plain_int (n : Int) : Plain n.repr := by
  cases n with
  | ofNat n => exact plain_nat n
  | negSucc n => exact plain_append.mpr ⟨by decide, plain_nat (n + 1)⟩

end Plain

instance (s : List Char) : Decidable (Tight s) :=
  have : Decidable (∀ c ∈ s.head?, isBlank c = false) := Option.decidableForallMem _
  have : Decidable (∀ c ∈ s.getLast?, isBlank c = false) := Option.decidableForallMem _
  decidable_of_iff ((∀ c ∈ s.head?, isBlank c = false) ∧ ∀ c ∈ s.getLast?, isBlank c = false)
    ⟨fun h => ⟨h.1, h.2⟩, fun h => ⟨h.start, h.finish⟩⟩

instance (s : String) : Decidable (Phrase s) :=
  decidable_of_iff (s ≠ "" ∧ Tight s.toList ∧ SingleSpaced s.toList)
    ⟨fun h => ⟨h.1, h.2.1, h.2.2⟩, fun h => ⟨h.nonempty, h.tight, h.spacing⟩⟩

/-- A phrase that ends in a full stop; `loose` says whether a space stands right before it. -/
structure Stopped (s : String) (loose : Prop) : Prop where
  phrase : Phrase s
  stop : ∃ body, s = body ++ "." ∧ (body.toList.getLast? = some ' ' ↔ loose)

section Characters

variable {s more gap : List Char}

/-- Where two texts meet, one space too many needs a space on both sides. -/
theorem SingleSpaced.append (hs : SingleSpaced s) (hmore : SingleSpaced more)
    (hseam : (∀ c ∈ s.getLast?, isBlank c = false) ∨ ∀ c ∈ more.head?, isBlank c = false) :
    SingleSpaced (s ++ more) := by
  have hblank : isBlank ' ' = true := by decide
  refine List.IsChain.append hs hmore ?_
  rintro a ha b hb ⟨rfl, rfl⟩
  rcases hseam with h | h
  · rw [h ' ' ha] at hblank
    cases hblank
  · rw [h ' ' hb] at hblank
    cases hblank

theorem SingleSpaced.join (hs : SingleSpaced s) (hmore : SingleSpaced more)
    (htight : Tight s) (htight' : Tight more) (hgap : SingleSpaced gap) :
    SingleSpaced (s ++ (gap ++ more)) :=
  hs.append (hgap.append hmore (.inr htight'.start)) (.inl htight.finish)

end Characters

namespace Phrase

variable {s more word : String}

theorem ne_nil (h : Phrase s) : s.toList ≠ [] := mt String.toList_eq_nil_iff.mp h.nonempty

theorem join (hs : Phrase s) (hmore : Phrase more) (gap : String)
    (hgap : SingleSpaced gap.toList) : Phrase (s ++ gap ++ more) := by
  have hlist : (s ++ gap ++ more).toList = s.toList ++ (gap.toList ++ more.toList) := by
    rw [String.toList_append, String.toList_append, List.append_assoc]
  refine ⟨?_, ?_, ?_⟩
  · intro hempty
    have hnil := String.toList_eq_nil_iff.mpr hempty
    rw [hlist] at hnil
    exact hs.ne_nil (List.append_eq_nil_iff.mp hnil).1
  · rw [hlist]
    exact hs.tight.join hmore.tight hs.ne_nil hmore.ne_nil _
  · rw [hlist]
    exact hs.spacing.join hmore.spacing hs.tight hmore.tight hgap

theorem append (hs : Phrase s) (hmore : Phrase more) : Phrase (s ++ more) := by
  have h := hs.join hmore "" (by decide)
  rwa [String.append_empty] at h

theorem trimmed_eq (h : Phrase s) : trimmed s = s := by
  rw [trimmed, h.tight.trim_eq, String.ofList_toList]

/-- A text without any white space is a phrase, if it shows something. -/
theorem of_plain (h : Plain s) (hne : s ≠ "") : Phrase s := by
  refine ⟨hne, ⟨?_, ?_⟩, ?_⟩
  · exact fun c hc => h c (List.mem_of_mem_head? hc)
  · exact fun c hc => h c (List.mem_of_getLast? hc)
  · refine List.Pairwise.isChain (List.pairwise_of_forall_mem_list ?_)
    rintro a ha b - ⟨rfl, -⟩
    exact absurd (h ' ' ha) (by decide)

/-- White space in front of a phrase goes when it is trimmed. -/
theorem trimmed_behind (h : Phrase s) {gap : String} (hgap : Blank gap) :
    trimmed (gap ++ s) = s := by
  have htrim := h.tight.trim_padded hgap (List.forall_mem_nil _)
  rw [List.append_nil] at htrim
  rw [trimmed, String.toList_append, htrim, String.ofList_toList]

theorem last_ne (h : Phrase s) : s.toList.getLast? ≠ some ' ' := by
  intro hlast
  exact absurd (h.tight.finish ' ' hlast) (by decide)

theorem stopped (h : Phrase s) {loose : Prop} (hloose : ¬ loose) : Stopped (s ++ ".") loose :=
  ⟨h.append (.of_plain (by decide) (by decide)), s, rfl, iff_of_false h.last_ne hloose⟩

end Phrase

section Series

variable {word : String} {texts : List String}

theorem singleSpaced_separator (hword : Phrase word) (size place : Nat) :
    SingleSpaced (separator word size place).toList := by
  have hspace : SingleSpaced (word ++ " ").toList := by
    rw [String.toList_append]
    exact hword.spacing.append (by decide) (.inl hword.tight.finish)
  have hbehind : ∀ gap : String, SingleSpaced gap.toList →
      SingleSpaced (gap ++ word ++ " ").toList := by
    intro gap hgap
    rw [String.append_assoc, String.toList_append]
    refine hgap.append hspace (.inr ?_)
    rw [String.toList_append, List.head?_append_of_ne_nil _ hword.ne_nil]
    exact hword.tight.start
  unfold separator
  split
  · exact hbehind " " (by decide)
  · split
    · decide
    · split
      · exact hbehind ", " (by decide)
      · decide

/-- Phrases in a series are a phrase again. -/
theorem phrase_seriesFrom (hword : Phrase word) (h : ∀ t ∈ texts, Phrase t) (hne : texts ≠ [])
    {size place : Nat} (hsize : size = place + texts.length) :
    Phrase (seriesFrom word size place texts) := by
  induction texts generalizing place with
  | nil => exact absurd rfl hne
  | cons a rest ih =>
    obtain ⟨ha, hrest⟩ := List.forall_mem_cons.mp h
    rw [List.length_cons] at hsize
    cases rest with
    | nil =>
      rw [seriesFrom, seriesFrom, separator_last word (by simp [hsize]), String.append_empty,
        String.append_empty]
      exact ha
    | cons b rest =>
      exact ha.join (ih hrest (List.cons_ne_nil b rest) (by omega)) _
        (singleSpaced_separator hword size place)

theorem phrase_alternatives {groups : List (List String)} (hne : groups ≠ [])
    (hfilled : [] ∉ groups) (h : ∀ group ∈ groups, ∀ t ∈ group, Phrase t) :
    Phrase (alternatives groups) := by
  have hor : Phrase "or" := .of_plain (by decide) (by decide)
  have hand : Phrase "and" := .of_plain (by decide) (by decide)
  rw [alternatives, commaList_members]
  refine phrase_seriesFrom hor ?_ (mt List.map_eq_nil_iff.mp hne) (Nat.zero_add _).symm
  intro text htext
  obtain ⟨group, hgroup, rfl⟩ := List.mem_map.mp htext
  have hgroup_ne : group ≠ [] := fun he => hfilled (he ▸ hgroup)
  refine phrase_seriesFrom hand ?_ (mt List.map_eq_nil_iff.mp hgroup_ne) (Nat.zero_add _).symm
  intro t ht
  obtain ⟨s, hs, rfl⟩ := List.mem_map.mp ht
  rw [(h group hgroup s hs).trimmed_eq]
  exact h group hgroup s hs

end Series

end TradeChat.Text
