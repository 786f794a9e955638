import Mathlib.Data.List.Basic
import Mathlib.Data.List.TakeWhile
import TradeChat.Text.Parts

namespace TradeChat.Text

/-- A text with no white space at either end. -/
structure Tight (s : List Char) : Prop where
  start : ∀ c ∈ s.head?, isBlank c = false
  finish : ∀ c ∈ s.getLast?, isBlank c = false

theorem tight_nil : Tight [] := ⟨by simp, by simp⟩

theorem tight_between {a b : Char} (s : List Char) (ha : isBlank a = false)
    (hb : isBlank b = false) : Tight (a :: (s ++ [b])) := by
  constructor
  · intro c hc
    cases hc
    exact ha
  · intro c hc
    rw [← List.cons_append, List.getLast?_concat] at hc
    cases hc
    exact hb

theorem Tight.join {s more : List Char} (h : Tight s) (hmore : Tight more) (hs : s ≠ [])
    (hne : more ≠ []) (gap : List Char) : Tight (s ++ (gap ++ more)) := by
  constructor
  · intro c hc
    rw [List.head?_append_of_ne_nil s hs] at hc
    exact h.start c hc
  · intro c hc
    rw [← List.append_assoc, List.getLast?_append_of_ne_nil _ hne] at hc
    exact hmore.finish c hc

theorem trimStart_blank {g : List Char} (hg : ∀ c ∈ g, isBlank c = true) (s : List Char) :
    trimStart (g ++ s) = trimStart s := List.dropWhile_append_of_pos hg

theorem trimEnd_blank {g : List Char} (hg : ∀ c ∈ g, isBlank c = true) (s : List Char) :
    trimEnd (s ++ g) = trimEnd s := by
  rw [trimEnd, List.reverse_append, List.dropWhile_append_of_pos (by simpa using hg), ← trimEnd]

theorem trimStart_cons {c : Char} (hc : isBlank c = false) (s : List Char) :
    trimStart (c :: s) = c :: s := List.dropWhile_cons_of_neg (by simp [hc])

theorem trimStart_of_start {s : List Char} (h : ∀ c ∈ s.head?, isBlank c = false) :
    trimStart s = s := by
  cases s with
  | nil => rfl
  | cons c s => exact trimStart_cons (h c rfl) s

theorem trimStart_suffix (s : List Char) : trimStart s <:+ s := List.dropWhile_suffix isBlank

/-- White space is not looked for behind another character. -/
theorem trimStart_append_cons {c : Char} (hc : isBlank c = false) (s rest : List Char) :
    trimStart (s ++ c :: rest) = trimStart s ++ c :: rest := by
  rw [trimStart, List.dropWhile_append, ← trimStart, ← trimStart]
  split
  · rename_i hs
    rw [List.isEmpty_iff.mp hs, trimStart_cons hc]
    rfl
  · rfl

theorem Tight.trimStart_append {s : List Char} (h : Tight s) (hs : s ≠ []) (rest : List Char) :
    trimStart (s ++ rest) = s ++ rest := by
  cases s with
  | nil => exact absurd rfl hs
  | cons c s => exact trimStart_cons (h.start c rfl) _

theorem Tight.trimStart_eq {s : List Char} (h : Tight s) : trimStart s = s :=
  trimStart_of_start h.start

theorem Tight.reverse {s : List Char} (h : Tight s) : Tight s.reverse :=
  ⟨by simpa using h.finish, by simpa using h.start⟩

theorem Tight.trimEnd_eq {s : List Char} (h : Tight s) : trimEnd s = s := by
  have := h.reverse.trimStart_eq
  rw [trimStart] at this
  rw [trimEnd, this, List.reverse_reverse]

theorem Tight.trim_padded {s g g' : List Char} (h : Tight s) (hg : ∀ c ∈ g, isBlank c = true)
    (hg' : ∀ c ∈ g', isBlank c = true) : trim (g ++ (s ++ g')) = s := by
  rw [trim, trimStart_blank hg]
  by_cases hs : s = []
  · subst hs
    have := trimStart_blank hg' []
    rw [List.append_nil] at this
    rw [List.nil_append, this]
    rfl
  · rw [h.trimStart_append hs, trimEnd_blank hg', h.trimEnd_eq]

theorem Tight.trim_eq {s : List Char} (h : Tight s) : trim s = s := by
  rw [trim, h.trimStart_eq, h.trimEnd_eq]

theorem trimStart_start (s : List Char) : ∀ c ∈ (trimStart s).head?, isBlank c = false := by
  intro c hc
  have := List.head?_dropWhile_not isBlank s
  rw [← trimStart, hc] at this
  simpa using this

theorem trimEnd_starts (s : List Char) : trimEnd s <+: s := by
  have := List.reverse_prefix.mpr (List.dropWhile_suffix (p := isBlank) (l := s.reverse))
  rwa [List.reverse_reverse, ← trimEnd] at this

theorem trim_tight (s : List Char) : Tight (trim s) := by
  constructor
  · intro c hc
    obtain ⟨rest, hrest⟩ := trimEnd_starts (trimStart s)
    apply trimStart_start s
    rw [trim] at hc
    rw [← hrest, List.head?_append, hc]
    rfl
  · have := trimStart_start (trimStart s).reverse
    rw [trimStart] at this
    rwa [trim, trimEnd, List.getLast?_reverse]

theorem trim_sublist (s : List Char) : (trim s).Sublist s :=
  (trimEnd_starts (trimStart s)).sublist.trans (List.dropWhile_sublist isBlank)

/-- White space at the end goes, whether or not it is taken off before. -/
theorem trim_append_blank {g : List Char} (hg : ∀ c ∈ g, isBlank c = true) (s : List Char) :
    trim (s ++ g) = trim s := by
  by_cases hs : trimStart s = []
  · rw [trim, trim, hs, trimStart, List.dropWhile_append_of_pos (List.dropWhile_eq_nil_iff.mp hs),
      List.dropWhile_eq_nil_iff.mpr hg]
  · rw [trim, trim, trimStart, List.dropWhile_append, ← trimStart,
      if_neg (by simpa using hs), trimEnd_blank hg]

/-- Behind the last character that is not blank a text ends. -/
theorem trim_append_cons {c : Char} (hc : isBlank c = false) {s g : List Char}
    (hg : ∀ c ∈ g, isBlank c = true) : trim (s ++ c :: g) = trimStart (s ++ [c]) := by
  rw [trim, trimStart_append_cons hc, trimStart_append_cons hc, List.append_cons,
    trimEnd_blank hg, trimEnd, List.reverse_append]
  have := trimStart_cons hc (trimStart s).reverse
  rw [trimStart] at this
  rw [List.reverse_singleton, List.singleton_append, this, List.reverse_cons, List.reverse_reverse]

theorem trimStart_append {s : List Char} (hs : trimStart s ≠ []) (more : List Char) :
    trimStart (s ++ more) = trimStart s ++ more := by
  unfold trimStart at hs ⊢
  rw [List.dropWhile_append, if_neg (by simpa using hs)]

/-- Trimmed from the start of a text, what is left starts that text when it is trimmed. -/
theorem trim_starts {s more : List Char} (h : s <+: more) : trim s <+: trimStart more := by
  obtain ⟨rest, rfl⟩ := h
  by_cases hs : trimStart s = []
  · rw [trim, hs]
    exact List.nil_prefix
  · rw [trimStart_append hs]
    exact (trimEnd_starts (trimStart s)).trans (List.prefix_append _ rest)

theorem trimStart_trimStart (s : List Char) : trimStart (trimStart s) = trimStart s := by
  cases h : trimStart s with
  | nil => rfl
  | cons c rest => exact trimStart_cons (trimStart_start s c (by rw [h]; rfl)) rest

/-- White space at the front goes, whether or not more text has come behind it by then. -/
theorem trimStart_trimStart_append (s more : List Char) :
    trimStart (trimStart s ++ more) = trimStart (s ++ more) := by
  by_cases hs : trimStart s = []
  · have hblank := List.dropWhile_eq_nil_iff.mp hs
    rw [hs, List.nil_append, trimStart_blank hblank]
  · rw [trimStart_append hs, trimStart_append (by rwa [trimStart_trimStart]), trimStart_trimStart]

theorem trim_split (s : List Char) : ∃ before after, (∀ c ∈ before, isBlank c = true) ∧
    (∀ c ∈ after, isBlank c = true) ∧ s = before ++ (trim s ++ after) := by
  refine ⟨s.takeWhile isBlank, ((trimStart s).reverse.takeWhile isBlank).reverse, ?_, ?_, ?_⟩
  · exact fun c hc => List.mem_takeWhile_imp hc
  · exact fun c hc => List.mem_takeWhile_imp (List.mem_reverse.mp hc)
  · have hend := congrArg List.reverse
      (List.takeWhile_append_dropWhile (p := isBlank) (l := (trimStart s).reverse))
    rw [List.reverse_append, List.reverse_reverse] at hend
    rw [trim, trimEnd, hend, trimStart, List.takeWhile_append_dropWhile]

theorem trim_ne_nil {s : List Char} {c : Char} (hs : c ∈ s) (hc : isBlank c = false) :
    trim s ≠ [] := by
  intro hempty
  obtain ⟨before, after, hbefore, hafter, htext⟩ := trim_split s
  rw [htext, hempty, List.nil_append] at hs
  rcases List.mem_append.mp hs with hs | hs
  · simp [hbefore c hs] at hc
  · simp [hafter c hs] at hc

/-- Of the white space between two texts some may be left when they are joined. -/
theorem trim_append (s more : List Char) : ∃ gap, (∀ c ∈ gap, isBlank c = true) ∧
    trim (s ++ more) = trimStart (trim s ++ (gap ++ trim more)) := by
  obtain ⟨before, after, hbefore, hafter, hs⟩ := trim_split s
  obtain ⟨before', after', hbefore', hafter', hmore⟩ := trim_split more
  have hjoined : s ++ more =
      before ++ (trim s ++ ((after ++ before') ++ (trim more ++ after'))) := by
    conv => lhs; rw [hs, hmore]
    simp only [List.append_assoc]
  have hgap : ∀ c ∈ after ++ before', isBlank c = true := by
    intro c hc
    rcases List.mem_append.mp hc with hc | hc
    · exact hafter c hc
    · exact hbefore' c hc
  by_cases hempty : trim more = []
  · -- Behind the first text there is white space only, and it all goes.
    refine ⟨[], by simp, ?_⟩
    have htail : ∀ c ∈ (after ++ before') ++ after', isBlank c = true := by
      intro c hc
      rcases List.mem_append.mp hc with hc | hc
      · exact hgap c hc
      · exact hafter' c hc
    rw [hjoined, hempty, List.nil_append, (trim_tight s).trim_padded hbefore htail,
      List.append_nil, List.append_nil, (trim_tight s).trimStart_eq]
  · refine ⟨after ++ before', hgap, ?_⟩
    by_cases hfirst : trim s = []
    · rw [hjoined, hfirst, List.nil_append, List.nil_append, ← List.append_assoc,
        (trim_tight more).trim_padded (by
          intro c hc
          rcases List.mem_append.mp hc with hc | hc
          · exact hbefore c hc
          · exact hgap c hc) hafter', trimStart_blank hgap, (trim_tight more).trimStart_eq]
    · have htight := (trim_tight s).join (trim_tight more) hfirst hempty (after ++ before')
      rw [hjoined, htight.trimStart_eq, ← htight.trim_padded hbefore hafter']
      simp only [List.append_assoc]

theorem before_mark {d : Char} {s : List Char} (hs : ∀ c ∈ s, c ≠ d) (rest : List Char) :
    (s ++ d :: rest).takeWhile (· != d) = s := by
  rw [List.takeWhile_append_of_pos (by simpa using hs), List.takeWhile_cons_of_neg (by simp),
    List.append_nil]

theorem from_mark {d : Char} {s : List Char} (hs : ∀ c ∈ s, c ≠ d) (rest : List Char) :
    (s ++ d :: rest).dropWhile (· != d) = d :: rest := by
  rw [List.dropWhile_append_of_pos (by simpa using hs), List.dropWhile_cons_of_neg (by simp)]

/-- A text that is left from a mark on starts with the mark, and none stands before it. -/
theorem split_at_mark {c d : Char} {s rest : List Char} (h : s.dropWhile (· != d) = c :: rest) :
    s = s.takeWhile (· != d) ++ d :: rest ∧ ∀ e ∈ s.takeWhile (· != d), e ≠ d := by
  have hc : c = d := by
    have := List.head?_dropWhile_not (· != d) s
    rw [h] at this
    simpa using this
  constructor
  · have := List.takeWhile_append_dropWhile (p := (· != d)) (l := s)
    rw [h, hc] at this
    exact this.symm
  · intro e he
    simpa using List.mem_takeWhile_imp he

theorem fields_cons_sep (sep : Char) (s : List Char) :
    fields sep (sep :: s) = [] :: fields sep s := by
  simp [fields]

theorem fields_ne_nil (sep : Char) (s : List Char) : fields sep s ≠ [] := by
  cases s with
  | nil => simp [fields]
  | cons c s =>
    rw [fields, List.foldr_cons]
    split
    · simp
    · split <;> simp

/-- A piece that holds no mark grows at its front. -/
theorem fields_append {sep : Char} {p : List Char} (hp : ∀ c ∈ p, c ≠ sep) (s : List Char)
    {piece : List Char} {rest : List (List Char)} (h : fields sep s = piece :: rest) :
    fields sep (p ++ s) = (p ++ piece) :: rest := by
  induction p with
  | nil => exact h
  | cons c p ih =>
    obtain ⟨hc, hp⟩ := List.forall_mem_cons.mp hp
    have := ih hp
    rw [fields] at this
    rw [List.cons_append, fields, List.foldr_cons, if_neg hc, this]
    rfl

/-- A text is its pieces, with a mark behind each but the last. -/
theorem fields_split (sep : Char) (s : List Char) : ∃ ended tail,
    fields sep s = ended ++ [tail] ∧ s = ended.flatMap (· ++ [sep]) ++ tail := by
  induction s with
  | nil => exact ⟨[], [], rfl, rfl⟩
  | cons c s ih =>
    obtain ⟨ended, tail, hfields, hs⟩ := ih
    by_cases hc : c = sep
    · subst hc
      refine ⟨[] :: ended, tail, by rw [fields_cons_sep, hfields, List.cons_append], ?_⟩
      rw [List.flatMap_cons, List.nil_append, List.append_assoc, ← hs, List.singleton_append]
    · have hown : ∀ d ∈ [c], d ≠ sep := by simpa using hc
      cases ended with
      | nil => exact ⟨[], c :: tail, fields_append hown s hfields, congrArg (c :: ·) hs⟩
      | cons line more =>
        exact ⟨(c :: line) :: more, tail, fields_append hown s hfields, congrArg (c :: ·) hs⟩

theorem fields_plain {sep : Char} {p : List Char} (hp : ∀ c ∈ p, c ≠ sep) : fields sep p = [p] := by
  have h := fields_append hp [] rfl
  rwa [List.append_nil] at h

theorem fields_pair {sep : Char} {p q : List Char} (hp : ∀ c ∈ p, c ≠ sep)
    (hq : ∀ c ∈ q, c ≠ sep) : fields sep (p ++ sep :: q) = [p, q] := by
  rw [fields_append hp (sep :: q) (by rw [fields_cons_sep, fields_plain hq]), List.append_nil]

/-- Pieces that each end in a mark are told apart again. -/
theorem fields_ended {sep : Char} {pieces : List (List Char)}
    (h : ∀ p ∈ pieces, ∀ c ∈ p, c ≠ sep) :
    fields sep (pieces.flatMap (· ++ [sep])) = pieces ++ [[]] := by
  induction pieces with
  | nil => rfl
  | cons p pieces ih =>
    obtain ⟨hp, hpieces⟩ := List.forall_mem_cons.mp h
    have hrest := fields_cons_sep sep (pieces.flatMap (· ++ [sep]))
    rw [List.flatMap_cons, List.append_assoc, List.singleton_append, fields_append hp _ hrest,
      List.append_nil, ih hpieces, List.cons_append]

/-- Pieces hold characters of the text, and no mark. -/
theorem mem_fields {sep : Char} {s piece : List Char} (h : piece ∈ fields sep s) :
    ∀ c ∈ piece, c ∈ s ∧ c ≠ sep := by
  induction s generalizing piece with
  | nil =>
    intro c hc
    simp [fields] at h
    simp [h] at hc
  | cons d s ih =>
    rw [fields, List.foldr_cons, ← fields] at h
    intro c hc
    split at h
    · rcases List.mem_cons.mp h with rfl | h
      · cases hc
      · obtain ⟨hs, hne⟩ := ih h c hc
        exact ⟨List.mem_cons_of_mem d hs, hne⟩
    · rename_i hd
      cases hf : fields sep s with
      | nil => exact absurd hf (fields_ne_nil sep s)
      | cons first more =>
        rw [hf] at h ih
        rcases List.mem_cons.mp h with rfl | h
        · rcases List.mem_cons.mp hc with rfl | hc
          · exact ⟨List.mem_cons_self, hd⟩
          · obtain ⟨hs, hne⟩ := ih List.mem_cons_self c hc
            exact ⟨List.mem_cons_of_mem d hs, hne⟩
        · obtain ⟨hs, hne⟩ := ih (List.mem_cons_of_mem first h) c hc
          exact ⟨List.mem_cons_of_mem d hs, hne⟩

end TradeChat.Text
