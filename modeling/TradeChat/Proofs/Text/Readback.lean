import TradeChat.Proofs.Text.Pieces
import TradeChat.Proofs.Text.Series

namespace TradeChat.Text

/-- A text that stands in a list without being taken for more than one: nothing is trimmed off it,
and it holds neither a comma nor one of the words that join lists. -/
structure Simple (s : String) : Prop where
  nonempty : s ≠ ""
  trimmed : trimmed s = s
  uncut : ',' ∉ s.toList
  words : ∀ word ∈ fields ' ' s.toList, word ≠ "or".toList ∧ word ≠ "and".toList

/-- A group of one or two such texts. -/
structure Small (group : List String) : Prop where
  size : group.length = 1 ∨ group.length = 2
  simple : ∀ s ∈ group, Simple s

instance (s : String) : Decidable (Simple s) :=
  decidable_of_iff (s ≠ "" ∧ trimmed s = s ∧ ',' ∉ s.toList ∧
      ∀ word ∈ fields ' ' s.toList, word ≠ "or".toList ∧ word ≠ "and".toList)
    ⟨fun ⟨h₁, h₂, h₃, h₄⟩ => ⟨h₁, h₂, h₃, h₄⟩, fun ⟨h₁, h₂, h₃, h₄⟩ => ⟨h₁, h₂, h₃, h₄⟩⟩

instance (group : List String) : Decidable (Small group) :=
  decidable_of_iff ((group.length = 1 ∨ group.length = 2) ∧ ∀ s ∈ group, Simple s)
    ⟨fun ⟨h₁, h₂⟩ => ⟨h₁, h₂⟩, fun ⟨h₁, h₂⟩ => ⟨h₁, h₂⟩⟩

/-- What stands between the places where a word stands by itself, with spaces around it. -/
def parted (word s : List Char) : List (List Char) :=
  ((s.splitOn ' ').splitOn word).map [' '].intercalate

/-- The parts of a list of alternatives: commas and the word "or" end a part, and what is left of
white space between them is none. -/
def clauses (s : List Char) : List (List Char) :=
  (((s.splitOn ',').flatMap (parted "or".toList)).map trim).filter (· ≠ [])

/-- The groups that a text of alternatives was written from. -/
def readBack (text : String) : List (List String) :=
  (clauses text.toList).map fun clause => (parted "and".toList clause).map String.ofList

theorem fields_eq_splitOn (sep : Char) (s : List Char) : fields sep s = s.splitOn sep := by
  induction s with
  | nil => rfl
  | cons c s ih =>
    rw [List.splitOn_cons_eq_if_modifyHead, ← ih, fields, List.foldr_cons, ← fields]
    by_cases hc : c = sep
    · rw [if_pos hc, if_pos (beq_iff_eq.mpr hc)]
    · rw [if_neg hc, if_neg (by simpa using hc)]
      cases hs : fields sep s with
      | nil => exact absurd hs (fields_ne_nil sep s)
      | cons piece rest => rfl

section Parted

variable {word x y : List Char}

theorem parted_plain (h : word ∉ x.splitOn ' ') : parted word x = [x] := by
  rw [parted, List.splitOn_eq_singleton h, List.map_singleton, List.intercalate_splitOn]

theorem splitOn_word (hword : ' ' ∉ word) (y : List Char) :
    (word ++ ' ' :: y).splitOn ' ' = word :: y.splitOn ' ' :=
  List.splitOn_append_cons_self_of_not_mem hword y

theorem parted_between (hword : ' ' ∉ word) (x y : List Char) :
    parted word (x ++ ' ' :: (word ++ ' ' :: y)) = parted word x ++ parted word y := by
  rw [parted, List.splitOn_append_cons_self, splitOn_word hword, List.splitOn_append_cons_self,
    List.map_append, parted, parted]

end Parted

/-- A text that is one part of a list of alternatives. -/
structure Clause (s : List Char) : Prop where
  nonempty : s ≠ []
  tight : Tight s
  uncut : ',' ∉ s
  whole : "or".toList ∉ s.splitOn ' '

/-- What may stand between a comma and the next part. -/
inductive IsLead : List Char → Prop
  | nothing : IsLead []
  | space : IsLead [' ']
  | word : IsLead " or ".toList

section Clauses

variable {s x y : List Char}

theorem clauses_comma (x y : List Char) : clauses (x ++ ',' :: y) = clauses x ++ clauses y := by
  rw [clauses, List.splitOn_append_cons_self, List.flatMap_append, List.map_append,
    List.filter_append, clauses, clauses]

theorem clauses_uncut (h : ',' ∉ s) :
    clauses s = ((parted "or".toList s).map trim).filter (· ≠ []) := by
  rw [clauses, List.splitOn_eq_singleton h, List.flatMap_singleton]

theorem Clause.clauses (h : Clause s) : clauses s = [s] := by
  rw [clauses_uncut h.uncut, parted_plain h.whole, List.map_singleton, h.tight.trim_eq,
    List.filter_cons_of_pos (by simpa using h.nonempty), List.filter_nil]

theorem Clause.clauses_led (h : Clause s) {lead : List Char} (hlead : IsLead lead) :
    Text.clauses (lead ++ s) = [s] := by
  have hspace : trim (' ' :: s) = s := by
    have hgap : ∀ c ∈ [' '], isBlank c = true := List.forall_mem_singleton.mpr (by decide)
    have hpadded : trim ([' '] ++ (s ++ [])) = s := h.tight.trim_padded hgap (by simp)
    rwa [List.append_nil] at hpadded
  have hblank : "or".toList ∉ (' ' :: s).splitOn ' ' := by
    rw [List.splitOn_cons_eq_if_modifyHead, if_pos (beq_self_eq_true ' '), List.mem_cons, not_or]
    exact ⟨by decide, h.whole⟩
  have hkept : [s].filter (· ≠ []) = [s] := by simpa using h.nonempty
  cases hlead with
  | nothing => exact h.clauses
  | space =>
    rw [List.singleton_append, clauses_uncut (by simpa using h.uncut), parted_plain hblank,
      List.map_singleton, hspace, hkept]
  | word =>
    -- A space stands in front of the word, and nothing in front of the space.
    have hword : ' ' ∉ "or".toList := by decide
    have hparted := parted_between hword [] s
    have huncut : ',' ∉ [] ++ ' ' :: ("or".toList ++ ' ' :: s) := by simpa using h.uncut
    have hnothing : parted "or".toList [] = [[]] := by decide
    have htext : " or ".toList ++ s = [] ++ ' ' :: ("or".toList ++ ' ' :: s) := rfl
    rw [htext, clauses_uncut huncut, hparted, hnothing, parted_plain h.whole, List.map_append,
      List.filter_append, List.map_singleton, List.map_singleton, h.tight.trim_eq, hkept]
    rfl

theorem Clause.clauses_pair (hx : Clause x) (hy : Clause y) :
    Text.clauses (x ++ " or ".toList ++ y) = [x, y] := by
  have hword : ' ' ∉ "or".toList := by decide
  have hparted := parted_between hword x y
  have huncut : ',' ∉ x ++ ' ' :: ("or".toList ++ ' ' :: y) := by
    simpa using ⟨hx.uncut, hy.uncut⟩
  have htext : x ++ " or ".toList ++ y = x ++ ' ' :: ("or".toList ++ ' ' :: y) := by simp
  rw [htext, clauses_uncut huncut, hparted, parted_plain hx.whole, parted_plain hy.whole]
  simp [hx.tight.trim_eq, hy.tight.trim_eq, hx.nonempty, hy.nonempty]

/-- In a list of three or more a comma stands behind every part but the last. -/
theorem separator_comma {word : String} {size place : Nat} (hsize : 3 ≤ size)
    (hplace : place + 2 ≤ size) : separator word size place =
      if place + 2 < size then ", " else ", " ++ word ++ " " := by
  rw [separator, if_neg (by omega)]
  split
  · rfl
  · rw [if_pos (by omega)]

theorem clauses_seriesFrom {texts : List String} (htexts : ∀ t ∈ texts, Clause t.toList)
    {size place : Nat} (hsize : 3 ≤ size) (hplace : place + texts.length = size)
    (hne : texts ≠ []) {lead : List Char} (hlead : IsLead lead) :
    clauses (lead ++ (seriesFrom "or" size place texts).toList) = texts.map String.toList := by
  induction texts generalizing place lead with
  | nil => exact absurd rfl hne
  | cons a rest ih =>
    obtain ⟨ha, hrest⟩ := List.forall_mem_cons.mp htexts
    cases rest with
    | nil =>
      have hlast : size ≤ place + 1 := by
        rw [List.length_singleton] at hplace
        omega
      rw [seriesFrom, seriesFrom, separator_last "or" hlast, String.append_empty,
        String.append_empty, ha.clauses_led hlead]
      rfl
    | cons b rest =>
      simp only [List.length_cons] at hplace
      have hcut : ∃ next, IsLead next ∧ (separator "or" size place).toList = ',' :: next := by
        rw [separator_comma hsize (by omega)]
        split
        · exact ⟨_, .space, rfl⟩
        · exact ⟨_, .word, rfl⟩
      obtain ⟨next, hnext, hcut⟩ := hcut
      have htail := @ih hrest (place + 1) (by rw [List.length_cons]; omega)
        (List.cons_ne_nil b rest) next hnext
      rw [seriesFrom, String.toList_append, String.toList_append, hcut, List.append_assoc,
        List.cons_append, ← List.append_assoc, clauses_comma, ha.clauses_led hlead, htail]
      rfl

/-- The parts of a list of alternatives are the texts that it was written from. -/
theorem clauses_series {texts : List String} (htexts : ∀ t ∈ texts, Clause t.toList) :
    clauses (series "or" texts).toList = texts.map String.toList := by
  match texts with
  | [] => decide
  | [a] =>
    have ha := htexts a List.mem_cons_self
    rw [series_one, ha.clauses]
    rfl
  | [a, b] =>
    have ha := htexts a List.mem_cons_self
    have hb := htexts b (List.mem_cons_of_mem a List.mem_cons_self)
    rw [series_two, String.toList_append, String.toList_append]
    exact ha.clauses_pair hb
  | a :: b :: c :: rest =>
    have h := clauses_seriesFrom htexts (by simp) (Nat.zero_add _) (List.cons_ne_nil a _) .nothing
    rwa [List.nil_append] at h

end Clauses

section Groups

variable {s t : String}

theorem Simple.tight (h : Simple s) : Tight s.toList := by
  rw [← h.trimmed, Text.trimmed, String.toList_ofList]
  exact trim_tight _

theorem Simple.toList_ne_nil (h : Simple s) : s.toList ≠ [] := fun hnil =>
  h.nonempty (String.toList_eq_nil_iff.mp hnil)

theorem Simple.clause (h : Simple s) : Clause s.toList where
  nonempty := h.toList_ne_nil
  tight := h.tight
  uncut := h.uncut
  whole := by
    rw [← fields_eq_splitOn]
    exact fun hword => (h.words _ hword).1 rfl

theorem Simple.parted (h : Simple s) : parted "and".toList s.toList = [s.toList] := by
  apply parted_plain
  rw [← fields_eq_splitOn]
  exact fun hword => (h.words _ hword).2 rfl

/-- Two texts with the word "and" between them are one part of a list of alternatives. -/
theorem Simple.clause_pair (hs : Simple s) (ht : Simple t) :
    Clause (s.toList ++ ' ' :: ("and".toList ++ ' ' :: t.toList)) where
  nonempty := by simp
  tight := hs.tight.join ht.tight hs.toList_ne_nil ht.toList_ne_nil " and ".toList
  uncut := by simpa using ⟨hs.uncut, ht.uncut⟩
  whole := by
    rw [List.splitOn_append_cons_self, splitOn_word (by decide), List.mem_append, List.mem_cons,
      not_or, not_or]
    exact ⟨hs.clause.whole, by decide, ht.clause.whole⟩

/-- The text of a small group stands as one part, and gives back the group. -/
theorem Small.series {group : List String} (h : Small group) :
    Clause (series "and" (group.map Text.trimmed)).toList ∧
      (Text.parted "and".toList (series "and" (group.map Text.trimmed)).toList).map String.ofList =
        group := by
  have htrimmed : group.map Text.trimmed = group :=
    List.map_congr_left (fun s hs => (h.simple s hs).trimmed) |>.trans group.map_id
  rw [htrimmed]
  match group, h with
  | [], h => simpa using h.size
  | [s], h =>
    have hs := h.simple s List.mem_cons_self
    rw [series_one, hs.parted, List.map_singleton, String.ofList_toList]
    exact ⟨hs.clause, rfl⟩
  | [s, t], h =>
    have hs := h.simple s List.mem_cons_self
    have ht := h.simple t (List.mem_cons_of_mem s List.mem_cons_self)
    have htext : (Text.series "and" [s, t]).toList =
        s.toList ++ ' ' :: ("and".toList ++ ' ' :: t.toList) := by
      rw [series_two]
      simp
    rw [htext, parted_between (by decide), hs.parted, ht.parted]
    exact ⟨hs.clause_pair ht, by simp⟩
  | _ :: _ :: _ :: _, h => simpa using h.size

end Groups

/-- What is written of small groups reads back as the groups. -/
theorem readBack_written {groups : List (List String)} (h : ∀ group ∈ groups, Small group) :
    readBack (commaList "or" ["and"] (members groups)) = groups := by
  rw [readBack, commaList_members, clauses_series, List.map_map, List.map_map]
  · refine (List.map_congr_left fun group hgroup => ?_).trans groups.map_id
    exact (h group hgroup).series.2
  · intro text htext
    obtain ⟨group, hgroup, rfl⟩ := List.mem_map.mp htext
    exact (h group hgroup).series.1

/-- Different lists of small groups are never written alike. -/
theorem commaList_apart {g h : List (List String)} (hg : ∀ group ∈ g, Small group)
    (hh : ∀ group ∈ h, Small group)
    (heq : commaList "or" ["and"] (members g) = commaList "or" ["and"] (members h)) : g = h := by
  rw [← readBack_written hg, heq, readBack_written hh]

/-- Groups of one and of two players. -/
def party : List (List String) := [["Tank", "Night Elf"], ["Healer"], ["Orc", "Gnome"]]

theorem commaList_apart_party :
    commaList "or" ["and"] (members party) = "Tank and Night Elf, Healer, or Orc and Gnome" ∧
      (∀ group ∈ party, Small group) ∧
      party = readBack "Tank and Night Elf, Healer, or Orc and Gnome" := by
  have hsmall : ∀ group ∈ party, Small group := by decide +kernel
  have hread : ∀ group ∈ readBack "Tank and Night Elf, Healer, or Orc and Gnome", Small group := by
    decide +kernel
  exact ⟨by decide +kernel, hsmall, commaList_apart hsmall hread (by decide +kernel)⟩

end TradeChat.Text
