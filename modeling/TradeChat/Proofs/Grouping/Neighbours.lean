import TradeChat.Proofs.Grouping.Boundaries

namespace TradeChat.Groups

variable {α β : Type}

/-- The members number `k` and `k + 1`, counted through all groups, stand in one group. -/
def Together (groups : Groups α) (k : Nat) : Prop :=
  ∃ earlier group later, groups = earlier ++ group :: later ∧
    earlier.flatten.length ≤ k ∧ k + 1 < earlier.flatten.length + group.length

theorem Together.cons {groups : Groups α} {k : Nat} (group : List α) (h : groups.Together k) :
    Together (group :: groups) (group.length + k) := by
  obtain ⟨earlier, own, later, rfl, hlo, hhi⟩ := h
  refine ⟨group :: earlier, own, later, rfl, ?_, ?_⟩
  all_goals
    rw [List.flatten_cons, List.length_append]
    omega

/-- Neighbours stand in one group, or one ends a group and the other starts the next. -/
theorem together_or_border {groups : Groups α} (hn : [] ∉ groups) {k : Nat}
    (hk : k + 1 < groups.flatten.length) :
    groups.Together k ∨ ∃ earlier group next later,
      groups = earlier ++ group :: next :: later ∧ k + 1 = (earlier.flatten ++ group).length := by
  induction groups generalizing k with
  | nil => simp at hk
  | cons g rest ih =>
    rw [List.flatten_cons, List.length_append] at hk
    rcases Nat.lt_trichotomy (k + 1) g.length with hlt | heq | hgt
    · exact Or.inl ⟨[], g, rest, rfl, by simp, by simpa using hlt⟩
    · cases rest with
      | nil => simp [heq] at hk
      | cons next later => exact Or.inr ⟨[], g, next, later, rfl, by simpa using heq⟩
    · have hn' : [] ∉ rest := fun hm => hn (List.mem_cons_of_mem _ hm)
      have hk' : k = g.length + (k - g.length) := by omega
      rcases ih hn' (k := k - g.length) (by omega) with ht | ⟨earlier, own, next, later, rfl, he⟩
      · exact Or.inl (hk' ▸ ht.cons g)
      · refine Or.inr ⟨g :: earlier, own, next, later, rfl, ?_⟩
        rw [List.flatten_cons, List.append_assoc, List.length_append, ← he]
        omega

/-- In runs that are cut by a relation, neighbours stand together exactly if they are related. -/
theorem together_splitBy {r : α → α → Bool} {l : List α} {k : Nat} {a b : α}
    (ha : l[k]? = some a) (hb : l[k + 1]? = some b) :
    Together (l.splitBy r) k ↔ r a b = true := by
  have hflat := List.flatten_splitBy r l
  have hlen : k + 1 < (l.splitBy r).flatten.length := by
    rw [hflat]
    exact (List.getElem?_eq_some_iff.mp hb).1
  have hin : Together (l.splitBy r) k → r a b = true := by
    rintro ⟨earlier, group, later, he, hlo, hhi⟩
    have hchain := List.isChain_of_mem_splitBy (m := group) (r := r) (l := l) (by simp [he])
    have hat : ∀ i, earlier.flatten.length ≤ i → i < earlier.flatten.length + group.length →
        l[i]? = group[i - earlier.flatten.length]? := by
      intro i hlo hhi
      rw [← hflat, he, List.flatten_append, List.flatten_cons, List.getElem?_append_right hlo,
        List.getElem?_append_left (by omega)]
    rw [hat k hlo (by omega)] at ha
    rw [hat (k + 1) (by omega) hhi, Nat.sub_add_comm hlo] at hb
    obtain ⟨hka, rfl⟩ := List.getElem?_eq_some_iff.mp ha
    obtain ⟨hkb, rfl⟩ := List.getElem?_eq_some_iff.mp hb
    exact List.isChain_iff_getElem.mp hchain _ hkb
  refine ⟨hin, fun hr => ?_⟩
  rcases together_or_border (List.nil_notMem_splitBy r l) hlen with ht | hborder
  · exact ht
  · obtain ⟨earlier, group, next, later, he, hk⟩ := hborder
    have hchain := List.isChain_getLast_head_splitBy r l
    rw [he, List.isChain_append] at hchain
    obtain ⟨hg, hh, hrel⟩ := (List.isChain_cons_cons.mp hchain.2.1).1
    rw [List.length_append] at hk
    have hpos := List.length_pos_iff.mpr hg
    have hlast : l[k]? = some (group.getLast hg) := by
      rw [← hflat, he, List.flatten_append, List.flatten_cons,
        List.getElem?_append_right (by omega), List.getElem?_append_left (by omega),
        ← List.getLast?_eq_some_getLast hg, List.getLast?_eq_getElem?]
      congr 1
      omega
    have hhead : l[k + 1]? = some (next.head hh) := by
      rw [← hflat, he, List.flatten_append, List.flatten_cons, List.flatten_cons,
        List.getElem?_append_right (by omega), List.getElem?_append_right (by omega),
        List.getElem?_append_left, ← List.head?_eq_some_head hh, List.head?_eq_getElem?]
      · congr 1
        omega
      · have := List.length_pos_iff.mpr hh
        omega
    rw [ha, Option.some.injEq] at hlast
    rw [hb, Option.some.injEq] at hhead
    rw [← hlast, ← hhead, hr] at hrel
    cases hrel

theorem together_map {f : List α → List β} {groups : Groups α}
    (hf : ∀ group ∈ groups, (f group).length = group.length) (k : Nat) :
    Together (groups.map f) k ↔ groups.Together k := by
  have hlen : ∀ part : Groups α, (∀ group ∈ part, group ∈ groups) →
      (part.map f).flatten.length = part.flatten.length := by
    intro part hp
    rw [List.length_flatten, List.length_flatten, List.map_map]
    exact congrArg List.sum (List.map_congr_left fun g hg => hf g (hp g hg))
  constructor
  · rintro ⟨earlier, group, later, he, hlo, hhi⟩
    obtain ⟨earlier', rest, rfl, rfl, hrest⟩ := List.map_eq_append_iff.mp he
    obtain ⟨group', later', rfl, rfl, rfl⟩ := List.map_eq_cons_iff.mp hrest
    have h := hlen earlier' (fun g hg => List.mem_append_left _ hg)
    have hg := hf group' (by simp)
    exact ⟨earlier', group', later', rfl, by omega, by omega⟩
  · rintro ⟨earlier, group, later, rfl, hlo, hhi⟩
    have h := hlen earlier (fun g hg => List.mem_append_left _ hg)
    have hg := hf group (by simp)
    exact ⟨earlier.map f, f group, later.map f, by simp, by omega, by omega⟩

theorem placed_getElem {marks : List (Mark α)} {n i : Nat} {a : α} (hi : i < n)
    (ha : memberAt marks i = some a) : (placed marks n)[(placed marks i).length]? = some i := by
  induction n with
  | zero => omega
  | succ n ih =>
    rw [placed_succ]
    rcases Nat.lt_or_eq_of_le (Nat.le_of_lt_succ hi) with hlt | rfl
    · have h := ih hlt
      rw [List.getElem?_append_left (List.getElem?_eq_some_iff.mp h).1, h]
    · rw [List.getElem?_append_right (Nat.le_refl _), ha]
      simp

/-- Without a member in between, the next member has the next number. -/
theorem length_placed_next {marks : List (Mark α)} {i j : Nat} {a : α} (hij : i < j)
    (ha : memberAt marks i = some a) (hgap : ∀ k, i < k → k < j → memberAt marks k = none) :
    (placed marks j).length = (placed marks i).length + 1 := by
  induction j with
  | zero => omega
  | succ j ih =>
    rw [placed_succ, List.length_append]
    rcases Nat.lt_or_eq_of_le (Nat.le_of_lt_succ hij) with hlt | rfl
    · rw [ih hlt fun k hk hkj => hgap k hk (by omega), hgap j hlt (by omega)]
      simp
    · simp [ha]

theorem length_placed (marks : List (Mark α)) (n : Nat) :
    (placed marks n).length = ((marks.take n).filterMap Mark.member).length := by
  rw [← filterMap_placed]
  exact (List.filterMap_length_eq_length.mpr fun i hi => (List.mem_filter.mp hi).2).symm

theorem joined_iff {marks : List (Mark α)} {base : Nat → Nat} {i j : Nat} :
    joined marks base i j = true ↔
      ∀ k m, i < k → k ≤ j → base j ≤ k → marks[k]? = some m → m.logic ≠ some .or := by
  rw [joined, List.all_eq_true]
  constructor
  · intro h k m hik hkj hb hm hor
    have hmem : m ∈ (marks.take (j + 1)).drop (max (i + 1) (base j)) := by
      apply List.mem_of_getElem? (i := k - max (i + 1) (base j))
      rw [List.getElem?_drop, List.getElem?_take]
      have hk : max (i + 1) (base j) + (k - max (i + 1) (base j)) = k := by omega
      rw [hk, if_pos (by omega), hm]
    simpa [Mark.isOr, hor] using h m hmem
  · intro h m hm
    obtain ⟨k, hk⟩ := List.mem_iff_getElem?.mp hm
    rw [List.getElem?_drop, List.getElem?_take] at hk
    split at hk
    · have := h _ m (by omega) (by omega) (by omega) hk
      simpa [Mark.isOr] using this
    · cases hk

/-- Groups as two readings in turn make them. All members are there in the order read, no group is
empty, and neighbours stand together unless an "or" was read after the one up to and with the
other; for a member of the second reading only that reading counts. -/
structure PartedAtOr (first second : List (Mark α)) (groups : Groups α) : Prop where
  members : groups.flatten = (first ++ second).filterMap Mark.member
  filled : [] ∉ groups
  parted : ∀ i j a b, i < j → memberAt (first ++ second) i = some a →
    memberAt (first ++ second) j = some b →
    (∀ k, i < k → k < j → memberAt (first ++ second) k = none) →
    (groups.Together (((first ++ second).take i).filterMap Mark.member).length ↔
      ∀ k m, i < k → k ≤ j → (first.length ≤ j → first.length ≤ k) →
        (first ++ second)[k]? = some m → m.logic ≠ some .or)

theorem ofMarks_parted (first second : List (Mark α)) :
    PartedAtOr first second (ofMarks first second) := by
  let marks := first ++ second
  let base : Nat → Nat := fun j => if j < first.length then 0 else first.length
  have hruns : ∀ run ∈ (placed marks marks.length).splitBy (joined marks base),
      (run.filterMap (memberAt marks)).length = run.length := by
    intro run hrun
    apply List.filterMap_length_eq_length.mpr
    intro i hi
    have hi' : i ∈ placed marks marks.length := by
      rw [← List.flatten_splitBy (joined marks base) (placed marks marks.length)]
      exact List.mem_flatten.mpr ⟨run, hrun, hi⟩
    exact (List.mem_filter.mp hi').2
  refine ⟨flatten_ofMarks first second, ?_, ?_⟩
  · intro hnil
    obtain ⟨run, hrun, he⟩ := List.mem_map.mp hnil
    have hlen := hruns run hrun
    rw [he, List.length_nil] at hlen
    exact List.ne_nil_of_mem_splitBy hrun (List.length_eq_zero_iff.mp hlen.symm)
  · intro i j a b hij ha hb hgap
    have hlt : j < marks.length := by
      obtain ⟨m, hm, -⟩ := Option.bind_eq_some_iff.mp hb
      exact (List.getElem?_eq_some_iff.mp hm).1
    have hi := placed_getElem (n := marks.length) (by omega) ha
    have hj := placed_getElem hlt hb
    rw [length_placed_next hij ha hgap] at hj
    change Together (((placed marks marks.length).splitBy (joined marks base)).map _) _ ↔ _
    rw [together_map hruns, ← length_placed, together_splitBy hi hj, joined_iff]
    have hbase : ∀ k, base j ≤ k ↔ (first.length ≤ j → first.length ≤ k) := by
      intro k
      by_cases h : j < first.length
      · simp only [base, h, ↓reduceIte]
        omega
      · simp only [base, h, ↓reduceIte]
        omega
    simp only [hbase]
    rfl

example : ofMarks [⟨none, some 'a'⟩, ⟨some .or, none⟩, ⟨some .and, some 'b'⟩, ⟨some .or, none⟩]
    [⟨some .and, some 'c'⟩, ⟨some .or, some 'd'⟩] = [['a'], ['b', 'c'], ['d']] := by decide

end TradeChat.Groups
