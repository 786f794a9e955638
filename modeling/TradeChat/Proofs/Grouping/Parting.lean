import TradeChat.Proofs.Grouping.Neighbours
import TradeChat.Proofs.Grouping.Selected

namespace TradeChat.Groups

variable {α β : Type}

section Together

variable {groups others : Groups α} {k : Nat}

theorem Together.lt (h : groups.Together k) : k + 1 < groups.flatten.length := by
  obtain ⟨earlier, group, later, rfl, -, hhi⟩ := h
  simp only [List.flatten_append, List.flatten_cons, List.length_append]
  omega

@[simp] theorem not_together_nil : ¬Together ([] : Groups α) k := fun h => absurd h.lt (by simp)

theorem together_cons (group : List α) (rest : Groups α) (k : Nat) :
    Together (group :: rest) k ↔
      k + 1 < group.length ∨ ∃ j, k = group.length + j ∧ rest.Together j := by
  constructor
  · rintro ⟨earlier, own, later, he, hlo, hhi⟩
    cases earlier with
    | nil =>
      obtain ⟨rfl, -⟩ := List.cons.inj he
      exact Or.inl (by simpa using hhi)
    | cons first earlier =>
      obtain ⟨rfl, rfl⟩ := List.cons.inj he
      simp only [List.flatten_cons, List.length_append] at hlo hhi
      exact Or.inr ⟨k - group.length, by omega, earlier, own, later, rfl, by omega, by omega⟩
  · rintro (hin | ⟨j, rfl, hj⟩)
    · exact ⟨[], group, rest, rfl, by simp, by simpa using hin⟩
    · exact hj.cons group

theorem together_snoc (groups : Groups α) (last : List α) (k : Nat) :
    Together (groups ++ [last]) k ↔ groups.Together k ∨
      groups.flatten.length ≤ k ∧ k + 1 < groups.flatten.length + last.length := by
  induction groups generalizing k with
  | nil => simp [together_cons]
  | cons group rest ih =>
    simp only [List.cons_append, together_cons, ih, List.flatten_cons, List.length_append]
    constructor
    · rintro (hin | ⟨j, rfl, hj | ⟨hlo, hhi⟩⟩)
      · exact Or.inl (Or.inl hin)
      · exact Or.inl (Or.inr ⟨j, rfl, hj⟩)
      · exact Or.inr ⟨by omega, by omega⟩
    · rintro ((hin | ⟨j, rfl, hj⟩) | ⟨hlo, hhi⟩)
      · exact Or.inl hin
      · exact Or.inr ⟨j, rfl, Or.inl hj⟩
      · exact Or.inr ⟨k - group.length, by omega, Or.inr ⟨by omega, by omega⟩⟩

/-- A member that joins the last group stands together with the one before it. -/
theorem together_extend (hfilled : [] ∉ groups) (opens : Bool) (a : α) (k : Nat) :
    (groups.extend opens a).Together k ↔
      groups.Together k ∨ opens = false ∧ k + 1 = groups.flatten.length := by
  rcases List.eq_nil_or_concat groups with rfl | ⟨before, last, rfl⟩
  · simp [extend_nil, together_cons]
  · rw [List.concat_eq_append] at hfilled ⊢
    have hlast : 0 < last.length := by
      apply List.length_pos_iff.mpr
      rintro rfl
      simp at hfilled
    cases opens with
    | true =>
      rw [extend_open, together_snoc, List.length_singleton]
      simp
    | false =>
      rw [extend_append, together_snoc, together_snoc, or_assoc]
      apply or_congr_right
      simp only [List.flatten_append, List.flatten_singleton, List.length_append,
        List.length_singleton, true_and]
      omega

/-- Groups are told by their members in order, and by which neighbours stand together. -/
theorem eq_of_together (hfilled : [] ∉ groups) (hfilled' : [] ∉ others)
    (hmembers : groups.flatten = others.flatten)
    (h : ∀ k, groups.Together k ↔ others.Together k) : groups = others := by
  induction groups generalizing others with
  | nil =>
    cases others with
    | nil => rfl
    | cons own rest => simp_all
  | cons group rest ih =>
    cases others with
    | nil => simp_all
    | cons own rest' =>
      simp only [List.mem_cons, not_or] at hfilled hfilled'
      simp only [List.flatten_cons, together_cons] at hmembers h
      have hgroup : 0 < group.length := List.length_pos_iff.mpr (Ne.symm hfilled.1)
      have hown : 0 < own.length := List.length_pos_iff.mpr (Ne.symm hfilled'.1)
      -- A group that went on where the other ends would hold neighbours that the other parts.
      have hle : own.length ≤ group.length := by
        by_contra hlt
        rcases (h (group.length - 1)).mpr (Or.inl (by omega)) with hin | ⟨j, hj, -⟩ <;> omega
      have hge : group.length ≤ own.length := by
        by_contra hlt
        rcases (h (own.length - 1)).mp (Or.inl (by omega)) with hin | ⟨j, hj, -⟩ <;> omega
      obtain ⟨rfl, hrest⟩ := List.append_inj hmembers (Nat.le_antisymm hge hle)
      rw [ih hfilled.2 hfilled'.2 hrest fun k => ?_]
      have hout : ¬group.length + k + 1 < group.length := by omega
      simpa [hout] using h (group.length + k)

end Together

theorem filled_only (keep : α → Bool) (groups : Groups α) : [] ∉ only keep groups := by
  simp [only]

theorem flatten_only (keep : α → Bool) (groups : Groups α) :
    (only keep groups).flatten = groups.flatten.filter keep := by
  induction groups with
  | nil => rfl
  | cons group rest ih =>
    rw [← List.singleton_append, only_append, only_single, List.flatten_append, ih,
      List.flatten_append, List.filter_append]
    cases hgroup : group.filter keep <;> simp [hgroup]

/-- Groups that part the members of others further: at some places, and nowhere else. -/
structure Parts (cut : Nat → Prop) (coarse fine : Groups α) : Prop where
  members : fine.flatten = coarse.flatten
  coarseFilled : [] ∉ coarse
  fineFilled : [] ∉ fine
  inside : ∀ k, cut k → k < coarse.flatten.length
  together : ∀ k, fine.Together k ↔ coarse.Together k ∧ ¬cut k

section Parts

variable {cut : Nat → Prop} {coarse fine : Groups α} {waiting pending : Bool}

theorem filled_extend (hfilled : [] ∉ coarse) (opens : Bool) (a : α) :
    [] ∉ coarse.extend opens a := by
  rcases List.eq_nil_or_concat coarse with rfl | ⟨before, last, rfl⟩
  · simp [extend_nil]
  · cases opens <;> simp_all [extend_open, extend_append]

theorem Parts.extend (h : Parts cut coarse fine)
    (hopens : ∀ k, k + 1 = coarse.flatten.length → (pending = true ↔ waiting = true ∨ cut k))
    (a : α) : Parts cut (coarse.extend waiting a) (fine.extend pending a) := by
  refine ⟨?_, filled_extend h.coarseFilled _ a, filled_extend h.fineFilled _ a, ?_, ?_⟩
  · simp [flatten_extend, h.members]
  · intro k hk
    have := h.inside k hk
    simp only [flatten_extend, List.length_append, List.length_singleton]
    omega
  · intro k
    rw [together_extend h.coarseFilled, together_extend h.fineFilled, h.together, h.members]
    by_cases hk : k + 1 = coarse.flatten.length
    · have hend : ¬coarse.Together k := fun ht => by have := ht.lt; omega
      cases pending <;> cases waiting <;> simp_all
    · simp only [hk, and_false, or_false]

/-- One more place, right behind the members that are there. -/
theorem Parts.cut_end (h : Parts cut coarse fine) :
    Parts (fun k => cut k ∨ k + 1 = coarse.flatten.length) coarse fine := by
  refine ⟨h.members, h.coarseFilled, h.fineFilled, ?_, ?_⟩
  · rintro k (hk | hk)
    · exact h.inside k hk
    · omega
  · intro k
    rw [h.together]
    have hend : coarse.Together k → k + 1 ≠ coarse.flatten.length := fun ht => by
      have := ht.lt
      omega
    simp only [not_or]
    tauto

/-- The groups are the same if no place parts neighbours. -/
theorem Parts.eq_iff (h : Parts cut coarse fine) :
    coarse = fine ↔ ∀ k, cut k → ¬coarse.Together k := by
  constructor
  · rintro rfl k hk ht
    exact ((h.together k).mp ht).2 hk
  · intro hnone
    apply eq_of_together h.coarseFilled h.fineFilled h.members.symm
    intro k
    have hcut := hnone k
    rw [h.together]
    tauto

end Parts

section LeftOut

variable {mark : β → Mark α} {read : β → Bool}

/-- An "or" is left out when `k + 1` members have been placed, `count` of them before the readings
start. -/
def OrLeftOut (mark : β → Mark α) (read : β → Bool) (xs : List β) (count k : Nat) : Prop :=
  ∃ i x, xs[i]? = some x ∧ read x = false ∧ (mark x).isOr = true ∧
    k + 1 = count + ((xs.take i).filterMap fun x => (mark x).member).length

theorem orLeftOut_cons (x : β) (rest : List β) (count k : Nat) :
    OrLeftOut mark read (x :: rest) count k ↔
      (read x = false ∧ (mark x).isOr = true ∧ k + 1 = count) ∨
        OrLeftOut mark read rest (count + (mark x).member.toList.length) k := by
  have hplaced (i : Nat) : count + (((x :: rest).take (i + 1)).filterMap
      fun x => (mark x).member).length = count + (mark x).member.toList.length +
        ((rest.take i).filterMap fun x => (mark x).member).length := by
    cases hmember : (mark x).member with
    | none => simp [hmember]
    | some a =>
      simp [hmember]
      omega
  constructor
  · rintro ⟨i, y, hy, hread, hor, hk⟩
    cases i with
    | zero =>
      cases hy
      exact Or.inl ⟨hread, hor, hk⟩
    | succ i => exact Or.inr ⟨i, y, hy, hread, hor, hk.trans (hplaced i)⟩
  · rintro (⟨hread, hor, hk⟩ | ⟨i, y, hy, hread, hor, hk⟩)
    · exact ⟨0, x, rfl, hread, hor, hk⟩
    · exact ⟨i + 1, y, hy, hread, hor, hk.trans (hplaced i).symm⟩

/-- Readings that bring no member part, by each "or" of theirs, what is placed without them. -/
theorem Parts.fill {xs : List β} (hskip : ∀ x ∈ xs, read x = false → (mark x).member = none)
    {cut : Nat → Prop} {coarse fine : Groups α} {waiting pending : Bool}
    (h : Parts cut coarse fine)
    (hpending : ∀ k, k + 1 = coarse.flatten.length → (pending = true ↔ waiting = true ∨ cut k)) :
    Parts (fun k => cut k ∨ OrLeftOut mark read xs coarse.flatten.length k)
      (coarse.fill waiting ((xs.filter read).map mark)) (fine.fill pending (xs.map mark)) := by
  -- The invariant is `hpending`: the two fillings differ only in an "or" that was left out since
  -- the last member, and then there is a cut behind that member.
  induction xs generalizing cut coarse fine waiting pending with
  | nil => simpa [OrLeftOut, Groups.fill] using h
  | cons x rest ih =>
    obtain ⟨hown, hrest⟩ := List.forall_mem_cons.mp hskip
    cases hread : read x with
    | false =>
      have hnone := hown hread
      rw [List.filter_cons_of_neg (by simp [hread]), List.map_cons, Groups.fill, hnone]
      simp only [orLeftOut_cons, hread, hnone, true_and, Option.toList_none, List.length_nil,
        Nat.add_zero]
      cases hor : (mark x).isOr with
      | false => simpa [hor] using ih hrest h hpending
      | true =>
        have hends : ∀ k, k + 1 = coarse.flatten.length →
            (true = true ↔ waiting = true ∨ cut k ∨ k + 1 = coarse.flatten.length) := by
          intro k hk
          simp [hk]
        simpa [hor, or_assoc] using ih hrest h.cut_end hends
    | true =>
      rw [List.filter_cons_of_pos hread, List.map_cons, List.map_cons, Groups.fill, Groups.fill]
      have hboth : ∀ k, k + 1 = coarse.flatten.length →
          ((pending || (mark x).isOr) = true ↔ (waiting || (mark x).isOr) = true ∨ cut k) := by
        intro k hk
        simp [hpending k hk, or_right_comm]
      simp only [orLeftOut_cons, hread, Bool.true_eq_false, false_and, false_or]
      cases hmember : (mark x).member with
      | none => simpa using ih hrest h hboth
      | some a =>
        have hends : ∀ k, k + 1 = (coarse.extend (waiting || (mark x).isOr) a).flatten.length →
            (false = true ↔ false = true ∨ cut k) := by
          intro k hk
          have hcut : ¬cut k := by
            intro hcut
            have hbefore := h.inside k hcut
            simp only [flatten_extend, List.length_append, List.length_singleton] at hk
            omega
          simp [hcut]
        simpa [flatten_extend] using ih hrest (h.extend hboth a) hends

end LeftOut

end TradeChat.Groups
