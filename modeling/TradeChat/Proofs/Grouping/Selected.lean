import TradeChat.Proofs.Grouping.Boundaries

namespace TradeChat

variable {α : Type}

/-- A reading whose member is turned away unless it is of interest; its connective counts all the
same. -/
def Mark.only (keep : α → Bool) (m : Mark α) : Mark α := ⟨m.logic, m.member.filter keep⟩

namespace Groups

/-- The members of interest in their groups, without the groups that have none of them. -/
def only (keep : α → Bool) (groups : Groups α) : Groups α :=
  (groups.map (List.filter keep)).filter (!·.isEmpty)

/-- The next member of interest does not join another one: an "or" waits for it, or there is none
in the last group. -/
def standsAlone (keep : α → Bool) (groups : Groups α) (pending : Bool) : Bool :=
  pending || groups.getLast?.all fun last => (last.filter keep).isEmpty

theorem only_append (keep : α → Bool) (groups more : Groups α) :
    only keep (groups ++ more) = only keep groups ++ only keep more := by
  simp [only]

theorem only_single (keep : α → Bool) (group : List α) :
    only keep [group] = if (group.filter keep).isEmpty then [] else [group.filter keep] := by
  by_cases h : (group.filter keep).isEmpty <;> simp [only, h]

theorem standsAlone_append (keep : α → Bool) (groups : Groups α) (last : List α) :
    standsAlone keep (groups ++ [last]) false = (last.filter keep).isEmpty := by
  simp [standsAlone]

theorem standsAlone_or (keep : α → Bool) (groups : Groups α) (pending more : Bool) :
    standsAlone keep groups (pending || more) = (standsAlone keep groups pending || more) := by
  simp only [standsAlone, Bool.or_assoc, Bool.or_comm more]

section Extend

variable {keep : α → Bool} {a : α} (groups : Groups α) (pending : Bool)

/-- A member of interest is placed as if there were no others. -/
theorem only_extend (ha : keep a = true) :
    only keep (groups.extend pending a) =
        (only keep groups).extend (standsAlone keep groups pending) a ∧
      standsAlone keep (groups.extend pending a) false = false := by
  rcases List.eq_nil_or_concat groups with rfl | ⟨before, last, rfl⟩
  · simp [extend_nil, only, standsAlone, ha]
  · simp only [List.concat_eq_append]
    cases pending with
    | true =>
      rw [extend_open, only_append, only_single, standsAlone_append]
      simp [standsAlone, extend_open, ha]
    | false =>
      rw [extend_append, standsAlone_append, standsAlone_append, only_append, only_append,
        only_single, only_single]
      cases hlast : last.filter keep with
      | nil => simp [hlast, extend_open, ha]
      | cons b kept => simp [hlast, extend_append, ha]

/-- A member that is not of interest leaves no trace. -/
theorem only_extend_other (ha : keep a = false) :
    only keep (groups.extend pending a) = only keep groups ∧
      standsAlone keep (groups.extend pending a) false = standsAlone keep groups pending := by
  rcases List.eq_nil_or_concat groups with rfl | ⟨before, last, rfl⟩
  · simp [extend_nil, only, standsAlone, ha]
  · simp only [List.concat_eq_append]
    cases pending with
    | true =>
      rw [extend_open, only_append, only_single, standsAlone_append]
      simp [standsAlone, ha]
    | false =>
      rw [extend_append, standsAlone_append, standsAlone_append, only_append, only_append,
        only_single, only_single]
      simp [ha]

end Extend

/-- Where nothing has been placed yet, an "or" has nothing to part. -/
theorem fill_nil (pending : Bool) (marks : List (Mark α)) :
    fill [] pending marks = fill [] false marks := by
  induction marks generalizing pending with
  | nil => rfl
  | cons m rest ih =>
    rw [fill, fill]
    cases m.member with
    | none => exact (ih _).trans (ih _).symm
    | some a => simp only [extend_nil]

/-- To leave the others out of the groups, or to turn them away as they are read, is the same. -/
theorem only_fill (keep : α → Bool) (groups : Groups α) (pending : Bool) (marks : List (Mark α)) :
    only keep (groups.fill pending marks) =
      (only keep groups).fill (standsAlone keep groups pending) (marks.map (Mark.only keep)) := by
  -- The two cursors need not agree on what is pending: an "or" waits in the second reading also
  -- where the last group of the first holds nothing of interest.
  induction marks generalizing groups pending with
  | nil => rfl
  | cons m rest ih =>
    rw [List.map_cons, fill, fill]
    cases hm : m.member with
    | none =>
      have hnone : (m.only keep).member = none := by simp [Mark.only, hm]
      rw [hnone, ih, standsAlone_or]
      rfl
    | some a =>
      have hor : (standsAlone keep groups pending || (m.only keep).isOr) =
          standsAlone keep groups (pending || m.isOr) := (standsAlone_or keep groups _ _).symm
      simp only [ih, hor]
      cases ha : keep a with
      | true =>
        have hsome : (m.only keep).member = some a := by simp [Mark.only, hm, ha]
        obtain ⟨honly, hnext⟩ := only_extend groups (pending || m.isOr) ha
        rw [hsome, honly, hnext]
      | false =>
        have hnone : (m.only keep).member = none := by simp [Mark.only, hm, ha]
        obtain ⟨honly, hnext⟩ := only_extend_other groups (pending || m.isOr) ha
        rw [hnone, honly, hnext]

/-- Where all members are of interest and no group is empty, nothing is left out. -/
theorem only_all {keep : α → Bool} {groups : Groups α} (hfilled : [] ∉ groups)
    (hkeep : ∀ group ∈ groups, ∀ a ∈ group, keep a = true) : only keep groups = groups := by
  have hmap : groups.map (List.filter keep) = groups := by
    conv => rhs; rw [← List.map_id groups]
    refine List.map_congr_left fun group hgroup => ?_
    exact List.filter_eq_self.mpr (hkeep group hgroup)
  rw [only, hmap, List.filter_eq_self]
  intro group hgroup
  cases group with
  | nil => exact absurd hgroup hfilled
  | cons a group => rfl

theorem flatten_extend (groups : Groups α) (opens : Bool) (a : α) :
    (groups.extend opens a).flatten = groups.flatten ++ [a] := by
  rcases List.eq_nil_or_concat groups with rfl | ⟨before, last, rfl⟩
  · simp [extend_nil]
  · cases opens with
    | true => simp [extend_open]
    | false => simp [extend_append]

end Groups

end TradeChat
