import TradeChat.Proofs.Grouping.Members

namespace TradeChat

variable {α : Type}

/-- One thing that happens to groups that several cursors fill: the cursor at work is a new one on
the first group, a new one on the last group, or another one wherever it stands, or it takes a
step. -/
inductive Move (α : Type) where
  | start
  | resume
  | take (c : Cursor)
  | step (s : Step α)

/-- The members that are placed by some moves. -/
def Move.placed? : Move α → Option α
  | .step (.place a) => some a
  | _ => none

namespace Groups

/-- A group that is not there has no members. -/
def membersAt (groups : Groups α) (i : Nat) : List α := groups[i]?.getD []

/-- Groups with one more member at the end of one of them, or in a new one behind the last. -/
def put (groups : Groups α) (i : Nat) (a : α) : Groups α :=
  groups.take i ++ (groups.membersAt i ++ [a]) :: groups.drop (i + 1)

section Put

variable {groups : Groups α} {i : Nat}

theorem put_inside (hi : i < groups.length) (a : α) :
    groups.put i a = groups.modify i (· ++ [a]) := by
  rw [put, membersAt, List.getElem?_eq_getElem hi, List.modify_eq_take_cons_drop hi]
  rfl

theorem put_behind (groups : Groups α) (a : α) : groups.put groups.length a = groups ++ [[a]] := by
  simp [put, membersAt]

theorem getElem_put_self (hi : i ≤ groups.length) (a : α) :
    (groups.put i a)[i]? = some (groups.membersAt i ++ [a]) := by
  have hlength : (groups.take i).length = i := List.length_take_of_le hi
  rw [put, List.getElem?_append_right (by omega), hlength, Nat.sub_self, List.getElem?_cons_zero]

theorem getElem_put_other (hi : i ≤ groups.length) (a : α) {j : Nat} (hj : j ≠ i) :
    (groups.put i a)[j]? = groups[j]? := by
  have hlength : (groups.take i).length = i := List.length_take_of_le hi
  rw [put]
  rcases Nat.lt_or_gt_of_ne hj with hj | hj
  · rw [List.getElem?_append_left (by omega), List.getElem?_take_of_lt hj]
  · obtain ⟨k, rfl⟩ := Nat.exists_eq_add_of_lt hj
    rw [List.getElem?_append_right (by omega), hlength, Nat.add_assoc, Nat.add_sub_cancel_left,
      List.getElem?_cons_succ, List.getElem?_drop]
    congr 1
    omega

theorem length_put (hi : i ≤ groups.length) (a : α) :
    (groups.put i a).length = max groups.length (i + 1) := by
  simp only [put, List.length_append, List.length_cons, List.length_take, List.length_drop]
  omega

/-- No group becomes empty. -/
theorem countP_put (groups : Groups α) (i : Nat) (a : α) :
    (groups.put i a).countP List.isEmpty ≤ groups.countP List.isEmpty := by
  have hfilled : (groups.membersAt i ++ [a]).isEmpty = false := by simp
  have hrest : (groups.put i a).countP List.isEmpty =
      (groups.eraseIdx i).countP List.isEmpty := by
    rw [put, List.eraseIdx_eq_take_drop_succ, List.countP_append, List.countP_append,
      List.countP_cons_of_neg (by simp)]
  rw [hrest]
  exact (List.eraseIdx_sublist groups i).countP_le

end Put

end Groups

/-- A member is placed: it is the last of the group that the cursor is on afterwards, the other
groups are as they were, and at most one group is new, a last one that the member has alone. -/
structure Placed (a : α) (before after : Grouping α) : Prop where
  lands : after.groups[after.cursor.index]? =
    some (before.groups.membersAt after.cursor.index ++ [a])
  elsewhere : ∀ i, i ≠ after.cursor.index → after.groups[i]? = before.groups[i]?
  grows : after.groups.length = before.groups.length ∨ after.groups = before.groups ++ [[a]]

namespace Grouping

/-- What a member changes: the cursor comes back to the end of the groups if it stands behind. -/
theorem step_put (g : Grouping α) (a : α) :
    let i := min g.cursor.index g.groups.length
    g.step (.place a) = ⟨⟨i⟩, g.groups.put i a⟩ := by
  simp only [step, Cursor.insert]
  by_cases h : g.cursor.index < g.groups.length
  · simp [h, Nat.min_eq_left (Nat.le_of_lt h), Groups.put_inside h]
  · simp [h, Nat.min_eq_right (Nat.le_of_not_lt h), Groups.put_behind]

theorem step_placed (g : Grouping α) (a : α) : Placed a g (g.step (.place a)) := by
  have hi : min g.cursor.index g.groups.length ≤ g.groups.length := Nat.min_le_right _ _
  rw [step_put]
  refine ⟨Groups.getElem_put_self hi a, fun j hj => Groups.getElem_put_other hi a hj, ?_⟩
  rcases Nat.lt_or_eq_of_le hi with hinside | hbehind
  · refine Or.inl ?_
    rw [Groups.length_put hi]
    omega
  · refine Or.inr ?_
    simp only [hbehind, Groups.put_behind]

def move (g : Grouping α) : Move α → Grouping α
  | .start => { g with cursor := {} }
  | .resume => { g with cursor := .atLast g.groups }
  | .take c => { g with cursor := c }
  | .step s => g.step s

def moves (g : Grouping α) (ms : List (Move α)) : Grouping α := ms.foldl move g

/-- The members that are placed, in order, each with the number of its group. -/
def landings (g : Grouping α) : List (Move α) → List (Nat × α)
  | [] => []
  | m :: rest =>
    let next := g.move m
    (m.placed?.map (next.cursor.index, ·)).toList ++ landings next rest

section Runs

theorem moves_append (g : Grouping α) (ms more : List (Move α)) :
    g.moves (ms ++ more) = (g.moves ms).moves more := List.foldl_append

theorem move_extended (g : Grouping α) (m : Move α) : g.groups.Extended (g.move m).groups := by
  cases m with
  | start => exact .refl _
  | resume => exact .refl _
  | take c => exact .refl _
  | step s => exact g.step_extended s

theorem moves_extended (g : Grouping α) (ms : List (Move α)) :
    g.groups.Extended (g.moves ms).groups := by
  induction ms generalizing g with
  | nil => exact .refl _
  | cons m rest ih => exact (g.move_extended m).trans (ih (g.move m))

/-- A move that places no member leaves all groups alone. -/
theorem move_unplaced (g : Grouping α) {m : Move α} (hm : m.placed? = none) :
    (g.move m).groups = g.groups := by
  cases m with
  | start => rfl
  | resume => rfl
  | take c => rfl
  | step s =>
    cases s with
    | join logic => rfl
    | place a => cases hm

theorem move_placed {m : Move α} {a : α} (hm : m.placed? = some a) : m = .step (.place a) := by
  cases m with
  | start => cases hm
  | resume => cases hm
  | take c => cases hm
  | step s =>
    cases s with
    | join logic => cases hm
    | place b => cases hm; rfl

theorem move_empties (g : Grouping α) (m : Move α) :
    (g.move m).groups.countP List.isEmpty ≤ g.groups.countP List.isEmpty := by
  cases hm : m.placed? with
  | none => exact Nat.le_of_eq (by rw [g.move_unplaced hm])
  | some a =>
    rw [move_placed hm, move, step_put]
    exact Groups.countP_put _ _ a

theorem moves_empties (g : Grouping α) (ms : List (Move α)) :
    (g.moves ms).groups.countP List.isEmpty ≤ g.groups.countP List.isEmpty := by
  induction ms generalizing g with
  | nil => exact Nat.le_refl _
  | cons m rest ih => exact Nat.le_trans (ih (g.move m)) (g.move_empties m)

theorem moves_length (g : Grouping α) (ms : List (Move α)) :
    (g.moves ms).groups.length ≤ g.groups.length + (ms.filterMap Move.placed?).length := by
  induction ms generalizing g with
  | nil => exact Nat.le_refl _
  | cons m rest ih =>
    have hrest := ih (g.move m)
    cases hm : m.placed? with
    | none =>
      rw [List.filterMap_cons_none hm]
      rwa [g.move_unplaced hm] at hrest
    | some a =>
      have hgrows : (g.move m).groups.length ≤ g.groups.length + 1 := by
        rw [move_placed hm, move, step_put]
        simp only
        rw [Groups.length_put (Nat.min_le_right _ _)]
        omega
      rw [List.filterMap_cons_some hm, List.length_cons]
      change ((g.move m).moves rest).groups.length ≤ _
      omega

theorem landings_members (g : Grouping α) (ms : List (Move α)) :
    (g.landings ms).map Prod.snd = ms.filterMap Move.placed? := by
  induction ms generalizing g with
  | nil => rfl
  | cons m rest ih =>
    rw [landings, List.map_append, ih]
    cases hm : m.placed? with
    | none => rw [List.filterMap_cons_none hm]; rfl
    | some a => rw [List.filterMap_cons_some hm]; rfl

/-- What one move brings to a group. -/
theorem move_members (g : Grouping α) (m : Move α) (i : Nat) :
    (g.move m).groups.membersAt i = g.groups.membersAt i ++
      ((m.placed?.map ((g.move m).cursor.index, ·)).toList.filter (·.1 = i)).map Prod.snd := by
  cases hm : m.placed? with
  | none =>
    rw [g.move_unplaced hm]
    exact (List.append_nil _).symm
  | some a =>
    obtain rfl := move_placed hm
    have hplaced : Placed a g (g.move (.step (.place a))) := g.step_placed a
    generalize g.move (.step (.place a)) = next at hplaced
    by_cases hi : i = next.cursor.index
    · subst hi
      simp [Groups.membersAt, hplaced.lands]
    · simp [Groups.membersAt, hplaced.elsewhere i hi, Ne.symm hi]

/-- A group holds what it held, and then the members that were placed there, in order. -/
theorem moves_members (g : Grouping α) (ms : List (Move α)) (i : Nat) :
    (g.moves ms).groups.membersAt i =
      g.groups.membersAt i ++ ((g.landings ms).filter (·.1 = i)).map Prod.snd := by
  -- Over the moves, for all groupings: the landings of the rest are those of the next grouping.
  induction ms generalizing g with
  | nil => exact (List.append_nil _).symm
  | cons m rest ih =>
    change ((g.move m).moves rest).groups.membersAt i = _
    rw [ih, move_members, landings, List.filter_append, List.map_append, List.append_assoc]

end Runs

section Gaps

/-- At a group without members a connective moves the cursor only if the group is not there. -/
theorem advance_empty {c : Cursor} {groups : Groups α} (h : groups.membersAt c.index = [])
    (logic : Option Connective) : c.advance logic groups = c ∨
      groups.length ≤ c.index ∧ c.advance logic groups = ⟨c.index + 1⟩ := by
  unfold Cursor.advance
  split
  · exact Or.inl rfl
  · rename_i hfull
    refine Or.inr ⟨?_, rfl⟩
    rw [← List.getElem?_eq_none_iff]
    cases hgroup : groups[c.index]? with
    | none => rfl
    | some group =>
      have hnil : group = [] := by simpa [Groups.membersAt, hgroup] using h
      exact absurd (hnil ▸ hgroup) hfull
  · exact Or.inl rfl

theorem join_empty {g : Grouping α} (h : g.groups.membersAt g.cursor.index = [])
    (logic : Option Connective) :
    let next := g.move (.step (.join logic))
    next.groups = g.groups ∧ next.groups.membersAt next.cursor.index = [] ∧
      min next.cursor.index next.groups.length = min g.cursor.index g.groups.length := by
  change g.groups = g.groups ∧
    g.groups.membersAt (g.cursor.advance logic g.groups).index = [] ∧
      min (g.cursor.advance logic g.groups).index g.groups.length = _
  rcases advance_empty h logic with hsame | ⟨hbehind, hnext⟩
  · rw [hsame]
    exact ⟨rfl, h, rfl⟩
  · rw [hnext, Groups.membersAt, List.getElem?_eq_none (Nat.le_succ_of_le hbehind),
      Nat.min_eq_right (Nat.le_succ_of_le hbehind), Nat.min_eq_right hbehind]
    exact ⟨rfl, rfl, rfl⟩

theorem joins_empty {g : Grouping α} (h : g.groups.membersAt g.cursor.index = [])
    (logics : List (Option Connective)) :
    let next := g.moves (logics.map fun logic => .step (.join logic))
    next.groups = g.groups ∧
      min next.cursor.index next.groups.length = min g.cursor.index g.groups.length := by
  -- The cursor may run on behind the groups; what stays is the place where a member would go.
  induction logics generalizing g with
  | nil => exact ⟨rfl, rfl⟩
  | cons logic rest ih =>
    obtain ⟨hgroups, hempty, hindex⟩ := join_empty h logic
    obtain ⟨hrest, hlast⟩ := ih hempty
    exact ⟨hrest.trans hgroups, hlast.trans hindex⟩

/-- Where the cursor is at a group without members, the next member fills that group, or the first
place behind the groups: however many connectives are read before it, no gap is left. -/
theorem joins_place {g : Grouping α} (h : g.groups.membersAt g.cursor.index = [])
    (logics : List (Option Connective)) (a : α) :
    let i := min g.cursor.index g.groups.length
    g.moves (logics.map (fun logic => .step (.join logic)) ++ [.step (.place a)]) =
      ⟨⟨i⟩, g.groups.take i ++ [a] :: g.groups.drop (i + 1)⟩ := by
  obtain ⟨hgroups, hindex⟩ := joins_empty h logics
  have hmembers : g.groups.membersAt (min g.cursor.index g.groups.length) = [] := by
    rcases Nat.lt_or_ge g.cursor.index g.groups.length with hinside | hbehind
    · rw [Nat.min_eq_left (Nat.le_of_lt hinside), h]
    · rw [Nat.min_eq_right hbehind, Groups.membersAt, List.getElem?_eq_none (Nat.le_refl _)]
      rfl
  rw [moves_append]
  change Grouping.step _ (.place a) = _
  rw [step_put, hindex, hgroups, Groups.put, hmembers]
  rfl

end Gaps

/-- Whatever cursors are set on the groups and whatever steps they take, members are only appended.
A member is placed at the end of one group, and nothing else changes; a group goes on with what is
placed there, and with nothing else; no group is added empty or becomes empty; and after any
connectives at a group without members the next member leaves no gap. -/
theorem moves_only_append (g : Grouping α) (earlier later : List (Move α)) :
    let before := g.moves earlier
    let after := g.moves (earlier ++ later)
    (∀ a, Placed a before (g.moves (earlier ++ [.step (.place a)]))) ∧
    before.groups.Extended after.groups ∧
    after.groups.countP List.isEmpty ≤ before.groups.countP List.isEmpty ∧
    after.groups.length ≤ before.groups.length + (later.filterMap Move.placed?).length ∧
    (before.landings later).map Prod.snd = later.filterMap Move.placed? ∧
    (∀ i, after.groups.membersAt i = before.groups.membersAt i ++
      ((before.landings later).filter (·.1 = i)).map Prod.snd) ∧
    (before.groups.membersAt before.cursor.index = [] →
      ∀ (logics : List (Option Connective)) (a : α),
        let i := min before.cursor.index before.groups.length
        g.moves (earlier ++ (logics.map (fun logic => .step (.join logic)) ++
            [.step (.place a)])) =
          ⟨⟨i⟩, before.groups.take i ++ [a] :: before.groups.drop (i + 1)⟩) := by
  simp only [moves_append g earlier]
  refine ⟨fun a => step_placed _ a, moves_extended _ later, moves_empties _ later,
    moves_length _ later, landings_members _ later, moves_members _ later, ?_⟩
  exact fun hempty logics a => joins_place hempty logics a

/-- An empty group among others takes the next member, and one behind all groups is only opened. -/
theorem moves_only_append_gaps :
    let g : Grouping Nat := ⟨{}, [[1], [], [2]]⟩
    let filled : List (Move Nat) := [.resume, .step (.join (some .or)), .step (.place 3)]
    let ors : List (Move Nat) := [.step (.join (some .or)), .step (.join (some .or))]
    (g.moves (filled ++ [.take ⟨1⟩])).groups.membersAt 1 = [] ∧
      g.moves (filled ++ [.take ⟨1⟩] ++ (ors ++ [.step (.place 4)])) =
        ⟨⟨1⟩, [[1], [4], [2], [3]]⟩ ∧
      (g.moves (filled ++ [.take ⟨7⟩])).groups.membersAt 7 = [] ∧
      g.moves (filled ++ [.take ⟨7⟩] ++ (ors ++ [.step (.place 4)])) =
        ⟨⟨4⟩, [[1], [], [2], [3], [4]]⟩ := by
  intro g filled ors
  have hempty : (g.moves (filled ++ [.take ⟨1⟩])).groups.membersAt 1 = [] := rfl
  have hmissing : (g.moves (filled ++ [.take ⟨7⟩])).groups.membersAt 7 = [] := rfl
  obtain ⟨-, -, -, -, -, -, hinside⟩ := moves_only_append g (filled ++ [.take ⟨1⟩]) []
  obtain ⟨-, -, -, -, -, -, hbehind⟩ := moves_only_append g (filled ++ [.take ⟨7⟩]) []
  exact ⟨hempty, hinside hempty [some .or, some .or] 4,
    hmissing, hbehind hmissing [some .or, some .or] 4⟩

end Grouping

end TradeChat
