import TradeChat.Grouping

namespace TradeChat

variable {α : Type}

namespace Groups

/-- A property of all members of all groups. -/
def All (P : α → Prop) (groups : Groups α) : Prop := ∀ group ∈ groups, ∀ a ∈ group, P a

/-- Each group is still there under its number, with at most more members behind those it had. -/
def Extended (before after : Groups α) : Prop :=
  ∀ (i : Nat) (group : List α), before[i]? = some group →
    ∃ grown, after[i]? = some grown ∧ group <+: grown

namespace Extended

variable {a b c : Groups α}

theorem refl (a : Groups α) : a.Extended a := fun _ group h => ⟨group, h, List.prefix_rfl⟩

theorem trans (hab : a.Extended b) (hbc : b.Extended c) : a.Extended c := by
  intro i group h
  obtain ⟨grown, hgrown, hle⟩ := hab i group h
  obtain ⟨last, hlast, hle'⟩ := hbc i grown hgrown
  exact ⟨last, hlast, hle.trans hle'⟩

end Extended

end Groups

namespace Grouping

/-- A member is placed at the end of a group that is there, or in a new group at the end. -/
theorem step_place (g : Grouping α) (a : α) :
    (∃ i, (g.step (.place a)).groups = g.groups.modify i (· ++ [a])) ∨
      (g.step (.place a)).groups = g.groups ++ [[a]] := by
  by_cases h : g.cursor.index < g.groups.length
  · exact Or.inl ⟨g.cursor.index, by simp only [step, Cursor.insert, h, ↓reduceIte]⟩
  · exact Or.inr (by simp only [step, Cursor.insert, h, ↓reduceIte])

/-- Groups that a step changes end in the new member. -/
theorem mem_step_place {g : Grouping α} {a : α} {group : List α}
    (h : group ∈ (g.step (.place a)).groups) :
    group ∈ g.groups ∨ ∃ old, (old = [] ∨ old ∈ g.groups) ∧ group = old ++ [a] := by
  rcases g.step_place a with ⟨j, hstep⟩ | hstep
  · rw [hstep] at h
    obtain ⟨i, hi⟩ := List.mem_iff_getElem?.mp h
    rw [List.getElem?_modify] at hi
    obtain ⟨old, hold, rfl⟩ := Option.map_eq_some_iff.mp hi
    have hmem := List.mem_of_getElem? hold
    split
    · exact Or.inr ⟨old, Or.inr hmem, rfl⟩
    · exact Or.inl hmem
  · rw [hstep] at h
    rcases List.mem_append.mp h with hold | hnew
    · exact Or.inl hold
    · exact Or.inr ⟨[], Or.inl rfl, List.mem_singleton.mp hnew⟩

theorem step_extended (g : Grouping α) (step : Step α) :
    g.groups.Extended (g.step step).groups := by
  cases step with
  | join logic => exact .refl _
  | place a =>
    intro i group h
    rcases g.step_place a with ⟨j, hstep⟩ | hstep
    · rw [hstep, List.getElem?_modify, h]
      refine ⟨_, rfl, ?_⟩
      split
      · exact List.prefix_append _ _
      · exact List.prefix_rfl
    · rw [hstep, List.getElem?_append_left (List.getElem?_eq_some_iff.mp h).1]
      exact ⟨group, h, List.prefix_rfl⟩

theorem step_filled {g : Grouping α} (hg : [] ∉ g.groups) (step : Step α) :
    [] ∉ (g.step step).groups := by
  cases step with
  | join logic => exact hg
  | place a =>
    intro hnil
    rcases mem_step_place hnil with hold | ⟨old, -, hsnoc⟩
    · exact hg hold
    · exact List.append_ne_nil_of_right_ne_nil old (List.cons_ne_nil a []) hsnoc.symm

theorem step_all {P : α → Prop} {g : Grouping α} (hg : g.groups.All P) {step : Step α}
    (hstep : ∀ a, step = .place a → P a) : (g.step step).groups.All P := by
  cases step with
  | join logic => exact hg
  | place a =>
    intro group hgroup b hb
    rcases mem_step_place hgroup with hold | ⟨old, hold, rfl⟩
    · exact hg group hold b hb
    · rcases List.mem_append.mp hb with hb | hb
      · rcases hold with rfl | hold
        · cases hb
        · exact hg old hold b hb
      · exact List.mem_singleton.mp hb ▸ hstep a rfl

theorem run_extended (g : Grouping α) (steps : List (Step α)) :
    g.groups.Extended (g.run steps).groups := by
  induction steps generalizing g with
  | nil => exact .refl _
  | cons step rest ih => exact (g.step_extended step).trans (ih (g.step step))

theorem run_filled {g : Grouping α} (hg : [] ∉ g.groups) (steps : List (Step α)) :
    [] ∉ (g.run steps).groups := by
  induction steps generalizing g with
  | nil => exact hg
  | cons step rest ih => exact ih (step_filled hg step)

/-- What holds of all members so far and of all that are placed holds of all members. -/
theorem run_all {P : α → Prop} {g : Grouping α} (hg : g.groups.All P) {steps : List (Step α)}
    (hsteps : ∀ a, .place a ∈ steps → P a) : (g.run steps).groups.All P := by
  induction steps generalizing g with
  | nil => exact hg
  | cons step rest ih =>
    refine ih (step_all hg ?_) fun a ha => hsteps a (List.mem_cons_of_mem step ha)
    rintro a rfl
    exact hsteps a List.mem_cons_self

end Grouping

end TradeChat
