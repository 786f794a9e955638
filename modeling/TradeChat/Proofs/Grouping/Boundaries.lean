import Mathlib.Data.List.SplitBy
import TradeChat.Grouping

namespace TradeChat

variable {α β : Type}

/-- What one reading brings to a grouping: a connective, and a member unless it is turned away. -/
structure Mark (α : Type) where
  logic : Option Connective
  member : Option α

namespace Mark

def isOr (m : Mark α) : Bool := m.logic == some .or

def steps (m : Mark α) : List (Step α) := .join m.logic :: (m.member.map Step.place).toList

end Mark

namespace Groups

/-- A member opens a group of its own, or joins the last one. -/
def extend (groups : Groups α) (opens : Bool) (a : α) : Groups α :=
  if opens || groups.isEmpty then groups ++ [[a]]
  else groups.modify (groups.length - 1) (· ++ [a])

theorem extend_nil (opens : Bool) (a : α) : extend [] opens a = [[a]] := by
  simp [extend]

theorem extend_open (groups : Groups α) (a : α) : groups.extend true a = groups ++ [[a]] := by
  simp [extend]

theorem extend_append (groups : Groups α) (last : List α) (a : α) :
    extend (groups ++ [last]) false a = groups ++ [last ++ [a]] := by
  simp [extend, List.modify_eq_take_cons_drop]

theorem extend_map (f : List α → List β) (groups : Groups α) (opens : Bool) (a : α) (b : β)
    (hf : ∀ run, f (run ++ [a]) = f run ++ [b]) (hnil : f [] = []) :
    (groups.extend opens a).map f = extend (groups.map f) opens b := by
  have hone : f [a] = [b] := by simpa [hnil] using hf []
  rcases List.eq_nil_or_concat groups with rfl | ⟨before, last, rfl⟩
  · simp [extend_nil, hone]
  · cases opens with
    | true => simp [extend_open, hone]
    | false =>
      simp only [List.concat_eq_append, extend_append, List.map_append, List.map_cons,
        List.map_nil, hf]

/-- One more item falls into the last run if its neighbour is related to it. -/
theorem splitBy_snoc (r : α → α → Bool) (l : List α) (a : α) :
    (l ++ [a]).splitBy r = extend (l.splitBy r) (l.getLast?.any fun x => !r x a) a := by
  rcases List.eq_nil_or_concat (l.splitBy r) with hnil | ⟨runs, last, hruns⟩
  · have hl : l = [] := List.splitBy_eq_nil.mp hnil
    subst hl
    rfl
  · rw [List.concat_eq_append] at hruns
    have hlast : last ≠ [] := List.ne_nil_of_mem_splitBy (r := r) (l := l) (by simp [hruns])
    have hl : l = runs.flatten ++ last := by
      rw [← List.flatten_splitBy r l, hruns]
      simp
    have hend : l.getLast? = some (last.getLast hlast) := by
      rw [hl, List.getLast?_append, List.getLast?_eq_some_getLast hlast]
      rfl
    cases hr : r (last.getLast hlast) a with
    | false =>
      have hopen : (l.getLast?.any fun x => !r x a) = true := by simp [hend, hr]
      rw [hopen, extend_open]
      apply List.splitBy_append
      intro x hx y hy
      rw [hend] at hx
      cases hx
      cases hy
      exact hr
    | true =>
      have hopen : (l.getLast?.any fun x => !r x a) = false := by simp [hend, hr]
      rw [hopen, hruns, extend_append]
      obtain ⟨-, hn, hc, hb⟩ := List.splitBy_eq_iff.mp hruns
      apply List.splitBy_eq_iff.mpr
      refine ⟨by simp [hl], ?_, ?_, ?_⟩
      · simp only [List.mem_append, List.mem_singleton, not_or] at hn ⊢
        exact ⟨hn.1, by simp⟩
      · intro run hm
        rcases List.mem_append.mp hm with hm | hm
        · exact hc run (List.mem_append_left _ hm)
        · rw [List.mem_singleton.mp hm]
          apply List.isChain_append.mpr
          refine ⟨hc last (by simp), List.isChain_singleton a, ?_⟩
          intro x hx y hy
          rw [List.getLast?_eq_some_getLast hlast] at hx
          cases hx
          cases hy
          exact hr
      · rw [List.isChain_append] at hb ⊢
        refine ⟨hb.1, List.isChain_singleton _, ?_⟩
        intro x hx y hy
        cases hy
        obtain ⟨hx', hl', hrel⟩ := hb.2.2 x hx last (by simp)
        refine ⟨hx', by simp, ?_⟩
        rw [List.head_append_of_ne_nil hlast]
        exact hrel

/-- The member that the reading at a position brings. -/
def memberAt (marks : List (Mark α)) (i : Nat) : Option α := marks[i]?.bind Mark.member

/-- The positions of the members before position `n`. -/
def placed (marks : List (Mark α)) (n : Nat) : List Nat :=
  (List.range n).filter fun i => (memberAt marks i).isSome

/-- No "or" was read after `i` up to and with `j`. Of what was read before position `base j`
nothing counts for `j`. -/
def joined (marks : List (Mark α)) (base : Nat → Nat) (i j : Nat) : Bool :=
  ((marks.take (j + 1)).drop (max (i + 1) (base j))).all fun m => !m.isOr

/-- The members before position `n` in groups, parted between neighbours that are not joined. -/
def cut (marks : List (Mark α)) (base : Nat → Nat) (n : Nat) : Groups α :=
  ((placed marks n).splitBy (joined marks base)).map fun run => run.filterMap (memberAt marks)

/-- The groups of one reading that a second one goes on with. The first member of the second
reading joins the last group unless that reading itself has an "or" up to there. -/
def ofMarks (first second : List (Mark α)) : Groups α :=
  cut (first ++ second) (fun j => if j < first.length then 0 else first.length)
    (first ++ second).length

end Groups

namespace Grouping

/-- Between two steps no group is empty, and the cursor is on the last group, or behind it while
an "or" waits for the next member. -/
structure Tracks (g : Grouping α) (pending : Bool) : Prop where
  filled : [] ∉ g.groups
  index : g.groups ≠ [] →
    if pending then g.groups.length ≤ g.cursor.index else g.cursor.index + 1 = g.groups.length

theorem Tracks.start : Tracks ({} : Grouping α) false :=
  ⟨by simp, fun h => absurd rfl h⟩

theorem Tracks.at_last {groups : Groups α} (h : [] ∉ groups) :
    Tracks ⟨.atLast groups, groups⟩ false := by
  refine ⟨h, fun hne => ?_⟩
  have hpos := List.length_pos_iff.mpr hne
  change groups.length - 1 + 1 = groups.length
  exact Nat.sub_add_cancel hpos

theorem Tracks.join {g : Grouping α} {pending : Bool} (h : g.Tracks pending)
    (logic : Option Connective) :
    (g.step (.join logic)).Tracks (pending || logic == some .or) := by
  refine ⟨h.filled, fun hne => ?_⟩
  have hi := h.index hne
  change if (pending || logic == some .or) = true
    then g.groups.length ≤ (g.cursor.advance logic g.groups).index
    else (g.cursor.advance logic g.groups).index + 1 = g.groups.length
  rcases logic with _ | _ | _
  · simpa [Cursor.advance] using hi
  · simpa [Cursor.advance] using hi
  · have hadv : g.cursor.advance (some .or) g.groups = ⟨g.cursor.index + 1⟩ := by
      unfold Cursor.advance
      split
      · rename_i hempty
        exact absurd (List.mem_of_getElem? hempty) h.filled
      · rfl
      · rename_i hno _
        exact (hno rfl).elim
    cases pending <;> simp [hadv] at hi ⊢ <;> omega

theorem Tracks.place {g : Grouping α} {pending : Bool} (h : g.Tracks pending) (a : α) :
    (g.step (.place a)).Tracks false ∧
      (g.step (.place a)).groups = g.groups.extend pending a := by
  by_cases hlt : g.cursor.index < g.groups.length
  · have hne : g.groups ≠ [] := List.ne_nil_of_length_pos (by omega)
    have hi := h.index hne
    cases pending with
    | true => simp at hi; omega
    | false =>
      simp only [Bool.false_eq_true, ↓reduceIte] at hi
      have hstep : g.step (.place a) =
          ⟨g.cursor, g.groups.modify (g.groups.length - 1) (· ++ [a])⟩ := by
        simp [step, Cursor.insert, ← hi]
      obtain ⟨before, last, he⟩ := (List.eq_nil_or_concat g.groups).resolve_left hne
      rw [List.concat_eq_append] at he
      have hf := h.filled
      refine ⟨⟨?_, ?_⟩, ?_⟩
      · rw [hstep, he]
        rw [he] at hf
        simp [List.modify_eq_take_cons_drop] at hf ⊢
        exact hf.1
      · intro _
        simpa [hstep] using hi
      · simp [hstep, Groups.extend, hne]
  · have hstep : g.step (.place a) = ⟨⟨g.groups.length⟩, g.groups ++ [[a]]⟩ := by
      simp [step, Cursor.insert, hlt]
    have hopen : (pending || g.groups.isEmpty) = true := by
      by_cases hne : g.groups = []
      · simp [hne]
      · have hi := h.index hne
        cases pending with
        | true => rfl
        | false => simp at hi; omega
    refine ⟨⟨?_, ?_⟩, ?_⟩
    · have := h.filled
      simpa [hstep] using this
    · intro _
      simp [hstep]
    · simp only [hstep, Groups.extend, hopen, ↓reduceIte]

theorem run_append (g : Grouping α) (steps more : List (Step α)) :
    g.run (steps ++ more) = (g.run steps).run more := List.foldl_append

end Grouping

namespace Groups

/-- Groups filled from marks, `pending` telling whether an "or" waits for the next member. -/
def fill (groups : Groups α) (pending : Bool) : List (Mark α) → Groups α
  | [] => groups
  | m :: rest =>
    match m.member with
    | none => fill groups (pending || m.isOr) rest
    | some a => fill (groups.extend (pending || m.isOr) a) false rest

end Groups

namespace Grouping

/-- The cursor does what filling says, and leaves no empty group behind. -/
theorem Tracks.run {g : Grouping α} {pending : Bool} (h : g.Tracks pending)
    (marks : List (Mark α)) :
    (g.run (marks.flatMap Mark.steps)).groups = g.groups.fill pending marks ∧
      [] ∉ (g.run (marks.flatMap Mark.steps)).groups := by
  induction marks generalizing g pending with
  | nil => exact ⟨rfl, h.filled⟩
  | cons m rest ih =>
    obtain ⟨logic, member⟩ := m
    have hj := h.join logic
    rw [List.flatMap_cons, run_append]
    cases member with
    | none => exact ih hj
    | some a =>
      obtain ⟨ht, hg⟩ := hj.place a
      have hrest := ih ht
      rw [hg] at hrest
      exact hrest

end Grouping

namespace Groups

theorem placed_succ (marks : List (Mark α)) (n : Nat) :
    placed marks (n + 1) =
      placed marks n ++ if (memberAt marks n).isSome then [n] else [] := by
  cases h : (memberAt marks n).isSome <;> simp [placed, List.range_succ, h]

/-- What was read between a member and the position `n`, with one reading more. -/
theorem waiting_succ {marks : List (Mark α)} {n k : Nat} {m : Mark α} (hm : marks[n]? = some m)
    (hk : k ≤ n) :
    (marks.take (n + 1)).drop k = (marks.take n).drop k ++ [m] := by
  have hn := (List.getElem?_eq_some_iff.mp hm).1
  rw [List.take_add_one, hm, List.drop_append_of_le_length]
  · rfl
  · simp only [List.length_take]
    omega

theorem cut_succ_none {marks : List (Mark α)} {n : Nat} (base : Nat → Nat)
    (h : memberAt marks n = none) : cut marks base (n + 1) = cut marks base n := by
  simp [cut, placed_succ, h]

theorem cut_succ_some {marks : List (Mark α)} {n : Nat} {a : α} (base : Nat → Nat)
    (h : memberAt marks n = some a) :
    cut marks base (n + 1) =
      (cut marks base n).extend
        ((placed marks n).getLast?.any fun i => !joined marks base i n) a := by
  have hf : ∀ run : List Nat,
      (run ++ [n]).filterMap (memberAt marks) = run.filterMap (memberAt marks) ++ [a] := by
    intro run
    simp [h]
  simp only [cut, placed_succ, h, Option.isSome_some, ↓reduceIte, splitBy_snoc]
  exact extend_map _ _ _ _ _ hf rfl

theorem mem_placed_lt {marks : List (Mark α)} {n i : Nat} (h : i ∈ placed marks n) : i < n :=
  List.mem_range.mp (List.mem_filter.mp h).1

/-- Filling from position `n` on keeps to the cut, if nothing before position `b` counts for the
marks it reads. -/
theorem fill_cut {marks : List (Mark α)} {base : Nat → Nat} {b : Nat} (seg : List (Mark α))
    (n : Nat) (pending : Bool) (hseg : ∀ k < seg.length, marks[n + k]? = seg[k]?) (hb : b ≤ n)
    (hbase : ∀ j, n ≤ j → j < n + seg.length → base j = b)
    (hp : ∀ l ∈ (placed marks n).getLast?,
      pending = ((marks.take n).drop (max (l + 1) b)).any Mark.isOr) :
    (cut marks base n).fill pending seg = cut marks base (n + seg.length) := by
  induction seg generalizing n pending with
  | nil => rfl
  | cons m rest ih =>
    have hm : marks[n]? = some m := by simpa using hseg 0 (by simp)
    have hrest : ∀ k < rest.length, marks[n + 1 + k]? = rest[k]? := by
      intro k hk
      have := hseg (k + 1) (by simpa using hk)
      rwa [List.getElem?_cons_succ, ← Nat.add_assoc, Nat.add_right_comm] at this
    have hbase' : ∀ j, n + 1 ≤ j → j < n + 1 + rest.length → base j = b := by
      intro j hj hlt
      exact hbase j (by omega) (by simp only [List.length_cons]; omega)
    have hor : ∀ l ∈ (placed marks n).getLast?,
        (pending || m.isOr) = ((marks.take (n + 1)).drop (max (l + 1) b)).any Mark.isOr := by
      intro l hl
      have hlt := mem_placed_lt (List.mem_of_getLast? hl)
      rw [waiting_succ hm (by omega), List.any_append, ← hp l hl]
      simp
    have hlen : n + (m :: rest).length = n + 1 + rest.length := by
      simp only [List.length_cons]
      omega
    rw [hlen]
    cases hmem : m.member with
    | none =>
      have hat : memberAt marks n = none := by simp [memberAt, hm, hmem]
      have hplaced : placed marks (n + 1) = placed marks n := by simp [placed_succ, hat]
      rw [fill, hmem, ← cut_succ_none base hat]
      exact ih (n + 1) _ hrest (by omega) hbase' (by rwa [hplaced])
    | some a =>
      have hat : memberAt marks n = some a := by simp [memberAt, hm, hmem]
      have hopen : (cut marks base n).extend (pending || m.isOr) a = cut marks base (n + 1) := by
        rw [cut_succ_some base hat]
        cases hl : (placed marks n).getLast? with
        | none =>
          have hnil : cut marks base n = [] := by
            simp [cut, List.getLast?_eq_none_iff.mp hl]
          rw [hnil, extend_nil, extend_nil]
        | some l =>
          have hjoin : (!joined marks base l n) = (pending || m.isOr) := by
            rw [hor l hl, joined, hbase n (Nat.le_refl n) (by simp), List.not_all_eq_any_not]
            simp
          simp only [Option.any_some, hjoin]
      rw [fill, hmem]
      simp only
      rw [hopen]
      refine ih (n + 1) _ hrest (by omega) hbase' ?_
      intro l hl
      have hl' : l = n := by
        rw [placed_succ, hat] at hl
        simpa using hl.symm
      subst hl'
      rw [List.drop_eq_nil_of_le (by simp only [List.length_take]; omega)]
      rfl

theorem fill_ofMarks (first second : List (Mark α)) :
    (fill [] false first).fill false second = ofMarks first second := by
  let marks := first ++ second
  let base : Nat → Nat := fun j => if j < first.length then 0 else first.length
  have hstart : cut marks base 0 = [] := by simp [cut, placed]
  have hfirst : (cut marks base 0).fill false first = cut marks base (0 + first.length) := by
    apply fill_cut (b := 0) first 0 false _ (Nat.le_refl 0)
    · intro j _ hj
      rw [Nat.zero_add] at hj
      simp only [base, hj, ↓reduceIte]
    · simp [placed]
    · intro k hk
      rw [Nat.zero_add, List.getElem?_append_left hk]
  have hsecond : (cut marks base first.length).fill false second =
      cut marks base (first.length + second.length) := by
    apply fill_cut (b := first.length) second first.length false _ (Nat.le_refl _)
    · intro j hj _
      simp only [base, Nat.not_lt.mpr hj, ↓reduceIte]
    · intro l _
      rw [List.drop_eq_nil_of_le (by simp only [List.length_take]; omega)]
      rfl
    · intro k _
      rw [List.getElem?_append_right (Nat.le_add_right _ _), Nat.add_sub_cancel_left]
  rw [Nat.zero_add, hstart] at hfirst
  rw [hfirst, hsecond, ofMarks, List.length_append]

theorem filterMap_placed (marks : List (Mark α)) (n : Nat) :
    (placed marks n).filterMap (memberAt marks) = (marks.take n).filterMap Mark.member := by
  induction n with
  | zero => rfl
  | succ n ih =>
    rw [placed_succ, List.filterMap_append, ih, List.take_add_one, List.filterMap_append]
    congr 1
    cases hm : marks[n]? with
    | none => simp [memberAt, hm]
    | some m => cases hmem : m.member <;> simp [memberAt, hm, hmem]

theorem flatten_cut (marks : List (Mark α)) (base : Nat → Nat) (n : Nat) :
    (cut marks base n).flatten = (marks.take n).filterMap Mark.member := by
  rw [cut, ← List.filterMap_flatten, List.flatten_splitBy, filterMap_placed]

theorem flatten_ofMarks (first second : List (Mark α)) :
    (ofMarks first second).flatten = (first ++ second).filterMap Mark.member := by
  rw [ofMarks, flatten_cut, List.take_length]

end Groups

namespace Grouping

theorem run_marks (marks : List (Mark α)) :
    (run {} (marks.flatMap Mark.steps)).groups = Groups.ofMarks marks [] := by
  rw [(Tracks.start.run marks).1, ← Groups.fill_ofMarks]
  rfl

/-- A second reading starts on the last group of the first, whatever "or" the first left over. -/
theorem run_marks_then (first second : List (Mark α)) :
    (run ⟨.atLast (Groups.ofMarks first []), Groups.ofMarks first []⟩
      (second.flatMap Mark.steps)).groups = Groups.ofMarks first second := by
  have hfilled := (Tracks.start.run first).2
  rw [run_marks] at hfilled
  rw [((Tracks.at_last hfilled).run second).1, ← Groups.fill_ofMarks, ← Groups.fill_ofMarks]
  rfl

end Grouping

end TradeChat
