import TradeChat.Proofs.Text.Series

namespace TradeChat.Text

/-- A phrase of a list, and its place: the number of the member that it is or lies in, level by
level from the whole list on. -/
structure Leaf where
  place : List Nat
  text : String
deriving DecidableEq, Repr

def Leaf.under (i : Nat) (l : Leaf) : Leaf := ⟨i :: l.place, l.text⟩

mutual

def Member.leaves : Member → List Leaf
  | .phrase text => [⟨[], text⟩]
  | .list members => leavesFrom 0 members

def leavesFrom (i : Nat) : List Member → List Leaf
  | [] => []
  | m :: rest => m.leaves.map (.under i) ++ leavesFrom (i + 1) rest

end

/-- All phrases of a list, however deep they lie, in the order in which they are read. -/
def leaves (members : List Member) : List Leaf := leavesFrom 0 members

mutual

/-- No list inside the member is empty, nor is the member itself an empty list. -/
def Member.isFilled : Member → Bool
  | .phrase _ => true
  | .list members => !members.isEmpty && areFilled members

def areFilled : List Member → Bool
  | [] => true
  | m :: rest => m.isFilled && areFilled rest

end

/-- The list that stands at a place. -/
def listAt (members : List Member) : List Nat → Option (List Member)
  | [] => some members
  | i :: place =>
    match members[i]? with
    | some (.list inside) => listAt inside place
    | _ => none

/-- What two places have in common: the place of the innermost list that both lie in. -/
def meet : List Nat → List Nat → List Nat
  | i :: p, j :: q => if i = j then i :: meet p q else []
  | _, _ => []

/-- The word of the lists at a depth. -/
def wordAt (word : String) (inner : List String) (depth : Nat) : String :=
  (word :: inner)[depth]?.getD "and"

/-- What parts two phrases is decided in the innermost list that holds both. Its word stands
between them if it has two members, or behind a comma if the second phrase lies in the last of
more; all else is parted by commas. -/
def between (word : String) (inner : List String) (members : List Member) (l r : Leaf) : String :=
  let common := meet l.place r.place
  match listAt members common with
  | none => ""
  | some list =>
    let own := wordAt word inner common.length
    if list.length = 2 then " " ++ own ++ " "
    else if r.place[common.length]? = some (list.length - 1) then ", " ++ own ++ " "
    else ", "

/-- Phrases one after the other, trimmed, with something between neighbours. -/
def written (parted : Leaf → Leaf → String) : List Leaf → String
  | [] => ""
  | [l] => trimmed l.text
  | l :: r :: rest => trimmed l.text ++ parted l r ++ written parted (r :: rest)

/-- The innermost list that holds two phrases has the first in an earlier member than the
second. -/
def Precedes (members : List Member) (l r : Leaf) : Prop :=
  ∃ list i j, listAt members (meet l.place r.place) = some list ∧ i < j ∧ j < list.length ∧
    meet l.place r.place ++ [i] <+: l.place ∧ meet l.place r.place ++ [j] <+: r.place

section Places

variable {word : String} {inner : List String} {members inside : List Member} {i j : Nat}
  {l r : Leaf}

theorem meet_under : meet (l.under i).place (r.under i).place = i :: meet l.place r.place :=
  if_pos rfl

theorem meet_apart (h : i ≠ j) : meet (l.under i).place (r.under j).place = [] := if_neg h

theorem member_at {before rest : List Member} {m : Member} (h : members = before ++ m :: rest) :
    members[before.length]? = some m := by
  rw [h, List.getElem?_append_right (Nat.le_refl _), Nat.sub_self]
  rfl

theorem listAt_inside (h : members[i]? = some (.list inside)) (place : List Nat) :
    listAt members (i :: place) = listAt inside place := by
  rw [listAt, h]

/-- Below the first level the inner words take the place of the word. -/
theorem wordAt_inside (word : String) (inner : List String) (depth : Nat) :
    wordAt word inner (depth + 1) = wordAt (inner.headD "and") inner.tail depth := by
  cases inner with
  | nil => cases depth <;> rfl
  | cons own rest => rfl

theorem between_under (h : members[i]? = some (.list inside)) :
    between word inner members (l.under i) (r.under i) =
      between (inner.headD "and") inner.tail inside l r := by
  simp only [between, meet_under, listAt_inside h, List.length_cons, wordAt_inside]
  rfl

/-- Phrases in neighbouring members have the separator of the list between them. -/
theorem between_next (h : i + 1 < members.length) :
    between word inner members (l.under i) (r.under (i + 1)) =
      separator word members.length i := by
  have hlast : (r.under (i + 1)).place[0]? = some (members.length - 1) ↔
      i + 2 = members.length := by
    simp only [Leaf.under, List.getElem?_cons_zero, Option.some.injEq]
    omega
  simp only [between, meet_apart (Nat.succ_ne_self i).symm, listAt, List.length_nil, hlast,
    separator]
  have hword : wordAt word inner 0 = word := rfl
  rw [hword]
  by_cases hpair : members.length = 2
  · rw [if_pos hpair, if_pos ⟨hpair, by omega⟩]
  · have hlong : ¬(members.length = 2 ∧ i = 0) := fun h => hpair h.1
    rw [if_neg hpair, if_neg hlong]
    by_cases hend : i + 2 = members.length
    · have hfull : ¬i + 2 < members.length := by omega
      rw [if_pos hend, if_neg hfull, if_pos hend]
    · have hmore : i + 2 < members.length := by omega
      rw [if_neg hend, if_pos hmore]

theorem Precedes.under (h : members[i]? = some (.list inside)) (hlr : Precedes inside l r) :
    Precedes members (l.under i) (r.under i) := by
  obtain ⟨list, a, b, hlist, hlt, hb, hl, hr⟩ := hlr
  refine ⟨list, a, b, ?_, hlt, hb, ?_, ?_⟩
  · rw [meet_under, listAt_inside h, hlist]
  · rw [meet_under]
    exact List.cons_prefix_cons.mpr ⟨rfl, hl⟩
  · rw [meet_under]
    exact List.cons_prefix_cons.mpr ⟨rfl, hr⟩

theorem precedes_apart (hlt : i < j) (hj : j < members.length) :
    Precedes members (l.under i) (r.under j) := by
  refine ⟨members, i, j, ?_, hlt, hj, ?_, ?_⟩
  · rw [meet_apart (Nat.ne_of_lt hlt)]
    rfl
  · rw [meet_apart (Nat.ne_of_lt hlt)]
    exact List.prefix_append [i] l.place
  · rw [meet_apart (Nat.ne_of_lt hlt)]
    exact List.prefix_append [j] r.place

end Places

section Written

theorem written_under {parted inside : Leaf → Leaf → String} {i : Nat}
    (h : ∀ l r, parted (l.under i) (r.under i) = inside l r) (ls : List Leaf) :
    written parted (ls.map (.under i)) = written inside ls := by
  fun_induction written inside ls with
  | case1 => rfl
  | case2 l => rfl
  | case3 l r rest ih =>
    rw [List.map_cons, List.map_cons, written, h, ← List.map_cons, ih]
    rfl

theorem written_append {parted : Leaf → Leaf → String} {ls rs : List Leaf} {sep : String}
    (hls : ls ≠ []) (hrs : rs ≠ []) (h : ∀ l ∈ ls, ∀ r ∈ rs.head?, parted l r = sep) :
    written parted (ls ++ rs) = written parted ls ++ sep ++ written parted rs := by
  obtain ⟨r, rest, rfl⟩ := List.exists_cons_of_ne_nil hrs
  induction ls with
  | nil => exact absurd rfl hls
  | cons l ls ih =>
    obtain ⟨hl, hrest⟩ := List.forall_mem_cons.mp h
    have hr : parted l r = sep := hl r rfl
    cases ls with
    | nil => rw [List.singleton_append, written, written, hr]
    | cons l' ls =>
      have := ih (List.cons_ne_nil l' ls) hrest
      rw [List.cons_append] at this
      rw [List.cons_append, List.cons_append, written, this, written]
      simp only [String.append_assoc]

end Written

mutual

theorem Member.leaves_ne_nil : (m : Member) → m.isFilled = true → m.leaves ≠ []
  | .phrase _, _ => List.cons_ne_nil _ _
  | .list members, h => by
    rw [Member.isFilled, Bool.and_eq_true] at h
    exact leavesFrom_ne_nil 0 members (by simpa using h.1) h.2

theorem leavesFrom_ne_nil (i : Nat) :
    (members : List Member) → members ≠ [] → areFilled members = true → leavesFrom i members ≠ []
  | [], hne, _ => absurd rfl hne
  | m :: rest, _, h => by
    rw [areFilled, Bool.and_eq_true] at h
    have := m.leaves_ne_nil h.1
    simp [leavesFrom, this]

end

/-- The phrases of a filled member come first. -/
theorem head_leavesFrom {i : Nat} {m : Member} {rest : List Member} (h : m.isFilled = true)
    {l : Leaf} (hl : l ∈ (leavesFrom i (m :: rest)).head?) :
    ∃ inside : Leaf, l = inside.under i := by
  obtain ⟨first, more, hleaves⟩ := List.exists_cons_of_ne_nil (m.leaves_ne_nil h)
  rw [leavesFrom, hleaves] at hl
  exact ⟨first, (Option.some.inj hl).symm⟩

theorem mem_leavesFrom {i : Nat} {members : List Member} {l : Leaf}
    (h : l ∈ leavesFrom i members) :
    ∃ k, k < members.length ∧ ∃ inside : Leaf, l = inside.under (i + k) := by
  induction members generalizing i with
  | nil => cases h
  | cons m rest ih =>
    rcases List.mem_append.mp h with h | h
    · obtain ⟨inside, -, rfl⟩ := List.mem_map.mp h
      exact ⟨0, Nat.zero_lt_succ _, inside, rfl⟩
    · obtain ⟨k, hk, inside, rfl⟩ := ih h
      exact ⟨k + 1, Nat.succ_lt_succ hk, inside, by rw [Nat.add_right_comm, Nat.add_assoc]⟩

mutual

/-- A member is written as its phrases are, whatever parts those of a single phrase. -/
theorem Member.text_leaves (inner : List String) (parted : Leaf → Leaf → String) :
    (m : Member) → m.isFilled = true →
      (∀ inside, m = .list inside →
        ∀ l r, parted l r = between (inner.headD "and") inner.tail inside l r) →
      m.text inner = written parted m.leaves
  | .phrase _, _, _ => rfl
  | .list members, hfilled, hparted => by
    rw [Member.isFilled, Bool.and_eq_true] at hfilled
    have hown : parted = between (inner.headD "and") inner.tail members :=
      funext fun l => funext fun r => hparted members rfl l r
    rw [Member.text, series, length_memberTexts, hown]
    exact seriesFrom_leaves _ _ members [] members rfl hfilled.2

theorem seriesFrom_leaves (word : String) (inner : List String)
    (members before : List Member) :
    (rest : List Member) → members = before ++ rest → areFilled rest = true →
      seriesFrom word members.length before.length (memberTexts inner rest) =
        written (between word inner members) (leavesFrom before.length rest)
  | [], _, _ => rfl
  | m :: rest, hmembers, hfilled => by
    rw [areFilled, Bool.and_eq_true] at hfilled
    have hnext := seriesFrom_leaves word inner members (before ++ [m]) rest
      (by rw [hmembers, List.append_assoc, List.singleton_append]) hfilled.2
    rw [List.length_append, List.length_singleton] at hnext
    have hat := member_at hmembers
    have hown : m.text inner =
        written (between word inner members) (m.leaves.map (.under before.length)) := by
      rw [written_under fun _ _ => rfl]
      refine m.text_leaves inner _ hfilled.1 fun inside hinside l r => ?_
      exact between_under (hinside ▸ hat)
    rw [memberTexts, seriesFrom, leavesFrom, hown, hnext]
    cases rest with
    | nil =>
      have hlast : members.length = before.length + 1 := by simp [hmembers]
      rw [separator_last word (Nat.le_of_eq hlast), leavesFrom, List.append_nil, written,
        String.append_empty, String.append_empty]
    | cons m' rest =>
      have hsize : before.length + 1 < members.length := by simp [hmembers]
      rw [areFilled, Bool.and_eq_true] at hfilled
      refine (written_append ?_ ?_ ?_).symm
      · simpa using m.leaves_ne_nil hfilled.1
      · simp [leavesFrom, m'.leaves_ne_nil hfilled.2.1]
      · intro l hl r hr
        obtain ⟨l, -, rfl⟩ := List.mem_map.mp hl
        obtain ⟨r, rfl⟩ := head_leavesFrom hfilled.2.1 hr
        exact between_next hsize

end

mutual

theorem Member.leaves_pairwise {related : Leaf → Leaf → Prop} :
    (m : Member) → (∀ inside, m = .list inside → ∀ l r, Precedes inside l r → related l r) →
      m.leaves.Pairwise related
  | .phrase _, _ => List.pairwise_singleton _ _
  | .list members, h =>
    (leavesFrom_precedes members [] members rfl).imp fun hlr => h members rfl _ _ hlr

theorem leavesFrom_precedes (members before : List Member) :
    (rest : List Member) → members = before ++ rest →
      (leavesFrom before.length rest).Pairwise (Precedes members)
  | [], _ => .nil
  | m :: rest, hmembers => by
    have hnext := leavesFrom_precedes members (before ++ [m]) rest
      (by rw [hmembers, List.append_assoc, List.singleton_append])
    rw [List.length_append, List.length_singleton] at hnext
    have hat := member_at hmembers
    rw [leavesFrom]
    refine List.pairwise_append.mpr ⟨?_, hnext, ?_⟩
    · refine List.pairwise_map.mpr (m.leaves_pairwise fun inside hinside l r hlr => ?_)
      exact hlr.under (hinside ▸ hat)
    · intro l hl r hr
      obtain ⟨l, -, rfl⟩ := List.mem_map.mp hl
      obtain ⟨k, hk, r, rfl⟩ := mem_leavesFrom hr
      have hsize : members.length = before.length + (rest.length + 1) := by simp [hmembers]
      exact precedes_apart (by omega) (by omega)

end

/-- A list is written as its phrases in order, each trimmed, with one separator between neighbours,
which the innermost list that holds both decides. Every two phrases have such a list, and it has
the earlier one in an earlier member. Behind another text the list is written as by itself. -/
theorem commaList_leaves (word : String) (inner : List String) {members : List Member}
    (h : areFilled members = true) :
    commaList word inner members = written (between word inner members) (leaves members) ∧
      (leaves members).Pairwise (Precedes members) ∧
      ∀ out, appendList out word inner members = out ++ commaList word inner members := by
  refine ⟨?_, leavesFrom_precedes members [] members rfl, fun out => ?_⟩
  · rw [commaList_texts, series, length_memberTexts]
    exact seriesFrom_leaves word inner members [] members rfl h
  · rw [appendList_texts, commaList_texts]

/-- Three levels, of which only two have a word of their own. -/
def deepOrder : List Member :=
  [.list [.phrase " axe", .list [.phrase "bow", .phrase "arrows "]], .phrase "helm",
    .list [.phrase "a", .list [.phrase "b", .phrase "c", .list [.phrase "d", .phrase "e"]],
      .phrase "f"]]

theorem commaList_leaves_deep :
    areFilled deepOrder = true ∧
      commaList "or" ["plus"] deepOrder =
        written (between "or" ["plus"] deepOrder) (leaves deepOrder) ∧
      commaList "or" ["plus"] deepOrder =
        "axe plus bow and arrows, helm, or a, b, c, and d and e, plus f" := by
  have hfilled : areFilled deepOrder = true := by decide +kernel
  exact ⟨hfilled, (commaList_leaves "or" ["plus"] hfilled).1, by decide +kernel⟩

end TradeChat.Text
