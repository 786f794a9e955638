import TradeChat.Forest

namespace TradeChat.Linkage

variable {α : Type}

/-- The first item that hangs from `id`, and the others. -/
def pick (token : α → Token) (id : String) : List α → Option (α × List α)
  | [] => none
  | a :: rest =>
    if (token a).parent = some id then some (a, rest)
    else (pick token id rest).map fun (found, others) => (found, a :: others)

theorem pick_length {token : α → Token} {id : String} {items others : List α} {a : α}
    (h : pick token id items = some (a, others)) : items.length = others.length + 1 := by
  induction items generalizing a others with
  | nil => simp [pick] at h
  | cons b rest ih =>
    simp only [pick] at h
    split at h
    · cases h
      rfl
    · obtain ⟨⟨found, others'⟩, hp, he⟩ := Option.map_eq_some_iff.1 h
      cases he
      simp [ih hp]

/-- Trees, and the items that still wait for a place, no more than there were before. -/
abbrev Grown (α : Type) (waiting : List α) :=
  { grown : List (Tree α) × List α // grown.2.length ≤ waiting.length }

/-- Takes the items that hang from `id` out of the waiting ones, in order, each with all that
hangs from it in turn. -/
def grow (token : α → Token) (id : Option String) (waiting : List α) : Grown α waiting :=
  match id with
  | none => ⟨([], waiting), Nat.le_refl _⟩
  | some name =>
    match h : pick token name waiting with
    | none => ⟨([], waiting), Nat.le_refl _⟩
    | some (a, others) =>
      have hlen := pick_length h
      let ⟨(inner, left), hleft⟩ := grow token (token a).id others
      have hle : left.length ≤ others.length := hleft
      let ⟨(next, last), hlast⟩ := grow token (some name) left
      have hle' : last.length ≤ left.length := hlast
      ⟨(.node a inner :: next, last), by
        show last.length ≤ waiting.length
        omega⟩
termination_by waiting.length
decreasing_by all_goals omega

/-- Grows one tree from each root in turn. -/
def plant (token : α → Token) : List α → List α → List (Tree α) × List α
  | [], waiting => ([], waiting)
  | root :: roots, waiting =>
    let inner := (grow token (token root).id waiting).1
    let next := plant token roots inner.2
    (.node root inner.1 :: next.1, next.2)

/-- The trees of all roots, and the items that none of them reaches. -/
structure Linked (α : Type) where
  trees : List (Tree α)
  unreachable : List α

def link (token : α → Token) (items : List α) : Linked α :=
  let planted :=
    plant token (items.filter fun a => (token a).isRoot) (items.filter fun a => !(token a).isRoot)
  ⟨planted.1, planted.2⟩

/-- Tokens linked to each other: each hangs from the one that declares its parent id. -/
def ofTokens (tokens : List Token) : Linked Token := link id tokens

end TradeChat.Linkage
