import TradeChat.Notation.Reader
import TradeChat.Proofs.Text.Pieces

namespace TradeChat.Notation
open Text

/-- An id that can stand among arguments. -/
structure IsName (id : String) : Prop where
  lower : isId id.toList = true
  plain : ∀ c ∈ id.toList, c ≠ ',' ∧ c ≠ ')'
  tight : Tight id.toList

/-- A value that can stand in quotes among arguments. -/
structure IsValue (value : String) : Prop where
  plain : ∀ c ∈ value.toList, c ≠ ',' ∧ c ≠ ')' ∧ isQuote c = false
  tight : Tight value.toList

/-- What holds of the tokens of a line. -/
structure WellFormed (ts : List Token) : Prop where
  either : ∀ t ∈ ts, t.id.isSome = t.value.isNone
  rooted : ∀ t ∈ ts, t.parent = none → t.id.isSome = true
  distinct : (ts.filterMap Token.id).Nodup
  earlier : ∀ before t after, ts = before ++ t :: after →
    ∀ p ∈ t.parent, ∃ a ∈ before, a.id = some p
  name : ∀ t ∈ ts, ∀ id ∈ t.id, IsName id
  value : ∀ t ∈ ts, ∀ v ∈ t.value, IsValue v

/-- What one token may say when the ids in `declared` were declared before it. -/
structure Introduces (declared : List String) (t : Token) : Prop where
  either : t.id.isSome = t.value.isNone
  rooted : t.parent = none → t.id.isSome = true
  fresh : ∀ id ∈ t.id, id ∉ declared
  known : ∀ p ∈ t.parent, p ∈ declared
  name : ∀ id ∈ t.id, IsName id
  value : ∀ v ∈ t.value, IsValue v

/-- Tokens that add to the declared ids one by one. -/
inductive Declares : List String → List Token → Prop
  | nil (declared : List String) : Declares declared []
  | cons {declared : List String} {t : Token} {ts : List Token} : Introduces declared t →
      Declares (t.id.toList ++ declared) ts → Declares declared (t :: ts)

namespace Declares

variable {declared : List String} {ts : List Token}

theorem each (h : Declares declared ts) : ∀ t ∈ ts, ∃ before, Introduces before t := by
  induction h with
  | nil => simp
  | cons ht hts ih => exact List.forall_mem_cons.mpr ⟨⟨_, ht⟩, ih⟩

theorem fresh (h : Declares declared ts) : ∀ id ∈ ts.filterMap Token.id, id ∉ declared := by
  induction h with
  | nil => simp
  | @cons declared t ts ht hts ih =>
    intro id hid
    obtain ⟨u, hu, hown⟩ := List.mem_filterMap.mp hid
    rcases List.mem_cons.mp hu with rfl | hu
    · exact ht.fresh id hown
    · intro hold
      exact ih id (List.mem_filterMap.mpr ⟨u, hu, hown⟩) (List.mem_append_right _ hold)

theorem distinct (h : Declares declared ts) : (ts.filterMap Token.id).Nodup := by
  induction h with
  | nil => exact List.nodup_nil
  | @cons declared t ts ht hts ih =>
    cases hid : t.id with
    | none => rwa [List.filterMap_cons_none hid]
    | some id =>
      rw [List.filterMap_cons_some hid, List.nodup_cons]
      refine ⟨?_, ih⟩
      intro hlater
      exact hts.fresh id hlater (by simp [hid])

theorem earlier (h : Declares declared ts) {before after : List Token} {t : Token}
    (hsplit : ts = before ++ t :: after) {p : String} (hp : t.parent = some p) :
    p ∈ declared ∨ ∃ a ∈ before, a.id = some p := by
  induction h generalizing before with
  | nil => simp at hsplit
  | @cons declared u ts hu hts ih =>
    cases before with
    | nil =>
      obtain ⟨rfl, -⟩ := List.cons.inj hsplit
      exact Or.inl (hu.known p hp)
    | cons b before =>
      obtain ⟨rfl, htail⟩ := List.cons.inj hsplit
      rcases ih htail with hdeclared | ⟨a, ha, hid⟩
      · rcases List.mem_append.mp hdeclared with hown | hdeclared
        · exact Or.inr ⟨u, List.mem_cons_self, by simpa using hown⟩
        · exact Or.inl hdeclared
      · exact Or.inr ⟨a, List.mem_cons_of_mem u ha, hid⟩

theorem wellFormed (h : Declares [] ts) : WellFormed ts := by
  refine ⟨?_, ?_, h.distinct, ?_, ?_, ?_⟩
  · intro t ht
    obtain ⟨_, hi⟩ := h.each t ht
    exact hi.either
  · intro t ht
    obtain ⟨_, hi⟩ := h.each t ht
    exact hi.rooted
  · intro before t after hsplit p hp
    rcases h.earlier hsplit hp with hnone | hbefore
    · cases hnone
    · exact hbefore
  · intro t ht
    obtain ⟨_, hi⟩ := h.each t ht
    exact hi.name
  · intro t ht
    obtain ⟨_, hi⟩ := h.each t ht
    exact hi.value

end Declares

/-- The tokens that follow some others, when the ids of those are declared. -/
theorem WellFormed.declares_after {before ts : List Token} (h : WellFormed (before ++ ts))
    {declared : List String} (hd : ∀ id, id ∈ declared ↔ ∃ a ∈ before, a.id = some id) :
    Declares declared ts := by
  induction ts generalizing before declared with
  | nil => exact .nil declared
  | cons t ts ih =>
    have ht : t ∈ before ++ t :: ts := List.mem_append_right before List.mem_cons_self
    refine .cons ⟨h.either t ht, h.rooted t ht, ?_, ?_, h.name t ht, h.value t ht⟩ ?_
    · intro id hid hold
      obtain ⟨a, ha, haid⟩ := (hd id).mp hold
      have hdistinct := h.distinct
      rw [List.filterMap_append, List.nodup_append] at hdistinct
      exact hdistinct.2.2 id (List.mem_filterMap.mpr ⟨a, ha, haid⟩) id
        (List.mem_filterMap.mpr ⟨t, List.mem_cons_self, hid⟩) rfl
    · intro p hp
      exact (hd p).mpr (h.earlier before t ts rfl p hp)
    · have hnext : WellFormed ((before ++ [t]) ++ ts) := by
        rwa [List.append_assoc, List.singleton_append]
      apply ih hnext
      intro id
      rw [List.mem_append, hd]
      constructor
      · rintro (hid | ⟨a, ha, hid⟩)
        · exact ⟨t, by simp, by simpa using hid⟩
        · exact ⟨a, List.mem_append_left _ ha, hid⟩
      · rintro ⟨a, ha, hid⟩
        rcases List.mem_append.mp ha with ha | ha
        · exact Or.inr ⟨a, ha, hid⟩
        · rw [List.mem_singleton.mp ha] at hid
          exact Or.inl (by simp [hid])

theorem WellFormed.declares {ts : List Token} (h : WellFormed ts) : Declares [] ts :=
  @WellFormed.declares_after [] ts h [] (by simp)

end TradeChat.Notation
