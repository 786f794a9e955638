import TradeChat.Proofs.Notation.Scanning
import TradeChat.Proofs.Text.Casing

namespace TradeChat.Notation
open Text

/-- What holds of all tokens that a line reads as. -/
structure Proper (ts : List Token) : Prop extends WellFormed ts where
  parent : ∀ t ∈ ts, ∀ p ∈ t.parent, IsName p
  named : ∀ t ∈ ts, t.type.toList ≠ []
  plain : ∀ t ∈ ts, '(' ∉ t.type.toList

/-- A parent is an id that was declared, so it is a name as ids are. -/
theorem WellFormed.parent_name {ts : List Token} (h : WellFormed ts) :
    ∀ t ∈ ts, ∀ p ∈ t.parent, IsName p := by
  intro t ht p hp
  obtain ⟨before, after, hsplit⟩ := List.append_of_mem ht
  obtain ⟨a, ha, hid⟩ := h.earlier before t after hsplit p hp
  refine h.name a ?_ p hid
  simp [hsplit, ha]

/-- The type is what stands before the bracket, and a capital at its start adds no bracket. -/
theorem tokenAt_type {declared : List String} {s rest : List Char} {t : Token}
    (h : tokenAt declared s = .ok (t, rest)) :
    t.type.toList ≠ [] ∧ '(' ∉ t.type.toList := by
  obtain ⟨head, inside, body, after, args, -, hhead, hname, -, -, -, rfl, -⟩ := tokenAt_ok.mp h
  simp only [String.toList_ofList]
  refine ⟨capitalize_ne_nil hname, ?_⟩
  intro hopen
  have hmem := capitalize_mark (by decide) (by decide) hopen
  exact hhead _ ((trimEnd_starts head).subset hmem) rfl

theorem tokensFrom_types {declared : List String} {s : List Char} {ts : List Token}
    (h : tokensFrom declared s = .ok ts) :
    ∀ t ∈ ts, t.type.toList ≠ [] ∧ '(' ∉ t.type.toList := by
  fun_induction tokensFrom declared s generalizing ts with
  | case1 declared s hs =>
    cases h
    simp
  | case2 => cases h
  | case3 declared s hs t rest ht ih =>
    obtain ⟨more, hmore, rfl⟩ := map_ok.mp h
    exact List.forall_mem_cons.mpr ⟨tokenAt_type ht, ih hmore⟩

/-- Whatever a scanner has read before, the tokens that it reads off a line are in order: each
declares a new id or carries a value, and hangs from an id that an earlier one declared. -/
theorem read_proper (p : Scanner) {line : String} {ts : List Token}
    (h : (p.read line).1 = .ok ts) : Proper ts := by
  have hparse : parse line = .ok ts := by rwa [Scanner.read_parse] at h
  have hw := parse_wellFormed hparse
  have htypes := tokensFrom_types hparse
  exact ⟨hw, hw.parent_name, fun t ht => (htypes t ht).1, fun t ht => (htypes t ht).2⟩

/-- The tokens of a line with a type that grows by a letter as it is capitalized. -/
def order : List Token :=
  [⟨"SSuy", some "a", none, none, none, true⟩,
    ⟨"Item", some "b", some "a", none, some .or, false⟩,
    ⟨"Name", none, some "b", some "Sword", some .and, false⟩]

/-- The quotes around a value go first, and then the white space inside them. -/
theorem read_proper_reused :
    ((Scanner.mk ["a", "b"]).read "- ßuy( a ); item(a,b), Name(b, '\" Sword)").1 = .ok order ∧
      Proper order := by
  have hread : ((Scanner.mk ["a", "b"]).read "- ßuy( a ); item(a,b), Name(b, '\" Sword)").1 =
      .ok order := by
    decide +kernel
  exact ⟨hread, read_proper _ hread⟩

end TradeChat.Notation
