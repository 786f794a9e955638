import TradeChat.Proofs.Text.Pieces
import TradeChat.Proofs.Text.Utf8
import TradeChat.Stream

namespace TradeChat.Stream
open Text

/-- Lines that a newline ends, and a tail without one. -/
structure Pieces (input : List UInt8) (ended : List (List UInt8)) (tail : List UInt8) : Prop where
  whole : input = ended.flatMap (· ++ [10]) ++ tail
  ended : ∀ line ∈ ended, 10 ∉ line
  tail : 10 ∉ tail

theorem split_newline (rest : List UInt8) :
    split (10 :: rest) = ([] :: (split rest).1, (split rest).2) := rfl

theorem split_other {b : UInt8} (hb : b ≠ 10) (rest : List UInt8) :
    split (b :: rest) = match (split rest).1 with
      | [] => ([], b :: (split rest).2)
      | line :: more => ((b :: line) :: more, (split rest).2) := if_neg hb

theorem split_tail {tail : List UInt8} (h : 10 ∉ tail) : split tail = ([], tail) := by
  induction tail with
  | nil => rfl
  | cons b rest ih =>
    rw [List.mem_cons, not_or] at h
    obtain ⟨hb, hrest⟩ := h
    rw [split_other (Ne.symm hb), ih hrest]

theorem split_line {line : List UInt8} (h : 10 ∉ line) (rest : List UInt8) :
    split (line ++ 10 :: rest) = (line :: (split rest).1, (split rest).2) := by
  induction line with
  | nil => exact split_newline rest
  | cons b line ih =>
    rw [List.mem_cons, not_or] at h
    obtain ⟨hb, hline⟩ := h
    rw [List.cons_append, split_other (Ne.symm hb), ih hline]

/-- Input falls into its pieces in one way only. -/
theorem Pieces.split_eq {input tail : List UInt8} {ended : List (List UInt8)}
    (h : Pieces input ended tail) : split input = (ended, tail) := by
  obtain ⟨rfl, hended, htail⟩ := h
  induction ended with
  | nil => exact split_tail htail
  | cons line rest ih =>
    obtain ⟨hline, hrest⟩ := List.forall_mem_cons.mp hended
    rw [List.flatMap_cons, List.append_assoc, List.append_assoc, List.singleton_append,
      split_line hline, ih hrest]

theorem pieces_exist (input : List UInt8) : ∃ ended tail, Pieces input ended tail := by
  induction input with
  | nil => exact ⟨[], [], rfl, by simp, by simp⟩
  | cons b rest ih =>
    obtain ⟨ended, tail, rfl, hended, htail⟩ := ih
    by_cases hb : b = 10
    · subst hb
      exact ⟨[] :: ended, tail, rfl, List.forall_mem_cons.mpr ⟨by simp, hended⟩, htail⟩
    · have hcons : ∀ {l : List UInt8}, 10 ∉ l → 10 ∉ b :: l := by
        intro l hl
        rw [List.mem_cons, not_or]
        exact ⟨Ne.symm hb, hl⟩
      cases ended with
      | nil => exact ⟨[], b :: tail, rfl, by simp, hcons htail⟩
      | cons line more =>
        obtain ⟨hline, hmore⟩ := List.forall_mem_cons.mp hended
        exact ⟨(b :: line) :: more, tail, rfl,
          List.forall_mem_cons.mpr ⟨hcons hline, hmore⟩, htail⟩

/-- Nothing is left behind the last newline of input that is empty or ends in one. -/
theorem Pieces.tail_nil {input tail : List UInt8} {ended : List (List UInt8)}
    (h : Pieces input ended tail) (hinput : input = [] ∨ input.getLast? = some 10) : tail = [] := by
  rcases hinput with rfl | hlast
  · exact (List.append_eq_nil_iff.mp h.whole.symm).2
  · rw [h.whole, List.getLast?_append] at hlast
    cases hend : tail.getLast? with
    | none => exact List.getLast?_eq_none_iff.mp hend
    | some b =>
      rw [hend, Option.some_or] at hlast
      cases hlast
      exact absurd (List.mem_of_getLast? hend) h.tail

theorem Pieces.append {x y tail : List UInt8} {ended more : List (List UInt8)}
    (hx : Pieces x ended []) (hy : Pieces y more tail) : Pieces (x ++ y) (ended ++ more) tail := by
  refine ⟨?_, ?_, hy.tail⟩
  · rw [hx.whole, hy.whole, List.append_nil, List.flatMap_append, List.append_assoc]
  · intro line hline
    rcases List.mem_append.mp hline with hline | hline
    · exact hx.ended line hline
    · exact hy.ended line hline

/-- The lines of some input: those that a newline ends, and what stands behind the last one, unless
that is nothing. -/
def allLines (ended : List (List UInt8)) (tail : List UInt8) : List (List UInt8) :=
  ended ++ if tail = [] then [] else [tail]

theorem Pieces.delivered {input tail : List UInt8} {ended : List (List UInt8)}
    (h : Pieces input ended tail) : delivered false input = allLines ended tail := by
  rw [Stream.delivered, h.split_eq, allLines]
  cases tail with
  | nil => simp
  | cons b rest => simp

theorem Pieces.delivered_failing {input tail : List UInt8} {ended : List (List UInt8)}
    (h : Pieces input ended tail) : Stream.delivered true input = ended := by
  rw [Stream.delivered, h.split_eq]
  simp

/-- Lines of joined inputs, of which the first is empty or ends in a newline. -/
theorem delivered_append {x : List UInt8} (hx : x = [] ∨ x.getLast? = some 10) (y : List UInt8) :
    delivered false (x ++ y) = delivered false x ++ delivered false y := by
  obtain ⟨ended, tail, hpx⟩ := pieces_exist x
  obtain ⟨more, rest, hpy⟩ := pieces_exist y
  have htail := hpx.tail_nil hx
  subst htail
  rw [(hpx.append hpy).delivered, hpx.delivered, hpy.delivered]
  simp only [allLines, ↓reduceIte, List.append_nil, List.append_assoc]

theorem newline_free {ended : List (List UInt8)} {tail input : List UInt8}
    (h : Pieces input ended tail) : ∀ line ∈ allLines ended tail, 10 ∉ line := by
  intro line hline
  rcases List.mem_append.mp hline with hline | hline
  · exact h.ended line hline
  · split at hline
    · cases hline
    · rw [List.mem_singleton.mp hline]
      exact h.tail

/-- Text that is written as bytes falls into the same lines. -/
theorem pieces_encode {contents : String} {ended : List (List Char)} {tail : List Char}
    (h : fields '\n' contents.toList = ended ++ [tail]) :
    Pieces (Utf8.encode contents) (ended.map fun line => Utf8.encode (String.ofList line))
      (Utf8.encode (String.ofList tail)) := by
  have hfree : ∀ line ∈ ended ++ [tail], 10 ∉ Utf8.encode (String.ofList line) := by
    intro line hline
    rw [← List.count_eq_zero, Utf8.count_encode, String.toList_ofList, List.count_eq_zero]
    exact fun hn => (mem_fields (h ▸ hline) _ hn).2 rfl
  refine ⟨?_, ?_, hfree tail (by simp)⟩
  · obtain ⟨before, last, hfields, hwhole⟩ := fields_split '\n' contents.toList
    obtain ⟨rfl, hlast⟩ := List.append_inj' (h.symm.trans hfields) rfl
    cases hlast
    rw [Utf8.encode_eq, hwhole, Utf8.encode_ofList, List.flatMap_append, List.flatMap_assoc,
      List.flatMap_map]
    simp only [List.flatMap_append, Utf8.encode_ofList]
    rfl
  · intro line hline
    obtain ⟨cs, hcs, rfl⟩ := List.mem_map.mp hline
    exact hfree cs (List.mem_append_left _ hcs)

end TradeChat.Stream
