import Mathlib.Tactic.Positivity
import TradeChat.Proofs.Decimal.Nearest

namespace TradeChat.Decimal

/-- An interval around `n` thousandths that is narrower than a thousandth. -/
structure Pins (i : Interval) (n : Nat) : Prop where
  low_le : i.low ≤ i.value
  le_high : i.value ≤ i.high
  narrow : i.high * 1000 < i.low * 1000 + i.den
  contains : i.Contains n 1000

/-- The numeral of `n` thousandths with the fewest places. -/
structure Numeral.Says (d : Numeral) (n : Nat) : Prop where
  exact : d.num * 1000 = n * d.den
  plain : d.zeros = 0 ∨ d.places = 0
  least : ∀ p < d.places, ¬ 1000 ∣ n * 10 ^ p

section Grids

variable {i : Interval} {zeros places : Nat}

/-- A value less than a step away from a point of a grid. -/
theorem div_beside {value grid c : Nat} (hlow : c * grid < value + grid)
    (hhigh : value < c * grid + grid) : value / grid = c ∨ value / grid + 1 = c := by
  have hgrid : 0 < grid := by omega
  have hle : value / grid < c + 1 := by
    rwa [Nat.div_lt_iff_lt_mul hgrid, Nat.succ_mul]
  have hge : c ≤ value / grid + 1 := by
    rw [← Nat.add_div_right value hgrid]
    exact (Nat.le_div_iff_mul_le hgrid).mpr hlow.le
  omega

theorem onGrid_some {d : Numeral} (h : onGrid? i zeros places = some d) :
    d.readsBackIn i = true ∧ d.zeros = zeros ∧ d.places = places := by
  obtain ⟨hreads, hd⟩ : d.readsBackIn i = true ∧
      (d = (neighbours i zeros places).1 ∨ d = (neighbours i zeros places).2) := by
    unfold onGrid? at h
    generalize neighbours i zeros places = pair at h ⊢
    simp only at h
    split at h
    · rename_i hbelow
      split at h <;> cases h
      · rename_i habove
        exact ⟨(Bool.and_eq_true_iff.mp habove).1, Or.inr rfl⟩
      · exact ⟨hbelow, Or.inl rfl⟩
    · split at h <;> cases h
      exact ⟨‹_›, Or.inr rfl⟩
  rcases hd with rfl | rfl <;> exact ⟨hreads, rfl, rfl⟩

theorem onGrid_none (h : onGrid? i zeros places = none) :
    (neighbours i zeros places).1.readsBackIn i = false ∧
      (neighbours i zeros places).2.readsBackIn i = false := by
  unfold onGrid? at h
  generalize neighbours i zeros places = pair at h ⊢
  simp only at h
  split at h
  · split at h <;> cases h
  · rename_i hbelow
    split at h
    · cases h
    · rename_i habove
      exact ⟨Bool.eq_false_iff.mpr hbelow, Bool.eq_false_iff.mpr habove⟩

end Grids

namespace Pins

variable {i : Interval} {n zeros places : Nat}

theorem unique (h : Pins i n) {k : Nat} (hk : i.Contains k 1000) : k = n := by
  have := h.narrow
  obtain ⟨hlow, hhigh⟩ := h.contains.bounds
  obtain ⟨hklow, hkhigh⟩ := hk.bounds
  have hle : k < n + 1 := by
    refine Nat.lt_of_mul_lt_mul_right (a := i.den) ?_
    rw [Nat.succ_mul]
    omega
  have hge : n < k + 1 := by
    refine Nat.lt_of_mul_lt_mul_right (a := i.den) ?_
    rw [Nat.succ_mul]
    omega
  omega

/-- Of the numerals with at most three places only those of the number itself read back. -/
theorem readsBackIn_iff (h : Pins i n) {d : Numeral} (hd : d.places ≤ 3) :
    d.readsBackIn i = true ↔ d.num * 1000 = n * d.den := by
  have hden : 0 < d.den := Nat.pow_pos (by decide)
  have hscale : d.den * 10 ^ (3 - d.places) = 1000 := by
    rw [Numeral.den, Nat.pow_eq, ← pow_add, Nat.add_sub_cancel' hd]
    rfl
  rw [d.readsBackIn_iff]
  constructor
  · intro hin
    have hthousandths : d.num * 1000 = d.num * 10 ^ (3 - d.places) * d.den := by
      rw [← hscale]
      ring
    rw [Interval.contains_congr hden (by decide) hthousandths] at hin
    rw [hthousandths, h.unique hin]
  · intro hexact
    exact (Interval.contains_congr hden (by decide) hexact).mpr h.contains

/-- The value of the interval is less than a thousandth away. -/
theorem value_near (h : Pins i n) :
    n * i.den < i.value * 1000 + i.den ∧ i.value * 1000 < n * i.den + i.den := by
  have := h.narrow
  obtain ⟨hlow, hhigh⟩ := h.contains.bounds
  have hvalue_low : i.low * 1000 ≤ i.value * 1000 := Nat.mul_le_mul_right _ h.low_le
  have hvalue_high : i.value * 1000 ≤ i.high * 1000 := Nat.mul_le_mul_right _ h.le_high
  omega

/-- On a grid that has the number it is one of the two neighbours of the value. -/
theorem neighbour (h : Pins i n) (hplaces : places ≤ 3) {c : Nat}
    (hc : n * 10 ^ places = 1000 * 10 ^ zeros * c) :
    let q := i.value * 10 ^ places / (i.den * 10 ^ zeros)
    q = c ∨ q + 1 = c := by
  obtain ⟨hbelow, habove⟩ := h.value_near
  have hplace : 0 < 10 ^ places := Nat.pow_pos (by decide)
  -- No grid is finer than the thousandths.
  have hstep : i.den * 10 ^ places ≤ 1000 * (i.den * 10 ^ zeros) :=
    calc i.den * 10 ^ places
        ≤ i.den * (1000 * 10 ^ zeros) := by
          gcongr
          calc 10 ^ places ≤ 10 ^ 3 := Nat.pow_le_pow_right (by decide) hplaces
            _ ≤ 1000 * 10 ^ zeros := Nat.le_mul_of_pos_right 1000 (Nat.pow_pos (by decide))
      _ = 1000 * (i.den * 10 ^ zeros) := Nat.mul_left_comm _ _ _
  have hexact : n * i.den * 10 ^ places = 1000 * (c * (i.den * 10 ^ zeros)) := by
    rw [Nat.mul_right_comm, hc]
    ring
  refine div_beside ?_ ?_
  · refine Nat.lt_of_mul_lt_mul_left (a := 1000) ?_
    calc 1000 * (c * (i.den * 10 ^ zeros))
        = n * i.den * 10 ^ places := hexact.symm
      _ < (i.value * 1000 + i.den) * 10 ^ places := Nat.mul_lt_mul_of_pos_right hbelow hplace
      _ = 1000 * (i.value * 10 ^ places) + i.den * 10 ^ places := by ring
      _ ≤ 1000 * (i.value * 10 ^ places) + 1000 * (i.den * 10 ^ zeros) := by gcongr
      _ = 1000 * (i.value * 10 ^ places + i.den * 10 ^ zeros) := (Nat.mul_add _ _ _).symm
  · refine Nat.lt_of_mul_lt_mul_left (a := 1000) ?_
    calc 1000 * (i.value * 10 ^ places)
        = i.value * 1000 * 10 ^ places := by ring
      _ < (n * i.den + i.den) * 10 ^ places := Nat.mul_lt_mul_of_pos_right habove hplace
      _ = 1000 * (c * (i.den * 10 ^ zeros)) + i.den * 10 ^ places := by rw [Nat.add_mul, hexact]
      _ ≤ 1000 * (c * (i.den * 10 ^ zeros)) + 1000 * (i.den * 10 ^ zeros) := by gcongr
      _ = 1000 * (c * (i.den * 10 ^ zeros) + i.den * 10 ^ zeros) := (Nat.mul_add _ _ _).symm

/-- A grid that has the number offers it. -/
theorem onGrid_ne_none (h : Pins i n) (hplaces : places ≤ 3)
    (hdvd : 1000 * 10 ^ zeros ∣ n * 10 ^ places) : onGrid? i zeros places ≠ none := by
  intro hnone
  obtain ⟨c, hc⟩ := hdvd
  have hreads : Numeral.readsBackIn ⟨c, zeros, places⟩ i = true := by
    refine (h.readsBackIn_iff hplaces).mpr ?_
    simp only [Numeral.num, Numeral.den, Nat.pow_eq, hc]
    ring
  obtain ⟨hbelow, habove⟩ := onGrid_none hnone
  simp only [neighbours, Nat.pow_eq] at hbelow habove
  rcases h.neighbour hplaces hc with hq | hq
  · rw [hq, hreads] at hbelow
    cases hbelow
  · rw [hq, hreads] at habove
    cases habove

/-- From coarse grids to fine ones, the first that has the number ends the search. -/
theorem search (h : Pins i n) {count : Nat} (hcount : zeros + 3 < count + places)
    (hplaces : places ≤ 3) (hplain : zeros = 0 ∨ places = 0)
    (hleast : ∀ p < places, ¬ 1000 ∣ n * 10 ^ p) :
    ∃ d, Decimal.search i count zeros places = some d ∧ d.Says n := by
  -- Over the grids that are left; that no coarser one has the number goes along as `hleast`.
  induction count generalizing zeros places with
  | zero => omega
  | succ count ih =>
    unfold Decimal.search
    cases hgrid : onGrid? i zeros places with
    | some d =>
      obtain ⟨hreads, rfl, rfl⟩ := onGrid_some hgrid
      exact ⟨d, rfl, (h.readsBackIn_iff hplaces).mp hreads, hplain, hleast⟩
    | none =>
      cases zeros with
      | succ zeros =>
        obtain rfl : places = 0 := hplain.resolve_left (Nat.succ_ne_zero zeros)
        exact ih (by omega) hplaces (Or.inr rfl) hleast
      | zero =>
        have hnot : ¬ 1000 ∣ n * 10 ^ places := by
          intro hdvd
          rw [← Nat.mul_one 1000, ← pow_zero 10] at hdvd
          exact h.onGrid_ne_none hplaces hdvd hgrid
        have hmore : places ≠ 3 := by
          rintro rfl
          exact hnot (Nat.dvd_mul_left 1000 n)
        refine ih (by omega) (by omega) (Or.inl rfl) fun p hp => ?_
        rcases Nat.lt_succ_iff_lt_or_eq.mp hp with hp | rfl
        · exact hleast p hp
        · exact hnot

end Pins

section Shortest

variable {n : Nat}

/-- Up to 2 ^ 42 the quotient by 1000, rounded to 53 bits, still tells the thousandths apart. -/
theorem nearest_pins (hpos : 0 < n) (hn : n < 1000 * 2 ^ 42) :
    let whole := nearest n 1
    Pins (interval (nearest whole.num (whole.den * 1000))) n := by
  have hwhole : (nearest n 1).num = n * (nearest n 1).den :=
    nearest_whole hpos (hn.trans (by decide))
  have hden : 0 < (nearest n 1).den := Nat.pow_pos (by decide)
  simp only
  generalize (nearest n 1).den = den at hwhole hden
  rw [hwhole]
  have hnum : 0 < n * den := Nat.mul_pos hpos hden
  have hscaled : 0 < den * 1000 := by omega
  obtain ⟨hlow, hhigh, hwidth⟩ := interval_width (nearest (n * den) (den * 1000))
  have hstep : 1000 * 2 ^ (nearest (n * den) (den * 1000)).up <
      2 ^ (nearest (n * den) (den * 1000)).down := by
    refine nearest_step hnum hscaled ?_
    calc n * den < 1000 * 2 ^ 42 * den := Nat.mul_lt_mul_of_pos_right hn hden
      _ = 2 ^ 42 * (den * 1000) := by ring
  have hcontains := nearest_contains hnum hscaled
  rw [Interval.contains_congr hscaled (by decide : 0 < 1000) (Nat.mul_assoc n den 1000)]
    at hcontains
  refine ⟨hlow, hhigh, ?_, hcontains⟩
  change _ < _ + 4 * 2 ^ (nearest (n * den) (den * 1000)).down
  omega

theorem shortest_says (hpos : 0 < n) (hn : n < 1000 * 2 ^ 42) :
    let whole := nearest n 1
    ∃ d, shortest (nearest whole.num (whole.den * 1000)) = some d ∧ d.Says n := by
  have hpins := nearest_pins hpos hn
  simp only at hpins ⊢
  unfold shortest
  generalize interval (nearest (nearest n 1).num ((nearest n 1).den * 1000)) = i at hpins
  refine hpins.search ?_ (Nat.zero_le 3) (Or.inr rfl) fun p hp => absurd hp (Nat.not_lt_zero p)
  have hvalue : i.value / i.den < 2 ^ 42 := by
    obtain ⟨hbelow, habove⟩ := hpins.value_near
    refine (Nat.div_lt_iff_lt_mul (by omega)).mpr ?_
    have hmost : (n + 1) * i.den ≤ 1000 * 2 ^ 42 * i.den := Nat.mul_le_mul_right _ hn
    rw [Nat.succ_mul] at hmost
    omega
  have hwidth : width (i.value / i.den) ≤ 13 :=
    (Nat.length_toDigits_le_iff (by decide) (by decide)).mpr (hvalue.trans (by decide))
  omega

end Shortest

end TradeChat.Decimal
