import TradeChat.Stream

namespace TradeChat.Stream
open Text.Utf8

/-- The bytes that writes bring to a channel. -/
def bytesOn (c : Channel) (ws : List Write) : List UInt8 :=
  (ws.filter (·.channel = c)).flatMap fun w => encode w.text

theorem bytesOn_append (c : Channel) (ws more : List Write) :
    bytesOn c (ws ++ more) = bytesOn c ws ++ bytesOn c more := by
  rw [bytesOn, List.filter_append, List.flatMap_append]
  rfl

theorem bytesOn_own (w : Write) (ws : List Write) :
    bytesOn w.channel (w :: ws) = encode w.text ++ bytesOn w.channel ws := by
  rw [bytesOn, List.filter_cons_of_pos (by simp), List.flatMap_cons]
  rfl

theorem bytesOn_other {c : Channel} {w : Write} (h : w.channel ≠ c) (ws : List Write) :
    bytesOn c (w :: ws) = bytesOn c ws := by
  rw [bytesOn, List.filter_cons_of_neg (by simpa using h)]
  rfl

namespace Sink

theorem fits_nil (s : Sink) : s.fits [] = true := by
  cases h : s.room <;> simp [fits, h]

/-- Bytes in two parts fit if the second part fits into what the first leaves. -/
theorem fits_append (s : Sink) (first second : List UInt8) :
    s.fits (first ++ second) = true ↔ s.fits first = true ∧ (s.write first).fits second = true := by
  cases h : s.room with
  | none => simp [fits, write, h]
  | some n =>
    simp only [fits, write, h, Option.map_some, Option.all_some, decide_eq_true_eq,
      List.length_append]
    omega

theorem taken_fits {s : Sink} {bytes : List UInt8} (h : s.fits bytes = true) :
    (s.write bytes).taken = s.taken ++ bytes := by
  rw [taken_write]
  cases hroom : s.room with
  | none => rfl
  | some n =>
    simp only [fits, hroom, Option.all_some, decide_eq_true_eq] at h
    exact congrArg (s.taken ++ ·) (List.take_of_length_le h)

theorem taken_starts (s : Sink) (bytes : List UInt8) :
    (s.write bytes).taken <+: s.taken ++ bytes := by
  rw [taken_write, List.prefix_append_right_inj]
  cases s.room with
  | none => exact List.prefix_rfl
  | some n => exact List.take_prefix n bytes

end Sink

namespace Sinks

theorem sink_own (s : Sinks) (w : Write) :
    (s.write w).sink w.channel = (s.sink w.channel).write (encode w.text) := by
  obtain ⟨channel, text⟩ := w
  cases channel <;> rfl

theorem sink_other (s : Sinks) {w : Write} {c : Channel} (h : w.channel ≠ c) :
    (s.write w).sink c = s.sink c := by
  obtain ⟨channel, text⟩ := w
  cases channel <;> cases c <;> first | rfl | exact absurd rfl h

theorem writeAll_append (s : Sinks) (ws more : List Write) :
    s.writeAll (ws ++ more) =
      if (s.writeAll ws).2 then (s.writeAll ws).1.writeAll more else s.writeAll ws := by
  induction ws generalizing s with
  | nil => rfl
  | cons w ws ih =>
    rw [List.cons_append, writeAll, writeAll, ih]
    split <;> rfl

/-- All is written exactly if each sink has room for all that comes to it. -/
theorem writeAll_fits (s : Sinks) (ws : List Write) :
    (s.writeAll ws).2 = true ↔ ∀ c, (s.sink c).fits (bytesOn c ws) = true := by
  induction ws generalizing s with
  | nil => simpa [writeAll, bytesOn] using fun c => (s.sink c).fits_nil
  | cons w ws ih =>
    rw [writeAll]
    split
    · rename_i hw
      rw [ih]
      constructor
      · intro h c
        by_cases hc : w.channel = c
        · subst hc
          rw [bytesOn_own, Sink.fits_append, ← sink_own]
          exact ⟨hw, h w.channel⟩
        · rw [bytesOn_other hc, ← sink_other s hc]
          exact h c
      · intro h c
        by_cases hc : w.channel = c
        · subst hc
          have hown := h w.channel
          rw [bytesOn_own, Sink.fits_append, ← sink_own] at hown
          exact hown.2
        · have hother := h c
          rwa [bytesOn_other hc, ← sink_other s hc] at hother
    · rename_i hw
      constructor
      · intro h
        cases h
      · intro h
        have hown := h w.channel
        rw [bytesOn_own, Sink.fits_append] at hown
        exact absurd hown.1 hw

/-- A write that fits passes its bytes on from what comes to a sink to what it has taken. -/
theorem taken_write {s : Sinks} {w : Write}
    (h : (s.sink w.channel).fits (encode w.text) = true) (ws : List Write) (c : Channel) :
    ((s.write w).sink c).taken ++ bytesOn c ws = (s.sink c).taken ++ bytesOn c (w :: ws) := by
  by_cases hc : w.channel = c
  · subst hc
    rw [sink_own, Sink.taken_fits h, bytesOn_own, List.append_assoc]
  · rw [sink_other s hc, bytesOn_other hc]

theorem writeAll_taken {s : Sinks} {ws : List Write} (h : (s.writeAll ws).2 = true) (c : Channel) :
    ((s.writeAll ws).1.sink c).taken = (s.sink c).taken ++ bytesOn c ws := by
  induction ws generalizing s with
  | nil => exact (List.append_nil _).symm
  | cons w ws ih =>
    rw [writeAll] at h ⊢
    split at h
    · rename_i hw
      rw [if_pos hw, ih h, taken_write hw]
    · cases h

/-- What a sink has taken in the end is a first part of what came to it. -/
theorem writeAll_starts (s : Sinks) (ws : List Write) (c : Channel) :
    ((s.writeAll ws).1.sink c).taken <+: (s.sink c).taken ++ bytesOn c ws := by
  induction ws generalizing s with
  | nil => exact List.prefix_append _ _
  | cons w ws ih =>
    rw [writeAll]
    split
    · rename_i hw
      rw [← taken_write hw]
      exact ih (s.write w)
    · by_cases hc : w.channel = c
      · subst hc
        rw [sink_own, bytesOn_own, ← List.append_assoc]
        exact ((s.sink w.channel).taken_starts _).trans (List.prefix_append _ _)
      · rw [sink_other s hc]
        exact List.prefix_append _ _

end Sinks

end TradeChat.Stream
