import TradeChat.Proofs.Stream.Running

namespace TradeChat.Stream

/-- Sinks that have not taken anything yet, each with its room. -/
def Sinks.limited (room : Channel → Option Nat) : Sinks := ⟨⟨room .out, []⟩, ⟨room .err, []⟩⟩

theorem Sinks.limited_fits (room : Channel → Option Nat) (c : Channel) (bytes : List UInt8) :
    ((Sinks.limited room).sink c).fits bytes = (room c).all (bytes.length ≤ ·) := by
  cases c <;> rfl

theorem Sinks.limited_taken (room : Channel → Option Nat) (c : Channel) :
    ((Sinks.limited room).sink c).taken = [] := by
  cases c <;> rfl

/-- What little room does to a run that writes all it has to write where there is room for it, and
that would come to the given end. -/
structure Truncates (room : Channel → Option Nat) (full cut : Report)
    (ending : Except Failure Summary) : Prop where
  starts : ∀ c, (cut.sinks.sink c).taken <+: (full.sinks.sink c).taken
  whole : (∀ c, ∀ n ∈ room c, (full.sinks.sink c).taken.length ≤ n) →
    (∀ c, (cut.sinks.sink c).taken = (full.sinks.sink c).taken) ∧ cut.result = ending
  broken : (∃ c, ∃ n ∈ room c, n < (full.sinks.sink c).taken.length) →
    cut.result = .error .write

theorem fits_iff {room : Channel → Option Nat} {ws : List Write} :
    ((Sinks.limited room).writeAll ws).2 = true ↔
      ∀ c, ∀ n ∈ room c, (bytesOn c ws).length ≤ n := by
  rw [Sinks.writeAll_fits]
  apply forall_congr'
  intro c
  rw [Sinks.limited_fits, Option.all_eq_true]
  simp only [decide_eq_true_eq, Option.mem_def]

/-- Runs over the same lines, one of them with limited room and perhaps with a reader that fails
after the lines. -/
theorem truncates_of_lines {s : Session} {room : Channel → Option Nat} {readFails : Bool}
    {input given : List UInt8} (h : delivered readFails input = delivered false given) :
    Truncates room (runOn s {} false given) (runOn s (.limited room) readFails input)
      (if readFails then .error .read
        else .ok (total s.settings (delivered false given))) := by
  have hresult := runOn_result s (.limited room) readFails input
  have hsinks := runOn_sinks s (.limited room) readFails input
  rw [h] at hresult hsinks
  refine ⟨?_, ?_, ?_⟩
  · intro c
    have hstarts := Sinks.writeAll_starts (.limited room)
      (printed s.settings (delivered false given)) c
    rwa [unlimited_taken, hsinks, ← List.nil_append (bytesOn c _), ← Sinks.limited_taken room c]
  · intro hfits
    simp only [unlimited_taken] at hfits
    have hwritten := fits_iff.mpr hfits
    refine ⟨?_, ?_⟩
    · intro c
      rw [hsinks, unlimited_taken, Sinks.writeAll_taken hwritten, Sinks.limited_taken,
        List.nil_append]
    · rw [hresult, if_pos hwritten]
  · rintro ⟨c, n, hn, hlong⟩
    rw [unlimited_taken] at hlong
    have hbroken : ¬ ((Sinks.limited room).writeAll
        (printed s.settings (delivered false given))).2 = true := by
      rw [fits_iff]
      intro hfits
      exact absurd (hfits c n hn) (by omega)
    rw [hresult, if_neg hbroken]

/-- Failing to write or to read cuts off what is written and does not change it. The lines that a
reader delivers before it fails are those that a newline ends. -/
theorem runOn_truncates (s : Session) (room : Channel → Option Nat) (readFails : Bool)
    (input : List UInt8) :
    ∃ ended tail summary, Pieces input ended tail ∧
      let given := if readFails then ended.flatMap (· ++ [10]) else input
      (runOn s {} false given).result = .ok summary ∧
      Truncates room (runOn s {} false given) (runOn s (.limited room) readFails input)
        (if readFails then .error .read else .ok summary) := by
  obtain ⟨ended, tail, h⟩ := pieces_exist input
  refine ⟨ended, tail, _, h, unlimited_result s _, truncates_of_lines ?_⟩
  cases readFails with
  | false => rfl
  | true =>
    have hwhole : Pieces (ended.flatMap (· ++ [10])) ended [] :=
      ⟨(List.append_nil _).symm, h.ended, by simp⟩
    rw [h.delivered_failing]
    simp only [↓reduceIte, hwhole.delivered, allLines, List.append_nil]

end TradeChat.Stream
