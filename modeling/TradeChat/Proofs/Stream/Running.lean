import TradeChat.Proofs.Notation.Scanning
import TradeChat.Proofs.Stream.Lines
import TradeChat.Proofs.Stream.Writing

namespace TradeChat

namespace Session

theorem generate_result (s : Session) (line : String) :
    (s.generate line).1 = TradeChat.generate s.settings line := by
  rw [TradeChat.generate, ← s.scanner.read_parse]
  rfl

theorem generate_settings (s : Session) (line : String) :
    (s.generate line).2.settings = s.settings := rfl

end Session

namespace Stream

namespace Summary

theorem add_empty (a : Summary) : a.add {} = a := rfl

theorem empty_add (a : Summary) : Summary.add {} a = a := by
  simp [add]

theorem add_assoc (a b c : Summary) : (a.add b).add c = a.add (b.add c) := by
  simp only [add, Nat.add_assoc]

end Summary

/-- What lines give, each by itself. -/
def lineReports (settings : Settings) (lines : List (List UInt8)) : List LineReport :=
  lines.map fun bytes => lineReport settings.showTree (generate settings (lineText bytes))

/-- All that is written for some lines. -/
def printed (settings : Settings) (lines : List (List UInt8)) : List Write :=
  (lineReports settings lines).flatMap LineReport.writes

/-- All that some lines count for. -/
def total (settings : Settings) (lines : List (List UInt8)) : Summary :=
  (lineReports settings lines).foldr (fun report rest => report.summary.add rest) {}

theorem lineReports_append (settings : Settings) (lines more : List (List UInt8)) :
    lineReports settings (lines ++ more) =
      lineReports settings lines ++ lineReports settings more := List.map_append

theorem printed_append (settings : Settings) (lines more : List (List UInt8)) :
    printed settings (lines ++ more) = printed settings lines ++ printed settings more := by
  rw [printed, lineReports_append, List.flatMap_append]
  rfl

theorem total_append (settings : Settings) (lines more : List (List UInt8)) :
    total settings (lines ++ more) = (total settings lines).add (total settings more) := by
  induction lines with
  | nil => exact (Summary.empty_add _).symm
  | cons line lines ih =>
    rw [total, lineReports] at ih ⊢
    rw [List.cons_append, List.map_cons, List.foldr_cons, ih, ← Summary.add_assoc]
    rfl

namespace Progress

theorem line_settings (p : Progress) (bytes : List UInt8) :
    (p.line bytes).1.session.settings = p.session.settings := rfl

/-- One line writes what it gives by itself. -/
theorem line_writes (p : Progress) (bytes : List UInt8) :
    ((p.line bytes).1.sinks, (p.line bytes).2) = p.sinks.writeAll
      (lineReport p.session.settings.showTree
        (generate p.session.settings (lineText bytes))).writes := by
  rw [← p.session.generate_result]
  rfl

theorem line_summary (p : Progress) (bytes : List UInt8) :
    (p.line bytes).1.summary = p.summary.add
      (lineReport p.session.settings.showTree
        (generate p.session.settings (lineText bytes))).summary := by
  rw [← p.session.generate_result]
  rfl

theorem lines_cons (p : Progress) (bytes : List UInt8) (rest : List (List UInt8)) :
    p.lines (bytes :: rest) =
      if (p.line bytes).2 then (p.line bytes).1.lines rest else ((p.line bytes).1, false) := rfl

theorem lines_settings (p : Progress) (lines : List (List UInt8)) :
    (p.lines lines).1.session.settings = p.session.settings := by
  induction lines generalizing p with
  | nil => rfl
  | cons bytes rest ih =>
    rw [lines_cons]
    split
    · rw [ih, line_settings]
    · exact p.line_settings bytes

/-- Lines in turn write what all of them give, up to the first write that does not fit. -/
theorem lines_writes (p : Progress) (lines : List (List UInt8)) :
    ((p.lines lines).1.sinks, (p.lines lines).2) =
      p.sinks.writeAll (printed p.session.settings lines) := by
  induction lines generalizing p with
  | nil => rfl
  | cons bytes rest ih =>
    have hline := p.line_writes bytes
    have hwrites : printed p.session.settings (bytes :: rest) =
        (lineReport p.session.settings.showTree
          (generate p.session.settings (lineText bytes))).writes ++
            printed p.session.settings rest := rfl
    rw [lines_cons, hwrites, Sinks.writeAll_append, ← hline]
    split
    · rw [ih, line_settings]
    · rename_i h
      rw [Bool.not_eq_true] at h
      rw [h]

theorem lines_summary {p : Progress} {lines : List (List UInt8)} (h : (p.lines lines).2 = true) :
    (p.lines lines).1.summary = p.summary.add (total p.session.settings lines) := by
  induction lines generalizing p with
  | nil => exact (Summary.add_empty _).symm
  | cons bytes rest ih =>
    rw [lines_cons] at h ⊢
    split at h
    · rename_i hline
      rw [if_pos hline, ih h, line_settings, line_summary, Summary.add_assoc]
      rfl
    · cases h

end Progress

section Run

variable (s : Session) (sinks : Sinks) (readFails : Bool) (input : List UInt8)

theorem runOn_settings : (runOn s sinks readFails input).session.settings = s.settings :=
  Progress.lines_settings ⟨s, sinks, {}⟩ _

theorem runOn_sinks : (runOn s sinks readFails input).sinks =
    (sinks.writeAll (printed s.settings (delivered readFails input))).1 :=
  congrArg Prod.fst (Progress.lines_writes ⟨s, sinks, {}⟩ (delivered readFails input))

/-- A run ends well if all that its lines give is written and the reader does not fail. -/
theorem runOn_result : (runOn s sinks readFails input).result =
    if (sinks.writeAll (printed s.settings (delivered readFails input))).2 then
      if readFails then .error .read
      else .ok (total s.settings (delivered readFails input))
    else .error .write := by
  have hwritten := congrArg Prod.snd
    (Progress.lines_writes ⟨s, sinks, {}⟩ (delivered readFails input))
  dsimp only at hwritten
  have hresult : (runOn s sinks readFails input).result =
      if !((Progress.mk s sinks {}).lines (delivered readFails input)).2 then .error .write
      else if readFails then .error .read
      else .ok ((Progress.mk s sinks {}).lines (delivered readFails input)).1.summary := rfl
  rw [hresult, ← hwritten]
  cases hall : ((Progress.mk s sinks {}).lines (delivered readFails input)).2 with
  | false => rfl
  | true =>
    rw [Progress.lines_summary hall, Summary.empty_add]
    rfl

/-- Nothing that went before shows in a run. -/
theorem runOn_fresh : (runOn s sinks readFails input).result =
      (run s.settings sinks readFails input).result ∧
    (runOn s sinks readFails input).sinks = (run s.settings sinks readFails input).sinks := by
  rw [run, runOn_result, runOn_result, runOn_sinks, runOn_sinks]
  exact ⟨rfl, rfl⟩

theorem unlimited_written (ws : List Write) : (({} : Sinks).writeAll ws).2 = true := by
  rw [Sinks.writeAll_fits]
  intro c
  cases c <;> rfl

theorem unlimited_result :
    (runOn s {} false input).result = .ok (total s.settings (delivered false input)) := by
  rw [runOn_result, unlimited_written]
  rfl

theorem unlimited_taken (c : Channel) : ((runOn s {} false input).sinks.sink c).taken =
    bytesOn c (printed s.settings (delivered false input)) := by
  rw [runOn_sinks, Sinks.writeAll_taken (unlimited_written _)]
  cases c <;> rfl

end Run

end Stream

end TradeChat
