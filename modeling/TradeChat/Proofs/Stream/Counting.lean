import Mathlib.Algebra.GroupWithZero.Nat
import TradeChat.Proofs.Generation.OneLine
import TradeChat.Proofs.Stream.Running

namespace TradeChat.Stream
open Text

theorem oneLine_lineText {bytes : List UInt8} (h : 10 ∉ bytes) : OneLine (lineText bytes) := by
  have hdecoded : '\n' ∉ Utf8.decodeLossy bytes := fun hc => h (Utf8.newline_of_decodeLossy hc)
  rw [lineText, oneLine_ofList]
  split
  · exact fun hc => hdecoded (List.dropLast_subset _ hc)
  · exact hdecoded

section Newlines

/-- Texts without newlines, written as lines, bring one newline each. -/
theorem count_lines (c : Channel) {texts : List String} (h : ∀ t ∈ texts, OneLine t) :
    (bytesOn c (texts.map (.line c))).count 10 = texts.length := by
  induction texts with
  | nil => rfl
  | cons t rest ih =>
    obtain ⟨ht, hrest⟩ := List.forall_mem_cons.mp h
    have hown : (Utf8.encode (t ++ "\n")).count 10 = 1 := by
      rw [Utf8.count_encode, String.toList_append, List.count_append,
        List.count_eq_zero_of_not_mem ht]
      rfl
    have hfirst := bytesOn_own (.line c t) (rest.map (.line c))
    rw [Write.line] at hfirst
    rw [List.map_cons, Write.line, hfirst, List.count_append, hown, ih hrest, List.length_cons,
      Nat.add_comm]

theorem lines_elsewhere {c d : Channel} (h : d ≠ c) (texts : List String) :
    bytesOn c (texts.map (.line d)) = [] := by
  induction texts with
  | nil => rfl
  | cons t rest ih =>
    rw [List.map_cons, bytesOn_other h, ih]

end Newlines

/-- The number of numbers that cannot be read in what a line gives. -/
def faultCount : Except Notation.SyntaxError Generation → Nat
  | .error _ => 0
  | .ok g => g.diagnostics.length

/-- Unless trees are shown, a line prints one line for each of its sentences, and one for each of
its faults. -/
theorem count_report {settings : Settings} {line : String} (hline : OneLine line) :
    let report := lineReport false (generate settings line)
    (bytesOn .out report.writes).count 10 = report.summary.sentences ∧
      (bytesOn .err report.writes).count 10 =
        report.summary.failedLines + faultCount (generate settings line) := by
  have herror : OneLine "Error: " := by decide
  cases hg : generate settings line with
  | error e =>
    have hmessage : ∀ t ∈ ["Error: " ++ e.message], OneLine t := by
      intro t ht
      rw [List.mem_singleton.mp ht, oneLine_append]
      exact ⟨herror, Notation.parse_error (generate_error.mp hg) hline⟩
    exact ⟨rfl, count_lines .err hmessage⟩
  | ok g =>
    have hfaults : ∀ t ∈ g.diagnostics.map fun d => "Error: " ++ d.message, OneLine t := by
      intro t ht
      obtain ⟨d, hd, rfl⟩ := List.mem_map.mp ht
      exact oneLine_append.mpr ⟨herror, generate_diagnostics hg hline d hd⟩
    have hwrites : (lineReport false (.ok g)).writes = g.texts.map (.line .out) ++
        (g.diagnostics.map fun d => "Error: " ++ d.message).map (.line .err) := by
      rw [List.map_map]
      exact List.append_nil _
    simp only [hwrites, bytesOn_append, List.count_append]
    rw [count_lines .out (generate_texts hg hline), lines_elsewhere (by decide),
      lines_elsewhere (by decide), count_lines .err hfaults, List.length_map, Generation.texts,
      List.length_map]
    exact ⟨rfl, rfl⟩

/-- The line does not parse. -/
def fails (line : String) : Bool :=
  match Notation.parse line with
  | .error _ => true
  | .ok _ => false

/-- The number of roots in a line that name an event; there are none if it does not parse. -/
def eventCount (line : String) : Nat :=
  match Notation.parse line with
  | .error _ => 0
  | .ok ts => (eventRoots ts).length

theorem report_summary (settings : Settings) (line : String) :
    (lineReport settings.showTree (generate settings line)).summary =
      ⟨1, eventCount line, if fails line then 1 else 0⟩ := by
  rw [generate, eventCount, fails]
  cases Notation.parse line with
  | error e => rfl
  | ok ts =>
    change Summary.mk 1 _ 0 = Summary.mk 1 _ 0
    rw [length_sentences]

theorem total_counts (settings : Settings) (lines : List (List UInt8)) :
    total settings lines = ⟨lines.length, ((lines.map lineText).map eventCount).sum,
      (lines.map lineText).countP fails⟩ := by
  induction lines with
  | nil => rfl
  | cons line rest ih =>
    have htotal : total settings (line :: rest) =
        (lineReport settings.showTree (generate settings (lineText line))).summary.add
          (total settings rest) := rfl
    rw [htotal, report_summary, ih]
    simp only [Summary.add, List.map_cons, List.length_cons, List.sum_cons, List.countP_cons,
      Nat.add_comm]

/-- All that lines print, counted in newlines. -/
theorem count_printed {settings : Settings} (htree : settings.showTree = false)
    {lines : List (List UInt8)} (hlines : ∀ line ∈ lines, 10 ∉ line) :
    (bytesOn .out (printed settings lines)).count 10 = (total settings lines).sentences ∧
      (bytesOn .err (printed settings lines)).count 10 = (total settings lines).failedLines +
        ((lines.map lineText).map fun line => faultCount (generate settings line)).sum := by
  induction lines with
  | nil => exact ⟨rfl, rfl⟩
  | cons line rest ih =>
    obtain ⟨hline, hrest⟩ := List.forall_mem_cons.mp hlines
    obtain ⟨hout, herr⟩ := ih hrest
    obtain ⟨hown, hfaults⟩ := @count_report settings _ (oneLine_lineText hline)
    have hprinted : printed settings (line :: rest) =
        (lineReport false (generate settings (lineText line))).writes ++ printed settings rest := by
      rw [← htree]
      rfl
    have htotal : total settings (line :: rest) =
        (lineReport false (generate settings (lineText line))).summary.add
          (total settings rest) := by
      rw [← htree]
      rfl
    rw [hprinted, htotal, bytesOn_append, bytesOn_append, List.count_append, List.count_append,
      hown, hout, hfaults, herr, List.map_cons, List.map_cons, List.sum_cons]
    refine ⟨rfl, ?_⟩
    simp only [Summary.add]
    omega

/-- What a generator in use is asked for. -/
inductive Call where
  | generate (line : String)
  | run (sinks : Sinks) (readFails : Bool) (input : List UInt8)

/-- The generator as a call leaves it. -/
def Call.leaves (s : Session) : Call → Session
  | generate line => (s.generate line).2
  | run sinks readFails input => (runOn s sinks readFails input).session

/-- A new generator after some calls. -/
def after (settings : Settings) (calls : List Call) : Session :=
  calls.foldl Call.leaves { settings }

theorem after_settings (settings : Settings) (calls : List Call) :
    (after settings calls).settings = settings := by
  have hcall : ∀ (s : Session) (call : Call), (call.leaves s).settings = s.settings := by
    intro s call
    cases call with
    | generate line => exact s.generate_settings line
    | run sinks readFails input => exact runOn_settings s sinks readFails input
  have hcalls : ∀ s : Session, (calls.foldl Call.leaves s).settings = s.settings := by
    induction calls with
    | nil => exact fun s => rfl
    | cons call rest ih => exact fun s => (ih (call.leaves s)).trans (hcall s call)
  exact hcalls _

theorem runOn_joined (s : Session) {x : List UInt8} (hx : x = [] ∨ x.getLast? = some 10)
    (y : List UInt8) :
    let first := run s.settings {} false x
    let second := run s.settings {} false y
    let both := runOn s {} false (x ++ y)
    ∃ a b, first.result = .ok a ∧ second.result = .ok b ∧ both.result = .ok (a.add b) ∧
      ∀ c, (both.sinks.sink c).taken =
        (first.sinks.sink c).taken ++ (second.sinks.sink c).taken := by
  refine ⟨_, _, unlimited_result _ x, unlimited_result _ y, ?_, ?_⟩
  · rw [unlimited_result, delivered_append hx, total_append]
  · intro c
    rw [run, run, unlimited_taken, unlimited_taken, unlimited_taken, delivered_append hx,
      printed_append, bytesOn_append]

theorem runOn_counted (s : Session) (input : List UInt8) :
    ∃ ended tail summary, Pieces input ended tail ∧
      let lines := (allLines ended tail).map lineText
      let report := runOn s {} false input
      report.result = .ok summary ∧
      summary.lines = ended.length + (if tail = [] then 0 else 1) ∧
      summary.failedLines = lines.countP fails ∧
      summary.sentences = (lines.map eventCount).sum ∧
      (s.settings.showTree = false →
        report.sinks.out.taken.count 10 = summary.sentences ∧
        report.sinks.err.taken.count 10 = summary.failedLines +
          (lines.map fun line => faultCount (generate s.settings line)).sum) := by
  obtain ⟨ended, tail, h⟩ := pieces_exist input
  refine ⟨ended, tail, _, h, unlimited_result s input, ?_⟩
  rw [h.delivered]
  have htotal := total_counts s.settings (allLines ended tail)
  refine ⟨?_, congrArg Summary.failedLines htotal, congrArg Summary.sentences htotal, ?_⟩
  · rw [htotal, allLines, List.length_append]
    split <;> rfl
  · intro htree
    have hout : (runOn s {} false input).sinks.out.taken = _ := unlimited_taken s input .out
    have herr : (runOn s {} false input).sinks.err.taken = _ := unlimited_taken s input .err
    rw [hout, herr, h.delivered]
    exact count_printed htree (newline_free h)

/-- Running goes line by line, and nothing that a generator was used for before shows. Each line
counts once. Unless trees are shown, every newline in the output ends a sentence, and every newline
among the faults ends the message of a line that does not parse or of a number that cannot be
read. -/
theorem runs_line_by_line (settings : Settings) (calls : List Call) :
    let s := after settings calls
    (∀ x y, x = [] ∨ x.getLast? = some 10 →
      let first := run settings {} false x
      let second := run settings {} false y
      let both := runOn s {} false (x ++ y)
      ∃ a b, first.result = .ok a ∧ second.result = .ok b ∧ both.result = .ok (a.add b) ∧
        ∀ c, (both.sinks.sink c).taken =
          (first.sinks.sink c).taken ++ (second.sinks.sink c).taken) ∧
    ∀ input, ∃ ended tail summary, Pieces input ended tail ∧
      let lines := (allLines ended tail).map lineText
      let report := runOn s {} false input
      report.result = .ok summary ∧
      summary.lines = ended.length + (if tail = [] then 0 else 1) ∧
      summary.failedLines = lines.countP fails ∧
      summary.sentences = (lines.map eventCount).sum ∧
      (settings.showTree = false →
        report.sinks.out.taken.count 10 = summary.sentences ∧
        report.sinks.err.taken.count 10 = summary.failedLines +
          (lines.map fun line => faultCount (generate settings line)).sum) := by
  have hsettings := after_settings settings calls
  refine ⟨?_, ?_⟩
  · intro x y hx
    have hjoined := runOn_joined (after settings calls) hx y
    rwa [hsettings] at hjoined
  · intro input
    have hcounted := runOn_counted (after settings calls) input
    rwa [hsettings] at hcounted

/-- The line "Buy(", which does not parse. -/
def broken : List UInt8 := [66, 117, 121, 40, 10]

/-- The text "Buy(a)", without a newline at its end. -/
def purchase : List UInt8 := [66, 117, 121, 40, 97, 41]

theorem runs_line_by_line_after_use :
    let s := after {} [.generate "Buy(a) Buy(a)", .run {} true broken]
    broken.getLast? = some 10 ∧
      (runOn s {} false (broken ++ purchase)).result = .ok ⟨2, 1, 1⟩ ∧
      ∀ c, ((runOn s {} false (broken ++ purchase)).sinks.sink c).taken =
        ((run {} {} false broken).sinks.sink c).taken ++
          ((run {} {} false purchase).sinks.sink c).taken := by
  have hlast : broken.getLast? = some 10 := rfl
  have hbroken : (run {} {} false broken).result = .ok ⟨1, 0, 1⟩ := by decide +kernel
  have hpurchase : (run {} {} false purchase).result = .ok ⟨1, 1, 0⟩ := by decide +kernel
  obtain ⟨hjoined, -⟩ :=
    runs_line_by_line {} [.generate "Buy(a) Buy(a)", .run {} true broken]
  obtain ⟨a, b, hfirst, hsecond, hboth, htaken⟩ := hjoined broken purchase (.inr hlast)
  rw [hbroken, Except.ok.injEq] at hfirst
  rw [hpurchase, Except.ok.injEq] at hsecond
  subst hfirst hsecond
  exact ⟨hlast, hboth, htaken⟩

end TradeChat.Stream
