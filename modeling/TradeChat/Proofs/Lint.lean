import TradeChat.Lint
import TradeChat.Proofs.Generation.Joined
import TradeChat.Proofs.Generation.OneLine
import TradeChat.Proofs.Sentence.Shown
import TradeChat.Proofs.Stream.Counting
import TradeChat.Proofs.Stream.Running

namespace TradeChat.Lint
open Text TradeChat.Stream

/-- What is found in a file is what is found in its lines, one after the other. -/
theorem report_lines {α : Type} {found : Report → List α} (hnone : found {} = [])
    (happend : ∀ a b : Report, found (a.append b) = found a ++ found b) (whitelist : Whitelist)
    (contents : String) :
    found (report whitelist contents) = ((fields '\n' contents.toList).zipIdx 1).flatMap
      fun (line, number) => found (lineReport whitelist number line) := by
  rw [report]
  induction (fields '\n' contents.toList).zipIdx 1 with
  | nil => exact hnone
  | cons line rest ih => rw [List.foldr_cons, happend, ih, List.flatMap_cons]

theorem report_errors (whitelist : Whitelist) (contents : String) :
    (report whitelist contents).errors = ((fields '\n' contents.toList).zipIdx 1).flatMap
      fun (line, number) => (lineReport whitelist number line).errors :=
  report_lines rfl (fun _ _ => rfl) whitelist contents

theorem report_warnings (whitelist : Whitelist) (contents : String) :
    (report whitelist contents).warnings = ((fields '\n' contents.toList).zipIdx 1).flatMap
      fun (line, number) => (lineReport whitelist number line).warnings :=
  report_lines rfl (fun _ _ => rfl) whitelist contents

/-- A line that is left out of the check, but not out of a run. -/
def isComment (line : List Char) : Bool := (trim line).head? == some '#'

theorem length_lineErrors (whitelist : Whitelist) (number : Nat) (line : List Char) :
    (lineReport whitelist number line).errors.length =
      if isChecked line && fails (String.ofList line) then 1 else 0 := by
  unfold lineReport fails
  cases isChecked line with
  | false => rfl
  | true => cases Notation.parse (String.ofList line) <;> rfl

/-- There is one error for each line that is checked and does not parse. -/
theorem length_errors (whitelist : Whitelist) (contents : String) :
    (report whitelist contents).errors.length = (fields '\n' contents.toList).countP
      fun line => isChecked line && fails (String.ofList line) := by
  rw [report_errors]
  generalize 1 = number
  induction fields '\n' contents.toList generalizing number with
  | nil => rfl
  | cons line rest ih =>
    rw [List.zipIdx_cons, List.flatMap_cons, List.length_append, length_lineErrors, ih,
      List.countP_cons, Nat.add_comm]

theorem fails_blank {line : List Char} (h : trim line = []) :
    fails (String.ofList line) = false := by
  rw [fails, Notation.parse, String.toList_ofList, h, Notation.tokensFrom]
  rfl

/-- Blank lines parse, so what does not parse is checked or a comment. -/
theorem countP_fails (lines : List (List Char)) :
    lines.countP (fun line => fails (String.ofList line)) =
      lines.countP (fun line => isChecked line && fails (String.ofList line)) +
        lines.countP fun line => isComment line && fails (String.ofList line) := by
  have hcases : ∀ line, fails (String.ofList line) = true →
      isChecked line = !isComment line := by
    intro line hline
    unfold isChecked isComment
    cases htrim : trim line with
    | nil => simp [fails_blank htrim] at hline
    | cons c rest => simp [bne]
  induction lines with
  | nil => rfl
  | cons line rest ih =>
    rw [List.countP_cons, List.countP_cons, List.countP_cons, ih]
    cases hfails : fails (String.ofList line) with
    | false => simp
    | true =>
      rw [hcases line hfails]
      cases isComment line with
      | false => simp; omega
      | true => simp; omega

/-- The carriage return that a run takes off the end of a line makes no difference. -/
theorem fails_lineText (line : List Char) :
    fails (lineText (Utf8.encode (String.ofList line))) = fails (String.ofList line) := by
  have htrim : trim (lineText (Utf8.encode (String.ofList line))).toList = trim line := by
    rw [lineText, Utf8.decodeLossy_encode]
    simp only [String.toList_ofList]
    split
    · rename_i hlast
      have hline : line.dropLast ++ ['\r'] = line := List.dropLast_append_getLast? _ hlast
      have hblank : ∀ c ∈ ['\r'], isBlank c = true := by
        intro c hc
        rw [List.mem_singleton.mp hc]
        decide
      conv => rhs; rw [← hline]
      exact (trim_append_blank hblank _).symm
    · rfl
  rw [fails, fails, Notation.parse, Notation.parse, htrim, String.toList_ofList]

theorem countP_delivered (contents : String) :
    ((delivered false (Utf8.encode contents)).map lineText).countP fails =
      (fields '\n' contents.toList).countP fun line => fails (String.ofList line) := by
  obtain ⟨ended, tail, hfields, -⟩ := fields_split '\n' contents.toList
  have hline : fails ∘ lineText ∘ (fun line => Utf8.encode (String.ofList line)) =
      fun line => fails (String.ofList line) := funext fails_lineText
  have htail : ((if Utf8.encode (String.ofList tail) = [] then []
      else [Utf8.encode (String.ofList tail)]).map lineText).countP fails =
        [tail].countP fun line => fails (String.ofList line) := by
    split
    · rename_i hnil
      have hempty := Utf8.decodeLossy_encode (String.ofList tail)
      rw [hnil, Utf8.decodeLossy, Utf8.pieces, List.map_nil, String.toList_ofList] at hempty
      subst hempty
      have hparses := @fails_blank [] rfl
      exact (List.countP_cons_of_neg (by rw [hparses]; exact Bool.false_ne_true)).symm
    · simp [fails_lineText, List.countP_cons]
  rw [(pieces_encode hfields).delivered, allLines, hfields, List.map_append, List.countP_append,
    List.countP_append, htail, List.map_map, List.countP_map, hline]

/-- A run fails on the lines that the check calls errors, and besides on comments that do not
parse: they are left out of the check only. -/
theorem failed_lines_checked (s : Session) (contents : String) :
    ∃ summary, (runOn s {} false (Utf8.encode contents)).result = .ok summary ∧
      summary.failedLines = (report s.settings.whitelist contents).errors.length +
        (fields '\n' contents.toList).countP fun line =>
          isComment line && fails (String.ofList line) := by
  refine ⟨_, unlimited_result s _, ?_⟩
  rw [total_counts, length_errors, ← countP_fails, ← countP_delivered]

theorem comment_fails : (report .standard "# trades\n").errors = [] ∧
    (run {} {} false (Utf8.encode "# trades\n")).result = .ok ⟨1, 0, 1⟩ := by
  decide +kernel

end TradeChat.Lint

namespace TradeChat
open Text

/-- Each root gives a sentence, and no sentence has anything to complain about. -/
structure Generation.Flawless (g : Generation) : Prop where
  known : ∀ t ∈ g.trees, (EventKind.ofToken? t.value).isSome = true
  complete : g.sentences.length = g.trees.length
  diagnostics : g.diagnostics = []
  filled : ∀ s ∈ g.sentences, s.fault? = none
  shown : ∀ text ∈ g.texts, ¬ Within Lint.errorMark text

/-- What a flawless sentence speaks of can be called by something. -/
theorem Generation.Flawless.identified {settings : Settings} {trees : List (Tree Token)}
    (h : (ofTrees settings trees).Flawless) :
    ∀ s ∈ (ofTrees settings trees).sentences, s.Identified := by
  intro s hs
  have hfault := h.filled s hs
  have hshown := h.shown s.text (List.mem_map_of_mem hs)
  obtain ⟨root, -, hread⟩ := List.mem_filterMap.mp hs
  obtain ⟨kind, -, rfl⟩ := Option.map_eq_some_iff.mp hread
  refine Sentence.identified_of_text hfault (fun hkind => ?_) hshown
  rw [Sentence.kind_assemble] at hkind
  exact Sentence.dungeons_assemble hkind _ _

namespace Lint

theorem sentenceWarnings_nil {s : Sentence} : sentenceWarnings s = [] ↔
    s.diagnostics = [] ∧ s.fault? = none ∧ ¬ Within errorMark s.text := by
  unfold sentenceWarnings Within
  rw [List.append_eq_nil_iff, List.map_eq_nil_iff, ← occursIn_iff]
  refine and_congr_right fun _ => ?_
  cases s.fault? with
  | none => simp
  | some fault => simp

theorem treeWarnings_nil {whitelist : Whitelist} {root : Tree Token} :
    treeWarnings whitelist root = [] ↔
      ∃ s, Sentence.ofTree? whitelist root = some s ∧ sentenceWarnings s = [] := by
  unfold treeWarnings
  cases Sentence.ofTree? whitelist root with
  | none => simp
  | some s => simp

/-- No tree has a warning exactly if all sentences are there and have none. -/
theorem treeWarnings_flawless {settings : Settings} {trees : List (Tree Token)} :
    trees.flatMap (treeWarnings settings.whitelist) = [] ↔
      (Generation.ofTrees settings trees).Flawless := by
  have hknown : ∀ t, (Sentence.ofTree? settings.whitelist t).isSome =
      (EventKind.ofToken? t.value).isSome := fun t => Option.isSome_map
  rw [List.flatMap_eq_nil_iff]
  constructor
  · intro h
    have hread : ∀ s ∈ trees.filterMap (Sentence.ofTree? settings.whitelist),
        sentenceWarnings s = [] := by
      intro s hs
      obtain ⟨t, ht, hst⟩ := List.mem_filterMap.mp hs
      obtain ⟨s', hst', hclean⟩ := treeWarnings_nil.mp (h t ht)
      rw [hst, Option.some.injEq] at hst'
      rwa [hst']
    have hsome : ∀ t ∈ trees, (Sentence.ofTree? settings.whitelist t).isSome = true := by
      intro t ht
      obtain ⟨s, hst, -⟩ := treeWarnings_nil.mp (h t ht)
      rw [hst]
      rfl
    refine ⟨?_, List.filterMap_length_eq_length.mpr hsome, ?_, ?_, ?_⟩
    · intro t ht
      rw [← hknown]
      exact hsome t ht
    · exact List.flatMap_eq_nil_iff.mpr fun s hs => (sentenceWarnings_nil.mp (hread s hs)).1
    · exact fun s hs => (sentenceWarnings_nil.mp (hread s hs)).2.1
    · intro text htext
      obtain ⟨s, hs, rfl⟩ := List.mem_map.mp htext
      exact (sentenceWarnings_nil.mp (hread s hs)).2.2
  · intro h t ht
    have hsome := h.known t ht
    rw [← hknown] at hsome
    obtain ⟨s, hst⟩ := Option.isSome_iff_exists.mp hsome
    have hs : s ∈ (Generation.ofTrees settings trees).sentences :=
      List.mem_filterMap.mpr ⟨t, ht, hst⟩
    refine treeWarnings_nil.mpr ⟨s, hst, sentenceWarnings_nil.mpr ⟨?_, h.filled s hs, ?_⟩⟩
    · exact List.flatMap_eq_nil_iff.mp h.diagnostics s hs
    · exact h.shown s.text (List.mem_map_of_mem hs)

theorem tokenWarnings_flawless {settings : Settings} {line : String} {ts : List Token}
    (h : Notation.parse line = .ok ts) : tokenWarnings settings.whitelist ts = [] ↔
      (Generation.ofTrees settings (Linkage.ofTokens ts).trees).Flawless := by
  have hreached := Linkage.ofTokens_reached (Notation.parse_wellFormed h)
  rw [tokenWarnings, hreached, List.map_nil, List.nil_append]
  exact treeWarnings_flawless

theorem isChecked_iff {line : List Char} :
    isChecked line = true ↔ trim line ≠ [] ∧ (trim line).head? ≠ some '#' := by
  unfold isChecked
  cases trim line with
  | nil => simp
  | cons c rest => simp

/-- Nothing is found in a line exactly if it does not count, or generates without a flaw. -/
theorem lineReport_clean (s : Session) (number : Nat) (line : List Char) :
    ((lineReport s.settings.whitelist number line).errors = [] ∧
        (lineReport s.settings.whitelist number line).warnings = []) ↔
      (isChecked line = true →
        ∃ g, (s.generate (String.ofList line)).1 = .ok g ∧ g.Flawless) := by
  rw [s.generate_result]
  unfold lineReport
  cases isChecked line with
  | false => simp
  | true =>
    cases hparse : Notation.parse (String.ofList line) with
    | error e => simp [generate_error.mpr hparse]
    | ok ts => simp [generate_ok hparse, tokenWarnings_flawless hparse]

theorem forall_numbered {α : Type} {P : α → Prop} {xs : List α} (n : Nat) :
    (∀ a ∈ xs.zipIdx n, P a.1) ↔ ∀ x ∈ xs, P x := by
  conv => rhs; rw [← List.zipIdx_map_fst n xs, List.forall_mem_map]

theorem report_clean (s : Session) (contents : String) :
    ((report s.settings.whitelist contents).errors = [] ∧
        (report s.settings.whitelist contents).warnings = []) ↔
      ∀ line ∈ fields '\n' contents.toList, isChecked line = true →
        ∃ g, (s.generate (String.ofList line)).1 = .ok g ∧ g.Flawless := by
  refine Iff.trans ?_ (forall_numbered 1)
  rw [report_errors, report_warnings, List.flatMap_eq_nil_iff, List.flatMap_eq_nil_iff]
  constructor
  · intro ⟨herrors, hwarnings⟩ a ha
    exact (lineReport_clean s a.2 a.1).mp ⟨herrors a ha, hwarnings a ha⟩
  · intro h
    exact ⟨fun a ha => ((lineReport_clean s a.2 a.1).mpr (h a ha)).1,
      fun a ha => ((lineReport_clean s a.2 a.1).mpr (h a ha)).2⟩

/-- A clean report can be trusted: nothing is found in a file exactly if all lines that are not
blank and no comments are generated without a flaw. What their sentences speak of can then be
called by something. -/
theorem clean_flawless (s : Session) (contents : String) :
    let r := report s.settings.whitelist contents
    let lines := fields '\n' contents.toList
    (r.errors = [] ∧ r.warnings = [] ↔
      ∀ line ∈ lines, trim line ≠ [] → (trim line).head? ≠ some '#' →
        ∃ g, (s.generate (String.ofList line)).1 = .ok g ∧ g.Flawless) ∧
    (r.errors = [] ∧ r.warnings = [] →
      ∀ line ∈ lines, trim line ≠ [] → (trim line).head? ≠ some '#' →
        ∃ g, (s.generate (String.ofList line)).1 = .ok g ∧
          ∀ sentence ∈ g.sentences, sentence.Identified) := by
  have hclean := report_clean s contents
  simp only [isChecked_iff, and_imp] at hclean
  refine ⟨hclean, fun h line hline hblank hcomment => ?_⟩
  obtain ⟨g, hg, hflawless⟩ := hclean.mp h line hline hblank hcomment
  refine ⟨g, hg, ?_⟩
  rw [s.generate_result] at hg
  obtain ⟨ts, -, rfl⟩ := generate_parsed hg
  exact hflawless.identified

theorem clean_flawless_trades :
    let contents := "# trades\n\nBuy(a), Item(a,b), Name(b,'Sword')\r\n"
    ∀ line ∈ fields '\n' contents.toList, trim line ≠ [] → (trim line).head? ≠ some '#' →
      ∃ g, ((Session.mk {} {}).generate (String.ofList line)).1 = .ok g ∧
        ∀ sentence ∈ g.sentences, sentence.Identified := by
  intro contents
  have hreport : (report .standard contents).errors = [] ∧
      (report .standard contents).warnings = [] := by decide +kernel
  exact (clean_flawless ⟨{}, {}⟩ contents).2 hreport

end Lint

end TradeChat
