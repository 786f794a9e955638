import TradeChat.Generation
import TradeChat.Proofs.Linkage.Placement
import TradeChat.Proofs.Notation.OneLine
import TradeChat.Proofs.Sentence.OneLine

namespace TradeChat
open Notation Text

/-- The trees of tokens without newlines in their values have none either. -/
theorem Linkage.ofTokens_flat {ts : List Token} (h : ∀ t ∈ ts, t.Flat) :
    ∀ t ∈ (ofTokens ts).trees, t.Flat := by
  intro t ht u hu
  exact h _ (mem_of_node (List.mem_flatMap.mpr ⟨t, ht, hu⟩))

section Generate

variable {settings : Settings} {line : String}

theorem generate_parsed {g : Generation} (h : generate settings line = .ok g) :
    ∃ ts, parse line = .ok ts ∧ g = .ofTrees settings (Linkage.ofTokens ts).trees := by
  rw [generate] at h
  cases hparse : parse line with
  | error e =>
    rw [hparse] at h
    cases h
  | ok ts =>
    rw [hparse] at h
    cases h
    exact ⟨ts, rfl, rfl⟩

theorem generate_error {e : SyntaxError} : generate settings line = .error e ↔
    parse line = .error e := by
  rw [generate]
  cases parse line with
  | error e' => simp [Except.map]
  | ok ts => simp [Except.map]

theorem generate_flat {g : Generation} (h : generate settings line = .ok g)
    (hline : OneLine line) : ∀ s ∈ g.sentences, s.Flat := by
  obtain ⟨ts, hparse, rfl⟩ := generate_parsed h
  intro s hs
  obtain ⟨t, ht, hread⟩ := List.mem_filterMap.mp hs
  obtain ⟨kind, -, rfl⟩ := Option.map_eq_some_iff.mp hread
  exact Sentence.flat_assemble (Linkage.ofTokens_flat (parse_flat hparse hline) t ht) kind _

/-- The sentences of one line are lines of their own. -/
theorem generate_texts {g : Generation} (h : generate settings line = .ok g)
    (hline : OneLine line) : ∀ t ∈ g.texts, OneLine t := by
  intro t ht
  obtain ⟨s, hs, rfl⟩ := List.mem_map.mp ht
  exact (generate_flat h hline s hs).text

theorem generate_diagnostics {g : Generation} (h : generate settings line = .ok g)
    (hline : OneLine line) : ∀ d ∈ g.diagnostics, OneLine d.message := by
  intro d hd
  obtain ⟨s, hs, hd⟩ := List.mem_flatMap.mp hd
  exact (generate_flat h hline s hs).diagnostics d hd

/-- The roots of a line that name an event. -/
def eventRoots (ts : List Token) : List Token :=
  (ts.filter Token.isRoot).filter fun t => (EventKind.ofToken? t).isSome

/-- There is a sentence for each root that names an event. -/
theorem length_sentences (settings : Settings) (ts : List Token) :
    (Generation.ofTrees settings (Linkage.ofTokens ts).trees).sentences.length =
      (eventRoots ts).length := by
  have htops : (Linkage.ofTokens ts).trees.map Tree.value = ts.filter Token.isRoot :=
    (Linkage.link_planted id ts).tops
  rw [eventRoots, ← htops, Generation.ofTrees, List.length_filterMap_eq_countP,
    ← List.countP_eq_length_filter, List.countP_map]
  apply List.countP_congr
  intro t _
  rw [Sentence.ofTree?, Option.isSome_map]
  rfl

end Generate

end TradeChat
