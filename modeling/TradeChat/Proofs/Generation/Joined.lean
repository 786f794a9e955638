import TradeChat.Generation
import TradeChat.Proofs.Linkage.Joined
import TradeChat.Proofs.Linkage.Parsed
import TradeChat.Proofs.Notation.Joined

namespace TradeChat
open Notation Linkage

/-- Tokens of one line do not hang from those of a line with other ids. -/
theorem Notation.WellFormed.apart {ts us : List Token} (hw : WellFormed us)
    (hids : ∀ id ∈ ts.filterMap Token.id, id ∉ us.filterMap Token.id) :
    ∀ a ∈ ts, ∀ b ∈ us, ¬ Hangs id a b := by
  intro a ha b hb hhang
  obtain ⟨name, hid, hparent⟩ := hhang
  obtain ⟨before, after, hsplit⟩ := List.append_of_mem hb
  obtain ⟨c, hc, hdeclared⟩ := hw.earlier before b after hsplit name hparent
  have hcus : c ∈ us := by
    rw [hsplit]
    exact List.mem_append_left _ hc
  exact hids name (List.mem_filterMap.mpr ⟨a, ha, hid⟩)
    (List.mem_filterMap.mpr ⟨c, hcus, hdeclared⟩)

theorem Linkage.ofTokens_append {ts us : List Token} (hts : WellFormed ts) (hus : WellFormed us)
    (hids : ∀ id ∈ ts.filterMap Token.id, id ∉ us.filterMap Token.id) :
    (ofTokens (ts ++ us)).trees = (ofTokens ts).trees ++ (ofTokens us).trees := by
  have hreached : (link id ts).unreachable = [] := ofTokens_reached hts
  rw [ofTokens, link_append hreached (hus.apart hids)]
  rfl

namespace Generation

variable (settings : Settings) (ts us : List (Tree Token))

theorem sentences_append : (ofTrees settings (ts ++ us)).sentences =
    (ofTrees settings ts).sentences ++ (ofTrees settings us).sentences :=
  List.filterMap_append

theorem diagnostics_append : (ofTrees settings (ts ++ us)).diagnostics =
    (ofTrees settings ts).diagnostics ++ (ofTrees settings us).diagnostics := by
  rw [diagnostics, sentences_append, List.flatMap_append]
  rfl

theorem treeDump_append : (ofTrees settings (ts ++ us)).treeDump =
    (ofTrees settings ts).treeDump ++ (ofTrees settings us).treeDump := by
  unfold treeDump ofTrees
  rw [List.map_append, String.join_append]

end Generation

theorem generate_ok {settings : Settings} {line : String} {ts : List Token}
    (h : parse line = .ok ts) :
    generate settings line = .ok (.ofTrees settings (ofTokens ts).trees) := by
  rw [generate, h]
  rfl

/-- The events on one line do not touch each other: lines with different ids, written one behind
the other, give what each of them gives by itself. The nodes of the second line stand behind those
of the first and link to each other as before. -/
theorem generate_append {x y : String} {ts us : List Token} (hx : parse x = .ok ts)
    (hy : parse y = .ok us) (hids : ∀ id ∈ ts.filterMap Token.id, id ∉ us.filterMap Token.id) :
    parse (x ++ y) = .ok (ts ++ us) ∧
      (forest (ts ++ us)).entries =
        (forest ts).entries ++ (forest us).entries.map (Forest.shifted (forest ts).size) ∧
      ∀ settings, ∃ first second both,
        generate settings x = .ok first ∧ generate settings y = .ok second ∧
        generate settings (x ++ y) = .ok both ∧
        both.trees = first.trees ++ second.trees ∧
        both.sentences = first.sentences ++ second.sentences ∧
        both.diagnostics = first.diagnostics ++ second.diagnostics ∧
        both.treeDump = first.treeDump ++ second.treeDump := by
  have hparse := parse_append hx hy hids
  have htrees := ofTokens_append (parse_wellFormed hx) (parse_wellFormed hy) hids
  refine ⟨hparse, ?_, ?_⟩
  · rw [forest, htrees, Forest.entries_append]
    rfl
  · intro settings
    refine ⟨_, _, _, generate_ok hx, generate_ok hy, generate_ok hparse, htrees, ?_, ?_, ?_⟩
    · rw [htrees, Generation.sentences_append]
    · rw [htrees, Generation.diagnostics_append]
    · rw [htrees, Generation.treeDump_append]

/-- The tokens of a purchase. -/
def demand : List Token :=
  [⟨"Buy", some "a", none, none, none, false⟩, ⟨"Item", some "b", some "a", none, none, false⟩,
    ⟨"Name", none, some "b", some "Sword", none, false⟩]

/-- The tokens of a sale that starts with a connective and holds a number that cannot be read. -/
def supply : List Token :=
  [⟨"Sell", some "c", none, none, some .or, false⟩,
    ⟨"Item", some "d", some "c", none, some .and, false⟩,
    ⟨"Quantity", none, some "d", some "many", none, false⟩]

theorem generate_append_trades :
    parse "Buy(a) Item(a,b) Name(b,'Sword') " = .ok demand ∧
      parse " ; Sell(c), Item(c,d) Quantity(d,\"many\")" = .ok supply ∧
      (∀ id ∈ demand.filterMap Token.id, id ∉ supply.filterMap Token.id) ∧
      parse ("Buy(a) Item(a,b) Name(b,'Sword') " ++ " ; Sell(c), Item(c,d) Quantity(d,\"many\")") =
        .ok (demand ++ supply) ∧
      (forest (demand ++ supply)).entries =
        (forest demand).entries ++ (forest supply).entries.map (Forest.shifted 3) := by
  have hdemand : parse "Buy(a) Item(a,b) Name(b,'Sword') " = .ok demand := by decide +kernel
  have hsupply : parse " ; Sell(c), Item(c,d) Quantity(d,\"many\")" = .ok supply := by
    decide +kernel
  have hids : ∀ id ∈ demand.filterMap Token.id, id ∉ supply.filterMap Token.id := by decide
  have hsize : (forest demand).size = 3 := by decide +kernel
  obtain ⟨hparse, hentries, -⟩ := generate_append hdemand hsupply hids
  rw [hsize] at hentries
  exact ⟨hdemand, hsupply, hids, hparse, hentries⟩

end TradeChat
