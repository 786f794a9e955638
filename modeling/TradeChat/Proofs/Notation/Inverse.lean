import TradeChat.Proofs.Notation.Written

namespace TradeChat.Notation
open Text

theorem IsType.capitalize_eq {type : String} (h : IsType type) :
    capitalize type.toList = type.toList := by
  cases hc : type.toList with
  | nil => rfl
  | cons c rest => rw [capitalize, (h.start c (by rw [hc]; rfl)).2.2.2, List.singleton_append]

/-- A token that may be introduced is read off the front of its text, with any gaps in it. -/
theorem tokenAt_text {declared : List String} {t : Token} (hd : ∀ id ∈ declared, IsName id)
    (ht : Introduces declared t) (htype : IsType t.type) (g : Gaps) (rest : List Char) :
    tokenAt declared (trimStart (tokenText g t ++ rest)) = .ok (t, trimStart rest) := by
  have harguments := argument_fields hd ht g
  obtain ⟨args, hsays, hid, hparent, hvalue⟩ := says_arguments hd ht
  cases hcore : t.type.toList with
  | nil => exact absurd hcore htype.named
  | cons c name =>
    have hblank : isBlank c = false := htype.tight.start c (by rw [hcore]; rfl)
    obtain ⟨hcomma, hsemi, hminus, -⟩ := htype.start c (by rw [hcore]; rfl)
    have htext : tokenText g t ++ rest = g.before.val ++ (connectiveMark t.logic ++
        (g.connective.val ++ (negationMark t.negated ++ (g.sign.val ++ c :: (name ++ (g.type.val ++
          '(' :: (g.bracket.val ++ (argumentText g t ++ ')' :: rest)))))))) := by
      simp only [tokenText, hcore, List.append_assoc, List.cons_append, List.nil_append]
    have hconnective := @connectiveAt_mark c (name ++ (g.type.val ++ '(' :: (g.bracket.val ++
      (argumentText g t ++ ')' :: rest)))) hblank hcomma hsemi t.logic t.negated g.before
      g.connective g.sign
    have hhead : trimEnd (t.type.toList ++ g.type.val) = t.type.toList := by
      rw [trimEnd_blank g.type.blank, htype.tight.trimEnd_eq]
    rw [htext]
    apply tokenAt_ok.mpr
    refine ⟨t.type.toList ++ g.type.val, g.bracket.val ++ (argumentText g t ++ ')' :: rest),
      argumentText g t, rest, args, ?_, ?_, ?_, ?_, argument_close hd ht g, ?_, ?_, rfl⟩
    · rw [unmarked, hconnective, negationAt_signed hminus, trimStart_unsigned hblank, hcore,
        List.append_assoc, List.cons_append]
    · intro d hd
      rcases List.mem_append.mp hd with hd | hd
      · exact htype.plain d hd
      · exact g.type.ne rfl d hd
    · rw [hhead]
      exact htype.named
    · rw [trimStart_blank g.bracket.blank, argument_open hd ht]
    · rw [harguments]
      exact readArguments_ok.mpr hsays
    · rw [hconnective, negationAt_signed hminus, hhead, htype.capitalize_eq, String.ofList_toList,
        hid, hparent, hvalue]

/-- Tokens are read off their texts one after another. -/
theorem tokensFrom_texts {declared : List String} {items : List (Token × Gaps)}
    (hd : ∀ id ∈ declared, IsName id) (h : Declares declared (items.map Prod.fst))
    (htypes : ∀ t ∈ items.map Prod.fst, IsType t.type) :
    tokensFrom declared (trimStart (items.flatMap fun a => tokenText a.2 a.1)) =
      .ok (items.map Prod.fst) := by
  induction items generalizing declared with
  | nil => exact tokensFrom_nil declared
  | cons a items ih =>
    cases h with
    | cons ht hts =>
      obtain ⟨htype, htypes⟩ := List.forall_mem_cons.mp htypes
      have hd' : ∀ id ∈ a.1.id.toList ++ declared, IsName id := by
        intro id hid
        rcases List.mem_append.mp hid with hown | hold
        · exact ht.name id (by simpa using hown)
        · exact hd id hold
      rw [List.flatMap_cons, tokensFrom_token (tokenAt_text hd ht htype a.2 _), ih hd' hts htypes]
      rfl

theorem tokenText_close (g : Gaps) (t : Token) : ∃ s, tokenText g t = s ++ [')'] := by
  refine ⟨g.before ++ (connectiveMark t.logic ++ (g.connective ++ (negationMark t.negated ++
    (g.sign ++ (t.type.toList ++ (g.type ++ '(' :: (g.bracket ++ argumentText g t))))))), ?_⟩
  simp only [tokenText, List.append_assoc, List.cons_append]

theorem trim_texts (items : List (Token × Gaps)) (last : Gap) :
    trim (items.flatMap (fun a => tokenText a.2 a.1) ++ last) =
      trimStart (items.flatMap fun a => tokenText a.2 a.1) := by
  rcases List.eq_nil_or_concat items with rfl | ⟨items, a, rfl⟩
  · exact tight_nil.trim_padded (by simp) last.blank
  · obtain ⟨s, hs⟩ := tokenText_close a.2 a.1
    rw [List.concat_eq_append, List.flatMap_append, List.flatMap_singleton, hs,
      ← List.append_assoc, List.append_assoc _ [')'], List.singleton_append,
      trim_append_cons rfl last.blank]

/-- Whatever gaps a line is written with, it parses to the tokens it was written from. -/
theorem parse_lineText {items : List (Token × Gaps)} (hw : WellFormed (items.map Prod.fst))
    (htypes : ∀ t ∈ items.map Prod.fst, IsType t.type) (last : Gap) :
    parse (lineText items last) = .ok (items.map Prod.fst) := by
  rw [parse, lineText, String.toList_ofList, trim_texts]
  exact tokensFrom_texts (by simp) hw.declares htypes

/-- The parser inverts the notation: tokens that a line can hold are read back from any text of
theirs, and the tokens that were read from a line are of this kind. -/
theorem parse_inverts :
    (∀ (items : List (Token × Gaps)) (last : Gap), WellFormed (items.map Prod.fst) →
      (∀ t ∈ items.map Prod.fst, IsType t.type) →
      parse (lineText items last) = .ok (items.map Prod.fst)) ∧
    ∀ (line : String) (ts : List Token), parse line = .ok ts → (∀ t ∈ ts, IsType t.type) →
      ∀ (items : List (Token × Gaps)) (last : Gap), items.map Prod.fst = ts →
        parse (lineText items last) = .ok ts := by
  constructor
  · intro items last hw htypes
    exact parse_lineText hw htypes last
  · intro line ts hparse htypes items last he
    subst he
    exact parse_lineText (parse_wellFormed hparse) htypes last

/-- Tokens of each kind: a root, a branch and a leaf. -/
def offer : List Token :=
  [⟨"Sell", some "a", none, none, none, false⟩, ⟨"Item", some "b", some "a", none, some .or, true⟩,
    ⟨"Name", none, some "b", some "Bag (large", some .and, false⟩]

def space : Gap := ⟨[' '], by simp [isGap]⟩

def tab : Gap := ⟨['\t'], by simp [isGap]⟩

def wide : Gaps := ⟨space, tab, space, tab, space, tab, space, tab⟩

theorem offer_types : ∀ t ∈ offer, IsType t.type := by
  intro t ht
  simp only [offer, List.mem_cons, List.not_mem_nil, or_false] at ht
  rcases ht with rfl | rfl | rfl
  all_goals
    refine ⟨by simp, by simp, ⟨?_, ?_⟩, ?_⟩
    all_goals
      intro c hc
      cases hc
      decide

theorem parse_inverts_offer :
    WellFormed offer ∧ parse "Sell(a); -Item(a,b), Name(b,'Bag (large')" = .ok offer ∧
      parse (lineText (offer.map (·, wide)) space) = .ok offer ∧
      parse (lineText (offer.map (·, wide)) tab) = .ok offer := by
  have hparse : parse "Sell(a); -Item(a,b), Name(b,'Bag (large')" = .ok offer := by
    decide +kernel
  have hw := parse_wellFormed hparse
  have hfst : (offer.map (·, wide)).map Prod.fst = offer := rfl
  have htext := parse_inverts.1 (offer.map (·, wide)) space
  rw [hfst] at htext
  exact ⟨hw, hparse, htext hw offer_types, parse_inverts.2 _ offer hparse offer_types _ tab hfst⟩

end TradeChat.Notation
