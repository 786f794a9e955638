import TradeChat.Proofs.Notation.Scanning

namespace TradeChat.Notation
open Text

/-- Spaces and tabs. -/
abbrev Gap := { g : List Char // ∀ c ∈ g, isGap c = true }

/-- The gaps in the text of a token, one before it and one behind each of its pieces. -/
structure Gaps where
  before : Gap
  connective : Gap
  sign : Gap
  type : Gap
  bracket : Gap
  first : Gap
  comma : Gap
  second : Gap

def connectiveMark : Option Connective → List Char
  | none => []
  | some .and => [',']
  | some .or => [';']

def negationMark : Bool → List Char
  | true => ['-']
  | false => []

/-- The id of a token, or its value in quotes. -/
def ownText (t : Token) : List Char :=
  match t.id with
  | some id => id.toList
  | none => '"' :: ((t.value.getD "").toList ++ ['"'])

def argumentText (g : Gaps) (t : Token) : List Char :=
  match t.parent with
  | none => ownText t ++ g.first
  | some p => p.toList ++ (g.first ++ ',' :: (g.comma ++ (ownText t ++ g.second)))

def tokenText (g : Gaps) (t : Token) : List Char :=
  g.before ++ (connectiveMark t.logic ++ (g.connective ++ (negationMark t.negated ++ (g.sign ++
    (t.type.toList ++ (g.type ++ '(' :: (g.bracket ++ (argumentText g t ++ [')']))))))))

/-- A line with some tokens, each with the gaps in its text. -/
def lineText (items : List (Token × Gaps)) (last : Gap) : String :=
  String.ofList (items.flatMap (fun a => tokenText a.2 a.1) ++ last)

/-- A type that reads as it is written. -/
structure IsType (type : String) : Prop where
  named : type.toList ≠ []
  plain : ∀ c ∈ type.toList, c ≠ '('
  tight : Tight type.toList
  start : ∀ c ∈ type.toList.head?, c ≠ ',' ∧ c ≠ ';' ∧ c ≠ '-' ∧ upper c = [c]

theorem blank_of_gap {c : Char} (h : isGap c = true) : isBlank c = true := by
  rw [isGap, Bool.or_eq_true, beq_iff_eq, beq_iff_eq] at h
  rcases h with rfl | rfl
  · rfl
  · rfl

theorem Gap.blank (g : Gap) : ∀ c ∈ g.val, isBlank c = true :=
  fun c hc => blank_of_gap (g.property c hc)

theorem Gap.ne {d : Char} (hd : isGap d = false) (g : Gap) : ∀ c ∈ g.val, c ≠ d := by
  intro c hc he
  have := g.property c hc
  rw [he, hd] at this
  cases this

theorem no_gap_of_no_blank {c : Char} (h : isBlank c = false) : isGap c = false := by
  cases hg : isGap c with
  | false => rfl
  | true =>
    rw [blank_of_gap hg] at h
    cases h

section Prefix

variable {c : Char} {core : List Char}

/-- What is left of a token's text behind the connective. -/
def signed (negated : Bool) (g : Gap) (core : List Char) : List Char :=
  match negated with
  | true => '-' :: (g ++ core)
  | false => core

theorem dropWhile_signed {p : Char → Bool} (hgap : ∀ c, isGap c = true → p c = true)
    (hminus : p '-' = false) (hc : p c = false) (negated : Bool) (g g' : Gap) :
    (g.val ++ (negationMark negated ++ (g'.val ++ c :: core))).dropWhile p =
      signed negated g' (c :: core) := by
  rw [List.dropWhile_append_of_pos fun d hd => hgap d (g.property d hd)]
  cases negated with
  | true => exact List.dropWhile_cons_of_neg (by simp [hminus])
  | false =>
    rw [negationMark, List.nil_append,
      List.dropWhile_append_of_pos fun d hd => hgap d (g'.property d hd)]
    exact List.dropWhile_cons_of_neg (by simp [hc])

theorem connectiveAt_mark (hblank : isBlank c = false) (hcomma : c ≠ ',') (hsemi : c ≠ ';')
    (logic : Option Connective) (negated : Bool) (before g g' : Gap) :
    connectiveAt (trimStart (before.val ++ (connectiveMark logic ++
      (g.val ++ (negationMark negated ++ (g'.val ++ c :: core)))))) =
      (logic, signed negated g' (c :: core)) := by
  have hgap := @dropWhile_signed c core isGap (fun _ h => h) rfl
    (no_gap_of_no_blank hblank) negated g g'
  rw [trimStart_blank before.blank]
  cases logic with
  | none =>
    have htrim : trimStart (g.val ++ (negationMark negated ++ (g'.val ++ c :: core))) =
        signed negated g' (c :: core) :=
      dropWhile_signed (fun _ h => blank_of_gap h) rfl hblank negated g g'
    rw [connectiveMark, List.nil_append, htrim]
    cases negated with
    | true => rfl
    | false => simp [signed, connectiveAt, hcomma, hsemi]
  | some logic =>
    cases logic with
    | and =>
      rw [connectiveMark, List.singleton_append, trimStart_cons rfl, connectiveAt, hgap]
    | or =>
      rw [connectiveMark, List.singleton_append, trimStart_cons rfl, connectiveAt, hgap]

theorem negationAt_signed (hminus : c ≠ '-') (negated : Bool) (g : Gap) :
    negationAt (signed negated g (c :: core)) =
      (negated, if negated then g.val ++ c :: core else c :: core) := by
  cases negated with
  | true => rfl
  | false => simp [signed, negationAt, hminus]

theorem trimStart_unsigned (hblank : isBlank c = false) (negated : Bool) (g : Gap) :
    trimStart (if negated then g.val ++ c :: core else c :: core) = c :: core := by
  cases negated with
  | true => exact (trimStart_blank g.blank _).trans (trimStart_cons hblank core)
  | false => exact trimStart_cons hblank core

end Prefix

theorem argumentText_root {t : Token} (h : t.parent = none) (g : Gaps) :
    argumentText g t = ownText t ++ g.first := by rw [argumentText, h]

theorem argumentText_child {t : Token} {p : String} (h : t.parent = some p) (g : Gaps) :
    argumentText g t =
      (p.toList ++ g.first) ++ ',' :: (g.comma ++ (ownText t ++ g.second)) := by
  rw [argumentText, h, List.append_assoc]

theorem IsName.piece {id : String} (h : IsName id) : IsPiece id.toList := ⟨h.plain, h.tight⟩

theorem IsName.ne_nil {id : String} (h : IsName id) : id.toList ≠ [] := by
  intro he
  have := h.lower
  rw [he] at this
  cases this

theorem IsValue.piece {value : String} (h : IsValue value) :
    IsPiece ('"' :: (value.toList ++ ['"'])) := by
  refine ⟨?_, tight_between _ rfl rfl⟩
  intro c hc
  rcases List.mem_cons.mp hc with rfl | hc
  · decide
  · rcases List.mem_append.mp hc with hc | hc
    · obtain ⟨hcomma, hclose, -⟩ := h.plain c hc
      exact ⟨hcomma, hclose⟩
    · rw [List.mem_singleton.mp hc]
      decide

theorem IsValue.unquoted {value : String} (h : IsValue value) :
    unquoted ('"' :: (value.toList ++ ['"'])) = value.toList := by
  have hplain : value.toList.filter (!isQuote ·) = value.toList := by
    apply List.filter_eq_self.mpr
    intro c hc
    simp [(h.plain c hc).2.2]
  have hquote : (!isQuote '"') = false := rfl
  rw [Notation.unquoted, List.filter_cons_of_neg (by simp [hquote]), List.filter_append, hplain,
    List.filter_cons_of_neg (by simp [hquote]), List.filter_nil, List.append_nil, h.tight.trim_eq]

section Arguments

variable {declared : List String} {t : Token}

theorem ownText_piece (ht : Introduces declared t) : IsPiece (ownText t) := by
  rw [ownText]
  cases hid : t.id with
  | some id => exact (ht.name id hid).piece
  | none =>
    have hvalue : t.value.isNone = false := by
      rw [← ht.either, hid]
      rfl
    cases hv : t.value with
    | none =>
      rw [hv] at hvalue
      cases hvalue
    | some v => exact (ht.value v hv).piece

theorem trim_piece {s : List Char} (h : IsPiece s) (g : Gap) : trim (s ++ g) = s :=
  @Tight.trim_padded s [] g h.tight (by simp) g.blank

theorem IsPiece.plain_gap {s : List Char} (h : IsPiece s) (g : Gap) :
    ∀ c ∈ s ++ g.val, c ≠ ',' ∧ c ≠ ')' := by
  intro c hc
  rcases List.mem_append.mp hc with hc | hc
  · exact h.plain c hc
  · exact ⟨g.ne rfl c hc, g.ne rfl c hc⟩

theorem argument_fields (hd : ∀ id ∈ declared, IsName id) (ht : Introduces declared t) (g : Gaps) :
    (fields ',' (argumentText g t)).map trim =
      (t.parent.map String.toList).toList ++ [ownText t] := by
  have hown := ownText_piece ht
  cases hp : t.parent with
  | none =>
    have hplain := hown.plain_gap g.first
    rw [argumentText_root hp, fields_plain fun c hc => (hplain c hc).1, List.map_singleton,
      trim_piece hown]
    rfl
  | some p =>
    have hparent := (hd p (ht.known p hp)).piece
    have hfirst := hparent.plain_gap g.first
    have hsecond : ∀ c ∈ g.comma.val ++ (ownText t ++ g.second.val), c ≠ ',' := by
      intro c hc
      rcases List.mem_append.mp hc with hc | hc
      · exact g.comma.ne rfl c hc
      · exact (hown.plain_gap g.second c hc).1
    rw [argumentText_child hp, fields_pair (fun c hc => (hfirst c hc).1) hsecond, List.map_cons,
      trim_piece hparent, List.map_singleton, hown.tight.trim_padded g.comma.blank g.second.blank]
    rfl

theorem argument_open (hd : ∀ id ∈ declared, IsName id) (ht : Introduces declared t) (g : Gaps)
    (rest : List Char) : trimStart (argumentText g t ++ rest) = argumentText g t ++ rest := by
  cases hp : t.parent with
  | none =>
    have hname : ∃ id, t.id = some id := Option.isSome_iff_exists.mp (ht.rooted hp)
    obtain ⟨id, hid⟩ := hname
    have hid' := ht.name id hid
    have hown : ownText t = id.toList := by rw [ownText, hid]
    rw [argumentText_root hp, hown, List.append_assoc,
      hid'.tight.trimStart_append hid'.ne_nil]
  | some p =>
    have hp' := hd p (ht.known p hp)
    rw [argumentText_child hp, List.append_assoc, List.append_assoc,
      hp'.tight.trimStart_append hp'.ne_nil]

theorem argument_close (hd : ∀ id ∈ declared, IsName id) (ht : Introduces declared t) (g : Gaps) :
    ∀ c ∈ argumentText g t, c ≠ ')' := by
  have hown := ownText_piece ht
  cases hp : t.parent with
  | none =>
    rw [argumentText_root hp]
    exact fun c hc => (hown.plain_gap g.first c hc).2
  | some p =>
    have hparent := (hd p (ht.known p hp)).piece
    rw [argumentText_child hp]
    intro c hc
    rcases List.mem_append.mp hc with hc | hc
    · exact (hparent.plain_gap g.first c hc).2
    · rcases List.mem_cons.mp hc with rfl | hc
      · decide
      · rcases List.mem_append.mp hc with hc | hc
        · exact g.comma.ne rfl c hc
        · exact (hown.plain_gap g.second c hc).2

/-- The arguments of a token that may be introduced say what the token says. -/
theorem says_arguments (hd : ∀ id ∈ declared, IsName id) (ht : Introduces declared t) :
    ∃ args, Says declared ((t.parent.map String.toList).toList ++ [ownText t]) args ∧
      args.id? = t.id ∧ args.parent? = t.parent ∧ args.value? = t.value := by
  have heither := ht.either
  rw [ownText]
  cases hid : t.id with
  | some id =>
    have hname := ht.name id hid
    have hfresh : String.ofList id.toList ∉ declared := by
      rw [String.ofList_toList]
      exact ht.fresh id hid
    have hvalue : t.value = none := by
      rw [hid] at heither
      exact Option.isNone_iff_eq_none.mp heither.symm
    cases hp : t.parent with
    | none =>
      refine ⟨_, .root hname.lower hfresh, ?_, rfl, hvalue.symm⟩
      rw [Arguments.id?, String.ofList_toList]
    | some p =>
      have hparent := ht.known p hp
      refine ⟨_, .branch (hd p hparent).lower (by rwa [String.ofList_toList]) hname.lower hfresh,
        ?_, ?_, hvalue.symm⟩
      · rw [Arguments.id?, String.ofList_toList]
      · rw [Arguments.parent?, String.ofList_toList]
  | none =>
    cases hp : t.parent with
    | none =>
      have := ht.rooted hp
      rw [hid] at this
      cases this
    | some p =>
      cases hv : t.value with
      | none =>
        rw [hid, hv] at heither
        cases heither
      | some v =>
        have hparent := ht.known p hp
        have hquote : isLowercase '"' = false := by decide
        refine ⟨_, .leaf (hd p hparent).lower (by rwa [String.ofList_toList]) hquote
          (by simp), rfl, ?_, ?_⟩
        · rw [Arguments.parent?, String.ofList_toList]
        · rw [Arguments.value?, Option.getD_some, (ht.value v hv).unquoted, String.ofList_toList]

end Arguments

end TradeChat.Notation
