import TradeChat.Proofs.Notation.Scanning

namespace TradeChat.Notation
open Text

theorem connectiveAt_append {s : List Char} (hs : (connectiveAt s).2 ≠ []) (more : List Char) :
    connectiveAt (s ++ more) = ((connectiveAt s).1, (connectiveAt s).2 ++ more) := by
  cases s with
  | nil => exact absurd rfl hs
  | cons c rest =>
    by_cases hcomma : c = ','
    · subst hcomma
      have hrest : rest.dropWhile isGap ≠ [] := hs
      simp [connectiveAt, List.dropWhile_append, hrest]
    · by_cases hsemi : c = ';'
      · subst hsemi
        have hrest : rest.dropWhile isGap ≠ [] := hs
        simp [connectiveAt, List.dropWhile_append, hrest]
      · simp [connectiveAt, hcomma, hsemi]

theorem negationAt_append {s : List Char} (hs : s ≠ []) (more : List Char) :
    negationAt (s ++ more) = ((negationAt s).1, (negationAt s).2 ++ more) := by
  cases s with
  | nil => exact absurd rfl hs
  | cons c rest => by_cases hminus : c = '-' <;> simp [negationAt, hminus]

/-- The marks in front of a type are read before anything that comes behind it. -/
theorem unmarked_append {s : List Char} (hs : unmarked s ≠ []) (more : List Char) :
    unmarked (s ++ more) = unmarked s ++ more ∧
      (connectiveAt (s ++ more)).1 = (connectiveAt s).1 ∧
      (negationAt (connectiveAt (s ++ more)).2).1 = (negationAt (connectiveAt s).2).1 := by
  have hsigned : (connectiveAt s).2 ≠ [] := by
    intro he
    rw [unmarked, he] at hs
    exact hs rfl
  have hconnective := connectiveAt_append hsigned more
  have hnegation := negationAt_append hsigned more
  refine ⟨?_, ?_, ?_⟩
  · rw [unmarked, hconnective, hnegation, trimStart_append hs, ← unmarked]
  · rw [hconnective]
  · rw [hconnective, hnegation]

/-- Reading a token off the front of a text does not look behind its closing bracket. -/
theorem tokenAt_append {declared : List String} {s rest : List Char} {t : Token}
    (h : tokenAt declared s = .ok (t, rest)) (more : List Char) :
    tokenAt declared (s ++ more) = .ok (t, trimStart (rest ++ more)) := by
  obtain ⟨head, inside, body, after, args, hopen, hhead, hname, hclose, hbody, hargs, ht, rfl⟩ :=
    tokenAt_ok.mp h
  have hcore : unmarked s ≠ [] := by simp [hopen]
  obtain ⟨hunmarked, hconnective, hnegation⟩ := unmarked_append hcore more
  have hinside : trimStart inside ≠ [] := by simp [hclose]
  apply tokenAt_ok.mpr
  refine ⟨head, inside ++ more, body, after ++ more, args, ?_, hhead, hname, ?_, hbody, hargs,
    ?_, ?_⟩
  · rw [hunmarked, hopen, List.append_assoc, List.cons_append]
  · rw [trimStart_append hinside, hclose, List.append_assoc, List.cons_append]
  · rw [hconnective, hnegation]
    exact ht
  · exact trimStart_trimStart_append after more

/-- White space behind a token is gone before the next is looked for. -/
theorem tokenAt_start {declared : List String} {s rest : List Char} {t : Token}
    (h : tokenAt declared s = .ok (t, rest)) : ∀ c ∈ rest.head?, isBlank c = false := by
  obtain ⟨-, -, -, after, -, -, -, -, -, -, -, -, rfl⟩ := tokenAt_ok.mp h
  exact trimStart_start after

/-- Reading tokens off a text leads to what is left of it, with the ids that are declared by
then. -/
inductive Reads : List String → List Char → List Token → List String → List Char → Prop
  | stay (declared : List String) (s : List Char) : Reads declared s [] declared s
  | token {declared later : List String} {s rest last : List Char} {t : Token} {ts : List Token} :
      tokenAt declared s = .ok (t, rest) → Reads (t.id.toList ++ declared) rest ts later last →
      Reads declared s (t :: ts) later last

namespace Reads

variable {declared later : List String} {s last : List Char} {ts : List Token}

theorem tokensFrom (h : Reads declared s ts later last) :
    tokensFrom declared s = (ts ++ ·) <$> tokensFrom later last := by
  induction h with
  | stay declared s =>
    cases h : Notation.tokensFrom declared s <;> rfl
  | @token declared later s rest last t ts ht _ ih =>
    rw [tokensFrom_token ht, ih]
    cases Notation.tokensFrom later last <;> rfl

theorem declared_iff (h : Reads declared s ts later last) (id : String) :
    id ∈ later ↔ id ∈ ts.filterMap Token.id ∨ id ∈ declared := by
  induction h with
  | stay => simp
  | @token declared later s rest last t ts ht _ ih =>
    rw [ih, List.mem_append, Option.mem_toList]
    cases hid : t.id with
    | none => simp [hid]
    | some own =>
      rw [List.filterMap_cons_some hid, List.mem_cons, Option.some.injEq, eq_comm, ← or_assoc,
        or_comm (b := id = own)]

theorem start (h : Reads declared s ts later last) (hs : ∀ c ∈ s.head?, isBlank c = false) :
    ∀ c ∈ last.head?, isBlank c = false := by
  induction h with
  | stay => exact hs
  | token ht _ ih => exact ih (tokenAt_start ht)

/-- Tokens read the same whatever comes behind what is left. -/
theorem append (h : Reads declared s ts later last) (hs : ∀ c ∈ s.head?, isBlank c = false)
    (more : List Char) :
    Reads declared (trimStart (s ++ more)) ts later (trimStart (last ++ more)) := by
  induction h with
  | stay => exact .stay _ _
  | @token declared later s rest last t ts ht _ ih =>
    have hne : s ≠ [] := by
      rintro rfl
      exact absurd (tokenAt_length_lt _ _ _ _ ht) (Nat.not_lt_zero _)
    have htight : trimStart s = s := trimStart_of_start hs
    rw [trimStart_append (by rwa [htight]), htight]
    exact .token (tokenAt_append ht more) (ih (tokenAt_start ht))

end Reads

theorem reads_ok {declared : List String} {s : List Char} {ts : List Token}
    (h : tokensFrom declared s = .ok ts) : ∃ later, Reads declared s ts later [] := by
  fun_induction tokensFrom declared s generalizing ts with
  | case1 declared s hs =>
    cases h
    rw [List.isEmpty_iff.mp hs]
    exact ⟨declared, .stay declared []⟩
  | case2 => cases h
  | case3 declared s hs t rest ht ih =>
    obtain ⟨more, hmore, rfl⟩ := map_ok.mp h
    obtain ⟨later, hreads⟩ := ih hmore
    exact ⟨later, .token ht hreads⟩

theorem Says.widen {declared declared' : List String} {texts : List (List Char)}
    {args : Arguments} (h : Says declared texts args) (hsub : ∀ id ∈ declared, id ∈ declared')
    (hnew : ∀ id ∈ args.id?, id ∉ declared') : Says declared' texts args := by
  cases h with
  | root hid _ => exact .root hid (hnew _ rfl)
  | branch hp hparent hid _ => exact .branch hp (hsub _ hparent) hid (hnew _ rfl)
  | leaf hp hparent hid hne => exact .leaf hp (hsub _ hparent) hid hne

theorem tokenAt_widen {declared declared' : List String} {s rest : List Char} {t : Token}
    (h : tokenAt declared s = .ok (t, rest)) (hsub : ∀ id ∈ declared, id ∈ declared')
    (hnew : ∀ id ∈ t.id, id ∉ declared') : tokenAt declared' s = .ok (t, rest) := by
  obtain ⟨head, inside, body, after, args, hopen, hhead, hname, hclose, hbody, hargs, rfl, rfl⟩ :=
    tokenAt_ok.mp h
  have hsays := (readArguments_ok.mp hargs).widen hsub hnew
  exact tokenAt_ok.mpr ⟨head, inside, body, after, args, hopen, hhead, hname, hclose, hbody,
    readArguments_ok.mpr hsays, rfl, rfl⟩

/-- Ids that were declared before do not matter as long as no token declares them again. -/
theorem tokensFrom_widen {declared declared' : List String} {s : List Char} {ts : List Token}
    (h : tokensFrom declared s = .ok ts) (hsub : ∀ id ∈ declared, id ∈ declared')
    (hnew : ∀ id ∈ ts.filterMap Token.id, id ∉ declared') : tokensFrom declared' s = .ok ts := by
  fun_induction tokensFrom declared s generalizing declared' ts with
  | case1 declared s hs =>
    cases h
    rw [List.isEmpty_iff.mp hs, tokensFrom_nil]
  | case2 => cases h
  | case3 declared s hs t rest ht ih =>
    obtain ⟨more, hmore, rfl⟩ := map_ok.mp h
    have hown : ∀ id ∈ t.id, id ∉ declared' := fun id hid =>
      hnew id (List.mem_filterMap.mpr ⟨t, List.mem_cons_self, hid⟩)
    have hlater : tokensFrom (t.id.toList ++ declared') rest = .ok more := by
      apply ih hmore
      · intro id hid
        rcases List.mem_append.mp hid with hid | hid
        · exact List.mem_append_left _ hid
        · exact List.mem_append_right _ (hsub id hid)
      · intro id hid hold
        rcases List.mem_append.mp hold with hold | hold
        · exact (tokensFrom_declares hmore).fresh id hid (List.mem_append_left _ hold)
        · obtain ⟨u, hu, hid⟩ := List.mem_filterMap.mp hid
          exact hnew id (List.mem_filterMap.mpr ⟨u, List.mem_cons_of_mem t hu, hid⟩) hold
    rw [tokensFrom_token (tokenAt_widen ht hsub hown), hlater]
    rfl

/-- Tokens read on behind other tokens as they read by themselves. -/
theorem tokensFrom_append {declared : List String} {s more : List Char} {ts us : List Token}
    (h : tokensFrom declared s = .ok ts) (hstart : ∀ c ∈ s.head?, isBlank c = false)
    (hmore : tokensFrom [] (trimStart more) = .ok us)
    (hnew : ∀ id ∈ us.filterMap Token.id, id ∉ ts.filterMap Token.id ∧ id ∉ declared) :
    tokensFrom declared (trimStart (s ++ more)) = .ok (ts ++ us) := by
  obtain ⟨later, hreads⟩ := reads_ok h
  have hwide : tokensFrom later (trimStart more) = .ok us := by
    refine tokensFrom_widen hmore (by simp) fun id hid hlater => ?_
    obtain ⟨hts, hold⟩ := hnew id hid
    exact ((hreads.declared_iff id).mp hlater).elim hts hold
  rw [(hreads.append hstart more).tokensFrom, List.nil_append, hwide]
  rfl

/-- Two lines with different ids, written one behind the other, read as one. -/
theorem parse_append {x y : String} {ts us : List Token} (hx : parse x = .ok ts)
    (hy : parse y = .ok us) (hids : ∀ id ∈ ts.filterMap Token.id, id ∉ us.filterMap Token.id) :
    parse (x ++ y) = .ok (ts ++ us) := by
  obtain ⟨gap, hgap, htrim⟩ := trim_append x.toList y.toList
  have hsecond : tokensFrom [] (trimStart (gap ++ trim y.toList)) = .ok us := by
    rw [trimStart_blank hgap, (trim_tight _).trimStart_eq]
    exact hy
  rw [parse, String.toList_append, htrim]
  exact tokensFrom_append hx (trim_tight _).start hsecond
    fun id hid => ⟨fun hin => hids id hin hid, List.not_mem_nil⟩

end TradeChat.Notation
