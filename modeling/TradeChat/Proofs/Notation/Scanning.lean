import TradeChat.Notation.Reader
import TradeChat.Proofs.Notation.WellFormed

namespace TradeChat.Notation
open Text

/-- A text without the marks in front of its type. -/
def unmarked (s : List Char) : List Char := trimStart (negationAt (connectiveAt s).2).2

theorem connectiveAt_suffix (s : List Char) : (connectiveAt s).2 <:+ s := by
  unfold connectiveAt
  split
  · exact (List.dropWhile_suffix _).trans (List.suffix_cons _ _)
  · exact (List.dropWhile_suffix _).trans (List.suffix_cons _ _)
  · exact List.suffix_refl _

theorem negationAt_suffix (s : List Char) : (negationAt s).2 <:+ s := by
  unfold negationAt
  split
  · exact List.suffix_cons _ _
  · exact List.suffix_refl _

theorem unmarked_suffix (s : List Char) : unmarked s <:+ s :=
  ((trimStart_suffix _).trans (negationAt_suffix _)).trans (connectiveAt_suffix s)

/-- A token is read where a type stands before an opening bracket, and arguments that read stand
before the closing one. -/
theorem tokenAt_ok {declared : List String} {s rest : List Char} {t : Token} :
    tokenAt declared s = .ok (t, rest) ↔
      ∃ (head inside body after : List Char) (args : Arguments),
        unmarked s = head ++ '(' :: inside ∧
        (∀ c ∈ head, c ≠ '(') ∧ trimEnd head ≠ [] ∧
        trimStart inside = body ++ ')' :: after ∧ (∀ c ∈ body, c ≠ ')') ∧
        readArguments declared ((fields ',' body).map trim) = .ok args ∧
        t = ⟨String.ofList (capitalize (trimEnd head)), args.id?, args.parent?, args.value?,
          (connectiveAt s).1, (negationAt (connectiveAt s).2).1⟩ ∧
        rest = trimStart after := by
  rw [unmarked]
  simp only [tokenAt]
  generalize trimStart (negationAt (connectiveAt s).2).2 = u
  constructor
  · intro h
    split at h
    · cases h
    · rename_i c inside hopen
      split at h
      · cases h
      · rename_i hname
        split at h
        · cases h
        · rename_i d after hclose
          split at h
          · cases h
          · rename_i args hargs
            simp only [Except.ok.injEq, Prod.mk.injEq] at h
            obtain ⟨ht, hrest⟩ := h
            obtain ⟨hu, hhead⟩ := split_at_mark hopen
            obtain ⟨hinside, hbody⟩ := split_at_mark hclose
            exact ⟨_, inside, _, after, args, hu, hhead, by simpa using hname, hinside, hbody,
              hargs, ht.symm, hrest.symm⟩
  · rintro ⟨head, inside, body, after, args, rfl, hhead, hname, hinside, hbody, hargs, rfl, rfl⟩
    rw [from_mark hhead, before_mark hhead]
    simp only [hinside, from_mark hbody, before_mark hbody, hargs]
    rw [if_neg (by simpa using hname)]

/-- The four things that keep a token from being read, and what is left of the text there. -/
inductive Stops (declared : List String) (s : List Char) : SyntaxError → Prop
  | unopened : (∀ c ∈ unmarked s, c ≠ '(') →
      Stops declared s ⟨String.ofList (unmarked s), .missingOpen⟩
  | untyped {head inside : List Char} : unmarked s = head ++ '(' :: inside →
      (∀ c ∈ head, c ≠ '(') → trimEnd head = [] →
      Stops declared s ⟨String.ofList (unmarked s), .missingType⟩
  | unclosed {head inside : List Char} : unmarked s = head ++ '(' :: inside →
      (∀ c ∈ head, c ≠ '(') → trimEnd head ≠ [] → (∀ c ∈ trimStart inside, c ≠ ')') →
      Stops declared s ⟨String.ofList (trimStart inside), .missingClose⟩
  | unread {head inside body after : List Char} {fault : Fault} :
      unmarked s = head ++ '(' :: inside → (∀ c ∈ head, c ≠ '(') → trimEnd head ≠ [] →
      trimStart inside = body ++ ')' :: after → (∀ c ∈ body, c ≠ ')') →
      readArguments declared ((fields ',' body).map trim) = .error fault →
      Stops declared s ⟨String.ofList (trimStart inside), fault⟩

theorem tokenAt_error {declared : List String} {s : List Char} {e : SyntaxError} :
    tokenAt declared s = .error e ↔ Stops declared s e := by
  constructor
  · intro h
    simp only [tokenAt] at h
    rw [← unmarked] at h
    split at h
    · rename_i hopen
      cases h
      exact .unopened (by simpa using hopen)
    · rename_i c inside hopen
      obtain ⟨hu, hhead⟩ := split_at_mark hopen
      split at h
      · rename_i hname
        cases h
        exact .untyped hu hhead (by simpa using hname)
      · rename_i hname
        have hname' : trimEnd ((unmarked s).takeWhile (· != '(')) ≠ [] := by simpa using hname
        split at h
        · rename_i hclose
          cases h
          exact .unclosed hu hhead hname' (by simpa using hclose)
        · rename_i d after hclose
          obtain ⟨hinside, hbody⟩ := split_at_mark hclose
          split at h
          · rename_i fault hfault
            cases h
            exact .unread hu hhead hname' hinside hbody hfault
          · cases h
  · intro h
    simp only [tokenAt]
    rw [← unmarked]
    cases h with
    | unopened hopen =>
      rw [List.dropWhile_eq_nil_iff.mpr (by simpa using hopen)]
    | untyped hu hhead hname =>
      rw [hu, from_mark hhead, before_mark hhead]
      simp only [hname, List.isEmpty_nil, ↓reduceIte]
    | unclosed hu hhead hname hclose =>
      rw [hu, from_mark hhead, before_mark hhead]
      simp only
      rw [if_neg (by simpa using hname), List.dropWhile_eq_nil_iff.mpr (by simpa using hclose)]
    | unread hu hhead hname hinside hbody hfault =>
      rw [hu, from_mark hhead, before_mark hhead]
      simp only [hinside, from_mark hbody, before_mark hbody, hfault]
      rw [if_neg (by simpa using hname)]

/-- What is shown of a text is the end of it. -/
theorem Stops.fragment_suffix {declared : List String} {s : List Char} {e : SyntaxError}
    (h : Stops declared s e) : e.fragment.toList <:+ s := by
  have hinside : ∀ {head inside : List Char}, unmarked s = head ++ '(' :: inside →
      trimStart inside <:+ s := by
    intro head inside hopen
    have hsuffix : inside <:+ unmarked s := ⟨head ++ ['('], by simp [hopen]⟩
    exact ((trimStart_suffix inside).trans hsuffix).trans (unmarked_suffix s)
  cases h with
  | unopened _ => simpa using unmarked_suffix s
  | untyped _ _ _ => simpa using unmarked_suffix s
  | unclosed hopen _ _ _ => simpa using hinside hopen
  | unread hopen _ _ _ _ _ => simpa using hinside hopen

theorem map_ok {α β ε : Type} {f : α → β} {x : Except ε α} {b : β} :
    f <$> x = .ok b ↔ ∃ a, x = .ok a ∧ f a = b := by
  cases x with
  | error e => simp [Functor.map, Except.map]
  | ok a => simp [Functor.map, Except.map]

theorem map_error {α β ε : Type} {f : α → β} {x : Except ε α} {e : ε}
    (h : f <$> x = .error e) : x = .error e := by
  cases x with
  | error e' =>
    cases h
    rfl
  | ok a => cases h

theorem freshId_ok {declared : List String} {arg : List Char} {id : String} :
    freshId declared arg = .ok id ↔ String.ofList arg ∉ declared ∧ String.ofList arg = id := by
  simp only [freshId]
  split
  · rename_i h
    simp [h]
  · rename_i h
    simp [h]

/-- The three things that arguments can say, and when they may. -/
inductive Says (declared : List String) : List (List Char) → Arguments → Prop
  | root {a : List Char} : isId a = true → String.ofList a ∉ declared →
      Says declared [a] (.root (String.ofList a))
  | branch {p a : List Char} : isId p = true → String.ofList p ∈ declared → isId a = true →
      String.ofList a ∉ declared →
      Says declared [p, a] (.branch (String.ofList p) (String.ofList a))
  | leaf {p v : List Char} : isId p = true → String.ofList p ∈ declared → isId v = false →
      v ≠ [] → Says declared [p, v] (.leaf (String.ofList p) (String.ofList (unquoted v)))

theorem readArguments_ok {declared : List String} {texts : List (List Char)} {args : Arguments} :
    readArguments declared texts = .ok args ↔ Says declared texts args := by
  constructor
  · intro h
    match texts, h with
    | [], h => cases h
    | [a], h =>
      rw [readArguments] at h
      split at h
      · rename_i hid
        obtain ⟨id, hfresh, rfl⟩ := map_ok.mp h
        obtain ⟨hnew, rfl⟩ := freshId_ok.mp hfresh
        exact .root hid hnew
      · cases h
    | [p, b], h =>
      simp only [readArguments] at h
      split at h
      · rename_i hp
        rw [Bool.and_eq_true, decide_eq_true_eq] at hp
        obtain ⟨hpid, hparent⟩ := hp
        split at h
        · rename_i hid
          obtain ⟨id, hfresh, rfl⟩ := map_ok.mp h
          obtain ⟨hnew, rfl⟩ := freshId_ok.mp hfresh
          exact .branch hpid hparent hid hnew
        · rename_i hid
          split at h
          · cases h
          · rename_i hempty
            cases h
            exact .leaf hpid hparent (by simpa using hid) (by simpa using hempty)
      · cases h
    | _ :: _ :: _ :: _, h => cases h
  · intro h
    cases h with
    | root hid hnew =>
      rw [readArguments, if_pos hid]
      exact map_ok.mpr ⟨_, freshId_ok.mpr ⟨hnew, rfl⟩, rfl⟩
    | branch hp hparent hid hnew =>
      simp only [readArguments]
      rw [if_pos (by simp [hp, hparent]), if_pos hid]
      exact map_ok.mpr ⟨_, freshId_ok.mpr ⟨hnew, rfl⟩, rfl⟩
    | leaf hp hparent hid hne =>
      simp only [readArguments]
      rw [if_pos (by simp [hp, hparent]), if_neg (by simp [hid]), if_neg (by simpa using hne)]

/-- A piece of an argument list. -/
structure IsPiece (s : List Char) : Prop where
  plain : ∀ c ∈ s, c ≠ ',' ∧ c ≠ ')'
  tight : Tight s

theorem IsPiece.isName {s : List Char} (h : IsPiece s) (hid : isId s = true) :
    IsName (String.ofList s) := by
  refine ⟨?_, ?_, ?_⟩
  · rwa [String.toList_ofList]
  · rw [String.toList_ofList]
    exact h.plain
  · rw [String.toList_ofList]
    exact h.tight

theorem IsPiece.isValue {s : List Char} (h : IsPiece s) : IsValue (String.ofList (unquoted s)) := by
  refine ⟨?_, ?_⟩
  · intro c hc
    rw [String.toList_ofList] at hc
    obtain ⟨hs, hquote⟩ := List.mem_filter.mp ((trim_sublist _).subset hc)
    obtain ⟨hcomma, hclose⟩ := h.plain c hs
    exact ⟨hcomma, hclose, by simpa using hquote⟩
  · rw [String.toList_ofList]
    exact trim_tight _

/-- The arguments between two brackets are pieces. -/
theorem pieces {body : List Char} (hbody : ∀ c ∈ body, c ≠ ')') :
    ∀ s ∈ (fields ',' body).map trim, IsPiece s := by
  intro s hs
  obtain ⟨piece, hpiece, rfl⟩ := List.mem_map.mp hs
  refine ⟨?_, trim_tight piece⟩
  intro c hc
  obtain ⟨hmem, hcomma⟩ := mem_fields hpiece c ((trim_sublist piece).subset hc)
  exact ⟨hcomma, hbody c hmem⟩

theorem Says.introduces {declared : List String} {texts : List (List Char)} {args : Arguments}
    (h : Says declared texts args) (htexts : ∀ s ∈ texts, IsPiece s) (type : String)
    (logic : Option Connective) (negated : Bool) :
    Introduces declared ⟨type, args.id?, args.parent?, args.value?, logic, negated⟩ := by
  cases h with
  | root hid hnew =>
    have ha := (htexts _ List.mem_cons_self).isName hid
    refine ⟨rfl, fun _ => rfl, ?_, nofun, ?_, nofun⟩
    · intro id he
      cases he
      exact hnew
    · intro id he
      cases he
      exact ha
  | branch hp hparent hid hnew =>
    have ha := (htexts _ (List.mem_cons_of_mem _ List.mem_cons_self)).isName hid
    refine ⟨rfl, nofun, ?_, ?_, ?_, nofun⟩
    · intro id he
      cases he
      exact hnew
    · intro p he
      cases he
      exact hparent
    · intro id he
      cases he
      exact ha
  | leaf hp hparent hid hne =>
    have hv := (htexts _ (List.mem_cons_of_mem _ List.mem_cons_self)).isValue
    refine ⟨rfl, nofun, nofun, ?_, nofun, ?_⟩
    · intro p he
      cases he
      exact hparent
    · intro v he
      cases he
      exact hv

theorem tokenAt_introduces {declared : List String} {s rest : List Char} {t : Token}
    (h : tokenAt declared s = .ok (t, rest)) : Introduces declared t := by
  obtain ⟨head, inside, body, after, args, -, -, -, -, hbody, hargs, rfl, -⟩ := tokenAt_ok.mp h
  exact (readArguments_ok.mp hargs).introduces (pieces hbody) _ _ _

theorem tokensFrom_nil (declared : List String) : tokensFrom declared [] = .ok [] := by
  rw [tokensFrom, if_pos List.isEmpty_nil]

theorem tokensFrom_token {declared : List String} {s rest : List Char} {t : Token}
    (h : tokenAt declared s = .ok (t, rest)) :
    tokensFrom declared s = (t :: ·) <$> tokensFrom (t.id.toList ++ declared) rest := by
  have hs : s ≠ [] := by
    have := tokenAt_length_lt declared s rest t h
    intro hs
    simp [hs] at this
  rw [tokensFrom, if_neg (by simpa using hs)]
  split
  · rename_i h'
    rw [h] at h'
    cases h'
  · rename_i h'
    rw [h] at h'
    cases h'
    rfl

theorem tokensFrom_declares {declared : List String} {s : List Char} {ts : List Token}
    (h : tokensFrom declared s = .ok ts) : Declares declared ts := by
  fun_induction tokensFrom declared s generalizing ts with
  | case1 declared s hs =>
    cases h
    exact .nil declared
  | case2 => cases h
  | case3 declared s hs t rest ht ih =>
    obtain ⟨more, hmore, rfl⟩ := map_ok.mp h
    exact .cons (tokenAt_introduces ht) (ih hmore)

theorem parse_wellFormed {line : String} {ts : List Token} (h : parse line = .ok ts) :
    WellFormed ts := (tokensFrom_declares h).wellFormed

namespace Scanner

/-- Scanning reads the tokens of a text; the scanner only knows the ids that are declared. -/
theorem scan_tokens (p : Scanner) (s : List Char) : (p.scan s).1 = tokensFrom p.declared s := by
  fun_induction scan p s with
  | case1 p s hs => rw [tokensFrom, if_pos hs]
  | case2 p s hs e h =>
    rw [tokensFrom, if_neg hs]
    split
    · rename_i h'
      rw [h] at h'
      cases h'
      rfl
    · rename_i h'
      rw [h] at h'
      cases h'
  | case3 p s hs t rest h tokens last hscan ih =>
    rw [hscan] at ih
    rw [tokensFrom_token h, ← ih]

/-- Whatever the lines before have declared, a line reads as it does by itself. -/
theorem read_parse (p : Scanner) (line : String) : (p.read line).1 = parse line :=
  scan_tokens {} _

end Scanner

end TradeChat.Notation
