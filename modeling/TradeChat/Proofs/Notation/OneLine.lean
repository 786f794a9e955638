import TradeChat.Notation.Reader
import TradeChat.Proofs.Entity.OneLine
import TradeChat.Proofs.Notation.Scanning

namespace TradeChat.Notation
open Text

/-- A fault shows no more than one argument. -/
theorem oneLine_reason {fault : Fault}
    (h : ∀ arg,
      fault = .notAnId arg ∨ fault = .undeclaredParent arg ∨ fault = .alreadyDeclared arg →
      OneLine arg) : OneLine fault.reason := by
  unfold Fault.reason
  cases fault with
  | missingOpen => decide
  | missingType => decide
  | missingClose => decide
  | notAnId arg => simp +decide only [oneLine_append, h arg (.inl rfl), and_self]
  | undeclaredParent arg => simp +decide only [oneLine_append, h arg (.inr (.inl rfl)), and_self]
  | alreadyDeclared arg => simp +decide only [oneLine_append, h arg (.inr (.inr rfl)), and_self]
  | emptyValue => decide
  | argumentCount found => exact oneLine_append.mpr ⟨by decide, oneLine_nat found⟩

theorem oneLine_message {e : SyntaxError} (hfragment : OneLine e.fragment)
    (hreason : OneLine e.fault.reason) : OneLine e.message := by
  unfold SyntaxError.message
  simp +decide only [oneLine_append, hfragment, hreason, and_self]

theorem freshId_error {declared : List String} {arg : List Char} {fault : Fault}
    (h : freshId declared arg = .error fault) : fault = .alreadyDeclared (String.ofList arg) := by
  simp only [freshId] at h
  split at h
  · exact (Except.error.inj h).symm
  · cases h

/-- Faults in arguments name arguments. -/
theorem readArguments_error {declared : List String} {texts : List (List Char)} {fault : Fault}
    (h : readArguments declared texts = .error fault) (htexts : ∀ s ∈ texts, '\n' ∉ s) :
    OneLine fault.reason := by
  have hnames : ∀ s ∈ texts, OneLine (String.ofList s) := fun s hs =>
    oneLine_ofList.mpr (htexts s hs)
  apply oneLine_reason
  match texts, h with
  | [], h =>
    cases h
    simp
  | [a], h =>
    have ha := hnames a List.mem_cons_self
    rw [readArguments] at h
    split at h
    · rw [freshId_error (map_error h)]
      simpa using ha
    · cases h
      simpa using ha
  | [p, b], h =>
    have hp := hnames p List.mem_cons_self
    have hb := hnames b (List.mem_cons_of_mem p List.mem_cons_self)
    simp only [readArguments] at h
    split at h
    · split at h
      · rw [freshId_error (map_error h)]
        simpa using hb
      · split at h
        · cases h
          simp
        · cases h
    · cases h
      simpa using hp
  | _ :: _ :: _ :: _, h =>
    cases h
    simp

theorem oneLine_fields {body : List Char} (h : '\n' ∉ body) :
    ∀ s ∈ (fields ',' body).map trim, '\n' ∉ s := by
  intro s hs hc
  obtain ⟨piece, hpiece, rfl⟩ := List.mem_map.mp hs
  exact h (mem_fields hpiece _ ((trim_sublist piece).subset hc)).1

/-- What a token that is read from one line holds stands on that line, and so does the rest. -/
theorem tokenAt_parts {declared : List String} {s rest : List Char} {t : Token}
    (h : tokenAt declared s = .ok (t, rest)) (hs : '\n' ∉ s) :
    OneLine t.type ∧ (∀ id ∈ t.id, OneLine id) ∧ (∀ p ∈ t.parent, OneLine p) ∧ t.Flat ∧
      '\n' ∉ rest := by
  obtain ⟨head, inside, body, after, args, hopen, -, -, hclose, -, hargs, rfl, rfl⟩ :=
    tokenAt_ok.mp h
  have hunmarked : head ++ '(' :: inside ⊆ s := hopen ▸ (unmarked_suffix s).subset
  have hinside : inside ⊆ s := fun c hc =>
    hunmarked (List.mem_append_right head (List.mem_cons_of_mem _ hc))
  have hrest : body ++ ')' :: after ⊆ s := by
    rw [← hclose]
    exact fun c hc => hinside ((trimStart_suffix _).subset hc)
  have hbody : '\n' ∉ body := fun hc => hs (hrest (List.mem_append_left _ hc))
  have hafter : '\n' ∉ after :=
    fun hc => hs (hrest (List.mem_append_right body (List.mem_cons_of_mem _ hc)))
  have htype : OneLine (String.ofList (capitalize (trimEnd head))) := by
    rw [oneLine_ofList]
    intro hc
    have hmem := capitalize_mark (by decide) (by decide) hc
    exact hs (hunmarked (List.mem_append_left _ ((trimEnd_starts head).subset hmem)))
  refine ⟨htype, ?_, ?_, ?_, fun hc => hafter ((trimStart_suffix _).subset hc)⟩
  all_goals
    intro v hv
    have htexts := oneLine_fields hbody
    generalize (fields ',' body).map trim = texts at hargs htexts
    cases readArguments_ok.mp hargs <;> cases hv
  · exact oneLine_ofList.mpr (htexts _ List.mem_cons_self)
  · exact oneLine_ofList.mpr (htexts _ (List.mem_cons_of_mem _ List.mem_cons_self))
  · exact oneLine_ofList.mpr (htexts _ List.mem_cons_self)
  · exact oneLine_ofList.mpr (htexts _ List.mem_cons_self)
  · rename_i p value _ _ _ _
    rw [oneLine_ofList]
    intro hc
    have hvalue := (List.mem_filter.mp ((trim_sublist _).subset hc)).1
    exact htexts value (List.mem_cons_of_mem p List.mem_cons_self) hvalue

theorem oneLine_shown {field : Option String} (h : ∀ v ∈ field, OneLine v) :
    OneLine (field.getD "null") := by
  cases field with
  | none => decide
  | some v => exact h v rfl

/-- A token is shown on one line if each of its fields stands on one. -/
theorem oneLine_token {t : Token} (htype : OneLine t.type) (hid : ∀ id ∈ t.id, OneLine id)
    (hparent : ∀ p ∈ t.parent, OneLine p) (hvalue : ∀ v ∈ t.value, OneLine v) :
    OneLine t.text := by
  have hlogic : OneLine ((t.logic.map Connective.text).getD "null") := by
    apply oneLine_shown
    intro v hv
    obtain ⟨logic, -, rfl⟩ := Option.map_eq_some_iff.mp hv
    cases logic <;> decide
  have hnegated : OneLine (if t.negated then "true" else "false") := by split <;> decide
  unfold Token.text
  simp +decide only [oneLine_append, htype, oneLine_shown hid, oneLine_shown hparent,
    oneLine_shown hvalue, hlogic, hnegated, and_self]

theorem tokenAt_shown {declared : List String} {s rest : List Char} {t : Token}
    (h : tokenAt declared s = .ok (t, rest)) (hs : '\n' ∉ s) : OneLine t.text := by
  obtain ⟨htype, hid, hparent, hvalue, -⟩ := tokenAt_parts h hs
  exact oneLine_token htype hid hparent hvalue

theorem tokenAt_oneLine {declared : List String} {s : List Char} {e : SyntaxError}
    (h : tokenAt declared s = .error e) (hs : '\n' ∉ s) : OneLine e.message := by
  have hstops := tokenAt_error.mp h
  have hfragment : OneLine e.fragment := fun hc => hs (hstops.fragment_suffix.subset hc)
  refine oneLine_message hfragment ?_
  cases hstops with
  | unopened _ => exact oneLine_reason (by simp)
  | untyped _ _ _ => exact oneLine_reason (by simp)
  | unclosed _ _ _ _ => exact oneLine_reason (by simp)
  | @unread head inside body after fault _ _ _ hinside _ hfault =>
    rw [hinside, oneLine_ofList] at hfragment
    have hbody : '\n' ∉ body := fun hc => hfragment (List.mem_append_left _ hc)
    exact readArguments_error hfault (oneLine_fields hbody)

theorem tokensFrom_flat {declared : List String} {s : List Char} {ts : List Token}
    (h : tokensFrom declared s = .ok ts) (hs : '\n' ∉ s) : ∀ t ∈ ts, t.Flat := by
  fun_induction tokensFrom declared s generalizing ts with
  | case1 declared s hempty =>
    cases h
    simp
  | case2 => cases h
  | case3 declared s hne t rest ht ih =>
    obtain ⟨more, hmore, rfl⟩ := map_ok.mp h
    obtain ⟨-, -, -, hflat, hrest⟩ := tokenAt_parts ht hs
    exact List.forall_mem_cons.mpr ⟨hflat, ih hmore hrest⟩

theorem tokensFrom_shown {declared : List String} {s : List Char} {ts : List Token}
    (h : tokensFrom declared s = .ok ts) (hs : '\n' ∉ s) : ∀ t ∈ ts, OneLine t.text := by
  fun_induction tokensFrom declared s generalizing ts with
  | case1 declared s hempty =>
    cases h
    simp
  | case2 => cases h
  | case3 declared s hne t rest ht ih =>
    obtain ⟨more, hmore, rfl⟩ := map_ok.mp h
    obtain ⟨-, -, -, -, hrest⟩ := tokenAt_parts ht hs
    exact List.forall_mem_cons.mpr ⟨tokenAt_shown ht hs, ih hmore hrest⟩

theorem tokensFrom_error {declared : List String} {s : List Char} {e : SyntaxError}
    (h : tokensFrom declared s = .error e) (hs : '\n' ∉ s) : OneLine e.message := by
  fun_induction tokensFrom declared s with
  | case1 => cases h
  | case2 declared s hne e' ht =>
    cases h
    exact tokenAt_oneLine ht hs
  | case3 declared s hne t rest ht ih => exact ih (map_error h) (tokenAt_parts ht hs).2.2.2.2

variable {line : String}

theorem trim_oneLine (hline : OneLine line) : '\n' ∉ trim line.toList :=
  fun hc => hline ((trim_sublist _).subset hc)

theorem parse_flat {ts : List Token} (h : parse line = .ok ts) (hline : OneLine line) :
    ∀ t ∈ ts, t.Flat := tokensFrom_flat h (trim_oneLine hline)

theorem parse_shown {ts : List Token} (h : parse line = .ok ts) (hline : OneLine line) :
    ∀ t ∈ ts, OneLine t.text := tokensFrom_shown h (trim_oneLine hline)

theorem parse_error {e : SyntaxError} (h : parse line = .error e) (hline : OneLine line) :
    OneLine e.message := tokensFrom_error h (trim_oneLine hline)

end TradeChat.Notation
