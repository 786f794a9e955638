import TradeChat.Proofs.Notation.Joined

namespace TradeChat.Notation
open Text

/-- A fault that no text behind the line can mend: only a bracket that is missing may still
come. -/
def Fault.isSettled : Fault → Bool
  | missingOpen => false
  | missingClose => false
  | _ => true

section

variable {declared : List String} {s rest : List Char} {t : Token} {e : SyntaxError}

theorem Stops.append (h : Stops declared s e) (hsettled : e.fault.isSettled = true)
    (more : List Char) :
    Stops declared (s ++ more) ⟨e.fragment ++ String.ofList more, e.fault⟩ := by
  have hgrown : ∀ {head inside : List Char}, unmarked s = head ++ '(' :: inside →
      unmarked (s ++ more) = head ++ '(' :: (inside ++ more) := by
    intro head inside hopen
    rw [(unmarked_append (by simp [hopen]) more).1, hopen, List.append_assoc, List.cons_append]
  cases h with
  | unopened _ => cases hsettled
  | @untyped head inside hopen hhead hname =>
    have hstops : Stops declared (s ++ more) _ := .untyped (hgrown hopen) hhead hname
    rwa [(unmarked_append (by simp [hopen]) more).1, String.ofList_append] at hstops
  | unclosed _ _ _ _ => cases hsettled
  | @unread head inside body after fault hopen hhead hname hinside hbody hfault =>
    have htext : trimStart (inside ++ more) = body ++ ')' :: (after ++ more) := by
      rw [trimStart_append (by simp [hinside]), hinside, List.append_assoc, List.cons_append]
    have hstops := Stops.unread (hgrown hopen) hhead hname htext hbody hfault
    rwa [trimStart_append (by simp [hinside]), String.ofList_append] at hstops

theorem connectiveAt_gone (hs : (connectiveAt s).2 = []) (more : List Char) :
    (connectiveAt (s ++ more)).2 <:+ more := by
  have hgaps : ∀ {gaps : List Char}, gaps.dropWhile isGap = [] →
      (gaps ++ more).dropWhile isGap <:+ more := by
    intro gaps hgaps
    rw [List.dropWhile_append_of_pos (List.dropWhile_eq_nil_iff.mp hgaps)]
    exact List.dropWhile_suffix isGap
  unfold connectiveAt at hs
  split at hs
  · exact hgaps hs
  · exact hgaps hs
  · subst hs
    exact connectiveAt_suffix more

/-- Where only marks are written, what is left once more text has come is in that text. -/
theorem unmarked_gone (hs : unmarked s = []) (more : List Char) :
    unmarked (s ++ more) <:+ more := by
  by_cases hsigned : (connectiveAt s).2 = []
  · exact ((trimStart_suffix _).trans (negationAt_suffix _)).trans (connectiveAt_gone hsigned more)
  · have hblank : ∀ c ∈ (negationAt (connectiveAt s).2).2, isBlank c = true :=
      List.dropWhile_eq_nil_iff.mp hs
    rw [unmarked, connectiveAt_append hsigned, negationAt_append hsigned, trimStart_blank hblank]
    exact trimStart_suffix more

theorem unmarked_cut {core more : List Char} (h : unmarked (s ++ more) = core ++ more)
    (hcore : core ≠ []) : unmarked s = core := by
  by_cases hs : unmarked s = []
  · have hlength := (unmarked_gone hs more).length_le
    rw [h, List.length_append] at hlength
    exact absurd (List.eq_nil_of_length_eq_zero (by omega)) hcore
  · rw [(unmarked_append hs more).1] at h
    exact List.append_cancel_right h

/-- A token reads by itself, up to its closing bracket. -/
theorem tokenAt_cut (h : tokenAt declared s = .ok (t, rest)) :
    ∃ own gap, (∀ c ∈ gap, isBlank c = true) ∧ s = own ++ (gap ++ rest) ∧
      own.getLast? = some ')' ∧ tokenAt declared own = .ok (t, []) := by
  obtain ⟨head, inside, body, after, args, hopen, hhead, hname, hclose, hbody, hargs, ht, rfl⟩ :=
    tokenAt_ok.mp h
  obtain ⟨marks, hmarks⟩ := unmarked_suffix s
  obtain ⟨space, hspace⟩ := trimStart_suffix inside
  rw [hclose, ← List.append_assoc] at hspace
  -- White space behind the opening bracket belongs to the token and is not read.
  have hinside : trimStart (space ++ body) = body := by
    rw [← hspace, trimStart_append_cons (by decide)] at hclose
    exact List.append_cancel_right hclose
  have hcore : unmarked s = head ++ '(' :: (space ++ body ++ [')']) ++ after := by
    simp [hopen, ← hspace]
  have hs : s = marks ++ (head ++ '(' :: (space ++ body)) ++ [')'] ++ after := by
    rw [hcore] at hmarks
    simpa using hmarks.symm
  generalize hown : marks ++ (head ++ '(' :: (space ++ body)) ++ [')'] = own at hs
  have hunmarked : unmarked own = head ++ '(' :: (space ++ body ++ [')']) :=
    unmarked_cut (by rw [← hs, hcore]) (by simp)
  have hne : unmarked own ≠ [] := by simp [hunmarked]
  obtain ⟨-, hconnective, hnegation⟩ := unmarked_append hne after
  refine ⟨own, after.takeWhile isBlank, fun c hc => List.mem_takeWhile_imp hc, ?_, ?_, ?_⟩
  · rw [trimStart, List.takeWhile_append_dropWhile]
    exact hs
  · rw [← hown, List.getLast?_concat]
  · refine tokenAt_ok.mpr ⟨head, space ++ body ++ [')'], body, [], args, hunmarked, hhead, hname,
      ?_, hbody, hargs, ?_, rfl⟩
    · rw [trimStart_append_cons (by decide), hinside]
    · rw [← hconnective, ← hnegation, ← hs]
      exact ht

theorem tokensFrom_stop (hs : s ≠ []) (h : tokenAt declared s = .error e) :
    tokensFrom declared s = .error e := by
  rw [tokensFrom, if_neg (by simpa using hs)]
  split
  · rename_i h'
    rw [h] at h'
    cases h'
    rfl
  · rename_i h'
    rw [h] at h'
    cases h'

theorem tokensFrom_first {ts : List Token} (h : tokensFrom declared s = .ok ts) (hs : s ≠ []) :
    ∃ t rest, tokenAt declared s = .ok (t, rest) := by
  cases hfirst : tokenAt declared s with
  | error e =>
    rw [tokensFrom_stop hs hfirst] at h
    cases h
  | ok first => exact ⟨first.1, first.2, rfl⟩

/-- A text does not read where one of its tokens does not. -/
theorem reads_error (h : tokensFrom declared s = .error e) :
    ∃ ts later rest,
      Reads declared s ts later rest ∧ rest ≠ [] ∧ tokenAt later rest = .error e := by
  fun_induction tokensFrom declared s with
  | case1 => cases h
  | case2 declared s hs e' herror =>
    cases h
    exact ⟨[], declared, s, .stay declared s, by simpa using hs, herror⟩
  | case3 declared s hs t rest ht ih =>
    obtain ⟨ts, later, last, hreads, hlast, herror⟩ := ih (map_error h)
    exact ⟨t :: ts, later, last, .token ht hreads, hlast, herror⟩

end

namespace Reads

variable {declared later : List String} {s last : List Char} {ts : List Token}

/-- The tokens that were read have a text of their own, with white space behind it. -/
theorem cut (h : Reads declared s ts later last) (hs : ∀ c ∈ s.head?, isBlank c = false) :
    ∃ own gap, (∀ c ∈ gap, isBlank c = true) ∧ s = own ++ (gap ++ last) ∧ Tight own ∧
      Reads declared own ts later [] := by
  induction h with
  | stay declared s => exact ⟨[], [], by simp, rfl, tight_nil, .stay declared []⟩
  | @token declared later s rest last t ts ht _ ih =>
    obtain ⟨own, gap, hgap, rfl, hclosed, hown⟩ := tokenAt_cut ht
    have hne : own ≠ [] := by
      rintro rfl
      cases hclosed
    rw [List.head?_append_of_ne_nil own hne] at hs
    have htight : Tight own := by
      refine ⟨hs, ?_⟩
      rw [hclosed]
      intro c hc
      cases hc
      decide
    obtain ⟨others, gap', hgap', rfl, hothers, hreads⟩ := ih (tokenAt_start ht)
    by_cases hlast : others = []
    · -- No token follows, so the white space on both sides of it is one gap.
      subst hlast
      refine ⟨own, gap ++ gap', ?_, by simp, htight, .token hown hreads⟩
      exact fun c hc => (List.mem_append.mp hc).elim (hgap c) (hgap' c)
    · refine ⟨own ++ (gap ++ others), gap', hgap', by simp, htight.join hothers hne hlast gap, ?_⟩
      have hjoined := tokenAt_append hown (gap ++ others)
      rw [List.nil_append, trimStart_blank hgap, hothers.trimStart_eq] at hjoined
      exact .token hjoined hreads

end Reads

/-- Where a line stops to read: its front does, and nothing longer of it. What is shown of the
line is the end of it. -/
structure Located (line : String) (e : SyntaxError) (front back : List Char) : Prop where
  splits : trim line.toList = front ++ back
  reads : ∃ ts, parse (String.ofList front) = .ok ts
  stuck : ∀ q, q <+: back → (∃ c ∈ q, isBlank c = false) →
    ∃ e', parse (String.ofList (front ++ q)) = .error e'
  shown : e.fragment.toList <:+ back

section

variable {line : String}

theorem parse_ok_append {ts us : List Token} (h : parse line = .ok ts) {more : String}
    (hmore : parse (line ++ more) = .ok us) : ts <+: us := by
  obtain ⟨gap, -, htrim⟩ := trim_append line.toList more.toList
  obtain ⟨later, hreads⟩ := reads_ok h
  rw [parse, String.toList_append, htrim,
    (hreads.append (trim_tight _).start _).tokensFrom] at hmore
  obtain ⟨others, -, rfl⟩ := map_ok.mp hmore
  exact List.prefix_append ts others

/-- What is left of a line where one of its tokens does not read. -/
theorem parse_stops {e : SyntaxError} (h : parse line = .error e) :
    ∃ ts later rest, Reads [] (trim line.toList) ts later rest ∧ rest ≠ [] ∧
      trimStart rest = rest ∧ Stops later rest e := by
  obtain ⟨ts, later, rest, hreads, hrest, herror⟩ := reads_error h
  exact ⟨ts, later, rest, hreads, hrest,
    trimStart_of_start (hreads.start (trim_tight _).start), tokenAt_error.mp herror⟩

theorem parse_settled {e : SyntaxError} (h : parse line = .error e)
    (hsettled : e.fault.isSettled = true) (more : String) :
    ∃ tail, parse (line ++ more) = .error ⟨e.fragment ++ tail, e.fault⟩ := by
  obtain ⟨gap, -, htrim⟩ := trim_append line.toList more.toList
  obtain ⟨ts, later, rest, hreads, hrest, hstart, hstops⟩ := parse_stops h
  have hgrown := hreads.append (trim_tight _).start (gap ++ trim more.toList)
  have hseam : trimStart (rest ++ (gap ++ trim more.toList)) =
      rest ++ (gap ++ trim more.toList) := by
    rw [trimStart_append (by rwa [hstart]), hstart]
  rw [hseam] at hgrown
  have herror := tokenAt_error.mpr (hstops.append hsettled (gap ++ trim more.toList))
  refine ⟨String.ofList (gap ++ trim more.toList), ?_⟩
  rw [parse, String.toList_append, htrim, hgrown.tokensFrom,
    tokensFrom_stop (by simp [hrest]) herror]
  rfl

theorem parse_located {e : SyntaxError} (h : parse line = .error e) :
    ∃ front back, Located line e front back := by
  obtain ⟨ts, later, rest, hreads, hrest, hstart, hstops⟩ := parse_stops h
  obtain ⟨own, gap, hgap, hline, hown, hreads⟩ := hreads.cut (trim_tight _).start
  refine ⟨own, gap ++ rest, hline, ⟨ts, ?_⟩, ?_, ?_⟩
  · rw [parse, String.toList_ofList, hown.trim_eq, hreads.tokensFrom, tokensFrom_nil]
    simp [Functor.map, Except.map]
  · rintro q hq ⟨c, hc, hblank⟩
    cases hlonger : parse (String.ofList (own ++ q)) with
    | error e' => exact ⟨e', rfl⟩
    | ok us =>
      -- The token that did not read would read off the front of the same text.
      obtain ⟨gap', hgap', htrim⟩ := trim_append own q
      rw [parse, String.toList_ofList, htrim, hown.trim_eq,
        (hreads.append hown.start _).tokensFrom, List.nil_append, trimStart_blank hgap',
        (trim_tight q).trimStart_eq] at hlonger
      obtain ⟨others, hothers, -⟩ := map_ok.mp hlonger
      obtain ⟨t, later', ht⟩ := tokensFrom_first hothers (trim_ne_nil hc hblank)
      have hfront : trim q <+: rest := by
        have := trim_starts hq
        rwa [trimStart_blank hgap, hstart] at this
      obtain ⟨more, hmore⟩ := hfront
      have hread := tokenAt_append ht more
      rw [hmore, tokenAt_error.mpr hstops] at hread
      cases hread
  · exact hstops.fragment_suffix.trans (List.suffix_append gap rest)

end

/-- A line is read from left to right: text behind a line that reads adds tokens to it, text
behind a line with a settled fault does not change the fault, and every fault has its place. -/
theorem parse_scans (line : String) :
    (∀ ts, parse line = .ok ts → ∀ more us, parse (line ++ more) = .ok us → ts <+: us) ∧
    (∀ e, parse line = .error e → e.fault.isSettled = true → ∀ more,
      ∃ tail, parse (line ++ more) = .error ⟨e.fragment ++ tail, e.fault⟩) ∧
    (∀ e, parse line = .error e → ∃ front back, Located line e front back) :=
  ⟨fun _ h _ _ hmore => parse_ok_append h hmore,
    fun _ h hsettled more => parse_settled h hsettled more, fun _ h => parse_located h⟩

/-- A sale, and the item that another line hangs from it. -/
def sale : Token := ⟨"Sell", some "a", none, none, none, false⟩

def soldItem : Token := ⟨"Item", some "b", some "a", none, some .or, false⟩

/-- A child of an id that is not declared, shown with the rest of its line. -/
def orphan : SyntaxError := ⟨"b, c) ; Name(b", .undeclaredParent "b"⟩

theorem parse_scans_sale :
    parse "Sell(a) " = .ok [sale] ∧ parse ("Sell(a) " ++ "; Item(a, b)") = .ok [sale, soldItem] ∧
      [sale] <+: [sale, soldItem] ∧
      parse " Sell(a) Item(b, c) ; Name(b " = .error orphan ∧ orphan.fault.isSettled = true ∧
      (∃ tail, parse (" Sell(a) Item(b, c) ; Name(b " ++ ", 'Bow')") =
        .error ⟨orphan.fragment ++ tail, orphan.fault⟩) ∧
      ∃ front back, Located " Sell(a) Item(b, c) ; Name(b " orphan front back := by
  have hsale : parse "Sell(a) " = .ok [sale] := by decide +kernel
  have hmore : parse ("Sell(a) " ++ "; Item(a, b)") = .ok [sale, soldItem] := by decide +kernel
  have horphan : parse " Sell(a) Item(b, c) ; Name(b " = .error orphan := by decide +kernel
  obtain ⟨-, hsettled, hlocated⟩ := parse_scans " Sell(a) Item(b, c) ; Name(b "
  exact ⟨hsale, hmore, (parse_scans "Sell(a) ").1 _ hsale _ _ hmore, horphan, rfl,
    hsettled _ horphan rfl _, hlocated _ horphan⟩

end TradeChat.Notation
