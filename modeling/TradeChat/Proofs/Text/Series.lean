import TradeChat.Text.Series

namespace TradeChat.Text

/-- The texts of a list of `size` from the one at `place` on, each with what stands behind it. -/
def seriesFrom (word : String) (size place : Nat) : List String → String
  | [] => ""
  | a :: rest => a ++ separator word size place ++ seriesFrom word size (place + 1) rest

/-- A whole list, of which the texts of the members are known. -/
def series (word : String) (texts : List String) : String := seriesFrom word texts.length 0 texts

/-- Nothing stands behind the last text. -/
theorem separator_last (word : String) {size place : Nat} (h : size ≤ place + 1) :
    separator word size place = "" := by
  rw [separator, if_neg (by omega), if_neg (by omega), if_neg (by omega)]

theorem series_one (word a : String) : series word [a] = a := by
  rw [series, seriesFrom, seriesFrom, separator_last word (by simp), String.append_empty,
    String.append_empty]

theorem series_two (word a b : String) : series word [a, b] = a ++ (" " ++ word ++ " ") ++ b := by
  rw [series, seriesFrom, separator, if_pos (by simp), seriesFrom, seriesFrom,
    separator_last word (by simp), String.append_empty, String.append_empty]

mutual

/-- The text of one member by itself. -/
def Member.text (inner : List String) : Member → String
  | .phrase text => trimmed text
  | .list members => series (inner.headD "and") (memberTexts inner.tail members)

def memberTexts (inner : List String) : List Member → List String
  | [] => []
  | m :: rest => m.text inner :: memberTexts inner rest

end

theorem length_memberTexts (inner : List String) (members : List Member) :
    (memberTexts inner members).length = members.length := by
  induction members with
  | nil => rfl
  | cons m rest ih => rw [memberTexts, List.length_cons, List.length_cons, ih]

mutual

/-- A member reads the same wherever it is written. -/
theorem Member.writeOn_text (out : String) (inner : List String) :
    (m : Member) → m.writeOn out inner = out ++ m.text inner
  | .phrase _ => rfl
  | .list members => by
    rw [Member.writeOn, Member.text, writeFrom_texts, series, length_memberTexts]

theorem writeFrom_texts (out word : String) (inner : List String) (size place : Nat) :
    (members : List Member) → writeFrom out word inner size place members =
      out ++ seriesFrom word size place (memberTexts inner members)
  | [] => String.append_empty.symm
  | m :: rest => by
    rw [writeFrom, memberTexts, seriesFrom, writeFrom_texts, Member.writeOn_text]
    simp only [String.append_assoc]

end

theorem appendList_texts (out word : String) (inner : List String) (members : List Member) :
    appendList out word inner members = out ++ series word (memberTexts inner members) := by
  rw [appendList, writeFrom_texts, series, length_memberTexts]

theorem commaList_texts (word : String) (inner : List String) (members : List Member) :
    commaList word inner members = series word (memberTexts inner members) := by
  rw [commaList, appendList_texts, String.empty_append]

theorem memberTexts_phrases (inner texts : List String) :
    memberTexts inner (texts.map .phrase) = texts.map trimmed := by
  induction texts with
  | nil => rfl
  | cons t rest ih => rw [List.map_cons, memberTexts, Member.text, ih, List.map_cons]

/-- Each group is written out with its own word, and then the groups with theirs. -/
theorem commaList_members (word : String) (inner : List String) (groups : List (List String)) :
    commaList word inner (members groups) =
      series word (groups.map fun group => series (inner.headD "and") (group.map trimmed)) := by
  rw [commaList_texts, members]
  congr 1
  induction groups with
  | nil => rfl
  | cons group rest ih =>
    rw [List.map_cons, memberTexts, Member.text, memberTexts_phrases, ih, List.map_cons]

end TradeChat.Text
