import TradeChat.Datum.Reader
import TradeChat.Settings

namespace TradeChat

namespace Datum

/-- The fields of a record, if its name fits; a tuple of nothing is a record too. -/
def fields? (name : String) : Datum → Option (List (String × Datum))
  | .record own fields => if own.all (· = name) then some fields else none
  | .tuple own [] => if own.all (· = name) then some [] else none
  | _ => none

/-- The value of a field, which may be absent but not repeated. -/
def field? (name : String) (fields : List (String × Datum)) : Option (Option Datum) :=
  match fields.filter (·.1 = name) with
  | [] => some none
  | [(_, d)] => some (some d)
  | _ => none

def entityKind? : Datum → Option EntityKind
  | .word name => EntityKind.all.find? (·.name = name)
  | _ => none

def eventKind? : Datum → Option EventKind
  | .word name => EventKind.all.find? (·.name = name)
  | _ => none

def entityKinds? : Option Datum → Option (List EntityKind)
  | none => some []
  | some (.list items) => items.mapM entityKind?
  | some _ => none

def rules? (d : Datum) : Option Rules := do
  let fields ← d.fields? "RoleWhitelist"
  let subjects ← entityKinds? (← field? "subjects" fields)
  let objects ← entityKinds? (← field? "objects" fields)
  some ⟨subjects, objects⟩

def flag? : Option Datum → Option Bool
  | none => some false
  | some (.flag b) => some b
  | some _ => none

def entry? (pair : Datum × Datum) : Option (EventKind × Rules) := do
  let kind ← eventKind? pair.1
  let rules ← rules? pair.2
  some (kind, rules)

def entries? : Option Datum → Option (List (EventKind × Rules))
  | none => some []
  | some (.table entries) => entries.mapM entry?
  | some _ => none

/-- A record of which any field may be left out; fields that mean nothing are passed over. -/
def listing? (d : Datum) : Option Settings.Listing := do
  let fields ← d.fields? "Config"
  let showTree ← flag? (← field? "show_tree" fields)
  let entries ← entries? (← field? "whitelist" fields)
  some ⟨showTree, entries⟩

/-- Settings written as a value. -/
def settingsFormat : Settings.Format := fun text =>
  match ofText? text with
  | none => .error "the text is not a single value"
  | some d =>
    match d.listing? with
    | none => .error "the value does not fit the settings"
    | some listing => .ok listing

end Datum

end TradeChat
