import TradeChat.Event
import TradeChat.Text.Utf8

namespace TradeChat

namespace File

inductive Fault where
  | missing
  | notText
  | other (reason : String)
deriving DecidableEq, Repr

def Fault.message : Fault → String
  | missing => "No such file or directory (os error 2)"
  | notText => "stream did not contain valid UTF-8"
  | other reason => reason

/-- Gives the bytes of each file by its name. -/
abbrev Reader := String → Except Fault (List UInt8)

/-- The text of a file, which has to be UTF-8. -/
def text (read : Reader) (name : String) : Except Fault String :=
  (read name).bind fun bytes =>
    match Text.Utf8.decode? bytes with
    | none => .error .notText
    | some cs => .ok (String.ofList cs)

end File

/-- What a generator is set up with. -/
structure Settings where
  showTree : Bool := false
  whitelist : Whitelist := .standard

namespace Settings

/-- What keeps settings from being read: the file, or its text for a reason of the format. -/
inductive Fault where
  | file (fault : File.Fault)
  | text (reason : String)
deriving DecidableEq, Repr

def Fault.message : Fault → String
  | file fault => "IO error: " ++ fault.message
  | text reason => "RON deserialization error: " ++ reason

/-- What settings as text spell out: only the events whose rules are not the standard ones need be
listed. -/
structure Listing where
  showTree : Bool
  entries : List (EventKind × Rules)
deriving DecidableEq, Repr

def Listing.settings (l : Listing) : Settings := ⟨l.showTree, Whitelist.standard.merge l.entries⟩

/-- How settings are written as text, from the reader's side. -/
abbrev Format := String → Except String Listing

def parse (format : Format) (text : String) : Except Fault Settings :=
  match format text with
  | .error reason => .error (.text reason)
  | .ok listing => .ok listing.settings

def load (format : Format) (read : File.Reader) (name : String) : Except Fault Settings :=
  match File.text read name with
  | .error fault => .error (.file fault)
  | .ok text => parse format text

/-- Layers of settings: a base, which a file gives before all else, then the rules of single
events, then whether trees are shown. In each layer the last word counts. -/
structure Builder where
  file : Option String := none
  base : Option Settings := none
  entries : List (EventKind × Rules) := []
  shown : Option Bool := none

namespace Builder

def useFile (b : Builder) (name : String) : Builder := { b with file := some name }

def useSettings (b : Builder) (settings : Settings) : Builder := { b with base := some settings }

def allow (b : Builder) (kind : EventKind) (rules : Rules) : Builder :=
  { b with entries := b.entries ++ [(kind, rules)] }

def showTree (b : Builder) (shown : Bool) : Builder := { b with shown := some shown }

/-- Builds the settings, with `read` to give the bytes of a file, and `format` what they list. -/
def build (b : Builder) (format : Format) (read : File.Reader) : Except Fault Settings :=
  let base : Except Fault Settings :=
    match b.file with
    | some name => load format read name
    | none => .ok (b.base.getD {})
  base.map fun s => ⟨b.shown.getD s.showTree, s.whitelist.merge b.entries⟩

end Builder

end Settings

end TradeChat
