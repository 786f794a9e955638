import TradeChat.Generation
import TradeChat.Text.Parts

namespace TradeChat.Lint

inductive Warning where
  | unreachable (type : String) (parent : Option String)
  | unknownRoot (type : String)
  | number (fault : NumberFault)
  | faulty (text : String)
  | incomplete (text : String)
deriving DecidableEq, Repr

def Warning.message : Warning → String
  | unreachable type parent =>
    "token '" ++ type ++ "' is not reachable from any root (parent '" ++ parent.getD "?" ++ "')"
  | unknownRoot type => "root '" ++ type ++ "' is not a known event and produces no sentence"
  | number fault => fault.message
  | faulty text => text
  | incomplete text => "incomplete entity in \"" ++ text ++ "\""

/-- Something found in a line, with the number of the line. -/
structure Finding (α : Type) where
  line : Nat
  found : α
deriving DecidableEq, Repr

def Finding.message {α : Type} (text : α → String) (f : Finding α) : String :=
  "line " ++ toString f.line ++ ": " ++ text f.found

/-- The mark that the texts of all incomplete entities start with. -/
def errorMark : String := "< Error"

def sentenceWarnings (s : Sentence) : List Warning :=
  s.diagnostics.map .number
    ++ if s.fault?.isSome then [.faulty s.text]
      else if Text.occursIn errorMark.toList s.text.toList then [.incomplete s.text]
      else []

def treeWarnings (whitelist : Whitelist) (root : Tree Token) : List Warning :=
  match Sentence.ofTree? whitelist root with
  | none => [.unknownRoot root.value.type]
  | some s => sentenceWarnings s

/-- What is wrong with the tokens of one line. -/
def tokenWarnings (whitelist : Whitelist) (tokens : List Token) : List Warning :=
  let linked := Linkage.ofTokens tokens
  linked.unreachable.map (fun t => .unreachable t.type t.parent)
    ++ linked.trees.flatMap (treeWarnings whitelist)

/-- A line that counts: not blank, and no comment. -/
def isChecked (line : List Char) : Bool :=
  match Text.trim line with
  | [] => false
  | c :: _ => c != '#'

/-- All findings of a file, and the number of lines that count. Lines that do not parse are errors;
whatever would be missing from the output is a warning. -/
structure Report where
  errors : List (Finding Notation.SyntaxError) := []
  warnings : List (Finding Warning) := []
  checked : Nat := 0

def lineReport (whitelist : Whitelist) (number : Nat) (line : List Char) : Report :=
  if isChecked line then
    match Notation.parse (String.ofList line) with
    | .error e => ⟨[⟨number, e⟩], [], 1⟩
    | .ok tokens => ⟨[], (tokenWarnings whitelist tokens).map (⟨number, ·⟩), 1⟩
  else {}

def Report.append (a b : Report) : Report :=
  ⟨a.errors ++ b.errors, a.warnings ++ b.warnings, a.checked + b.checked⟩

/-- Checks all lines, which are numbered from one. -/
def report (whitelist : Whitelist) (contents : String) : Report :=
  ((Text.fields '\n' contents.toList).zipIdx 1).foldr
    (fun (line, number) found => (lineReport whitelist number line).append found) {}

namespace Report

def errorTexts (r : Report) : List String :=
  r.errors.map (Finding.message Notation.SyntaxError.message)

def warningTexts (r : Report) : List String := r.warnings.map (Finding.message Warning.message)

end Report

end TradeChat.Lint
