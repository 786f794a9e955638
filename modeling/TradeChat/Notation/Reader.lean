import TradeChat.Text.Parts
import TradeChat.Token

namespace TradeChat.Notation

open Text

inductive Fault where
  | missingOpen
  | missingType
  | missingClose
  | notAnId (arg : String)
  | undeclaredParent (arg : String)
  | alreadyDeclared (id : String)
  | emptyValue
  | argumentCount (found : Nat)
deriving DecidableEq, Repr

def Fault.reason : Fault → String
  | missingOpen => "missing '(' to open the argument list"
  | missingType => "missing token type before '('"
  | missingClose => "missing ')' to close the argument list"
  | notAnId arg => "'" ++ arg ++ "' is not a lowercase id"
  | undeclaredParent arg => "'" ++ arg ++ "' is not a declared parent id"
  | alreadyDeclared id => "id '" ++ id ++ "' is already declared"
  | emptyValue => "empty value argument"
  | argumentCount found => "expected 1 or 2 arguments, found " ++ toString found

/-- The fragment is what was left of the line where reading stopped. -/
structure SyntaxError where
  fragment : String
  fault : Fault
deriving DecidableEq, Repr

def SyntaxError.message (e : SyntaxError) : String :=
  "Syntax error in \"" ++ e.fragment ++ "\": " ++ e.fault.reason ++ ". Could not parse."

def isGap (c : Char) : Bool := c == ' ' || c == '\t'

/-- Takes the connective off the front, with the gap after it. -/
def connectiveAt : List Char → Option Connective × List Char
  | ',' :: rest => (some .and, rest.dropWhile isGap)
  | ';' :: rest => (some .or, rest.dropWhile isGap)
  | s => (none, s)

def negationAt : List Char → Bool × List Char
  | '-' :: rest => (true, rest)
  | s => (false, s)

/-- An id starts with a lowercase character. -/
def isId : List Char → Bool
  | [] => false
  | c :: _ => isLowercase c

def isQuote (c : Char) : Bool := c == '"' || c == '\''

/-- A value is written without its quotes, wherever they stand. -/
def unquoted (s : List Char) : List Char := trim (s.filter (!isQuote ·))

/-- What an argument list says about its token. -/
inductive Arguments where
  | root (id : String)
  | branch (parent id : String)
  | leaf (parent value : String)
deriving DecidableEq, Repr

namespace Arguments

def id? : Arguments → Option String
  | root id => some id
  | branch _ id => some id
  | leaf _ _ => none

def parent? : Arguments → Option String
  | root _ => none
  | branch parent _ => some parent
  | leaf parent _ => some parent

def value? : Arguments → Option String
  | leaf _ value => some value
  | _ => none

end Arguments

/-- A new id, unless it is declared already. -/
def freshId (declared : List String) (arg : List Char) : Except Fault String :=
  let id := String.ofList arg
  if id ∈ declared then .error (.alreadyDeclared id) else .ok id

/-- One argument declares a root, two hang an id or a value from a parent. -/
def readArguments (declared : List String) : List (List Char) → Except Fault Arguments
  | [arg] =>
    if isId arg then Arguments.root <$> freshId declared arg
    else .error (.notAnId (String.ofList arg))
  | [parent, second] =>
    let parentId := String.ofList parent
    if isId parent && parentId ∈ declared then
      if isId second then Arguments.branch parentId <$> freshId declared second
      else if second.isEmpty then .error .emptyValue
      else .ok (.leaf parentId (String.ofList (unquoted second)))
    else .error (.undeclaredParent parentId)
  | args => .error (.argumentCount args.length)

/-- One token off the front of the text, and the text after it. The ids in `declared` are those
of the tokens before it. -/
def tokenAt (declared : List String) (s : List Char) :
    Except SyntaxError (Token × List Char) :=
  let (logic, s) := connectiveAt s
  let (negated, s) := negationAt s
  let s := trimStart s
  let name := trimEnd (s.takeWhile (· != '('))
  match s.dropWhile (· != '(') with
  | [] => .error ⟨String.ofList s, .missingOpen⟩
  | _ :: inside =>
    if name.isEmpty then .error ⟨String.ofList s, .missingType⟩
    else
      let inside := trimStart inside
      match inside.dropWhile (· != ')') with
      | [] => .error ⟨String.ofList inside, .missingClose⟩
      | _ :: rest =>
        match readArguments declared ((fields ',' (inside.takeWhile (· != ')'))).map trim) with
        | .error fault => .error ⟨String.ofList inside, fault⟩
        | .ok args =>
          .ok (⟨String.ofList (capitalize name), args.id?, args.parent?, args.value?, logic,
            negated⟩, trimStart rest)

theorem connectiveAt_length_le (s : List Char) : (connectiveAt s).2.length ≤ s.length := by
  unfold connectiveAt
  split
  · exact Nat.le_succ_of_le (List.dropWhile_suffix _).length_le
  · exact Nat.le_succ_of_le (List.dropWhile_suffix _).length_le
  · exact Nat.le_refl _

theorem negationAt_length_le (s : List Char) : (negationAt s).2.length ≤ s.length := by
  unfold negationAt
  split <;> simp

/-- A token takes at least its brackets off the text. -/
theorem tokenAt_length_lt (declared : List String) (s rest : List Char) (t : Token)
    (h : tokenAt declared s = .ok (t, rest)) : rest.length < s.length := by
  have hc := connectiveAt_length_le s
  have hn := negationAt_length_le (connectiveAt s).2
  have ht := length_trimStart_le (negationAt (connectiveAt s).2).2
  simp only [tokenAt] at h
  generalize trimStart (negationAt (connectiveAt s).2).2 = u at h ht
  split at h
  · cases h
  · next c inside hopen =>
    split at h
    · cases h
    · split at h
      · cases h
      · next d after hclose =>
        split at h
        · cases h
        · simp only [Except.ok.injEq, Prod.mk.injEq] at h
          obtain ⟨-, rfl⟩ := h
          have h1 := (List.dropWhile_suffix (p := (· != '(')) (l := u)).length_le
          have h2 := (List.dropWhile_suffix (p := (· != ')')) (l := trimStart inside)).length_le
          rw [hopen] at h1
          rw [hclose] at h2
          have h3 := length_trimStart_le inside
          have h4 := length_trimStart_le after
          simp only [List.length_cons] at h1 h2
          omega

/-- All tokens of a text that starts at a token. -/
def tokensFrom (declared : List String) (s : List Char) : Except SyntaxError (List Token) :=
  if s.isEmpty then .ok []
  else
    match _h : tokenAt declared s with
    | .error e => .error e
    | .ok (t, rest) => (t :: ·) <$> tokensFrom (t.id.toList ++ declared) rest
termination_by s.length
decreasing_by exact tokenAt_length_lt declared s rest t ‹_›

/-- The tokens of a line, each written as `Type(id)`, `Type(parent, id)` or
`Type(parent, "value")`; one fault discards them all. -/
def parse (line : String) : Except SyntaxError (List Token) :=
  tokensFrom [] (trim line.toList)

/-- Reads line after line. It keeps the ids of the line that it read last, also of one that it gave
up on, and forgets them before the next. -/
structure Scanner where
  declared : List String := []

namespace Scanner

/-- All tokens of a text that starts at a token, and the scanner as it stopped. -/
def scan (p : Scanner) (s : List Char) : Except SyntaxError (List Token) × Scanner :=
  if s.isEmpty then (.ok [], p)
  else
    match _h : tokenAt p.declared s with
    | .error e => (.error e, p)
    | .ok (t, rest) =>
      let (tokens, last) := scan ⟨t.id.toList ++ p.declared⟩ rest
      ((t :: ·) <$> tokens, last)
termination_by s.length
decreasing_by exact tokenAt_length_lt p.declared s rest t ‹_›

def clear (_ : Scanner) : Scanner := {}

def read (p : Scanner) (line : String) : Except SyntaxError (List Token) × Scanner :=
  p.clear.scan (Text.trim line.toList)

end Scanner

end TradeChat.Notation
