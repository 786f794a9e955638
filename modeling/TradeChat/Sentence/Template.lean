import TradeChat.Sentence.Basic

namespace TradeChat

/-- Why a sentence does not fit its template. -/
inductive SentenceFault where
  | empty
  | invalidRoles
deriving DecidableEq, Repr

def SentenceFault.detail (kind : EventKind) : SentenceFault → String
  | empty =>
    match kind with
    | .buy => "No object to buy found"
    | .sell => "No object to sell found"
    | .findGroup => "No object nor subject found"
    | .findMore => "No subject or object found"
  | invalidRoles =>
    match kind with
    | .buy | .sell => "Invalid object or subject found"
    | .findGroup | .findMore => "Invalid subject or object found"

def SentenceFault.message (kind : EventKind) (fault : SentenceFault) : String :=
  "< Error in " ++ kind.sentenceName ++ ": " ++ fault.detail kind ++ " >"

namespace Sentence

/-- Nothing of what the template needs is there. -/
def isEmpty (s : Sentence) : Bool :=
  match s.kind with
  | .buy | .sell => s.objects.isEmpty
  | .findGroup => s.objects.isEmpty && s.subjects.isEmpty
  | .findMore => s.objects.isEmpty && s.subjects.isEmpty && s.dungeons.isEmpty

def fault? (s : Sentence) : Option SentenceFault :=
  if s.isEmpty then some .empty
  else if !s.rolesValid then some .invalidRoles
  else none

def subjectText (s : Sentence) : String := Text.alternatives (s.subjects.map (·.map Entity.text))

def objectText (s : Sentence) : String := Text.alternatives (s.objects.map (·.map Entity.text))

def contactText (s : Sentence) : String := Text.alternatives s.contacts

def dungeonText (s : Sentence) : String := Text.alternatives (s.dungeons.map (·.map Dungeon.text))

/-- Subjects stand first, with a space after them if they show. -/
def opening (s : Sentence) : String :=
  if s.subjectText = "" then "" else s.subjectText ++ " "

def tradeText (s : Sentence) (marker : String) : String :=
  s.opening ++ marker ++ " " ++ s.objectText
    ++ (if s.contacts.isEmpty then "" else ", " ++ s.contactText) ++ "."

def findGroupText (s : Sentence) : String :=
  s.opening ++ "LFG" ++ (if s.objects.isEmpty then "" else " for " ++ s.objectText) ++ "."

/-- The players of a group, added up in 64 bits. -/
def headcount (group : List Entity) : Int64 := (group.map Entity.headcount).foldl (· + ·) 0

/-- The players of each object group, where there are any. -/
def headcounts (s : Sentence) : List Int64 := (s.objects.map headcount).filter (0 < ·)

/-- One number if all groups agree, otherwise the least and the greatest. -/
def headcountText (s : Sentence) : String :=
  match s.headcounts.min?, s.headcounts.max? with
  | some least, some greatest =>
    if least = greatest then toString least else toString least ++ "-" ++ toString greatest
  | _, _ => ""

def findMoreText (s : Sentence) : String :=
  Text.trimmed (s.subjectText ++ " LF" ++ s.headcountText ++ "M " ++ s.objectText
    ++ (if s.dungeons.isEmpty then ""
        else (if s.objects.isEmpty then "" else " ") ++ "for " ++ s.dungeonText)
    ++ ".")

def text (s : Sentence) : String :=
  match s.fault? with
  | some fault => fault.message s.kind
  | none =>
    match s.kind with
    | .buy => s.tradeText "WTB"
    | .sell => s.tradeText "WTS"
    | .findGroup => s.findGroupText
    | .findMore => s.findMoreText

end Sentence

end TradeChat
