import TradeChat.Generation
import TradeChat.Text.Utf8

namespace TradeChat.Stream

inductive Channel where
  | out
  | err
deriving DecidableEq, Repr

structure Write where
  channel : Channel
  text : String
deriving DecidableEq, Repr

def Write.line (channel : Channel) (text : String) : Write := ⟨channel, text ++ "\n"⟩

structure Summary where
  lines : Nat := 0
  sentences : Nat := 0
  failedLines : Nat := 0
deriving DecidableEq, Repr

def Summary.add (a b : Summary) : Summary :=
  ⟨a.lines + b.lines, a.sentences + b.sentences, a.failedLines + b.failedLines⟩

/-- What is written for a line, and what the line counts for. -/
structure LineReport where
  writes : List Write
  summary : Summary
deriving DecidableEq, Repr

def lineReport (showTree : Bool) : Except Notation.SyntaxError Generation → LineReport
  | .error e => ⟨[.line .err ("Error: " ++ e.message)], ⟨1, 0, 1⟩⟩
  | .ok g =>
    { writes := g.texts.map (.line .out)
        ++ g.diagnostics.map (fun d => .line .err ("Error: " ++ d.message))
        ++ if showTree then [.line .out g.treeDump] else []
      summary := ⟨1, g.sentences.length, 0⟩ }

/-- The lines that a newline ends, and the bytes after the last newline. -/
def split (input : List UInt8) : List (List UInt8) × List UInt8 :=
  input.foldr (fun b (lines, tail) =>
    if b = 10 then ([] :: lines, tail)
    else match lines with
      | [] => ([], b :: tail)
      | line :: rest => ((b :: line) :: rest, tail)) ([], [])

/-- A reader that fails after the last byte loses a line that no newline ends. -/
def delivered (readFails : Bool) (input : List UInt8) : List (List UInt8) :=
  let (lines, tail) := split input
  if readFails || tail.isEmpty then lines else lines ++ [tail]

/-- The text of a line without the carriage return at its end; bytes that are not UTF-8 are
replaced. -/
def lineText (bytes : List UInt8) : String :=
  let cs := Text.Utf8.decodeLossy bytes
  String.ofList (if cs.getLast? = some '\r' then cs.dropLast else cs)

/-- A place for bytes, with room for all of them or for a number. The chunks that it took are
kept, the latest first. -/
structure Sink where
  room : Option Nat := none
  chunks : List (List UInt8) := []
deriving DecidableEq, Repr

namespace Sink

def taken (s : Sink) : List UInt8 := s.chunks.reverse.flatten

def fits (s : Sink) (bytes : List UInt8) : Bool := s.room.all (bytes.length ≤ ·)

/-- Takes what there is room for. -/
def write (s : Sink) (bytes : List UInt8) : Sink where
  room := s.room.map (· - bytes.length)
  chunks :=
    (match s.room with
      | none => bytes
      | some n => bytes.take n) :: s.chunks

theorem taken_write (s : Sink) (bytes : List UInt8) :
    (s.write bytes).taken = s.taken ++ match s.room with
      | none => bytes
      | some n => bytes.take n := by
  simp [write, taken]

end Sink

/-- The sinks of both channels. -/
structure Sinks where
  out : Sink := {}
  err : Sink := {}
deriving DecidableEq, Repr

namespace Sinks

def sink (s : Sinks) : Channel → Sink
  | .out => s.out
  | .err => s.err

def write (s : Sinks) (w : Write) : Sinks :=
  let bytes := Text.Utf8.encode w.text
  match w.channel with
  | .out => { s with out := s.out.write bytes }
  | .err => { s with err := s.err.write bytes }

/-- Writes in turn, up to and with the first that does not fit; says whether all of them did. -/
def writeAll (s : Sinks) : List Write → Sinks × Bool
  | [] => (s, true)
  | w :: rest =>
    if (s.sink w.channel).fits (Text.Utf8.encode w.text) then (s.write w).writeAll rest
    else (s.write w, false)

end Sinks

/-- What ends a run early. -/
inductive Failure where
  | read
  | write
deriving DecidableEq, Repr

def Failure.message : Failure → String
  | read => "IO error: read failed"
  | write => "IO error: write failed"

/-- A run that has come some way: the generator, the sinks, and what the lines so far count
for. -/
structure Progress where
  session : Session
  sinks : Sinks
  summary : Summary := {}

namespace Progress

/-- Runs one line; says whether all that was to be written for it did fit. -/
def line (p : Progress) (bytes : List UInt8) : Progress × Bool :=
  let (result, session) := p.session.generate (lineText bytes)
  let report := lineReport session.settings.showTree result
  let (sinks, written) := p.sinks.writeAll report.writes
  (⟨session, sinks, p.summary.add report.summary⟩, written)

/-- Runs lines in turn, up to and with the first for which a write does not fit. -/
def lines (p : Progress) : List (List UInt8) → Progress × Bool
  | [] => (p, true)
  | bytes :: rest =>
    let (next, written) := p.line bytes
    if written then next.lines rest else (next, false)

end Progress

/-- How a run ended, what the sinks took, and the generator as it was left. -/
structure Report where
  result : Except Failure Summary
  sinks : Sinks
  session : Session

/-- Runs the input on a generator in use. A write that does not fit comes before the failure of
the reader, which shows only once all lines are written. -/
def runOn (session : Session) (sinks : Sinks) (readFails : Bool) (input : List UInt8) : Report :=
  let (p, written) := (Progress.mk session sinks {}).lines (delivered readFails input)
  { sinks := p.sinks
    session := p.session
    result :=
      if !written then .error .write
      else if readFails then .error .read
      else .ok p.summary }

/-- Runs the input on a new generator. -/
def run (settings : Settings) (sinks : Sinks) (readFails : Bool) (input : List UInt8) : Report :=
  runOn { settings } sinks readFails input

end TradeChat.Stream
