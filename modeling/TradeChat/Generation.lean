import TradeChat.Linkage
import TradeChat.Notation.Reader
import TradeChat.Sentence.Template
import TradeChat.Settings

namespace TradeChat

structure Generation where
  trees : List (Tree Token)
  sentences : List Sentence

namespace Generation

def ofTrees (settings : Settings) (trees : List (Tree Token)) : Generation :=
  ⟨trees, trees.filterMap (Sentence.ofTree? settings.whitelist)⟩

def texts (g : Generation) : List String := g.sentences.map Sentence.text

def diagnostics (g : Generation) : List NumberFault := g.sentences.flatMap Sentence.diagnostics

/-- Every tree, each with a blank line after it. -/
def treeDump (g : Generation) : String :=
  String.join (g.trees.map fun t => t.dump Token.text ++ "\n")

end Generation

/-- Reads one line. Roots that name no event give no sentence. -/
def generate (settings : Settings) (line : String) :
    Except Notation.SyntaxError Generation :=
  (Notation.parse line).map fun tokens =>
    .ofTrees settings (Linkage.ofTokens tokens).trees

/-- A generator in use, with its scanner as the last line left it. -/
structure Session where
  settings : Settings
  scanner : Notation.Scanner := {}

namespace Session

/-- Reads one line, which leaves its ids in the scanner. -/
def generate (s : Session) (line : String) :
    Except Notation.SyntaxError Generation × Session :=
  let (tokens, scanner) := s.scanner.read line
  (tokens.map fun ts => .ofTrees s.settings (Linkage.ofTokens ts).trees, { s with scanner })

end Session

end TradeChat
