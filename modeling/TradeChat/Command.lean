import TradeChat.Datum.Listing
import TradeChat.Lint
import TradeChat.Stream

namespace TradeChat.Command

/-- What a command does: the text it prints, and the code it ends with. -/
structure Outcome where
  stdout : List UInt8 := []
  stderr : List UInt8 := []
  code : UInt8 := 0
deriving DecidableEq, Repr

/-- Lines of text, each with a newline after it. -/
def lines (texts : List String) : List UInt8 :=
  Text.Utf8.encode (String.join (texts.map (· ++ "\n")))

def printed (texts : List String) (code : UInt8) : Outcome := { stdout := lines texts, code }

def failed (text : String) : Outcome := { stderr := lines [text], code := 1 }

namespace Generator

def usage : List String :=
  ["Usage: lang_generator [-t|--tree] [--config <file.ron>]",
   "",
   "Reads one notation line at a time from STDIN, for example:",
   "  Buy(a), Item(a,b), Name(b,\"Sword\"), Quantity(b,'2')",
   "and prints one sentence per recognized event:",
   "  WTB 2 Swords."]

/-- What the arguments ask for. -/
inductive Request where
  | help
  | unknown (arg : String)
  | run (builder : Settings.Builder)

/-- Reads the arguments in order; help and an unknown argument end the reading. The last file
named counts, and a flag can only turn trees on. -/
def requestFrom (b : Settings.Builder) : List String → Request
  | [] => .run b
  | "--config" :: path :: rest => requestFrom (b.useFile path) rest
  | arg :: rest =>
    if arg = "-h" || arg = "--help" then .help
    else if Text.fold arg = "-t" || arg = "--tree" then requestFrom (b.showTree true) rest
    else .unknown arg

def request (args : List String) : Request := requestFrom {} args

/-- Runs the input under finished settings. -/
def runWith (settings : Settings) (input : List UInt8) : Outcome :=
  let report := Stream.run settings {} false input
  let printed : Outcome := { stdout := report.sinks.out.taken, stderr := report.sinks.err.taken }
  match report.result with
  | .ok _ => printed
  | .error _ =>
    { printed with
      stderr := printed.stderr ++ lines ["Error: Could not read from STDIN."], code := 1 }

def run (read : File.Reader) (args : List String) (input : List UInt8) : Outcome :=
  match request args with
  | .help => printed usage 0
  | .unknown arg =>
    { stdout := lines usage, stderr := lines ["Unknown argument: " ++ arg], code := 1 }
  | .run builder =>
    match builder.build Datum.settingsFormat read with
    | .error fault => failed ("Error: config error: " ++ fault.message)
    | .ok settings => runWith settings input

end Generator

namespace Linter

def usage : List String := ["Usage: notation_linter <notation_file> [--config <file.ron>]"]

/-- The last settings file among the arguments; anything else there is passed over. -/
def settingsFile? : List String → Option String
  | "--config" :: path :: rest => settingsFile? rest <|> some path
  | _ :: rest => settingsFile? rest
  | [] => none

def reportLines (r : Lint.Report) : List String :=
  ["Checked " ++ toString r.checked ++ " lines",
   "",
   "=== Notation Lint Report ===",
   ""]
    ++ (if r.errors.isEmpty && r.warnings.isEmpty then ["All checks passed!"] else [])
    ++ r.warningTexts.map ("WARNING: " ++ ·)
    ++ r.errorTexts.map ("ERROR: " ++ ·)
    ++ ["",
        "Summary: " ++ toString r.errors.length ++ " errors, "
          ++ toString r.warnings.length ++ " warnings"]

/-- Settings are loaded first, so a fault in them hides one of the file. -/
def check (read : File.Reader) (path : String) (rest : List String) : Outcome :=
  match ({ file := settingsFile? rest } : Settings.Builder).build Datum.settingsFormat read with
  | .error fault => failed ("ERROR: Failed to load config file: " ++ fault.message)
  | .ok settings =>
    match File.text read path with
    | .error fault => failed ("ERROR: Could not read '" ++ path ++ "': " ++ fault.message)
    | .ok text =>
      let report := Lint.report settings.whitelist text
      printed (reportLines report) (if report.errors.isEmpty then 0 else 1)

def run (read : File.Reader) : List String → Outcome
  | [] => printed usage 0
  | path :: rest =>
    if path = "--help" || path = "-h" then printed usage 0 else check read path rest

end Linter

end TradeChat.Command
