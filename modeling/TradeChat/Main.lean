import TradeChat.Command

namespace TradeChat.Command

/-- All bytes of a stream. -/
partial def readAll (stream : IO.FS.Stream) (taken : ByteArray) : IO ByteArray := do
  let more ← stream.read 65536
  if more.isEmpty then pure taken else readAll stream (taken ++ more)

/-- The bytes of the file that an argument names, if it names one. -/
def readFile (name : String) : IO (Except File.Fault (List UInt8)) := do
  try
    let bytes ← IO.FS.readBinFile name
    pure (.ok bytes.toList)
  catch
    | .noFileOrDirectory .. => pure (.error .missing)
    | e => pure (.error (.other (toString e)))

def readFiles (names : List String) : IO File.Reader := do
  let files ← names.mapM fun name => do pure (name, ← readFile name)
  pure fun name => (files.lookup name).getD (.error .missing)

def emit (outcome : Outcome) : IO UInt32 := do
  let out ← IO.getStdout
  out.write ⟨outcome.stdout.toArray⟩
  out.flush
  let err ← IO.getStderr
  err.write ⟨outcome.stderr.toArray⟩
  err.flush
  pure outcome.code.toUInt32

end TradeChat.Command

open TradeChat.Command in
def main : List String → IO UInt32
  | "generate" :: args => do
    let read ← readFiles args
    let input ← match Generator.request args with
      | .run _ => readAll (← IO.getStdin) .empty
      | _ => pure .empty
    emit (Generator.run read args input.toList)
  | "lint" :: args => do
    let read ← readFiles args
    emit (Linter.run read args)
  | _ => emit (printed (Generator.usage ++ Linter.usage) 0)
