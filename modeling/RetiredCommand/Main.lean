import RetiredCommand.Program
import RetiredCommand.Reader.Plain

/-!
# The executable

The program is run by `RetiredCommand.run`, against streams that take everything, and what
came of the run is passed on: the bytes to the real streams, and the status to whoever
called. A real stream may fail, and as in the run there is nobody to tell.
-/

/-- Pass bytes on to a stream. -/
def RetiredCommand.send (stream : IO.FS.Stream) (bytes : Bytes) : IO Unit := do
  try
    stream.write ⟨bytes.toArray⟩
    stream.flush
  catch _ => pure ()

/-- Run the program on these words, and pass on what came of it. A signal is passed on as the
status that a shell would show for it. -/
def main (words : List String) : IO UInt32 := do
  let path := RetiredCommand.Command.retired.name
  let outcome := RetiredCommand.run .plain {
    commandLine := (path :: words).map RetiredCommand.Utf8.encode }
  RetiredCommand.send (← IO.getStdout) outcome.stdout
  RetiredCommand.send (← IO.getStderr) outcome.stderr
  match outcome.ending with
  | .exited status => return status.toUInt32
  | .killed signal => return (128 + signal).toUInt32
