import RetiredCommand.Sink

/-!
# Where a standard error stream may lead

The streams that a program may find as its standard error, each as the sink it is
to a program that makes no offer after one that failed. Only what goes into a pipe
that somebody reads is ever seen.
-/

namespace RetiredCommand

/-- What a standard error stream is connected to. -/
inductive StandardError
  /-- A pipe that is read to its end. -/
  | pipe
  /-- A device that has no room left. -/
  | full
  /-- A pipe that nobody reads any more. -/
  | broken
  /-- Nothing: the stream was closed beforehand, and what is sent there is lost. -/
  | closed
  deriving DecidableEq, Repr

namespace StandardError

/-- The stream as a sink. -/
def sink : StandardError → Sink
  | pipe => {}
  | full => { writes := [.fail (.system 28)] }
  | broken => { writes := [.fail (.system 32)] }
  | closed => {}

/-- What is seen of the bytes that reached the stream. -/
def seen (stream : StandardError) (bytes : Bytes) : Bytes :=
  if stream = pipe then bytes else []

end StandardError

end RetiredCommand
