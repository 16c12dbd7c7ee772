import RetiredCommand.Reader

/-!
# The program

What happens when the retired command is run. Its command line is read, because
that is where a program starts, and the result is dropped: a command line that is
refused is no reason for a retired command to say anything but its notice. Then
the notice is given on the standard error stream, and that result is dropped as
well, since nothing is left to report a failure to. The exit status alone is left
to speak, and it is the same in every case. Who reads the command line is left open: the
program is one for every `RetiredCommand.Reader`.

A program is a row of `RetiredCommand.Action`s, each of which may look at the process
and change it, and may end it: the actions behind one that ended the process are not
done. Nothing in that keeps a program from sending its complaints to a stream, making
files, or ending early. That this one does none of it is a matter of what its actions
do, see `RetiredCommand.execute_program`.
-/

namespace RetiredCommand

/-! ### Processes -/

/-- What a program is started with. -/
structure Invocation where
  /-- The command line, the path of the program first. -/
  commandLine : List Bytes := []
  /-- The variables of its environment, each a name and a value. -/
  environment : List (Bytes × Bytes) := []
  /-- Its standard error stream. -/
  stderr : Sink := {}

/-- How a process ends. -/
inductive Ending
  /-- By itself, with a status. -/
  | exited (status : Nat)
  /-- By a signal. -/
  | killed (signal : Nat)
  deriving DecidableEq, Repr

namespace Ending

/-- The exit status of a process that ended by itself. -/
def status? : Ending → Option Nat
  | exited status => some status
  | killed _ => none

/-- The signal that ended a process. -/
def signal? : Ending → Option Nat
  | exited _ => none
  | killed signal => some signal

end Ending

/-- A process: what it was started with, and what it has done since. -/
structure Process where
  /-- The command line, the path of the program first. -/
  commandLine : List Bytes
  /-- The variables of its environment, each a name and a value. -/
  environment : List (Bytes × Bytes)
  /-- The bytes that it has sent to its standard output stream. -/
  stdout : Bytes := []
  /-- Its standard error stream. -/
  stderr : Sink
  /-- The names of the files that it has made. -/
  files : List String := []

/-- The process that has been started and has done nothing yet. -/
def Invocation.start (invocation : Invocation) : Process where
  commandLine := invocation.commandLine
  environment := invocation.environment
  stderr := invocation.stderr

/-! ### Actions -/

/-- What a process does next: it gives a value and goes on, or the process ends. -/
abbrev Action := ExceptT Ending (StateM Process)

namespace Action

/-- What comes of an action, and the process after it. -/
def perform {α : Type} (action : Action α) (process : Process) : Except Ending α × Process :=
  (ExceptT.run action).run process

/-- Read the command line with a command that has not been called before. -/
def readCommandLine (reader : Reader) (command : Command) :
    Action (Except Rejection Answer) := do
  return reader.readOnce command (← get).commandLine

/-- Give the notice on the standard error stream. The value is the error, if there
was one. -/
def giveNotice : Action (Option DeliveryError) := do
  let process ← get
  let delivery := Notice.deliver process.stderr
  set { process with stderr := delivery.sink }
  return delivery.error?

/-- End the process with a status. -/
def exit (status : Nat) : Action Empty :=
  throw (.exited status)

/-- Give the notice and exit, whatever came of the notice. -/
def notifyAndExit : Action Empty := do
  let _ ← giveNotice
  exit Notice.exitStatus

/-- Do what gives no value, and so ends the process. -/
def execute (action : Action Empty) (process : Process) : Ending × Process :=
  match action.perform process with
  | (.error ending, last) => (ending, last)
  | (.ok value, _) => value.elim

end Action

/-- **The program**: read, drop the result, give the notice, and exit. -/
def program (reader : Reader) : Action Empty := do
  let _ ← Action.readCommandLine reader .retired
  Action.notifyAndExit

/-! ### A run and its outcome -/

/-- What can be seen of a run once it is over. -/
structure Outcome where
  /-- How it ended. -/
  ending : Ending
  /-- The bytes that reached the standard output stream. -/
  stdout : Bytes
  /-- The bytes that reached the standard error stream. -/
  stderr : Bytes
  /-- The names of the files it made. -/
  files : List String
  deriving DecidableEq, Repr

/-- Run the program. What reached the standard error stream is what the stream holds
at the end and did not hold at first. -/
def run (reader : Reader) (invocation : Invocation) : Outcome :=
  let (ending, process) := (program reader).execute invocation.start
  { ending
    stdout := process.stdout
    stderr := process.stderr.held.drop invocation.stderr.total
    files := process.files }

end RetiredCommand
