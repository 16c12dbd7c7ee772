import RetiredCommand.Delivery

/-!
# The notice

The one thing a retired command has to say: that it has been replaced, and what to
run instead. The notice is a single line, `RetiredCommand.Notice.line`, and to
give it is to deliver that line to a sink.

Saying it is not success. Whoever called the command wanted something else done,
so the exit status is `RetiredCommand.Notice.exitStatus` whether or not anybody
could be told.
-/

namespace RetiredCommand

namespace Notice

/-- The script that has been retired. -/
def retiredEntryPoint : String :=
  "tools/update_enable_mocks_headers.py"

/-- The script that replaces it. -/
def replacementScript : String :=
  "tools/update_enable_mocks_headers.ps1"

/-- How to run the replacement. -/
def replacementCommand : String :=
  "powershell -ExecutionPolicy Bypass -File tools/update_enable_mocks_headers.ps1"

/-- The command to run ends with the script that is named as the replacement. -/
example : replacementScript.toList <:+ replacementCommand.toList := by decide

/-- The notice, without the end of its line. -/
def message : String :=
  retiredEntryPoint ++ " has been replaced. Run " ++ replacementCommand ++ " instead."

/-- The notice as it is sent: one line, with its end. -/
def line : Bytes :=
  Utf8.encode (message ++ "\n")

theorem length_line : line.length = 148 := by
  decide +kernel

/-- The exit status of a command that does no more than give a notice. -/
def exitStatus : Nat := 1

/-- Give the notice to a sink. -/
def deliver (sink : Sink) : Delivery :=
  sink.deliver line

/-- Give the notice so many times in a row to the same sink. -/
def deliveries (sink : Sink) (times : Nat) : List Delivery :=
  sink.deliveries line times

end Notice

end RetiredCommand
