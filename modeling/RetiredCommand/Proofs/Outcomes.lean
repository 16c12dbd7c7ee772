import RetiredCommand.Program
import RetiredCommand.Proofs.Filling
import RetiredCommand.Proofs.Sessions

/-!
# What comes of a run

A run of the program comes to the delivery of one notice. Each action says what it makes of
the process: to read the command line changes nothing, whether the command line is refused
or not, and to give the notice changes the standard error stream and nothing else. The
program is these in a row and then an exit, so its effect is known from theirs
(`RetiredCommand.execute_program`), and nothing of it depends on the command line or on the
environment. Nor does it depend on who reads the command line: whatever a reader makes of it
is dropped, so what is said here is said for every reader, and it is not asked what the reader
promises.

What is left to say is about the stream. It holds at the end what it held before and what
was taken of the line, so what reached it is a beginning of the line. No complaint that the
program could have made instead is in there. The line has no colon in it, so no text with a
colon stands anywhere in it, and the message of every failed delivery has one. So has the
message of every rejection by a reader that shows the usage line as promised.
-/

namespace RetiredCommand

/-! ### Actions, one by one and in a row -/

namespace Action

/-- An action that gives a value is followed by what is done with the value. -/
theorem perform_bind {α β : Type} {action : Action α} {process next : Process} {value : α}
    (h : action.perform process = (.ok value, next)) (rest : α → Action β) :
    (action >>= rest).perform process = (rest value).perform next := by
  rw [perform] at h
  rw [perform, ExceptT.run_bind, StateT.run_bind, h]
  rfl

/-- To read the command line changes nothing. A rejection is a value like any other. -/
theorem perform_readCommandLine (reader : Reader) (command : Command) (process : Process) :
    (readCommandLine reader command).perform process =
      (.ok (reader.readOnce command process.commandLine), process) :=
  rfl

/-- To give the notice changes the standard error stream. An error is a value like any other. -/
theorem perform_giveNotice (process : Process) :
    giveNotice.perform process = (.ok (Notice.deliver process.stderr).error?,
      { process with stderr := (Notice.deliver process.stderr).sink }) :=
  rfl

theorem perform_exit (status : Nat) (process : Process) :
    (exit status).perform process = (.error (.exited status), process) :=
  rfl

theorem perform_notifyAndExit (process : Process) :
    notifyAndExit.perform process = (.error (.exited Notice.exitStatus),
      { process with stderr := (Notice.deliver process.stderr).sink }) := by
  rw [notifyAndExit, perform_bind (perform_giveNotice process), perform_exit]

theorem execute_of_error {action : Action Empty} {process last : Process} {ending : Ending}
    (h : action.perform process = (.error ending, last)) :
    action.execute process = (ending, last) := by
  rw [execute, h]

end Action

/-- **What the program makes of a process**: it has the notice delivered to the standard
error stream, once, and ends by itself with the one status. -/
theorem execute_program (reader : Reader) (process : Process) :
    (program reader).execute process =
      (.exited Notice.exitStatus,
        { process with stderr := (Notice.deliver process.stderr).sink }) := by
  refine Action.execute_of_error ?_
  rw [program, Action.perform_bind (Action.perform_readCommandLine _ _ process),
    Action.perform_notifyAndExit]

/-- **A run in full.** -/
theorem run_eq (reader : Reader) (invocation : Invocation) : run reader invocation =
    { ending := .exited Notice.exitStatus
      stdout := []
      stderr := (Notice.deliver invocation.stderr).taken
      files := [] } := by
  have hheld : (Notice.deliver invocation.stderr).sink.held.drop invocation.stderr.total =
      (Notice.deliver invocation.stderr).taken := by
    rw [Notice.deliver, Sink.held_deliver Notice.line_ne_nil, ← Sink.length_held,
      List.drop_left]
  rw [run, execute_program]
  exact congrArg (Outcome.mk _ _ · _) hheld

/-! ### Complaints -/

theorem Utf8.mem_toList_append_left {c : Char} {front : String} (h : c ∈ front.toList)
    (rest : String) : c ∈ (front ++ rest).toList := by
  rw [String.toList_append]
  exact List.mem_append_left _ h

/-- A colon stands in the message of a rejection: it is in the usage line. -/
theorem Reader.colon_mem_message {reader : Reader} (doc : reader.Documented)
    {commandLine : List Bytes} {r : Rejection}
    (h : reader.readOnce .retired commandLine = .error r) : ':' ∈ r.message.toList := by
  have hheld := doc.command_hold .retired
  obtain ⟨-, lead, hmessage⟩ := message_of_read_eq_error doc hheld h
  have hcolon : ':' ∈ "Usage: ".toList := by decide
  rw [hmessage, usage_retired doc (command_after doc hheld commandLine)]
  simp only [String.append_assoc, String.toList_append (s := lead)]
  exact List.mem_append_right _ (Utf8.mem_toList_append_left hcolon _)

/-- A colon stands in the message of every failed delivery. -/
theorem DeliveryError.colon_mem_message (error : DeliveryError) : ':' ∈ error.message.toList := by
  cases error with
  | write fault =>
    have h : ':' ∈ "cannot write to stderr: ".toList := by decide
    exact Utf8.mem_toList_append_left h fault.text
  | flush fault =>
    have h : ':' ∈ "cannot flush stderr: ".toList := by decide
    exact Utf8.mem_toList_append_left h fault.text

/-- No colon stands in the line. -/
theorem Notice.colon_not_mem_line : 0x3A ∉ line := by
  decide +kernel

/-- **What has a colon in it does not stand in the line.** -/
theorem Notice.not_infix_of_colon {text : String} (h : ':' ∈ text.toList) {bs : Bytes}
    (hbs : bs <+: line) : ¬Utf8.encode text <:+: bs := by
  intro htext
  have hcolon : 0x3A ∈ Utf8.encode text := List.mem_flatMap.mpr ⟨':', h, by decide⟩
  exact colon_not_mem_line (hbs.subset (htext.subset hcolon))

/-! ### A run -/

/-- A sink with room for a line that takes all it is offered takes the line, piecemeal or
whole. -/
theorem Sink.taken_deliver_of_all {sink : Sink} {line : Bytes}
    (hall : ∀ step ∈ sink.writes, step = .all) (hfit : sink.fit line.length = line.length) :
    (sink.deliver line).taken = line := by
  rw [taken_deliver]
  rcases hs : sink.intake with capacity? | _
  · have hwilling : ∀ step ∈ sink.writes, step.IsWilling := fun step hstep => by
      rw [hall step hstep]
      trivial
    rw [transfer_of_piecemeal hs, (pour_of_willing sink line hwilling).1, hfit, List.take_length]
  · have hnext : ∀ fault, sink.nextWrite ≠ .fail fault := by
      refine nextWrite_of_forall (P := fun step => ∀ fault, step ≠ .fail fault) ?_ ?_
      · exact fun fault h => by cases h
      · exact fun step hstep fault h => by cases (hall step hstep).symm.trans h
    rw [transfer_of_whole hs, place_of_not_fault hnext]

/-- **The program ignores what it is given.** However it is called, in whatever environment,
whoever reads the command line and whatever its standard error stream does, it ends by itself
with status 1, its standard output stays empty and it makes no file. One notice is delivered to
the stream: what reaches the stream is what that delivery gets through, which is a beginning of
the line, and the whole line exactly if the delivery was not cut short. No text with a colon is
in there, and so no complaint about the delivery, nor one about the command line by a reader
that does what is promised; and the status that such a rejection has is not the one of the
program. A run with another command line in another environment, read by somebody else and with
the same stream, comes to the same. -/
theorem run_outcome (reader : Reader) (invocation : Invocation) :
    (run reader invocation).ending = .exited 1 ∧
      (run reader invocation).stdout = [] ∧
      (run reader invocation).files = [] ∧
      (run reader invocation).stderr = (Notice.deliver invocation.stderr).taken ∧
      ((program reader).execute invocation.start).2.stderr =
        (Notice.deliver invocation.stderr).sink ∧
      (run reader invocation).stderr <+: Notice.line ∧
      ((run reader invocation).stderr = Notice.line ↔
        (Notice.deliver invocation.stderr).Reached) ∧
      ((∀ step ∈ invocation.stderr.writes, step = .all) → invocation.stderr.fit 148 = 148 →
        (run reader invocation).stderr = Notice.line) ∧
      (∀ text : String, ':' ∈ text.toList →
        ¬Utf8.encode text <:+: (run reader invocation).stderr) ∧
      (∀ error : DeliveryError,
        ¬Utf8.encode error.message <:+: (run reader invocation).stderr) ∧
      (reader.Documented → ∀ rejection,
        reader.readOnce .retired invocation.commandLine = .error rejection →
        rejection.exitStatus = 2 ∧
          (run reader invocation).ending ≠ .exited rejection.exitStatus ∧
          ¬Utf8.encode rejection.message <:+: (run reader invocation).stderr) ∧
      ∀ (other : Reader) (invocation' : Invocation), invocation'.stderr = invocation.stderr →
        run other invocation' = run reader invocation := by
  have hline := Notice.line_ne_nil
  rw [run_eq, execute_program]
  have hfront : (Notice.deliver invocation.stderr).taken <+: Notice.line :=
    Sink.taken_deliver_front hline
  refine ⟨rfl, rfl, rfl, rfl, rfl, hfront, (Sink.reached_deliver_iff_taken hline).symm,
    fun hall hfit => ?_, fun text htext => Notice.not_infix_of_colon htext hfront,
    fun error => Notice.not_infix_of_colon error.colon_mem_message hfront,
    fun doc rejection hread => ?_, fun other invocation' hother => ?_⟩
  · rw [← Notice.length_line] at hfit
    exact Sink.taken_deliver_of_all hall hfit
  · have hstatus := (Reader.message_of_read_eq_error doc (doc.command_hold _) hread).1
    refine ⟨hstatus, ?_, Notice.not_infix_of_colon (Reader.colon_mem_message doc hread) hfront⟩
    rw [hstatus]
    exact fun h => by cases h
  · rw [run_eq, hother]

/-- A command line that is refused, and none at all: the runs come to the same on streams that
take everything, and to the same on a stream with room for a hundred bytes, where the notice
is cut short. -/
theorem run_outcome_of_refused_command_line :
    let refused : Invocation := {
      commandLine := [Utf8.encode "bin/x", [0x2D, 0x2D, 0xFF]]
      environment := [(Utf8.encode "PATH", [0xFF])] }
    let narrow : Sink := { intake := .piecemeal (some 100) }
    (∃ rejection, Reader.plain.readOnce .retired refused.commandLine = .error rejection ∧
        rejection.exitStatus = 2 ∧
        ¬Utf8.encode rejection.message <:+: (run .plain refused).stderr) ∧
      (run .plain refused).ending = .exited 1 ∧ (run .plain refused).stderr = Notice.line ∧
      run .plain {} = run .plain refused ∧
      (run .plain { refused with stderr := narrow }).stderr = Notice.line.take 100 ∧
      run .plain { stderr := narrow } = run .plain { refused with stderr := narrow } := by
  intro refused narrow
  obtain ⟨hending, -, -, -, -, -, -, hwhole, -, -, hrefused, hsame⟩ := run_outcome .plain refused
  obtain ⟨-, -, -, htaken, -, -, -, -, -, -, -, hnarrow⟩ :=
    run_outcome .plain { refused with stderr := narrow }
  obtain ⟨rejection, hread⟩ : ∃ rejection,
      Reader.plain.readOnce .retired refused.commandLine = .error rejection :=
    (Reader.exists_error_iff Reader.plain_documented rfl).mpr (by decide +kernel)
  obtain ⟨hstatus, -, hquiet⟩ := hrefused Reader.plain_documented rejection hread
  exact ⟨⟨rejection, hread, hstatus, hquiet⟩, hending, hwhole (by decide) rfl,
    hsame .plain {} rfl, htaken.trans (by decide +kernel), hnarrow .plain { stderr := narrow } rfl⟩

end RetiredCommand
