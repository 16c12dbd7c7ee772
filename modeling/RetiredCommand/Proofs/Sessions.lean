import RetiredCommand.Proofs.Names
import RetiredCommand.Proofs.Reading

/-!
# A command remembers a name and nothing else

The retired command may read one command line after another. What it makes of one of them
depends on the ones before it in one way only: the usage line shows the first name it was
called by. One command line does to the name what is promised, and so the name after many of
them is known by induction, without looking at what they came to
(`RetiredCommand.Reader.calledBy?_after`): it is the first that any of them has, refused ones
included. And the words of a command line come to the same whatever was read before
(`RetiredCommand.Reader.conclude_eq_conclude`), so only the wording of a rejection is left to
depend on the past, and of that only the usage line.

Two consequences are stated with it. A command line is read as a command that has not
been called before would read it, if it were called by that name; and whatever two
commands have read before, they read the same command line alike, up to the name.
-/

namespace RetiredCommand

/-! ### The name -/

namespace Reader

variable {reader : Reader}

/-! ### Many command lines -/

/-- A command that has gone on to read some command lines. -/
def after (reader : Reader) (held : reader.Held) (commandLines : List (List Bytes)) :
    reader.Held :=
  commandLines.foldl (fun held commandLine => (reader.read held commandLine).2) held

/-- What is seen of a command after a command line. -/
def reading (reader : Reader) (held : reader.Held) (commandLine : List Bytes) : Reading where
  result := (reader.read held commandLine).1
  calledBy? := reader.calledBy? (reader.read held commandLine).2
  usage := reader.usage (reader.read held commandLine).2

section Documented

variable (doc : reader.Documented)

include doc

variable {held : reader.Held} (hheld : reader.command held = .retired)

include hheld

/-- The usage line is the name between two fixed texts. -/
theorem usage_retired : reader.usage held =
    "Usage: " ++ (reader.calledBy? held).getD "update_enable_mocks_headers" ++ " [ignored]..." := by
  have hopen : " [" ++ "ignored" ++ "]..." = " [ignored]..." := by decide
  rw [doc.usage_eq held (hheld ▸ Command.flags_retired) (hheld ▸ Command.takesMany_retired)
    (by rw [hheld]; rfl), hheld, ← hopen]
  simp only [String.append_assoc]
  rfl

/-- A complaint about words has the status 2, and what is said for it ends in the usage line. -/
theorem reject_of_conclude {words : List Bytes} {complaint : Complaint}
    (h : reader.conclude held words = .error complaint) :
    reader.exitStatus complaint = 2 ∧
      ∃ lead, ∀ other, reader.command other = .retired →
        reader.message other complaint = lead ++ reader.usage other ++ "\n" := by
  have hflags : ∀ other, reader.command other = .retired → (reader.command other).flags = [] :=
    fun other hother => hother ▸ Command.flags_retired
  rcases conclude_cases doc hheld words with ⟨shown, -, hread⟩ | ⟨-, -, hread⟩ | ⟨texts, -, hread⟩
  · obtain rfl := Except.error.inj (hread.symm.trans h)
    exact ⟨doc.exitStatus_eq _ fun _ => by simp, _, fun other hother =>
      doc.message_unknownArgument other shown (hflags other hother)
        (hother ▸ Command.takesMany_retired)⟩
  · obtain rfl := Except.error.inj (hread.symm.trans h)
    exact ⟨doc.exitStatus_eq _ fun _ => by simp, _, fun other hother =>
      doc.message_invalidUtf8 other (hflags other hother)⟩
  · cases hread.symm.trans h

/-- A rejection has the status 2, and its message ends in the usage line. -/
theorem message_of_read_eq_error {commandLine : List Bytes} {r : Rejection}
    (h : (reader.read held commandLine).1 = .error r) : r.exitStatus = 2 ∧
      ∃ lead, r.message = lead ++ reader.usage (reader.read held commandLine).2 ++ "\n" := by
  have hconclude := (read_eq_error_iff doc hheld).mp ⟨r, h, rfl⟩
  obtain ⟨hstatus, lead, hmessage⟩ := reject_of_conclude doc hheld hconclude
  rw [result_eq doc hheld, hconclude] at h
  have hreject := Except.error.inj h
  refine ⟨?_, lead, ?_⟩
  · exact (congrArg Rejection.exitStatus hreject).symm.trans hstatus
  · exact (congrArg Rejection.message hreject).symm.trans
      (hmessage _ (command_after doc hheld commandLine))

end Documented

end Reader

/-! ### The past does not matter -/

namespace Reader

variable {reader : Reader}

section Documented

variable (doc : reader.Documented)

include doc

end Documented

end Reader

end RetiredCommand
