import RetiredCommand.Fault.SystemError

/-!
# What a sink says when it fails

A sink that refuses an offer gives a **fault** as its reason. A fault is of some
`RetiredCommand.FaultKind`, has a text for people, and, when it came from the
operating system, the system's number for it.

Only the kind decides what happens next, and of the kinds only
`RetiredCommand.FaultKind.interrupted`: it says that nothing has happened yet, so
the offer may be made again. Text and number are for the reader of an error
message and for nobody else.
-/

namespace RetiredCommand

/-- A reason for refusing an offer. -/
inductive Fault
  /-- Nothing is known but the kind. -/
  | plain (kind : FaultKind)
  /-- A kind, and a text that replaces the kind's own. -/
  | described (kind : FaultKind) (text : String)
  /-- An error number of the operating system. -/
  | system (code : Int)
  deriving DecidableEq, Repr

namespace Fault

/-- The kind of a fault. -/
def kind : Fault → FaultKind
  | plain kind => kind
  | described kind _ => kind
  | system code => (SystemError.ofCode code).kind

/-- The text of a fault. The system's errors name their number after their
description. -/
def text : Fault → String
  | plain kind => kind.text
  | described _ text => text
  | system code => (SystemError.ofCode code).description ++ " (os error " ++ toString code ++ ")"

/-- The operating system's number for a fault, if it has one. -/
def code? : Fault → Option Int
  | system code => some code
  | _ => none

/-- Whether a fault only says that nothing has happened yet. -/
def IsInterruption (fault : Fault) : Prop :=
  fault.kind = .interrupted

instance (fault : Fault) : Decidable fault.IsInterruption :=
  inferInstanceAs (Decidable (fault.kind = .interrupted))

/-- Of the system's errors, number `4` alone is an interruption. -/
theorem isInterruption_system_iff {code : Int} : (system code).IsInterruption ↔ code = 4 :=
  SystemError.kind_ofCode_eq_interrupted_iff

/-- The fault of a sink that takes nothing of an offer and does not say why. -/
def nothingTaken : Fault :=
  described .writeZero "failed to write whole buffer"

theorem not_isInterruption_nothingTaken : ¬nothingTaken.IsInterruption := by
  decide

end Fault

end RetiredCommand
