import RetiredCommand.Notice

/-!
# The command

What a retired command says about itself. It was called in many ways while it was in
service, and none of them may now end in a complaint about its arguments. So it has no
flags, not even the customary two for help and version, and one argument that may be
left out, that takes any number of values, and that takes them even if they look like
flags.

A definition says none of this in so many words. It is a row of settings, and what they
come to is for the library that reads command lines, see `RetiredCommand.Reader`. The
settings here are those that the retired command makes, and those it leaves alone that
would change its name. Each is given with what the library calls it.
-/

namespace RetiredCommand

/-! ### Flags -/

/-- The flags that every command has unless they are turned off. -/
inductive Flag
  /-- It asks for help. -/
  | help
  /-- It asks for the version. -/
  | version
  deriving DecidableEq, Repr

namespace Flag

/-- The name of a flag, as it stands behind two hyphens. -/
def long : Flag → String
  | help => "help"
  | version => "version"

/-- The letter of a flag, as it stands behind one hyphen. -/
def short : Flag → String
  | help => "h"
  | version => "V"

end Flag

/-! ### The argument -/

/-- What becomes of the values of an argument that is given again. -/
inductive Repetition
  /-- The last one replaces those before. -/
  | set
  /-- All of them are kept, in order. -/
  | append
  deriving DecidableEq, Repr

/-- The name a way of repetition goes by. -/
def Repetition.name : Repetition → String
  | set => "Set"
  | append => "Append"

/-- The definition of an argument. -/
structure Argument where
  /-- The argument's name. -/
  name : String
  /-- What it is for. -/
  help : String
  /-- Whether it has to be given (`required`). -/
  required : Bool
  /-- Its place among the words that are no flags, counted from one (`index`), if it is
  known by its place and not by a flag. An argument without a flag of its own gets the next
  place. -/
  position? : Option Nat
  /-- Whether it takes all that follows its first value (`trailing_var_arg`). -/
  trailing : Bool
  /-- Whether a value may begin with a hyphen (`allow_hyphen_values`). -/
  hyphenValues : Bool
  /-- The least number of values (`num_args`). -/
  least : Nat
  /-- The greatest number of values, if there is one (`num_args`). -/
  most? : Option Nat
  /-- What becomes of values that are given again (`action`). -/
  repetition : Repetition
  deriving DecidableEq, Repr

/-- Whether an argument is the first of those that are known by their place, and has
always room for one more value. -/
def Argument.TakesMany (argument : Argument) : Prop :=
  argument.position? = some 1 ∧ argument.most? = none

instance (argument : Argument) : Decidable argument.TakesMany :=
  inferInstanceAs (Decidable (_ ∧ _))

/-! ### The command -/

/-- The definition of a command with one argument. -/
structure Command where
  /-- The command's name. -/
  name : String
  /-- Its version. -/
  version : String
  /-- What it is, in a line. -/
  about : String
  /-- Whether it has a flag that asks for help (not with `disable_help_flag`). -/
  helpFlag : Bool := true
  /-- Whether it has a flag that asks for its version (not with `disable_version_flag`). -/
  versionFlag : Bool := true
  /-- Whether the first word of a command line is the path that it was called by (not with
  `no_binary_name`). -/
  pathFirst : Bool := true
  /-- The name that it is called by whatever the path is, if there is such a name
  (`bin_name`). -/
  fixedName? : Option String := none
  /-- Its only argument. -/
  argument : Argument
  deriving DecidableEq, Repr

namespace Command

/-- The flags of a command. -/
def flags (command : Command) : List Flag :=
  (if command.helpFlag then [.help] else []) ++ if command.versionFlag then [.version] else []

/-- The command that has been retired. -/
def retired : Command where
  name := "update_enable_mocks_headers"
  version := "0.1.0"
  about := "Retired; use " ++ Notice.replacementScript ++ " instead"
  helpFlag := false
  versionFlag := false
  argument := {
    name := "ignored"
    help := "accepted and ignored"
    required := false
    position? := some 1
    trailing := true
    hyphenValues := true
    least := 0
    most? := none
    repetition := .append }

end Command

end RetiredCommand
