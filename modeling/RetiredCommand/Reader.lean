import RetiredCommand.ProgramName
import RetiredCommand.Words

/-!
# The library that reads command lines

A program does not read its command line itself. It hands the definition of its command
to a library, clap, and takes what the library answers, so what becomes of a command line is
decided by two parties: by the settings in the definition, and by what the library makes
of them. Only the first is the program's own. The library is therefore a parameter here,
a `RetiredCommand.Reader`, and what is said of the retired command is said for every
reader that keeps what the library promises (`RetiredCommand.Reader.Documented`).

The promises are about any definition, and each asks for the settings that it is about, so
that a definition with other settings would be promised something else or nothing. There are
three kinds.

* *The name* (`RetiredCommand.Reader.KeepsName`). A command that is called by a path goes
  by the last component of the path from then on, unless its name was fixed before.
* *The words* (`RetiredCommand.Reader.ReadsWords`). They are read one after another from
  the left. It is said for one word at a time what becomes of it, given what was read
  before: it is a value, an escape, or a flag that nobody knows. What this comes to for
  all words of a command line is not promised, and has to be proved.
* *The texts* (`RetiredCommand.Reader.Renders`). The usage line and the messages.

Nothing is promised about a word that is a flag of the command, about values that are too
few or too many, or about a missing argument. For the retired command there are no such
words, and that there are none is a matter of its settings.
-/

namespace RetiredCommand

/-! ### What comes of a command line -/

/-- Where a value came from. -/
inductive Source
  | commandLine
  deriving DecidableEq, Repr

/-- The name a source goes by. -/
def Source.name : Source → String
  | commandLine => "CommandLine"

/-- What can be asked about the argument. Everything but the first answer is there only
if the argument was given. -/
structure Answer where
  /-- Whether it was given at all. -/
  present : Bool
  /-- The texts of its values. -/
  texts? : Option (List String)
  /-- How many values each occurrence has. -/
  counts? : Option (List Nat)
  /-- The places of its values. -/
  indices? : Option (List Nat)
  /-- Where its values came from. -/
  source? : Option Source
  deriving DecidableEq, Repr

/-- The answers about an argument that was not given. -/
def Answer.absent : Answer where
  present := false
  texts? := none
  counts? := none
  indices? := none
  source? := none

/-- Why a command line is not answered. -/
inductive Complaint
  /-- A word, shown so, is a flag that nobody knows. -/
  | unknownArgument (shown : String)
  /-- A value is not text. -/
  | invalidUtf8
  /-- The argument has to be given, and was not. -/
  | missingArgument
  /-- The argument was given fewer values than it takes. -/
  | tooFewValues
  /-- The argument was given more values than it takes. -/
  | tooManyValues
  /-- Something else was asked for, by this flag. -/
  | asked (flag : Flag)
  deriving DecidableEq, Repr

/-- A command line that was refused. -/
structure Rejection where
  /-- Why it was. -/
  complaint : Complaint
  /-- The text that is shown for it. -/
  message : String
  /-- The exit status of a program that minds it. -/
  exitStatus : Nat
  deriving DecidableEq, Repr

/-! ### Readers -/

/-- A library that reads command lines. -/
structure Reader where
  /-- A command in the hands of the library, with all that the library keeps about it. -/
  Held : Type
  /-- What has been made of the words so far. -/
  Scan : Type
  /-- Hand over the definition of a command. -/
  hold : Command → Held
  /-- The definition that was handed over. -/
  command : Held → Command
  /-- The name that the command goes by, once one is known. -/
  calledBy? : Held → Option String
  /-- The line that shows how to call the command. -/
  usage : Held → String
  /-- Read **a command line**, the path first. The command is held afterwards as before,
  but what is kept about it may have changed. -/
  read : Held → List Bytes → Except Rejection Answer × Held
  /-- Begin with the words. -/
  start : Held → Scan
  /-- Read one more word. -/
  next : Held → Scan → Bytes → Except Complaint Scan
  /-- Answer, as there are no more words. -/
  finish : Held → Scan → Except Complaint Answer
  /-- The values that the argument has so far. -/
  values : Scan → List Bytes
  /-- Whether all words to come are values. -/
  onlyValues : Scan → Bool
  /-- The text that is shown for a complaint. -/
  message : Held → Complaint → String
  /-- The exit status that goes with a complaint. -/
  exitStatus : Complaint → Nat

namespace Reader

variable (reader : Reader)

/-- Read words from the left, as far as the first that is refused. -/
def scan (held : reader.Held) (words : List Bytes) : Except Complaint reader.Scan :=
  words.foldlM (reader.next held) (reader.start held)

/-- What comes of words: the answers, or the first complaint. -/
def conclude (held : reader.Held) (words : List Bytes) : Except Complaint Answer :=
  reader.scan held words >>= reader.finish held

/-- The rejection for a complaint. -/
def reject (held : reader.Held) (complaint : Complaint) : Rejection where
  complaint
  message := reader.message held complaint
  exitStatus := reader.exitStatus complaint

/-- Whether a word is read as one more value. If the argument takes all that follows its
first value, then all words that follow are values too. -/
def Takes (held : reader.Held) (scan : reader.Scan) (word : Bytes) : Prop :=
  ∃ after, reader.next held scan word = .ok after ∧
    reader.values after = reader.values scan ++ [word] ∧
    reader.onlyValues after =
      (reader.onlyValues scan || (reader.command held).argument.trailing)

/-! ### What is promised -/

/-- **The name.** A reader holds the definition that it was handed, and of the name it
keeps the first that it learns. So it is when one command reads several command lines
(`try_get_matches_from_mut`): the name that the first word gives is noted in the command
unless it has one. -/
structure KeepsName : Prop where
  /-- The definition is the one handed over. -/
  command_hold : ∀ command, reader.command (reader.hold command) = command
  /-- Reading does not change the definition. -/
  command_read : ∀ held commandLine,
    reader.command (reader.read held commandLine).2 = reader.command held
  /-- At first there is no name but a fixed one. -/
  calledBy?_hold : ∀ command, reader.calledBy? (reader.hold command) = command.fixedName?
  /-- A name stays. If there is none yet, it is the name of the program at the path, if
  the path has one. This is so whatever the other words are. -/
  calledBy?_read : ∀ held commandLine, (reader.command held).pathFirst = true →
    reader.calledBy? (reader.read held commandLine).2 =
      (reader.calledBy? held).or (commandLine.head?.bind ProgramName.ofPath?)

/-- **The words.** A reader goes through the words one by one. A value is what a flag is
not, and how much looks like a flag is up to the settings. Each promise is about one word, in
front of which anything may have been read, or about the values at the end. -/
structure ReadsWords : Prop where
  /-- The path is set aside, and the words after it are read from the left; the first
  complaint is the result. A rejection is worded under the name that the path gives. -/
  result_read : ∀ held commandLine, (reader.command held).pathFirst = true →
    (reader.read held commandLine).1 =
      (reader.conclude (reader.read held commandLine).2 commandLine.tail).mapError
        (reader.reject (reader.read held commandLine).2)
  /-- At first the argument has no values, whatever was read before. -/
  values_start : ∀ held, reader.values (reader.start held) = []
  /-- At first a word may be a flag. -/
  onlyValues_start : ∀ held, reader.onlyValues (reader.start held) = false
  /-- An escape before the first value is no value, and only values follow it. -/
  next_escape : ∀ held scan, reader.onlyValues scan = false → reader.values scan = [] →
    ∃ after, reader.next held scan Word.escape = .ok after ∧
      reader.values after = [] ∧ reader.onlyValues after = true
  /-- Where only values follow, each word is one, whatever it looks like. It is so behind an
  escape, and behind the first value of an argument that takes all that follows, which are
  captured as if an escape had been used (`trailing_var_arg`). -/
  next_onlyValues : ∀ held scan word, (reader.command held).argument.TakesMany →
    reader.onlyValues scan = true → reader.Takes held scan word
  /-- A word that does not begin with a hyphen is a value (an argument that is known by
  its place, with any number of values). -/
  next_plain : ∀ held scan word, (reader.command held).argument.TakesMany →
    word.head? ≠ some Word.hyphen → reader.Takes held scan word
  /-- A word that begins with a hyphen is a value if values may, and if no flag of the
  command can be meant, as known flags go before an argument that is known by its place
  (`allow_hyphen_values`). The long name that may be in the word has to be text: it is looked
  up as such. -/
  next_hyphen : ∀ held scan word, (reader.command held).argument.TakesMany →
    (reader.command held).argument.hyphenValues = true →
    word.head? = some Word.hyphen → word ≠ Word.escape →
    (∀ flag ∈ (reader.command held).flags, ¬flag.Names word) →
    (∀ name, Word.flagName? word = some name → Utf8.decode? name ≠ none) →
    reader.Takes held scan word
  /-- A long name that is not text is the name of no flag. A flag is shown by its name, and
  this one with a replacement character for what is not text in it. -/
  next_unknown : ∀ held scan word name, reader.onlyValues scan = false →
    reader.values scan = [] → Word.flagName? word = some name → Utf8.decode? name = none →
    reader.next held scan word = .error (.unknownArgument ("--" ++ Utf8.lossy name))
  /-- An argument that need not be given may be absent (`required`). -/
  finish_absent : ∀ held scan, (reader.command held).argument.required = false →
    reader.values scan = [] → reader.finish held scan = .ok .absent
  /-- Values that are text are kept in order and numbered from one (`action`), if there are
  enough (`num_args`). They make one occurrence, as nothing stands between them. -/
  finish_texts : ∀ held scan texts, (reader.command held).argument.TakesMany →
    (reader.command held).argument.repetition = .append →
    reader.values scan = texts.map Utf8.encode → texts ≠ [] →
    (reader.command held).argument.least ≤ texts.length →
    reader.finish held scan = .ok {
      present := true
      texts? := some texts
      counts? := some [texts.length]
      indices? := some (List.range' 1 texts.length)
      source? := some .commandLine }
  /-- Values have to be text, as they are asked for as such. -/
  finish_invalid : ∀ held scan, (reader.command held).argument.TakesMany →
    (reader.command held).argument.least ≤ (reader.values scan).length →
    (∃ value ∈ reader.values scan, Utf8.decode? value = none) →
    reader.finish held scan = .error .invalidUtf8
  /-- A complaint about the words has the status 2; to be asked for help is none. -/
  exitStatus_eq : ∀ complaint, (∀ flag, complaint ≠ .asked flag) →
    reader.exitStatus complaint = 2

/-- **The texts**, for a command without flags. -/
structure Renders : Prop where
  /-- The usage line shows the name of the command, or the one it was defined with, and the
  argument: in brackets if it may be left out, and with dots if it takes many values. -/
  usage_eq : ∀ held, (reader.command held).flags = [] →
    (reader.command held).argument.TakesMany →
    (reader.command held).argument.required = false →
    reader.usage held = "Usage: " ++ (reader.calledBy? held).getD (reader.command held).name ++
      " [" ++ (reader.command held).argument.name ++ "]..."
  /-- An unknown flag is shown, and if there is an argument that could take it as a value
  then the way to do so is shown too. -/
  message_unknownArgument : ∀ held shown, (reader.command held).flags = [] →
    (reader.command held).argument.TakesMany →
    reader.message held (.unknownArgument shown) =
      "error: unexpected argument '" ++ shown ++ "' found\n\n  tip: to pass '" ++ shown ++
        "' as a value, use '-- " ++ shown ++ "'\n\n" ++ reader.usage held ++ "\n"
  /-- What is not text is not shown. -/
  message_invalidUtf8 : ∀ held, (reader.command held).flags = [] →
    reader.message held .invalidUtf8 =
      "error: invalid UTF-8 was detected in one or more arguments\n\n" ++ reader.usage held ++ "\n"

/-- **What the library promises.** -/
structure Documented : Prop extends reader.KeepsName, reader.ReadsWords, reader.Renders

/-! ### Using a reader -/

/-- Read a command line with a command that has not been called before. -/
def readOnce (command : Command) (commandLine : List Bytes) : Except Rejection Answer :=
  (reader.read (reader.hold command) commandLine).1

end Reader

/-- What is seen after a command line: what came of it, and how the command shows itself
from then on. -/
structure Reading where
  /-- The answers, or why the command line was refused. -/
  result : Except Rejection Answer
  /-- The name that the command goes by, once one is known. -/
  calledBy? : Option String
  /-- The line that shows how to call it. -/
  usage : String

/-- Read command lines **one after another** with the same command. -/
def Reader.readAll (reader : Reader) (held : reader.Held) : List (List Bytes) → List Reading
  | [] => []
  | commandLine :: rest =>
    let (result, after) := reader.read held commandLine
    ⟨result, reader.calledBy? after, reader.usage after⟩ :: reader.readAll after rest

end RetiredCommand
