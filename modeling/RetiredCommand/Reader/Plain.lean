import RetiredCommand.Reader
import RetiredCommand.Utf8.Lemmas

/-!
# A plain reader

A reader to run the program with, `RetiredCommand.Reader.plain`. It knows commands with
one argument that is known by its place, and with no other flags than the two that a
command may have by itself, and it keeps what a reader promises about them
(`RetiredCommand.Reader.plain_documented`). So the promises can be kept, all of them by one
reader. Nothing that is said about readers is said about this one alone.

It keeps the values that it has read with the last one first, so that a word costs the
same wherever it stands.
-/

namespace RetiredCommand

namespace Plain

/-! ### What is kept -/

/-- A command and the name that it goes by. -/
structure Held where
  /-- The command. -/
  command : Command
  /-- Its name, once one is known. -/
  calledBy? : Option String

/-- What has been made of the words so far. -/
structure Scan where
  /-- The values, the last one first. -/
  newest : List Bytes := []
  /-- Whether all words to come are values. -/
  onlyValues : Bool := false

/-- The values, in the order of the words. -/
def Scan.values (scan : Scan) : List Bytes :=
  scan.newest.reverse

/-! ### Words -/

/-- What is made of a word in the place of a value. -/
def take (held : Held) (scan : Scan) (word : Bytes) : Scan where
  newest := word :: scan.newest
  onlyValues := scan.onlyValues || held.command.argument.trailing

/-- The complaint about a word that has the looks of a flag and is shown so, if there is
one: the flag is asked for, or nobody knows it and it cannot be a value. -/
def lookUp? (command : Command) (word : Bytes) (shown : String) : Option Complaint :=
  match command.flags.find? fun flag => flag.Names word with
  | some flag => some (.asked flag)
  | none => if command.argument.hyphenValues then none else some (.unknownArgument shown)

/-- The complaint about a word in a place where it may be a flag, if there is one. -/
def complaint? (command : Command) (word : Bytes) : Option Complaint :=
  match Word.flagName? word with
  | some name =>
    if Utf8.decode? name = none then some (.unknownArgument ("--" ++ Utf8.lossy name))
    else lookUp? command word ("--" ++ Utf8.lossy name)
  | none =>
    if word.head? = some Word.hyphen ∧ word ≠ [Word.hyphen] then
      lookUp? command word (Utf8.lossy word)
    else none

/-- Read one more word. Once there is a value, an argument whose values may begin with a
hyphen takes what does. -/
def next (held : Held) (scan : Scan) (word : Bytes) : Except Complaint Scan :=
  if scan.onlyValues ∨ (scan.newest ≠ [] ∧ held.command.argument.hyphenValues) then
    .ok (take held scan word)
  else if word = Word.escape then .ok { scan with onlyValues := true }
  else
    match complaint? held.command word with
    | some complaint => .error complaint
    | none => .ok (take held scan word)

/-- Answer, as there are no more words. -/
def finish (held : Held) (scan : Scan) : Except Complaint Answer :=
  let argument := held.command.argument
  let count := scan.newest.length
  if scan.newest = [] then if argument.required then .error .missingArgument else .ok .absent
  else if count < argument.least then .error .tooFewValues
  else if argument.most?.any (· < count) then .error .tooManyValues
  else
    match scan.values.mapM Utf8.decode? with
    | none => .error .invalidUtf8
    | some texts => .ok {
        present := true
        texts? := some texts
        counts? := some [count]
        indices? := some (List.range' 1 count)
        source? := some .commandLine }

/-! ### Texts -/

/-- How an argument is shown. -/
def placeholder (argument : Argument) : String :=
  (if argument.required then "<" ++ argument.name ++ ">" else "[" ++ argument.name ++ "]") ++
    if argument.most? = some 1 then "" else "..."

/-- The line that shows how to call a command. -/
def usage (held : Held) : String :=
  "Usage: " ++ held.calledBy?.getD held.command.name ++ " " ++ placeholder held.command.argument

/-- The text that explains a command. -/
def help (held : Held) : String :=
  held.command.about ++ "\n\n" ++ usage held ++ "\n\nArguments:\n  " ++
    placeholder held.command.argument ++ "  " ++ held.command.argument.help ++ "\n"

/-- The line that names a command and its version. -/
def versionLine (command : Command) : String :=
  command.name ++ " " ++ command.version ++ "\n"

/-- What stands at the end of a message: the usage line, and where to find out more. -/
def ending (held : Held) : String :=
  usage held ++ "\n" ++
    if held.command.helpFlag then "\nFor more information, try '--help'.\n" else ""

/-- The text that is shown for a complaint. -/
def message (held : Held) : Complaint → String
  | .unknownArgument shown =>
    "error: unexpected argument '" ++ shown ++ "' found\n\n  tip: to pass '" ++ shown ++
      "' as a value, use '-- " ++ shown ++ "'\n\n" ++ ending held
  | .invalidUtf8 =>
    "error: invalid UTF-8 was detected in one or more arguments\n\n" ++ ending held
  | .missingArgument =>
    "error: one or more required arguments were not provided\n\n" ++ ending held
  | .tooFewValues => "error: more values required for an argument\n\n" ++ ending held
  | .tooManyValues => "error: unexpected value for an argument found\n\n" ++ ending held
  | .asked .help => help held
  | .asked .version => versionLine held.command

/-- The exit status that goes with a complaint. -/
def exitStatus : Complaint → Nat
  | .asked _ => 0
  | _ => 2

/-! ### Command lines -/

/-- A command after the path at the front of a command line was looked at. -/
def note (held : Held) (commandLine : List Bytes) : Held :=
  if held.command.pathFirst then
    { held with
      calledBy? := held.calledBy?.or (commandLine.head?.bind ProgramName.ofPath?) }
  else held

/-- The words of a command line. -/
def words (held : Held) (commandLine : List Bytes) : List Bytes :=
  if held.command.pathFirst then commandLine.tail else commandLine

/-- What comes of words. -/
def conclude (held : Held) (words : List Bytes) : Except Complaint Answer :=
  words.foldlM (next held) {} >>= finish held

/-- Read a command line. -/
def read (held : Held) (commandLine : List Bytes) : Except Rejection Answer × Held :=
  let after := note held commandLine
  ((conclude after (words held commandLine)).mapError fun complaint =>
    ⟨complaint, message after complaint, exitStatus complaint⟩, after)

end Plain

/-- **A reader** to run the program with. -/
def Reader.plain : Reader where
  Held := Plain.Held
  Scan := Plain.Scan
  hold command := ⟨command, command.fixedName?⟩
  command := Plain.Held.command
  calledBy? := Plain.Held.calledBy?
  usage := Plain.usage
  read := Plain.read
  start _ := {}
  next := Plain.next
  finish := Plain.finish
  values := Plain.Scan.values
  onlyValues := Plain.Scan.onlyValues
  message := Plain.message
  exitStatus := Plain.exitStatus

/-! ### The promises are kept -/

namespace Plain

open Word (escape hyphen flagName?)

/-! #### The name -/

theorem command_note (held : Held) (commandLine : List Bytes) :
    (note held commandLine).command = held.command := by
  unfold note
  split <;> rfl

theorem calledBy?_note {held : Held} (h : held.command.pathFirst = true)
    (commandLine : List Bytes) : (note held commandLine).calledBy? =
      held.calledBy?.or (commandLine.head?.bind ProgramName.ofPath?) := by
  rw [note, if_pos h]

/-! #### The words -/

variable {held : Held} {scan : Scan} {word : Bytes}

theorem takes_of_next (h : next held scan word = .ok (take held scan word)) :
    Reader.plain.Takes held scan word :=
  ⟨_, h, List.reverse_cons, rfl⟩

/-- A word that there is nothing to complain of is a value, unless it is an escape. -/
theorem takes_of_complaint?_eq_none (hword : word ≠ escape)
    (h : complaint? held.command word = none) : Reader.plain.Takes held scan word := by
  refine takes_of_next ?_
  rw [next, if_neg hword, h]
  exact ite_self _

/-- Before the first value, unless only values follow, a word may be a flag. -/
theorem next_of_no_value (honly : scan.onlyValues = false) (hvalues : scan.values = [])
    (word : Bytes) : next held scan word =
      if word = escape then .ok { scan with onlyValues := true }
      else match complaint? held.command word with
        | some complaint => .error complaint
        | none => .ok (take held scan word) := by
  have hnewest : scan.newest = [] := List.reverse_eq_nil_iff.mp hvalues
  rw [next, if_neg (by simp [honly, hnewest])]

/-- What has the form of a flag begins with a hyphen, and is no escape. -/
theorem head?_of_flagName? {name : Bytes} (h : flagName? word = some name) :
    word ≠ escape ∧ word.head? = some hyphen := by
  rw [flagName?, Option.ite_none_right_eq_some] at h
  obtain ⟨⟨htake, hne⟩, -⟩ := h
  refine ⟨hne, ?_⟩
  rw [← List.take_append_drop 2 word, htake]
  rfl

theorem lookUp?_eq_none {command : Command} {shown : String}
    (hhyphen : command.argument.hyphenValues = true)
    (hflags : ∀ flag ∈ command.flags, ¬flag.Names word) : lookUp? command word shown = none := by
  have hfind : command.flags.find? (fun flag => flag.Names word) = none := by
    simpa [List.find?_eq_none] using hflags
  rw [lookUp?, hfind]
  exact if_pos hhyphen

theorem next_unknown {name : Bytes} (honly : scan.onlyValues = false)
    (hvalues : scan.values = []) (hname : flagName? word = some name)
    (hbad : Utf8.decode? name = none) :
    next held scan word = .error (.unknownArgument ("--" ++ Utf8.lossy name)) := by
  rw [next_of_no_value honly hvalues, if_neg (head?_of_flagName? hname).1, complaint?, hname]
  dsimp only
  rw [if_pos hbad]

theorem takes_plain (hword : word.head? ≠ some hyphen) : Reader.plain.Takes held scan word := by
  have hname : flagName? word = none := by
    rw [Option.eq_none_iff_forall_ne_some]
    exact fun name h => hword (head?_of_flagName? h).2
  refine takes_of_complaint?_eq_none (fun h => hword (h ▸ rfl)) ?_
  rw [complaint?, hname]
  exact if_neg fun h => hword h.1

theorem takes_hyphen (hhyphen : held.command.argument.hyphenValues = true) (hword : word ≠ escape)
    (hflags : ∀ flag ∈ held.command.flags, ¬flag.Names word)
    (hname : ∀ name, flagName? word = some name → Utf8.decode? name ≠ none) :
    Reader.plain.Takes held scan word := by
  refine takes_of_complaint?_eq_none hword ?_
  rw [complaint?]
  split
  · rename_i name h
    rw [if_neg (hname name h), lookUp?_eq_none hhyphen hflags]
  · rw [lookUp?_eq_none hhyphen hflags]
    exact ite_self _

/-! #### The answers -/

/-- Texts are read back, and what is not text is not. -/
theorem mapM_decode?_eq_some_iff {values : List Bytes} {texts : List String} :
    values.mapM Utf8.decode? = some texts ↔ values = texts.map Utf8.encode := by
  induction values generalizing texts with
  | nil => cases texts <;> simp
  | cons value values ih =>
    simp only [List.mapM_cons, Option.pure_def, Option.bind_eq_bind, Option.bind_eq_some_iff, ih,
      Utf8.decode?_eq_some_iff, Option.some.injEq]
    constructor
    · rintro ⟨text, rfl, rest, rfl, rfl⟩
      rfl
    · intro h
      cases texts with
      | nil => cases h
      | cons text texts =>
        obtain ⟨rfl, rfl⟩ := List.cons.inj h
        exact ⟨text, rfl, texts, rfl, rfl⟩

theorem finish_absent (hrequired : held.command.argument.required = false)
    (hvalues : scan.values = []) : finish held scan = .ok .absent := by
  have hnewest : scan.newest = [] := List.reverse_eq_nil_iff.mp hvalues
  rw [finish, if_pos hnewest, hrequired]
  rfl

/-- With values enough, and with room for all of them, it depends on whether they are text. -/
theorem finish_of_values (hmany : held.command.argument.TakesMany) (hvalues : scan.values ≠ [])
    (hleast : held.command.argument.least ≤ scan.values.length) : finish held scan =
      match scan.values.mapM Utf8.decode? with
      | none => .error .invalidUtf8
      | some texts => .ok ⟨true, some texts, some [scan.values.length],
          some (List.range' 1 scan.values.length), some .commandLine⟩ := by
  have hnewest : scan.newest ≠ [] := fun h => hvalues (List.reverse_eq_nil_iff.mpr h)
  have hlength : scan.values.length = scan.newest.length := List.length_reverse
  rw [hlength] at hleast ⊢
  rw [finish, if_neg hnewest, if_neg (Nat.not_lt.mpr hleast), hmany.2]
  rfl

theorem finish_texts {texts : List String} (hmany : held.command.argument.TakesMany)
    (hvalues : scan.values = texts.map Utf8.encode) (hne : texts ≠ [])
    (hleast : held.command.argument.least ≤ texts.length) : finish held scan =
      .ok ⟨true, some texts, some [texts.length], some (List.range' 1 texts.length),
        some .commandLine⟩ := by
  have hlength : scan.values.length = texts.length := by rw [hvalues, List.length_map]
  have hnil : scan.values ≠ [] := by
    rw [hvalues]
    exact mt List.map_eq_nil_iff.mp hne
  rw [finish_of_values hmany hnil (hlength ▸ hleast), mapM_decode?_eq_some_iff.mpr hvalues, hlength]

theorem finish_invalid (hmany : held.command.argument.TakesMany)
    (hleast : held.command.argument.least ≤ scan.values.length)
    (hbad : ∃ value ∈ scan.values, Utf8.decode? value = none) :
    finish held scan = .error .invalidUtf8 := by
  obtain ⟨value, hvalue, hnone⟩ := hbad
  have hread : scan.values.mapM Utf8.decode? = none := by
    rw [Option.eq_none_iff_forall_ne_some]
    intro texts h
    rw [mapM_decode?_eq_some_iff.mp h, List.mem_map] at hvalue
    obtain ⟨text, -, rfl⟩ := hvalue
    rw [Utf8.decode?_encode] at hnone
    cases hnone
  rw [finish_of_values hmany (List.ne_nil_of_mem hvalue) hleast, hread]

/-! #### The texts -/

theorem usage_eq (hmany : held.command.argument.TakesMany)
    (hrequired : held.command.argument.required = false) : usage held =
      "Usage: " ++ held.calledBy?.getD held.command.name ++ " [" ++ held.command.argument.name ++
        "]..." := by
  have hopen : " " ++ "[" = " [" := by decide
  have hclose : "]" ++ "..." = "]..." := by decide
  have hdots : (none : Option Nat) ≠ some 1 := by decide
  rw [usage, placeholder, hrequired, hmany.2, if_neg Bool.false_ne_true, if_neg hdots, ← hopen,
    ← hclose]
  simp only [String.append_assoc]

theorem ending_eq (hflags : held.command.flags = []) : ending held = usage held ++ "\n" := by
  have hhelp : held.command.helpFlag = false := by
    cases h : held.command.helpFlag with
    | false => rfl
    | true => simp [Command.flags, h] at hflags
  rw [ending, hhelp]
  exact String.append_empty

theorem message_unknownArgument (hflags : held.command.flags = []) (shown : String) :
    message held (.unknownArgument shown) =
      "error: unexpected argument '" ++ shown ++ "' found\n\n  tip: to pass '" ++ shown ++
        "' as a value, use '-- " ++ shown ++ "'\n\n" ++ usage held ++ "\n" := by
  rw [String.append_assoc, ← ending_eq hflags]
  rfl

theorem message_invalidUtf8 (hflags : held.command.flags = []) : message held .invalidUtf8 =
    "error: invalid UTF-8 was detected in one or more arguments\n\n" ++ usage held ++ "\n" := by
  rw [String.append_assoc, ← ending_eq hflags]
  rfl

/-! #### Command lines -/

theorem result_read (h : held.command.pathFirst = true) (commandLine : List Bytes) :
    (read held commandLine).1 = (conclude (note held commandLine) commandLine.tail).mapError
      fun complaint => ⟨complaint, message (note held commandLine) complaint,
        exitStatus complaint⟩ := by
  rw [read, words, if_pos h]

end Plain

namespace Reader

theorem plain_keepsName : plain.KeepsName where
  command_hold _ := rfl
  command_read := Plain.command_note
  calledBy?_hold _ := rfl
  calledBy?_read _ commandLine h := Plain.calledBy?_note h commandLine

theorem plain_readsWords : plain.ReadsWords where
  result_read _ commandLine h := Plain.result_read h commandLine
  values_start _ := rfl
  onlyValues_start _ := rfl
  next_escape _ _ honly hvalues :=
    ⟨_, Plain.next_of_no_value honly hvalues Word.escape, hvalues, rfl⟩
  next_onlyValues _ _ _ _ honly := Plain.takes_of_next (if_pos (Or.inl honly))
  next_plain _ _ _ _ := Plain.takes_plain
  next_hyphen _ _ _ _ hhyphen _ := Plain.takes_hyphen hhyphen
  next_unknown _ _ _ _ := Plain.next_unknown
  finish_absent _ _ := Plain.finish_absent
  finish_texts _ _ _ hmany _ := Plain.finish_texts hmany
  finish_invalid _ _ := Plain.finish_invalid
  exitStatus_eq complaint h := by
    cases complaint with
    | asked flag => exact absurd rfl (h flag)
    | _ => rfl

theorem plain_renders : plain.Renders where
  usage_eq _ _ := Plain.usage_eq
  message_unknownArgument _ shown hflags _ := Plain.message_unknownArgument hflags shown
  message_invalidUtf8 _ := Plain.message_invalidUtf8

/-- **The plain reader keeps what a reader promises.** -/
theorem plain_documented : plain.Documented where
  toKeepsName := plain_keepsName
  toReadsWords := plain_readsWords
  toRenders := plain_renders

end Reader

end RetiredCommand
