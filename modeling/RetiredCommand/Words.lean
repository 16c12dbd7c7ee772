import RetiredCommand.Command
import RetiredCommand.Utf8

/-!
# What a word looks like

A word of a command line may look like a value, like a flag, or like neither. By its
looks alone,

* a word that is `--` is an **escape**: it says that no flag follows;
* a word that begins with `--` and goes on has the form of a flag with a long name,
  and the name is what stands between the two hyphens and the first `=`, or the end;
* a word that begins with one hyphen may be flags of one letter each.

A name is found by its bytes, before anybody asks whether they are text. Whether there
is such a flag is another question, see `RetiredCommand.Flag.Names`.
-/

namespace RetiredCommand

namespace Word

/-- The byte that a flag begins with. -/
def hyphen : UInt8 := 0x2D

/-- The word that ends the flags. -/
def escape : Bytes := [hyphen, hyphen]

/-- The byte between the name of a flag and its value. -/
def equalsSign : UInt8 := 0x3D

/-- The name in a word that has the form of a flag with a long name. -/
def flagName? (word : Bytes) : Option Bytes :=
  if word.take 2 = escape ∧ word ≠ escape then
    some ((word.drop 2).takeWhile fun b => b ≠ equalsSign)
  else none

end Word

/-- Whether a word may be understood as a flag: it has the flag's name, or it begins with
the flag's letter. -/
def Flag.Names (flag : Flag) (word : Bytes) : Prop :=
  Word.flagName? word = some (Utf8.encode flag.long) ∨ Utf8.encode ("-" ++ flag.short) <+: word

instance (flag : Flag) (word : Bytes) : Decidable (flag.Names word) :=
  inferInstanceAs (Decidable (_ ∨ _))

end RetiredCommand
