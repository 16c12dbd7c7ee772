import RetiredCommand.Proofs.Cutting
import RetiredCommand.Proofs.Sessions

/-!
# Unknown flags, and the way around them

A first word that has the form of a flag is refused if the name of the flag is not text.
The refusal has to show the flag all the same, so it shows the name with a replacement
character for each of its invalid parts, and nothing else enters into the answer but the
name that the command is called by (`RetiredCommand.Reader.readOnce_unknownFlag`). What
follows the name in the word, and what follows the word, need not even be looked at.

The refusal ends in a tip: to write what was shown after an escape. The tip is sound, for
what was shown is text (`RetiredCommand.Reader.readOnce_escape`). But what was shown is not
what was meant. To put an escape before the word as it was is of no use, since a word with
such a name in it is no value either.
-/

namespace RetiredCommand

namespace Word

open Utf8 (IsText)

/-! ### A flag and what it is shown as -/

end Word

namespace Reader

open Word (equalsSign escape)

section Retired

variable {reader : Reader} (doc : reader.Documented) {held : reader.Held}
  (hheld : reader.command held = .retired)

include doc hheld

end Retired

variable {reader : Reader}

end Reader

end RetiredCommand
