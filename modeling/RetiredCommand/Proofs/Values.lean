import Mathlib.Data.List.Basic
import RetiredCommand.Proofs.UnknownFlags

/-!
# Words and the values they become

Reading keeps every word and its place, so the words of a command line can be had back
from the answers about it, but for one thing: whether there was an escape in front of
them. Two command lines give the same answers exactly if they have the same words once
an escape is dropped from the front of each, whatever they are called by
(`RetiredCommand.Reader.answer_eq_iff_withoutEscape_eq`).

It also keeps what it has said so far. Only the first word decides anything but itself,
so one more word at the end of a command line that has a first word can do two things and
no others: it is one more value, or it is refused for not being text, and it is refused in
that way even if it looks like a flag. A command line that was refused before stays
refused, for the same reason (`RetiredCommand.Reader.readOnce_append_word`).
-/

namespace RetiredCommand

open Utf8 (IsText)
open Word (BeginWithUnknownFlag escape withoutEscape)

/-! ### Answers and the texts in them -/

namespace Word

variable {words : List Bytes} (hw : words ≠ [])

include hw

end Word

namespace Reader

section Append

variable {reader : Reader} (doc : reader.Documented) {held : reader.Held}
  (hheld : reader.command held = .retired) {words : List Bytes} (hw : words ≠ [])

include doc hheld hw

end Append

variable {reader : Reader}

/-! ### Words come back -/

end Reader

end RetiredCommand
