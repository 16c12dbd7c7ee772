import RetiredCommand.Utf8

/-!
# The name a program was called by

The first word of a command line is the path that the program was called by, and
the program's name is the last component of it. Components stand between slashes;
an empty one and `.` lead nowhere and are passed over, so that `a`, `./a`, `d//a`
and `a/.` all name `a`.

A path need not have a name: nothing may be left of it, it may end in `..`, which
is no name but a way up, or its last component may not be text. In none of these
cases is an earlier component taken instead.
-/

namespace RetiredCommand

namespace ProgramName

/-- The byte between two components. -/
def slash : UInt8 := 0x2F

/-- The component that stays where it is. -/
def here : Bytes := [0x2E]

/-- The component that leads up. -/
def up : Bytes := [0x2E, 0x2E]

/-- The parts of a path between its slashes, empty ones included. -/
def segments : Bytes → List Bytes
  | [] => [[]]
  | b :: bs =>
    if b = slash then [] :: segments bs
    else
      match segments bs with
      | [] => [[b]]
      | s :: ss => (b :: s) :: ss

/-- The components of a path: its segments but for those that lead nowhere. -/
def components (path : Bytes) : List Bytes :=
  (segments path).filter fun s => s ≠ [] ∧ s ≠ here

/-- The name of the program at a path, if it has one. -/
def ofPath? (path : Bytes) : Option String :=
  (components path).getLast?.bind fun last =>
    if last = up then none else Utf8.decode? last

end ProgramName

end RetiredCommand
