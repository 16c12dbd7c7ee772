/-!
# Bytes and the text in them

A name or a word on a command line is a string of bytes, and it need not be
text. This file reads such a string as UTF-8 without ever giving up: it cuts the
bytes from the left into **pieces**, each either the encoding of one scalar value
or an invalid part, and every other reading is a question about the pieces.

* `RetiredCommand.Utf8.decode?` is the strict reading: the text, if every piece
  is a scalar value.
* `RetiredCommand.Utf8.lossy` is the forgiving one: an invalid part is shown as
  one replacement character.

Where an invalid part ends is the only delicate point, and the table
`RetiredCommand.Utf8.lead?` decides it. A first byte announces how many bytes
follow it and between which bounds the first of them has to lie; the bounds
exclude overlong forms (after `E0` and `F0`), surrogates (after `ED`) and values
above `10FFFF` (after `F4`). The reader goes on as long as the announcement is
kept. When it is broken, the bytes read so far are the longest beginning of an
encoding there is, and they are one invalid part; a byte that announces nothing
is an invalid part of its own. So an invalid part has one, two or three bytes.
-/

namespace RetiredCommand

/-- A string of bytes, which need not be text. -/
abbrev Bytes := List UInt8

namespace Utf8

/-- The bytes of a text. -/
def encode (text : String) : Bytes :=
  text.toList.flatMap String.utf8EncodeChar

/-! ### What a first byte announces -/

/-- What the first byte of an encoding announces: how many bytes `follow` it, the
bounds `low` and `high` of the first of those, and the `value` of its own bits.
The bytes after that one lie between `80` and `BF` whatever the first byte is. -/
structure Lead where
  /-- The number of bytes that follow. -/
  follow : Nat
  /-- The least byte that may follow at once. -/
  low : Nat := 0x80
  /-- The greatest byte that may follow at once. -/
  high : Nat := 0xBF
  /-- The bits that the first byte contributes to the scalar value. -/
  value : Nat

/-- The table of first bytes. The bytes `80` to `C1` and `F5` to `FF` begin no
encoding. -/
def lead? (b : UInt8) : Option Lead :=
  let n := b.toNat
  if n < 0x80 then some { follow := 0, value := n }
  else if n < 0xC2 then none
  else if n < 0xE0 then some { follow := 1, value := n - 0xC0 }
  else if n < 0xF0 then
    some {
      follow := 2
      low := if n = 0xE0 then 0xA0 else 0x80
      high := if n = 0xED then 0x9F else 0xBF
      value := n - 0xE0 }
  else if n < 0xF5 then
    some {
      follow := 3
      low := if n = 0xF0 then 0x90 else 0x80
      high := if n = 0xF4 then 0x8F else 0xBF
      value := n - 0xF0 }
  else none

/-- The bytes at the front of `bs` that keep an announcement of `n` bytes, the
first of them between `low` and `high`. There are fewer than `n` of them when the
announcement is broken. -/
def keeping : (n low high : Nat) → (bs : Bytes) → Bytes
  | n + 1, low, high, b :: bs =>
    if low ≤ b.toNat ∧ b.toNat ≤ high then b :: keeping n 0x80 0xBF bs else []
  | _, _, _, _ => []

/-- The number that a first byte's bits and the bytes after it spell: six bits
from each of those. -/
def spelled (value : Nat) (tail : Bytes) : Nat :=
  tail.foldl (fun v b => v * 64 + (b.toNat - 0x80)) value

/-! ### Cutting bytes into pieces -/

/-- A piece of a byte string: a scalar value that is spelled there, or bytes that
spell nothing. -/
inductive Piece
  /-- The encoding of one scalar value. -/
  | scalar (c : Char)
  /-- A maximal invalid part. -/
  | invalid (part : Bytes)
  deriving DecidableEq, Repr

/-- The first piece of the bytes `b :: bs`, and the bytes that it leaves. -/
def front (b : UInt8) (bs : Bytes) : Piece × Bytes :=
  match lead? b with
  | none => (.invalid [b], bs)
  | some lead =>
    let tail := keeping lead.follow lead.low lead.high bs
    (if tail.length = lead.follow then .scalar (Char.ofNat (spelled lead.value tail))
      else .invalid (b :: tail), bs.drop tail.length)

theorem length_front_le (b : UInt8) (bs : Bytes) : (front b bs).2.length ≤ bs.length := by
  unfold front
  split
  · exact Nat.le_refl _
  · simp

/-- The pieces of a byte string, from the left. -/
def pieces : Bytes → List Piece
  | [] => []
  | b :: bs =>
    let cut := front b bs
    cut.1 :: pieces cut.2
termination_by bs => bs.length
decreasing_by exact Nat.lt_succ_of_le (length_front_le b bs)

/-- The bytes a piece was cut from. -/
def Piece.bytes : Piece → Bytes
  | .scalar c => String.utf8EncodeChar c
  | .invalid part => part

/-- The character of a piece, if it is one. -/
def Piece.char? : Piece → Option Char
  | .scalar c => some c
  | .invalid _ => none

/-- The character a piece is shown as: an invalid part is one `U+FFFD`. -/
def Piece.shown : Piece → Char
  | .scalar c => c
  | .invalid _ => '\uFFFD'

/-! ### The two readings -/

/-- The text that the bytes encode, if they are the encoding of a text. -/
def decode? (bs : Bytes) : Option String :=
  ((pieces bs).mapM Piece.char?).map String.ofList

/-- The bytes as text, with one replacement character for each invalid part. -/
def lossy (bs : Bytes) : String :=
  String.ofList ((pieces bs).map Piece.shown)

end Utf8

end RetiredCommand
