import Mathlib.Logic.Basic
import Mathlib.Tactic.ByContra
import RetiredCommand.Utf8.Lemmas

/-!
# Bytes that are text

A byte string is text if some text encodes to it. The statement about it that the
reading of words rests on is where text may be cut: a byte below `80` belongs to no
other piece than its own, so it may stand between any two byte strings without
joining them (`RetiredCommand.Utf8.pieces_append_ascii`). A byte string that is cut
at such a byte is therefore text exactly if both sides are, and a part of a word that
is not text spoils the word.
-/

namespace RetiredCommand

namespace Utf8

/-! ### Text -/

/-- Whether a byte string is the encoding of a text. -/
def IsText (bs : Bytes) : Prop :=
  ∃ text, bs = encode text

theorem isText_encode (text : String) : IsText (encode text) :=
  ⟨text, rfl⟩

/-- The strict reading fails exactly on what is not text. -/
theorem decode?_eq_none_iff {bs : Bytes} : decode? bs = none ↔ ¬IsText bs := by
  rw [Option.eq_none_iff_forall_ne_some, IsText, not_exists]
  exact forall_congr' fun text => not_congr decode?_eq_some_iff

instance (bs : Bytes) : Decidable (IsText bs) :=
  decidable_of_iff (decode? bs ≠ none) (by rw [ne_eq, decode?_eq_none_iff, not_not])

/-- Words that are text, as the texts they encode. -/
theorem exists_texts_iff {words : List Bytes} :
    (∃ texts : List String, words = texts.map encode) ↔ ∀ word ∈ words, IsText word := by
  induction words with
  | nil => exact iff_of_true ⟨[], rfl⟩ (by simp)
  | cons word words ih =>
    rw [List.forall_mem_cons, ← ih]
    constructor
    · rintro ⟨texts, h⟩
      cases texts with
      | nil => cases h
      | cons text texts =>
        obtain ⟨rfl, rfl⟩ := List.cons.inj h
        exact ⟨isText_encode text, texts, rfl⟩
    · rintro ⟨⟨text, rfl⟩, texts, rfl⟩
      exact ⟨text :: texts, rfl⟩

/-- Words that are text are those of one list of texts only. -/
theorem map_encode_inj {texts other : List String} :
    texts.map encode = other.map encode ↔ texts = other :=
  List.map_inj_right fun _ _ => encode_injective

/-- **A byte string is not text exactly if one of its pieces is invalid.** -/
theorem not_isText_iff_invalid {bs : Bytes} :
    ¬IsText bs ↔ ∃ part, Piece.invalid part ∈ pieces bs := by
  constructor
  · intro h
    by_contra hno
    rw [not_exists] at hno
    -- every piece is a scalar value, so they spell a text
    have hall : ∀ ps : List Piece, (∀ part, Piece.invalid part ∉ ps) →
        ∃ cs : List Char, ps = cs.map .scalar := by
      intro ps hps
      induction ps with
      | nil => exact ⟨[], rfl⟩
      | cons p ps ih =>
        obtain ⟨cs, rfl⟩ := ih fun part hp => hps part (List.mem_cons_of_mem _ hp)
        cases p with
        | scalar c => exact ⟨c :: cs, rfl⟩
        | invalid part => exact absurd List.mem_cons_self (hps part)
    obtain ⟨cs, hcs⟩ := hall (pieces bs) hno
    refine h ⟨String.ofList cs, decode?_eq_some_iff.mp ?_⟩
    rw [decode?, mapM_char?_eq_some_iff.mpr hcs]
    rfl
  · rintro ⟨part, hpart⟩ ⟨text, rfl⟩
    rw [pieces_encode, List.mem_map] at hpart
    obtain ⟨c, -, hc⟩ := hpart
    cases hc

/-- No first byte announces a follower below `80`. -/
theorem le_low_of_lead? {b : UInt8} {lead : Lead} (h : lead? b = some lead) :
    0x80 ≤ lead.low := by
  simp only [lead?] at h
  split at h
  · cases h
    exact Nat.le_refl _
  split at h
  · cases h
  split at h
  · cases h
    exact Nat.le_refl _
  split at h
  · cases h
    dsimp only
    split <;> decide
  split at h
  · cases h
    dsimp only
    split <;> decide
  · cases h

/-- A byte below `80` keeps no announcement. -/
theorem keeping_append_ascii {n low high : Nat} (hlow : 0x80 ≤ low) {b : UInt8}
    (hb : b.toNat < 0x80) (bs rest : Bytes) :
    keeping n low high (bs ++ b :: rest) = keeping n low high bs := by
  induction n generalizing low high bs with
  | zero => rfl
  | succ n ih =>
    cases bs with
    | nil => rw [List.nil_append, keeping, if_neg (by omega), keeping]; simp
    | cons x xs =>
      -- a byte that is kept sets the lower bound to `80` for the ones after it
      rw [List.cons_append, keeping, keeping]
      exact if_congr Iff.rfl (congrArg _ (ih (Nat.le_refl _) xs)) rfl

theorem front_append_ascii (x : UInt8) (xs : Bytes) {b : UInt8} (hb : b.toNat < 0x80)
    (rest : Bytes) :
    front x (xs ++ b :: rest) = ((front x xs).1, (front x xs).2 ++ b :: rest) := by
  unfold front
  rcases hl : lead? x with _ | lead
  · rfl
  · simp only [keeping_append_ascii (le_low_of_lead? hl) hb]
    rw [List.drop_append_of_le_length (isPrefix_keeping _ _ _ xs).length_le]

/-- **A byte below `80` is a piece of its own**, and what stands before it and after it
is cut as if it were not there. -/
theorem pieces_append_ascii (bs : Bytes) {b : UInt8} (hb : b.toNat < 0x80) (rest : Bytes) :
    pieces (bs ++ b :: rest) = pieces bs ++ .scalar (Char.ofNat b.toNat) :: pieces rest := by
  fun_induction pieces bs with
  | case1 =>
    have hl : lead? b = some { follow := 0, value := b.toNat } := by
      simp only [lead?]
      rw [if_pos hb]
    exact pieces_cons_of_lead? hl [] rest rfl rfl
  | case2 x xs cut ih =>
    rw [List.cons_append, pieces, front_append_ascii x xs hb]
    exact congrArg _ ih

/-- **Text may be cut at a byte below `80`**, and so may what is not. -/
theorem isText_append_ascii_iff {bs rest : Bytes} {b : UInt8} (hb : b.toNat < 0x80) :
    IsText (bs ++ b :: rest) ↔ IsText bs ∧ IsText rest := by
  rw [← not_iff_not, not_and_or, not_isText_iff_invalid, not_isText_iff_invalid,
    not_isText_iff_invalid, pieces_append_ascii bs hb, ← exists_or]
  refine exists_congr fun part => ?_
  rw [List.mem_append, List.mem_cons]
  simp

end Utf8

end RetiredCommand
