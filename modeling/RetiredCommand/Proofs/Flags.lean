import Mathlib.Data.List.TakeWhile
import RetiredCommand.Proofs.Text
import RetiredCommand.Words

/-!
# Words that look like flags

A word has the form of a flag with a long name if it goes on after two hyphens, and then
the name reaches up to the first `=` (`RetiredCommand.Word.IsFlag`). A name that is not text
is the name of no flag. It may stand in a word by itself or with a value behind it; in either
case the word is not text (`RetiredCommand.Word.IsFlag.isText_name`), because the bytes around
the name are bytes at which text may be cut. So a word that is an unknown flag for its name
could not have been a value.
-/

namespace RetiredCommand

namespace Word

open Utf8 (IsText)

/-! ### Words that have the form of a flag -/

/-- Whether `name` is the name in a word that has the form of a flag: the word goes on
after its two hyphens, and the name reaches from there up to the first `=`, or to the
end. -/
def IsFlag (word name : Bytes) : Prop :=
  word ≠ escape ∧ equalsSign ∉ name ∧
    (word = escape ++ name ∨ ∃ value, word = escape ++ name ++ equalsSign :: value)

/-- The name up to the first `=` is the only one that a `=` or the end can follow. -/
theorem takeWhile_ne_equalsSign_iff {body name : Bytes} :
    (body.takeWhile fun b => b ≠ equalsSign) = name ↔
      equalsSign ∉ name ∧ (body = name ∨ ∃ value, body = name ++ equalsSign :: value) := by
  constructor
  · rintro rfl
    have hsplit := List.takeWhile_append_dropWhile (p := fun b => b ≠ equalsSign) (l := body)
    refine ⟨fun h => by simpa using List.mem_takeWhile_imp h, ?_⟩
    rcases hd : body.dropWhile fun b => b ≠ equalsSign with _ | ⟨b, value⟩
    · rw [hd, List.append_nil] at hsplit
      exact Or.inl hsplit.symm
    · -- what ends the name is the sign
      have hb : b = equalsSign := by
        have hhead := List.head?_dropWhile_not (fun b => b ≠ equalsSign) body
        rw [hd] at hhead
        simpa using hhead
      rw [hd, hb] at hsplit
      exact Or.inr ⟨value, hsplit.symm⟩
  · rintro ⟨hname, hbody⟩
    have hall : ∀ b ∈ name, decide (b ≠ equalsSign) = true := fun b hb => by
      rw [decide_eq_true_eq]
      rintro rfl
      exact hname hb
    rcases hbody with rfl | ⟨value, rfl⟩
    · exact List.takeWhile_eq_self_iff.mpr hall
    · rw [List.takeWhile_append_of_pos hall, List.takeWhile_cons_of_neg (by simp), List.append_nil]

/-- A word that begins with two hyphens, by what follows them. -/
theorem take_two_eq_escape_iff {word : Bytes} :
    word.take 2 = escape ↔ ∃ body, word = escape ++ body := by
  constructor
  · intro h
    exact ⟨word.drop 2, by rw [← h, List.take_append_drop]⟩
  · rintro ⟨body, rfl⟩
    rfl

/-- The reader finds **the name in a word that has the form of a flag**, and it finds
none in any other. -/
theorem flagName?_eq_some_iff {word name : Bytes} :
    flagName? word = some name ↔ IsFlag word name := by
  rw [flagName?, Option.ite_none_right_eq_some, Option.some.injEq, take_two_eq_escape_iff, IsFlag]
  constructor
  · rintro ⟨⟨⟨body, rfl⟩, hne⟩, hname⟩
    obtain ⟨hmem, hbody⟩ := takeWhile_ne_equalsSign_iff.mp hname
    refine ⟨hne, hmem, hbody.imp ?_ ?_⟩
    · exact fun h => congrArg _ h
    · rintro ⟨value, h⟩
      exact ⟨value, by rw [List.append_assoc]; exact congrArg _ h⟩
  · rintro ⟨hne, hmem, rfl | ⟨value, rfl⟩⟩
    · exact ⟨⟨⟨_, rfl⟩, hne⟩, takeWhile_ne_equalsSign_iff.mpr ⟨hmem, Or.inl rfl⟩⟩
    · rw [List.append_assoc] at hne ⊢
      exact ⟨⟨⟨_, rfl⟩, hne⟩, takeWhile_ne_equalsSign_iff.mpr ⟨hmem, Or.inr ⟨value, rfl⟩⟩⟩

/-- A flag is text only if its name is: the hyphens and the `=` around the name are
bytes at which text may be cut. -/
theorem IsFlag.isText_name {word name : Bytes} (h : IsFlag word name) (hw : IsText word) :
    IsText name := by
  -- the two hyphens, one after the other
  have hcut : ∀ rest : Bytes, IsText (escape ++ rest) → IsText rest := fun rest hr => by
    have hfirst : IsText ([] ++ 0x2D :: ([] ++ 0x2D :: rest)) := hr
    have hsecond := ((Utf8.isText_append_ascii_iff (by decide)).mp hfirst).2
    exact ((Utf8.isText_append_ascii_iff (by decide)).mp hsecond).2
  rcases h with ⟨-, -, rfl | ⟨value, rfl⟩⟩
  · exact hcut name hw
  · rw [List.append_assoc] at hw
    exact ((Utf8.isText_append_ascii_iff (by decide)).mp (hcut _ hw)).1

/-- Words whose first is a flag with a name that is not text. -/
def BeginWithUnknownFlag (words : List Bytes) : Prop :=
  ∃ word name, words.head? = some word ∧ IsFlag word name ∧ ¬IsText name

/-- The unknown flag that a word is, as it is shown. -/
def unknownFlag? (word : Bytes) : Option String :=
  (flagName? word).bind fun name =>
    if Utf8.decode? name = none then some ("--" ++ Utf8.lossy name) else none

theorem unknownFlag?_eq_some_iff {word : Bytes} {shown : String} :
    unknownFlag? word = some shown ↔
      ∃ name, IsFlag word name ∧ ¬IsText name ∧ "--" ++ Utf8.lossy name = shown := by
  rw [unknownFlag?, Option.bind_eq_some_iff]
  refine exists_congr fun name => ?_
  rw [flagName?_eq_some_iff, Option.ite_none_right_eq_some, Option.some.injEq,
    Utf8.decode?_eq_none_iff]

/-- An unknown flag is one, and is shown in some way. -/
theorem beginWithUnknownFlag_iff {words : List Bytes} :
    BeginWithUnknownFlag words ↔ ∃ shown, words.head?.bind unknownFlag? = some shown := by
  simp only [Option.bind_eq_some_iff, unknownFlag?_eq_some_iff]
  constructor
  · rintro ⟨word, name, hword, hflag, hname⟩
    exact ⟨_, word, hword, name, hflag, hname, rfl⟩
  · rintro ⟨_, word, hword, name, hflag, hname, -⟩
    exact ⟨word, name, hword, hflag, hname⟩

/-- Words that begin with an unknown flag are not all text. -/
theorem BeginWithUnknownFlag.exists_not_isText {words : List Bytes}
    (h : BeginWithUnknownFlag words) : ∃ word ∈ words, ¬IsText word := by
  obtain ⟨word, name, hword, hflag, hname⟩ := h
  exact ⟨word, List.mem_of_head? hword, fun hw => hname (hflag.isText_name hw)⟩

/-! ### An escape in front -/

/-- The words that are values: all of them, but for an escape in front. -/
def withoutEscape : List Bytes → List Bytes
  | [] => []
  | word :: words => if word = escape then words else word :: words

/-- An escape is text, so no word that is not text is lost with it. -/
theorem forall_isText_withoutEscape_iff {words : List Bytes} :
    (∀ word ∈ withoutEscape words, IsText word) ↔ ∀ word ∈ words, IsText word := by
  cases words with
  | nil => rfl
  | cons word words =>
    rw [withoutEscape]
    split
    · rename_i h
      have hescape : IsText word := h ▸ Utf8.isText_encode "--"
      rw [List.forall_mem_cons, and_iff_right hescape]
    · rfl

/-- Words that are texts but for an escape in front are all text, so they do not begin
with an unknown flag. -/
theorem not_beginWithUnknownFlag_of_texts {words : List Bytes} {texts : List String}
    (h : withoutEscape words = texts.map Utf8.encode) :
    (∀ word ∈ words, IsText word) ∧ ¬BeginWithUnknownFlag words := by
  have hall : ∀ word ∈ words, IsText word :=
    forall_isText_withoutEscape_iff.mp (Utf8.exists_texts_iff.mp ⟨texts, h⟩)
  refine ⟨hall, fun hflag => ?_⟩
  obtain ⟨word, hword, hbad⟩ := hflag.exists_not_isText
  exact hbad (hall word hword)

end Word

end RetiredCommand
