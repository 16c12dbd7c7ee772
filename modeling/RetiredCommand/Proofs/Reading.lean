import RetiredCommand.Proofs.Flags
import RetiredCommand.Reader.Plain

/-!
# Which command lines are refused, and what the others say

What the retired command has set up makes its words easy to read. It has no flags, so no
word can be meant for one, and its argument takes values that begin with a hyphen; so the
first word is a value whatever it looks like, unless it is an escape or has the name of a
flag in it that is not text. And its argument takes all that follows the first value, so
after one word there is nothing left to decide: all others are values
(`RetiredCommand.Reader.foldlM_of_onlyValues`, by induction on the words). In the end the
values are text or they are not.

So a command line is refused exactly if some word of it is not text, and the path at its
front is no word. How it is refused is settled by the first word alone: if that has the
form of a flag (`RetiredCommand.Word.IsFlag`) and the name of the flag is not text, then the
flag is unknown, and in every other case a value is not text. The two ways never compete,
because a word with such a name in it is not text either.

A command line that is not refused says what its words say, less an escape in front of
them (`RetiredCommand.Word.withoutEscape`), and the words can be read off the answers.
-/

namespace RetiredCommand

open Utf8 (IsText)
open Word (BeginWithUnknownFlag escape hyphen unknownFlag? unknownFlag?_eq_some_iff withoutEscape)

/-! ### What the retired command has set up -/

theorem Command.flags_retired : retired.flags = [] := rfl

theorem Command.takesMany_retired : retired.argument.TakesMany := by decide

/-- The answers about an argument with these texts as its values. -/
def Answer.ofTexts (texts : List String) : Answer :=
  if texts = [] then .absent
  else {
    present := true
    texts? := some texts
    counts? := some [texts.length]
    indices? := some (List.range' 1 texts.length)
    source? := some .commandLine }

namespace Reader

variable {reader : Reader} {held : reader.Held}

/-! ### One word -/

/-- The first word, if it is an unknown flag. -/
theorem next_start_of_unknownFlag? (doc : reader.Documented) {word : Bytes} {shown : String}
    (h : unknownFlag? word = some shown) :
    reader.next held (reader.start held) word = .error (.unknownArgument shown) := by
  obtain ⟨name, hname, hshown⟩ := Option.bind_eq_some_iff.mp h
  rw [Option.ite_none_right_eq_some] at hshown
  obtain ⟨hbad, ⟨⟩⟩ := hshown
  exact doc.next_unknown held _ word name (doc.onlyValues_start held) (doc.values_start held)
    hname hbad

theorem scan_of_unknownFlag? (doc : reader.Documented) {words : List Bytes} {shown : String}
    (h : words.head?.bind unknownFlag? = some shown) :
    reader.scan held words = .error (.unknownArgument shown) := by
  cases words with
  | nil => cases h
  | cons word words =>
    rw [scan, List.foldlM_cons, next_start_of_unknownFlag? doc h]
    rfl

/-- A word that is taken as a value by the retired command makes values of all that follow. -/
theorem onlyValues_of_takes (hheld : reader.command held = .retired) {scan : reader.Scan}
    {word : Bytes} (h : reader.Takes held scan word) :
    ∃ after, reader.next held scan word = .ok after ∧
      reader.values after = reader.values scan ++ [word] ∧ reader.onlyValues after = true := by
  obtain ⟨after, hnext, hvalues, honly⟩ := h
  have htrailing : (reader.command held).argument.trailing = true := by rw [hheld]; rfl
  exact ⟨after, hnext, hvalues, by rw [honly, htrailing, Bool.or_true]⟩

section Retired

variable (doc : reader.Documented) (hheld : reader.command held = .retired)

include doc hheld

/-- **A word is a value** unless it is an escape or an unknown flag. -/
theorem takes_of_unknownFlag?_eq_none (scan : reader.Scan) {word : Bytes} (hword : word ≠ escape)
    (h : unknownFlag? word = none) : reader.Takes held scan word := by
  have hmany : (reader.command held).argument.TakesMany := hheld ▸ Command.takesMany_retired
  by_cases hhead : word.head? = some hyphen
  · refine doc.next_hyphen held scan word hmany (by rw [hheld]; rfl) hhead hword ?_ ?_
    · rw [hheld, Command.flags_retired]
      exact fun flag hflag => absurd hflag List.not_mem_nil
    · intro name hname hbad
      rw [unknownFlag?, hname, Option.bind_some, if_pos hbad] at h
      cases h
  · exact doc.next_plain held scan word hmany hhead

/-! ### All words -/

/-- **Where only values follow, they are all of the words.** -/
theorem foldlM_of_onlyValues {scan : reader.Scan} (h : reader.onlyValues scan = true)
    (words : List Bytes) : ∃ last, words.foldlM (reader.next held) scan = .ok last ∧
      reader.values last = reader.values scan ++ words := by
  induction words generalizing scan with
  | nil => exact ⟨scan, rfl, (List.append_nil _).symm⟩
  | cons word words ih =>
    obtain ⟨after, hnext, hvalues, honly⟩ := onlyValues_of_takes hheld
      (doc.next_onlyValues held scan word (hheld ▸ Command.takesMany_retired) h)
    obtain ⟨last, hlast, hall⟩ := ih honly
    refine ⟨last, ?_, by rw [hall, hvalues, List.append_assoc, List.singleton_append]⟩
    rw [List.foldlM_cons, hnext]
    exact hlast

/-- **Words are values**, but for an escape in front of them, unless the first is an unknown
flag. -/
theorem exists_scan {words : List Bytes} (h : words.head?.bind unknownFlag? = none) :
    ∃ last, reader.scan held words = .ok last ∧ reader.values last = withoutEscape words := by
  cases words with
  | nil => exact ⟨_, rfl, doc.values_start held⟩
  | cons word words =>
    rw [scan, List.foldlM_cons, withoutEscape]
    split
    · rename_i hword
      obtain ⟨after, hnext, hvalues, honly⟩ :=
        doc.next_escape held _ (doc.onlyValues_start held) (doc.values_start held)
      obtain ⟨last, hlast, hall⟩ := foldlM_of_onlyValues doc hheld honly words
      rw [hvalues, List.nil_append] at hall
      rw [hword, hnext]
      exact ⟨last, hlast, hall⟩
    · rename_i hword
      obtain ⟨after, hnext, hvalues, honly⟩ := onlyValues_of_takes hheld
        (takes_of_unknownFlag?_eq_none doc hheld (reader.start held) hword h)
      obtain ⟨last, hlast, hall⟩ := foldlM_of_onlyValues doc hheld honly words
      rw [hvalues, doc.values_start, List.nil_append, List.singleton_append] at hall
      rw [hnext]
      exact ⟨last, hlast, hall⟩

/-! ### The answers -/

theorem finish_of_texts {scan : reader.Scan} {texts : List String}
    (h : reader.values scan = texts.map Utf8.encode) :
    reader.finish held scan = .ok (.ofTexts texts) := by
  rw [Answer.ofTexts]
  split
  · rename_i hnil
    rw [hnil] at h
    exact doc.finish_absent held scan (by rw [hheld]; rfl) h
  · rename_i hne
    exact doc.finish_texts held scan texts (hheld ▸ Command.takesMany_retired)
      (by rw [hheld]; rfl) h hne (by rw [hheld]; exact Nat.zero_le _)

theorem finish_of_not_isText {scan : reader.Scan}
    (h : ∃ value ∈ reader.values scan, ¬IsText value) :
    reader.finish held scan = .error .invalidUtf8 := by
  simp only [← Utf8.decode?_eq_none_iff] at h
  exact doc.finish_invalid held scan (hheld ▸ Command.takesMany_retired)
    (by rw [hheld]; exact Nat.zero_le _) h

/-- **The three ways in which words can be read.** -/
theorem conclude_cases (words : List Bytes) :
    (∃ shown, words.head?.bind unknownFlag? = some shown ∧
        reader.conclude held words = .error (.unknownArgument shown)) ∨
      (¬BeginWithUnknownFlag words ∧ (∃ word ∈ words, ¬IsText word) ∧
        reader.conclude held words = .error .invalidUtf8) ∨
      ∃ texts, withoutEscape words = texts.map Utf8.encode ∧
        reader.conclude held words = .ok (.ofTexts texts) := by
  rcases h : words.head?.bind unknownFlag? with _ | shown
  · obtain ⟨last, hlast, hvalues⟩ := exists_scan doc hheld h
    have hconclude : reader.conclude held words = reader.finish held last := by
      rw [conclude, hlast]
      rfl
    by_cases htext : ∀ word ∈ words, IsText word
    · obtain ⟨texts, htexts⟩ :=
        Utf8.exists_texts_iff.mpr (Word.forall_isText_withoutEscape_iff.mpr htext)
      refine Or.inr (Or.inr ⟨texts, htexts, hconclude.trans ?_⟩)
      exact finish_of_texts doc hheld (hvalues.trans htexts)
    · have hno : ¬BeginWithUnknownFlag words := by simp [Word.beginWithUnknownFlag_iff, h]
      have hbad : ∃ word ∈ withoutEscape words, ¬IsText word := by
        rw [← Word.forall_isText_withoutEscape_iff] at htext
        simpa only [not_forall, exists_prop] using htext
      rw [← hvalues] at hbad
      refine Or.inr (Or.inl ⟨hno, ?_, hconclude.trans (finish_of_not_isText doc hheld hbad)⟩)
      simpa only [not_forall, exists_prop] using htext
  · exact Or.inl ⟨shown, rfl, by rw [conclude, scan_of_unknownFlag? doc h]; rfl⟩

/-- **A flag is unknown only in front**, and it is shown as it stands there. -/
theorem conclude_eq_unknownArgument_iff {words : List Bytes} {shown : String} :
    reader.conclude held words = .error (.unknownArgument shown) ↔
      words.head?.bind unknownFlag? = some shown := by
  refine ⟨fun h => ?_, fun h => by rw [conclude, scan_of_unknownFlag? doc h]; rfl⟩
  rcases conclude_cases doc hheld words with ⟨other, hother, hread⟩ | ⟨-, -, hread⟩ |
    ⟨texts, -, hread⟩
  · rw [h] at hread
    cases hread
    exact hother
  · rw [h] at hread
    cases hread
  · rw [h] at hread
    cases hread

/-- **A value is not text** if some word is not, and no unknown flag comes before it. -/
theorem conclude_eq_invalidUtf8_iff {words : List Bytes} :
    reader.conclude held words = .error .invalidUtf8 ↔
      (∃ word ∈ words, ¬IsText word) ∧ ¬BeginWithUnknownFlag words := by
  rcases conclude_cases doc hheld words with ⟨shown, hflag, hread⟩ | ⟨hflag, hbad, hread⟩ |
    ⟨texts, htexts, hread⟩
  · exact iff_of_false (by simp [hread])
      fun h => h.2 (Word.beginWithUnknownFlag_iff.mpr ⟨_, hflag⟩)
  · exact iff_of_true hread ⟨hbad, hflag⟩
  · refine iff_of_false (by simp [hread]) fun ⟨⟨word, hword, hbad⟩, _⟩ => ?_
    exact hbad ((Word.not_beginWithUnknownFlag_of_texts htexts).1 word hword)

/-- **Words that are read** are texts but for an escape in front, and the answers are about
these texts. -/
theorem conclude_eq_ok_iff {words : List Bytes} {answer : Answer} :
    reader.conclude held words = .ok answer ↔
      ∃ texts, withoutEscape words = texts.map Utf8.encode ∧ answer = .ofTexts texts := by
  rcases conclude_cases doc hheld words with ⟨shown, hflag, hread⟩ |
    ⟨-, ⟨word, hword, hbad⟩, hread⟩ | ⟨texts, htexts, hread⟩
  · refine iff_of_false (by simp [hread]) fun ⟨texts, htexts, _⟩ => ?_
    exact (Word.not_beginWithUnknownFlag_of_texts htexts).2
      (Word.beginWithUnknownFlag_iff.mpr ⟨_, hflag⟩)
  · refine iff_of_false (by simp [hread]) fun ⟨texts, htexts, _⟩ => ?_
    exact hbad ((Word.not_beginWithUnknownFlag_of_texts htexts).1 word hword)
  · rw [hread, Except.ok.injEq]
    constructor
    · rintro rfl
      exact ⟨texts, htexts, rfl⟩
    · rintro ⟨other, hother, rfl⟩
      rw [Utf8.map_encode_inj.mp (htexts.symm.trans hother)]

/-- Nothing but a word that is not text stands in the way of reading. -/
theorem exists_conclude_eq_ok_iff {words : List Bytes} :
    (∃ answer, reader.conclude held words = .ok answer) ↔ ∀ word ∈ words, IsText word := by
  rw [← Word.forall_isText_withoutEscape_iff, ← Utf8.exists_texts_iff]
  simp only [conclude_eq_ok_iff doc hheld]
  exact ⟨fun ⟨_, texts, h, _⟩ => ⟨texts, h⟩, fun ⟨texts, h⟩ => ⟨_, texts, h, rfl⟩⟩

/-- **What words come to does not depend on what was read before**, as it is known from the
words alone. -/
theorem conclude_eq_conclude {other : reader.Held} (hother : reader.command other = .retired)
    (words : List Bytes) : reader.conclude held words = reader.conclude other words := by
  rcases conclude_cases doc hheld words with ⟨shown, hflag, hread⟩ | ⟨hflag, hbad, hread⟩ |
    ⟨texts, htexts, hread⟩
  · rw [hread, (conclude_eq_unknownArgument_iff doc hother).mpr hflag]
  · rw [hread, (conclude_eq_invalidUtf8_iff doc hother).mpr ⟨hbad, hflag⟩]
  · rw [hread, (conclude_eq_ok_iff doc hother).mpr ⟨texts, htexts, rfl⟩]

/-! ### Command lines -/

theorem command_after (commandLine : List Bytes) :
    reader.command (reader.read held commandLine).2 = .retired :=
  (doc.command_read held commandLine).trans hheld

theorem result_eq (commandLine : List Bytes) : (reader.read held commandLine).1 =
    (reader.conclude held commandLine.tail).mapError
      (reader.reject (reader.read held commandLine).2) := by
  rw [conclude_eq_conclude doc hheld (command_after doc hheld commandLine)]
  exact doc.result_read held commandLine (by rw [hheld]; rfl)

theorem mapError_complaint_read (commandLine : List Bytes) :
    (reader.read held commandLine).1.mapError Rejection.complaint =
      reader.conclude held commandLine.tail := by
  rw [result_eq doc hheld]
  cases reader.conclude held commandLine.tail <;> rfl

variable {commandLine : List Bytes}

/-- The command refuses what cannot be read, and nothing else. -/
theorem read_eq_error_iff {complaint : Complaint} :
    (∃ r, (reader.read held commandLine).1 = .error r ∧ r.complaint = complaint) ↔
      reader.conclude held commandLine.tail = .error complaint := by
  rw [← mapError_complaint_read doc hheld]
  rcases (reader.read held commandLine).1 with r | answer <;> simp [Except.mapError]

theorem read_eq_ok_iff {answer : Answer} :
    (reader.read held commandLine).1 = .ok answer ↔
      reader.conclude held commandLine.tail = .ok answer := by
  rw [← mapError_complaint_read doc hheld]
  rcases (reader.read held commandLine).1 with r | answer' <;> simp [Except.mapError]

theorem exists_ok_iff :
    (∃ answer, (reader.read held commandLine).1 = .ok answer) ↔
      ∀ word ∈ commandLine.tail, IsText word := by
  simp only [read_eq_ok_iff doc hheld, exists_conclude_eq_ok_iff doc hheld]

theorem exists_error_iff :
    (∃ r, (reader.read held commandLine).1 = .error r) ↔
      ∃ word ∈ commandLine.tail, ¬IsText word := by
  have hother : (∃ r, (reader.read held commandLine).1 = .error r) ↔
      ¬∃ answer, (reader.read held commandLine).1 = .ok answer := by
    rcases (reader.read held commandLine).1 with r | answer <;> simp
  rw [hother, exists_ok_iff doc hheld]
  simp only [not_forall, exists_prop]

end Retired

end Reader

end RetiredCommand
