import RetiredCommand.Utf8

/-!
# Reading bytes loses nothing and invents nothing

The two facts about `RetiredCommand.Utf8.pieces` on which everything else about
text rests.

* The pieces of a byte string, put back together, are that byte string
  (`RetiredCommand.Utf8.flatMap_bytes_pieces`): cutting loses no byte, and a piece
  that claims to be a scalar value was cut from its encoding.
* The encoding of a scalar value at the front is cut off as that scalar value,
  whatever follows (`RetiredCommand.Utf8.pieces_utf8EncodeChar_append`).

Both together say that the strict reading accepts exactly what encoding produces
(`RetiredCommand.Utf8.decode?_eq_some_iff`).
-/

namespace RetiredCommand

namespace Utf8

/-! ### Bytes that keep an announcement -/

theorem isPrefix_keeping (n low high : Nat) (bs : Bytes) : keeping n low high bs <+: bs := by
  fun_induction keeping n low high bs with
  | case1 n low high b bs _ ih => simpa using ih
  | case2 => exact List.nil_prefix
  | case3 => exact List.nil_prefix

theorem keeping_append_drop (n low high : Nat) (bs : Bytes) :
    keeping n low high bs ++ bs.drop (keeping n low high bs).length = bs :=
  List.prefix_iff_eq_append.mp (isPrefix_keeping n low high bs)

/-- An announcement of at least one byte that is kept: the byte that keeps it, and
the rest. -/
theorem keeping_succ_of_length {n low high : Nat} {bs : Bytes}
    (h : (keeping (n + 1) low high bs).length = n + 1) :
    ∃ t ts, keeping (n + 1) low high bs = t :: keeping n 0x80 0xBF ts ∧
      low ≤ t.toNat ∧ t.toNat ≤ high ∧ (keeping n 0x80 0xBF ts).length = n := by
  match bs with
  | [] => simp [keeping] at h
  | t :: ts =>
    by_cases hb : low ≤ t.toNat ∧ t.toNat ≤ high
    · rw [keeping, if_pos hb] at h ⊢
      exact ⟨t, ts, rfl, hb.1, hb.2, by simpa using h⟩
    · rw [keeping, if_neg hb] at h
      simp at h

/-! ### Spelling a scalar value -/

theorem toNat_val_ofNat {n : Nat} (h : n < 0xD800 ∨ 0xDFFF < n ∧ n < 0x110000) :
    (Char.ofNat n).val.toNat = n := by
  have hv : n.isValidChar := h
  rw [Char.ofNat, dif_pos hv]
  rfl

/-- A kept announcement **spells a scalar value**, and its encoding is the bytes
that were read: the bounds of the table leave out every other spelling. -/
theorem utf8EncodeChar_spelled {b : UInt8} {lead : Lead} {bs : Bytes} (hl : lead? b = some lead)
    (hk : (keeping lead.follow lead.low lead.high bs).length = lead.follow) :
    String.utf8EncodeChar
        (Char.ofNat (spelled lead.value (keeping lead.follow lead.low lead.high bs))) =
      b :: keeping lead.follow lead.low lead.high bs := by
  have hb := b.toNat_lt
  unfold lead? at hl
  simp only at hl
  split at hl
  · -- one byte
    cases hl
    simp only [keeping, spelled, List.foldl_nil]
    rw [String.utf8EncodeChar, toNat_val_ofNat (by omega), if_pos (by omega)]
    simp
  split at hl
  · -- a byte that begins nothing
    cases hl
  split at hl
  · -- two bytes
    cases hl
    dsimp only at hk ⊢
    obtain ⟨t, ts, hts, h1, h2, -⟩ := keeping_succ_of_length hk
    simp only [hts, keeping, spelled, List.foldl_cons, List.foldl_nil]
    rw [String.utf8EncodeChar, toNat_val_ofNat (by omega), if_neg (by omega), if_pos (by omega)]
    simp only [List.cons.injEq, and_true, ← UInt8.toNat_inj, UInt8.toNat_ofNat']
    omega
  split at hl
  · -- three bytes: no overlong form, no surrogate
    cases hl
    dsimp only at hk ⊢
    obtain ⟨t, ts, hts, h1, h2, hk'⟩ := keeping_succ_of_length hk
    obtain ⟨u, us, hus, h3, h4, -⟩ := keeping_succ_of_length hk'
    have hlow : 0x80 ≤ t.toNat ∧ (b.toNat = 0xE0 → 0xA0 ≤ t.toNat) := by split at h1 <;> omega
    have hhigh : t.toNat ≤ 0xBF ∧ (b.toNat = 0xED → t.toNat ≤ 0x9F) := by split at h2 <;> omega
    simp only [hts, hus, keeping, spelled, List.foldl_cons, List.foldl_nil]
    rw [String.utf8EncodeChar, toNat_val_ofNat (by omega), if_neg (by omega), if_neg (by omega),
      if_pos (by omega)]
    simp only [List.cons.injEq, and_true, ← UInt8.toNat_inj, UInt8.toNat_ofNat']
    omega
  split at hl
  · -- four bytes: no overlong form, nothing above the last scalar value
    cases hl
    dsimp only at hk ⊢
    obtain ⟨t, ts, hts, h1, h2, hk'⟩ := keeping_succ_of_length hk
    obtain ⟨u, us, hus, h3, h4, hk''⟩ := keeping_succ_of_length hk'
    obtain ⟨w, ws, hws, h5, h6, -⟩ := keeping_succ_of_length hk''
    have hlow : 0x80 ≤ t.toNat ∧ (b.toNat = 0xF0 → 0x90 ≤ t.toNat) := by split at h1 <;> omega
    have hhigh : t.toNat ≤ 0xBF ∧ (b.toNat = 0xF4 → t.toNat ≤ 0x8F) := by split at h2 <;> omega
    simp only [hts, hus, hws, keeping, spelled, List.foldl_cons, List.foldl_nil]
    rw [String.utf8EncodeChar, toNat_val_ofNat (by omega), if_neg (by omega), if_neg (by omega),
      if_neg (by omega)]
    simp only [List.cons.injEq, and_true, ← UInt8.toNat_inj, UInt8.toNat_ofNat']
    omega
  · cases hl

theorem pieces_cons_of_lead? {b : UInt8} {lead : Lead} (hl : lead? b = some lead)
    (tail rest : Bytes) (hk : keeping lead.follow lead.low lead.high (tail ++ rest) = tail)
    (ht : tail.length = lead.follow) :
    pieces (b :: (tail ++ rest)) =
      .scalar (Char.ofNat (spelled lead.value tail)) :: pieces rest := by
  simp [pieces, front, hl, hk, ht]

/-- An encoding at the front **is one piece**, whatever comes after it. -/
theorem pieces_utf8EncodeChar_append (c : Char) (rest : Bytes) :
    pieces (String.utf8EncodeChar c ++ rest) = .scalar c :: pieces rest := by
  have hc : c.val.toNat < 0xD800 ∨ 0xDFFF < c.val.toNat ∧ c.val.toNat < 0x110000 := c.valid
  obtain ⟨v, hv⟩ : ∃ v, c.val.toNat = v := ⟨_, rfl⟩
  have hcv : Char.ofNat v = c := by rw [← hv]; exact Char.ofNat_toNat c
  have follower : ∀ n : Nat, (UInt8.ofNat (n % 64 + 0x80)).toNat = n % 64 + 0x80 := fun n => by
    rw [UInt8.toNat_ofNat']; omega
  rw [String.utf8EncodeChar]
  simp only [hv] at hc ⊢
  split
  · have hb : (UInt8.ofNat v).toNat = v := by rw [UInt8.toNat_ofNat']; omega
    have hl : lead? (UInt8.ofNat v) = some { follow := 0, value := v } := by
      simp only [lead?, hb]
      rw [if_pos (by omega)]
    exact (pieces_cons_of_lead? hl [] rest rfl rfl).trans (by rw [spelled, List.foldl_nil, hcv])
  split
  · have hb : (UInt8.ofNat (v / 64 % 32 + 0xC0)).toNat = v / 64 + 0xC0 := by
      rw [UInt8.toNat_ofNat']; omega
    have hl : lead? (UInt8.ofNat (v / 64 % 32 + 0xC0)) = some { follow := 1, value := v / 64 } := by
      simp only [lead?, hb, Nat.add_sub_cancel]
      rw [if_neg (by omega), if_neg (by omega), if_pos (by omega)]
    refine (pieces_cons_of_lead? hl [_] rest ?_ rfl).trans ?_
    · simp only [keeping, List.cons_append, follower]
      rw [if_pos (by omega)]
    · simp only [spelled, List.foldl_cons, List.foldl_nil, follower]
      rw [show v / 64 * 64 + (v % 64 + 0x80 - 0x80) = v by omega, hcv]
  split
  · have hb : (UInt8.ofNat (v / 4096 % 16 + 0xE0)).toNat = v / 4096 + 0xE0 := by
      rw [UInt8.toNat_ofNat']; omega
    have hl : lead? (UInt8.ofNat (v / 4096 % 16 + 0xE0)) = some {
        follow := 2
        low := if v / 4096 = 0 then 0xA0 else 0x80
        high := if v / 4096 = 0xD then 0x9F else 0xBF
        value := v / 4096 } := by
      simp only [lead?, hb, Nat.add_sub_cancel]
      rw [if_neg (by omega), if_neg (by omega), if_neg (by omega), if_pos (by omega)]
      simp
    refine (pieces_cons_of_lead? hl [_, _] rest ?_ rfl).trans ?_
    · simp only [keeping, List.cons_append, follower]
      rw [if_pos (by split <;> split <;> omega), if_pos (by omega)]
    · simp only [spelled, List.foldl_cons, List.foldl_nil, follower]
      rw [show (v / 4096 * 64 + (v / 64 % 64 + 0x80 - 0x80)) * 64 + (v % 64 + 0x80 - 0x80) = v
        by omega, hcv]
  · have hb : (UInt8.ofNat (v / 262144 % 8 + 0xF0)).toNat = v / 262144 + 0xF0 := by
      rw [UInt8.toNat_ofNat']; omega
    have hl : lead? (UInt8.ofNat (v / 262144 % 8 + 0xF0)) = some {
        follow := 3
        low := if v / 262144 = 0 then 0x90 else 0x80
        high := if v / 262144 = 4 then 0x8F else 0xBF
        value := v / 262144 } := by
      simp only [lead?, hb, Nat.add_sub_cancel]
      rw [if_neg (by omega), if_neg (by omega), if_neg (by omega), if_neg (by omega),
        if_pos (by omega)]
      simp
    refine (pieces_cons_of_lead? hl [_, _, _] rest ?_ rfl).trans ?_
    · simp only [keeping, List.cons_append, follower]
      rw [if_pos (by split <;> split <;> omega), if_pos (by omega), if_pos (by omega)]
    · simp only [spelled, List.foldl_cons, List.foldl_nil, follower]
      rw [show ((v / 262144 * 64 + (v / 4096 % 64 + 0x80 - 0x80)) * 64 +
        (v / 64 % 64 + 0x80 - 0x80)) * 64 + (v % 64 + 0x80 - 0x80) = v by omega, hcv]

/-! ### Putting the pieces back together -/

theorem bytes_front (b : UInt8) (bs : Bytes) :
    (front b bs).1.bytes ++ (front b bs).2 = b :: bs := by
  unfold front
  split
  · rfl
  · rename_i lead hl
    dsimp only
    split
    · rw [Piece.bytes, utf8EncodeChar_spelled hl (by assumption), List.cons_append,
        keeping_append_drop]
    · rw [Piece.bytes, List.cons_append, keeping_append_drop]

/-- Cutting **loses nothing**: the pieces, put back together, are the bytes they
were cut from. -/
theorem flatMap_bytes_pieces (bs : Bytes) : (pieces bs).flatMap Piece.bytes = bs := by
  fun_induction pieces bs with
  | case1 => rfl
  | case2 b bs cut ih => rw [List.flatMap_cons, ih, bytes_front]

theorem pieces_encode (text : String) : pieces (encode text) = text.toList.map .scalar := by
  rw [encode]
  induction text.toList with
  | nil => simp [pieces]
  | cons c cs ih => rw [List.flatMap_cons, pieces_utf8EncodeChar_append, ih, List.map_cons]

/-! ### The strict reading -/

theorem mapM_char?_cons_scalar (c : Char) (ps : List Piece) :
    (Piece.scalar c :: ps).mapM Piece.char? = (ps.mapM Piece.char?).map (c :: ·) := by
  rw [List.mapM_cons]
  cases ps.mapM Piece.char? <;> rfl

theorem mapM_char?_eq_some_iff {ps : List Piece} {cs : List Char} :
    ps.mapM Piece.char? = some cs ↔ ps = cs.map .scalar := by
  induction ps generalizing cs with
  | nil => cases cs <;> simp
  | cons p ps ih =>
    cases p with
    | invalid part => cases cs <;> simp [Piece.char?]
    | scalar c =>
      rw [mapM_char?_cons_scalar, Option.map_eq_some_iff]
      constructor
      · rintro ⟨ds, h, rfl⟩
        rw [ih.mp h, List.map_cons]
      · intro h
        cases cs with
        | nil => simp at h
        | cons d ds =>
          simp only [List.map_cons, List.cons.injEq, Piece.scalar.injEq] at h
          exact ⟨ds, ih.mpr h.2, by rw [h.1]⟩

/-- The strict reading accepts **exactly what encoding produces**. -/
theorem decode?_eq_some_iff {bs : Bytes} {text : String} :
    decode? bs = some text ↔ bs = encode text := by
  rw [decode?, Option.map_eq_some_iff]
  constructor
  · rintro ⟨cs, h, rfl⟩
    rw [mapM_char?_eq_some_iff] at h
    rw [← flatMap_bytes_pieces bs, h, encode, String.toList_ofList, List.flatMap_map]
    rfl
  · rintro rfl
    exact ⟨text.toList, mapM_char?_eq_some_iff.mpr (pieces_encode text), String.ofList_toList⟩

@[simp] theorem decode?_encode (text : String) : decode? (encode text) = some text :=
  decode?_eq_some_iff.mpr rfl

theorem encode_injective {s t : String} (h : encode s = encode t) : s = t := by
  rw [← Option.some_inj, ← decode?_encode s, h, decode?_encode]

end Utf8

end RetiredCommand
