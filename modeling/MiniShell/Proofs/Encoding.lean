import MiniShell.Text.Utf8

namespace MiniShell
namespace Utf8

/-!
# Reading an encoded text back

The scanner takes the bytes of a character off the front of any sequence and
goes on behind them, whatever follows.  Hence it finds no broken run in an
encoded text, and both readings give the text back.  For the lenient reading
this holds of every text, also of one that already contains the replacement
character.

The narrow second ranges of `lead?` are what has to be matched with the
characters: an overlong form would need a code below the limit of its length,
and a surrogate is no character.
-/

/-! ## Leading bytes -/

theorem lead?_one : forall code, code < 0x80 -> lead? code = some (code, []) := by
  decide

theorem lead?_two {code : Nat} (least : 2 ≤ code) (most : code < 0x20) :
    lead? (0xC0 + code) = some (code, [(0x80, 0xBF)]) := by
  rw [lead?, if_neg (by omega), if_neg (by omega), if_pos (by omega),
    Nat.add_sub_cancel_left]

theorem lead?_three : forall code, code < 0x10 ->
    lead? (0xE0 + code) =
      some (code, [(if code = 0 then 0xA0 else 0x80, if code = 0xD then 0x9F else 0xBF),
        (0x80, 0xBF)]) := by
  decide

theorem lead?_four : forall code, code < 5 ->
    lead? (0xF0 + code) =
      some (code, [(if code = 0 then 0x90 else 0x80, if code = 4 then 0x8F else 0xBF),
        (0x80, 0xBF), (0x80, 0xBF)]) := by
  decide

/-! ## One character -/

theorem toNat_toUInt8 {value : Nat} (small : value < 0x100) : value.toUInt8.toNat = value :=
  UInt8.toNat_ofNat_of_lt small

/-- A following byte within its range is consumed. -/
theorem follow_toUInt8 (code : Nat) {low high value : Nat} (ranges : List (Nat × Nat))
    (rest : Bytes) (small : value < 0x100) (lower : low ≤ value) (upper : value ≤ high) :
    follow code ((low, high) :: ranges) (value.toUInt8 :: rest) =
      follow (code * 0x40 + value % 0x40) ranges rest := by
  rw [follow, toNat_toUInt8 small, if_pos ⟨lower, upper⟩]

theorem scan_cons (byte : UInt8) (rest : Bytes) :
    scan (byte :: rest) = (next byte rest).1 :: scan (next byte rest).2 := by
  rw [scan]

/-- The first character of a sequence, once its leading byte is known. -/
theorem scan_toUInt8_cons {lead code : Nat} {ranges : List (Nat × Nat)} (rest : Bytes)
    (small : lead < 0x100) (leads : lead? lead = some (code, ranges)) :
    scan (lead.toUInt8 :: rest) =
      (follow code ranges rest).1 :: scan (follow code ranges rest).2 := by
  rw [scan_cons, next, toNat_toUInt8 small, leads]

theorem scan_one {code : Nat} (most : code < 0x80) (rest : Bytes) :
    scan (code.toUInt8 :: rest) = some (Char.ofNat code) :: scan rest := by
  rw [scan_toUInt8_cons rest (by omega) (lead?_one code most), follow]

theorem scan_two {code : Nat} (least : 0x80 ≤ code) (most : code < 0x800) (rest : Bytes) :
    scan ((0xC0 + code / 0x40).toUInt8 :: (0x80 + code % 0x40).toUInt8 :: rest) =
      some (Char.ofNat code) :: scan rest := by
  have leads := @lead?_two (code / 0x40) (by omega) (by omega)
  have whole : code / 0x40 * 0x40 + (0x80 + code % 0x40) % 0x40 = code := by omega
  rw [scan_toUInt8_cons _ (by omega) leads,
    follow_toUInt8 _ _ _ (by omega) (by omega) (by omega), whole, follow]

theorem scan_three {code : Nat} (least : 0x800 ≤ code) (most : code < 0x10000)
    (noSurrogate : code < 0xD800 ∨ 0xDFFF < code) (rest : Bytes) :
    scan ((0xE0 + code / 0x1000).toUInt8 :: (0x80 + code / 0x40 % 0x40).toUInt8 ::
        (0x80 + code % 0x40).toUInt8 :: rest) =
      some (Char.ofNat code) :: scan rest := by
  have leads := lead?_three (code / 0x1000) (by omega)
  have whole : (code / 0x1000 * 0x40 + (0x80 + code / 0x40 % 0x40) % 0x40) * 0x40
      + (0x80 + code % 0x40) % 0x40 = code := by omega
  have notOverlong : (if code / 0x1000 = 0 then 0xA0 else 0x80) ≤
      0x80 + code / 0x40 % 0x40 := by split <;> omega
  have belowSurrogates : 0x80 + code / 0x40 % 0x40 ≤
      if code / 0x1000 = 0xD then 0x9F else 0xBF := by split <;> omega
  rw [scan_toUInt8_cons _ (by omega) leads,
    follow_toUInt8 _ _ _ (by omega) notOverlong belowSurrogates,
    follow_toUInt8 _ _ _ (by omega) (by omega) (by omega), whole, follow]

theorem scan_four {code : Nat} (least : 0x10000 ≤ code) (most : code < 0x110000)
    (rest : Bytes) :
    scan ((0xF0 + code / 0x40000).toUInt8 :: (0x80 + code / 0x1000 % 0x40).toUInt8 ::
        (0x80 + code / 0x40 % 0x40).toUInt8 :: (0x80 + code % 0x40).toUInt8 :: rest) =
      some (Char.ofNat code) :: scan rest := by
  have leads := lead?_four (code / 0x40000) (by omega)
  have whole : ((code / 0x40000 * 0x40 + (0x80 + code / 0x1000 % 0x40) % 0x40) * 0x40
      + (0x80 + code / 0x40 % 0x40) % 0x40) * 0x40 + (0x80 + code % 0x40) % 0x40 = code := by
    omega
  have notOverlong : (if code / 0x40000 = 0 then 0x90 else 0x80) ≤
      0x80 + code / 0x1000 % 0x40 := by split <;> omega
  have belowLimit : 0x80 + code / 0x1000 % 0x40 ≤
      if code / 0x40000 = 4 then 0x8F else 0xBF := by split <;> omega
  rw [scan_toUInt8_cons _ (by omega) leads,
    follow_toUInt8 _ _ _ (by omega) notOverlong belowLimit,
    follow_toUInt8 _ _ _ (by omega) (by omega) (by omega),
    follow_toUInt8 _ _ _ (by omega) (by omega) (by omega), whole, follow]

/-- The bytes of a character are read as that character, whatever follows. -/
theorem scan_encodeChar_append (c : Char) (rest : Bytes) :
    scan (encodeChar c ++ rest) = some c :: scan rest := by
  have valid : c.toNat < 0xD800 ∨ 0xDFFF < c.toNat ∧ c.toNat < 0x110000 := c.valid
  have same : Char.ofNat c.toNat = c := Char.ofNat_toNat c
  rw [← congrArg some same]
  unfold encodeChar
  dsimp only
  split
  · next most => exact scan_one most rest
  · next least =>
      split
      · next most => exact scan_two (Nat.le_of_not_lt least) most rest
      · next least =>
          split
          · next most =>
              have noSurrogate : c.toNat < 0xD800 ∨ 0xDFFF < c.toNat := by omega
              exact scan_three (Nat.le_of_not_lt least) most noSurrogate rest
          · next least =>
              have most : c.toNat < 0x110000 := by omega
              exact scan_four (Nat.le_of_not_lt least) most rest

/-! ## Characters of one byte -/

/-- The bytes of a longer character all lie in the upper half. -/
theorem le_toNat_of_mem_encodeChar {c : Char} (long : 0x80 ≤ c.toNat) :
    forall byte, byte ∈ encodeChar c -> 0x80 ≤ byte.toNat := by
  have bound : c.toNat < 0x110000 := by
    have valid : c.toNat < 0xD800 ∨ 0xDFFF < c.toNat ∧ c.toNat < 0x110000 := c.valid
    omega
  have high : forall value, 0x80 ≤ value -> value < 0x100 -> 0x80 ≤ value.toUInt8.toNat := by
    intro value least most
    rw [toNat_toUInt8 most]
    exact least
  unfold encodeChar
  dsimp only
  rw [if_neg (Nat.not_lt_of_ge long)]
  split
  · exact List.forall_mem_cons.mpr ⟨high _ (by omega) (by omega),
      List.forall_mem_singleton.mpr (high _ (by omega) (by omega))⟩
  · split
    · exact List.forall_mem_cons.mpr ⟨high _ (by omega) (by omega),
        List.forall_mem_cons.mpr ⟨high _ (by omega) (by omega),
          List.forall_mem_singleton.mpr (high _ (by omega) (by omega))⟩⟩
    · exact List.forall_mem_cons.mpr ⟨high _ (by omega) (by omega),
        List.forall_mem_cons.mpr ⟨high _ (by omega) (by omega),
          List.forall_mem_cons.mpr ⟨high _ (by omega) (by omega),
            List.forall_mem_singleton.mpr (high _ (by omega) (by omega))⟩⟩⟩

/-- A byte of the lower half is always a character of its own. -/
theorem toNat_of_mem_encodeChar {c : Char} {byte : UInt8} (low : byte.toNat < 0x80)
    (member : byte ∈ encodeChar c) : c.toNat = byte.toNat := by
  rcases Nat.lt_or_ge c.toNat 0x80 with short | long
  · rw [encodeChar, if_pos short] at member
    rw [List.mem_singleton.mp member, toNat_toUInt8 (by omega)]
  · exact absurd (le_toNat_of_mem_encodeChar long byte member) (Nat.not_le_of_lt low)

/-! ## Whole texts -/

theorem encode_ne_nil {text : Text} (nonempty : text ≠ []) : encode text ≠ [] := by
  cases text with
  | nil => exact absurd rfl nonempty
  | cons c text =>
      intro empty
      have positive := length_encodeChar_pos c
      rw [encode_cons, List.append_eq_nil_iff] at empty
      rw [empty.1] at positive
      exact Nat.lt_irrefl 0 positive

theorem scan_encode_append (text : Text) (rest : Bytes) :
    scan (encode text ++ rest) = text.map some ++ scan rest := by
  induction text with
  | nil => rfl
  | cons c text ih =>
      rw [encode_cons, List.append_assoc, scan_encodeChar_append, ih]
      rfl

theorem scan_encode (text : Text) : scan (encode text) = text.map some := by
  have read := scan_encode_append text []
  have ended : scan [] = [] := by rw [scan]
  rw [List.append_nil, ended, List.append_nil] at read
  exact read

/-- The strict reading gives an encoded text back. -/
@[simp] theorem decode?_encode (text : Text) : decode? (encode text) = some text := by
  have read : text.mapM (fun c => (pure (id c) : Option Char)) = some (text.map id) :=
    List.mapM_pure
  rw [decode?, scan_encode, List.mapM_map]
  exact read.trans (congrArg some (List.map_id text))

/-- Different texts have different bytes. -/
theorem encode_inj {text other : Text} : encode text = encode other ↔ text = other := by
  constructor
  · intro same
    have read := decode?_encode text
    rw [same, decode?_encode] at read
    exact (Option.some.inj read).symm
  · exact congrArg encode

/-- The lenient reading gives an encoded text back. -/
@[simp] theorem decodeLossy_encode (text : Text) : decodeLossy (encode text) = text := by
  rw [decodeLossy, scan_encode, List.map_map]
  exact List.map_id text

end Utf8
end MiniShell
