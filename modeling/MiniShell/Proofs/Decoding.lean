import MiniShell.Proofs.Encoding

namespace MiniShell
namespace Utf8

/-!
# What can be decoded is encoded

A character that the scanner finds is spelled by exactly the bytes that it has
taken.  The ranges of `lead?` let only the shortest form through, and no
surrogate.  Hence a sequence without a broken run is the encoding of what is
read from it, and the strict reading accepts nothing else.
-/

/-! ## The bytes of one character -/

/-- The leading bytes with the values that they contribute, by the number of bytes that
follow. -/
theorem lead?_cases {byte code : Nat} {ranges : List (Nat × Nat)}
    (leads : lead? byte = some (code, ranges)) :
    (byte < 0x80 ∧ code = byte ∧ ranges = []) ∨
    (byte = 0xC0 + code ∧ 2 ≤ code ∧ code < 0x20 ∧ ranges = [(0x80, 0xBF)]) ∨
    (byte = 0xE0 + code ∧ code < 0x10 ∧
      ranges = [(if code = 0 then 0xA0 else 0x80, if code = 0xD then 0x9F else 0xBF),
        (0x80, 0xBF)]) ∨
    (byte = 0xF0 + code ∧ code < 5 ∧
      ranges = [(if code = 0 then 0x90 else 0x80, if code = 4 then 0x8F else 0xBF),
        (0x80, 0xBF), (0x80, 0xBF)]) := by
  rcases Nat.lt_or_ge byte 0x80 with one | above
  · rw [lead?_one byte one, Option.some.injEq, Prod.mk.injEq] at leads
    exact .inl ⟨one, leads.1.symm, leads.2.symm⟩
  rcases Nat.lt_or_ge byte 0xC2 with low | above
  · rw [lead?, if_neg (by omega), if_pos low] at leads
    cases leads
  rcases Nat.lt_or_ge byte 0xE0 with two | above
  · obtain ⟨value, rfl⟩ := Nat.exists_eq_add_of_le (show 0xC0 ≤ byte by omega)
    rw [lead?_two (by omega) (by omega), Option.some.injEq, Prod.mk.injEq] at leads
    rcases leads with ⟨rfl, rfl⟩
    exact .inr (.inl ⟨rfl, by omega, by omega, rfl⟩)
  rcases Nat.lt_or_ge byte 0xF0 with three | above
  · obtain ⟨value, rfl⟩ := Nat.exists_eq_add_of_le above
    rw [lead?_three _ (by omega), Option.some.injEq, Prod.mk.injEq] at leads
    rcases leads with ⟨rfl, rfl⟩
    exact .inr (.inr (.inl ⟨rfl, by omega, rfl⟩))
  rcases Nat.lt_or_ge byte 0xF5 with four | above
  · obtain ⟨value, rfl⟩ := Nat.exists_eq_add_of_le above
    rw [lead?_four _ (by omega), Option.some.injEq, Prod.mk.injEq] at leads
    rcases leads with ⟨rfl, rfl⟩
    exact .inr (.inr (.inr ⟨rfl, by omega, rfl⟩))
  · have none : lead? byte = none := by
      unfold lead?
      repeat rw [if_neg (by omega)]
    rw [none] at leads
    cases leads

/-- What has been followed to its end began with a byte in the first range. -/
theorem exists_of_follow_eq_some {code low high : Nat} {ranges : List (Nat × Nat)}
    {bytes rest : Bytes} {c : Char}
    (read : follow code ((low, high) :: ranges) bytes = (some c, rest)) :
    exists byte later, bytes = byte :: later ∧ low ≤ byte.toNat ∧ byte.toNat ≤ high ∧
      follow (code * 0x40 + byte.toNat % 0x40) ranges later = (some c, rest) := by
  cases bytes with
  | nil => cases read
  | cons byte later =>
      rw [follow] at read
      split at read
      · next within => exact ⟨byte, later, rfl, within.1, within.2, read⟩
      · cases read

/-- What a range says that is narrower than usual, at one end each for two of the leading
bytes. -/
theorem bounds_of_narrowed {code first last least most byte : Nat} (above : 0x80 ≤ least)
    (below : most ≤ 0xBF) (lower : (if code = first then least else 0x80) ≤ byte)
    (upper : byte ≤ if code = last then most else 0xBF) :
    (0x80 ≤ byte ∧ byte ≤ 0xBF) ∧ (code = first -> least ≤ byte) ∧
      (code = last -> byte ≤ most) := by
  refine ⟨⟨?_, ?_⟩, ?_, ?_⟩
  · split at lower <;> omega
  · split at upper <;> omega
  · intro same
    rwa [if_pos same] at lower
  · intro same
    rwa [if_pos same] at upper

theorem toUInt8_of_eq_toNat {value : Nat} {byte : UInt8} (same : value = byte.toNat) :
    value.toUInt8 = byte := by
  rw [same]
  exact UInt8.ofNat_toNat

theorem toNat_ofNat {code : Nat} (valid : code.isValidChar) : (Char.ofNat code).toNat = code := by
  rw [Char.ofNat, dif_pos valid]
  rfl

variable {code : Nat} {c : Char} {first : UInt8} {bytes rest : Bytes}

theorem eq_append_of_follow_one (most : code < 0x80) (leads : first.toNat = code)
    (read : follow code [] bytes = (some c, rest)) :
    first :: bytes = encodeChar c ++ rest := by
  injection read with char last
  have valid : code.isValidChar := .inl (by omega)
  rw [← Option.some.inj char, last, encodeChar, toNat_ofNat valid, if_pos most,
    toUInt8_of_eq_toNat leads.symm]
  rfl

theorem eq_append_of_follow_two (least : 2 ≤ code) (most : code < 0x20)
    (leads : first.toNat = 0xC0 + code)
    (read : follow code [(0x80, 0xBF)] bytes = (some c, rest)) :
    first :: bytes = encodeChar c ++ rest := by
  rcases exists_of_follow_eq_some read with ⟨second, later, same, lower, upper, read⟩
  injection read with char last
  have valid : (code * 0x40 + second.toNat % 0x40).isValidChar := .inl (by omega)
  rw [← Option.some.inj char, same, last, encodeChar, toNat_ofNat valid, if_neg (by omega),
    if_pos (by omega), @toUInt8_of_eq_toNat _ first (by omega),
    @toUInt8_of_eq_toNat _ second (by omega)]
  rfl

theorem eq_append_of_follow_three (most : code < 0x10) (leads : first.toNat = 0xE0 + code)
    (read : follow code [(if code = 0 then 0xA0 else 0x80, if code = 0xD then 0x9F else 0xBF),
      (0x80, 0xBF)] bytes = (some c, rest)) :
    first :: bytes = encodeChar c ++ rest := by
  rcases exists_of_follow_eq_some read with ⟨second, middle, same, lower, upper, read⟩
  rcases exists_of_follow_eq_some read with ⟨third, later, same', lower', upper', read⟩
  injection read with char last
  rcases bounds_of_narrowed (by decide) (by decide) lower upper with
    ⟨follows, notOverlong, belowSurrogates⟩
  have valid : ((code * 0x40 + second.toNat % 0x40) * 0x40 + third.toNat % 0x40).isValidChar := by
    unfold Nat.isValidChar
    omega
  rw [← Option.some.inj char, same, same', last, encodeChar, toNat_ofNat valid,
    if_neg (by omega), if_neg (by omega), if_pos (by omega),
    @toUInt8_of_eq_toNat _ first (by omega), @toUInt8_of_eq_toNat _ second (by omega),
    @toUInt8_of_eq_toNat _ third (by omega)]
  rfl

theorem eq_append_of_follow_four (most : code < 5) (leads : first.toNat = 0xF0 + code)
    (read : follow code [(if code = 0 then 0x90 else 0x80, if code = 4 then 0x8F else 0xBF),
      (0x80, 0xBF), (0x80, 0xBF)] bytes = (some c, rest)) :
    first :: bytes = encodeChar c ++ rest := by
  rcases exists_of_follow_eq_some read with ⟨second, middle, same, lower, upper, read⟩
  rcases exists_of_follow_eq_some read with ⟨third, middle', same', lower', upper', read⟩
  rcases exists_of_follow_eq_some read with ⟨fourth, later, same'', lower'', upper'', read⟩
  injection read with char last
  rcases bounds_of_narrowed (by decide) (by decide) lower upper with
    ⟨follows, notOverlong, belowLimit⟩
  have valid : (((code * 0x40 + second.toNat % 0x40) * 0x40 + third.toNat % 0x40) * 0x40
      + fourth.toNat % 0x40).isValidChar := by
    unfold Nat.isValidChar
    omega
  rw [← Option.some.inj char, same, same', same'', last, encodeChar, toNat_ofNat valid,
    if_neg (by omega), if_neg (by omega), if_neg (by omega),
    @toUInt8_of_eq_toNat _ first (by omega), @toUInt8_of_eq_toNat _ second (by omega),
    @toUInt8_of_eq_toNat _ third (by omega), @toUInt8_of_eq_toNat _ fourth (by omega)]
  rfl

/-- The bytes that the scanner takes for a character are the ones that encode it. -/
theorem eq_append_of_next (read : next first bytes = (some c, rest)) :
    first :: bytes = encodeChar c ++ rest := by
  rw [next] at read
  cases leads : lead? first.toNat with
  | none =>
      rw [leads] at read
      cases read
  | some start =>
      rcases start with ⟨code, ranges⟩
      rw [leads] at read
      rcases lead?_cases leads with ⟨most, whole, same⟩ | ⟨whole, least, most, same⟩ |
        ⟨whole, most, same⟩ | ⟨whole, most, same⟩
      · exact eq_append_of_follow_one (whole ▸ most) whole.symm (same ▸ read)
      · exact eq_append_of_follow_two least most whole (same ▸ read)
      · exact eq_append_of_follow_three most whole (same ▸ read)
      · exact eq_append_of_follow_four most whole (same ▸ read)

/-! ## Whole sequences -/

/-- A scan that finds no broken run has taken the encoding of its characters. -/
theorem encode_of_scan {bytes : Bytes} {text : Text} (read : scan bytes = text.map some) :
    encode text = bytes := by
  induction text generalizing bytes with
  | nil =>
      cases bytes with
      | nil => rfl
      | cons byte rest =>
          rw [scan_cons] at read
          cases read
  | cons c text ih =>
      cases bytes with
      | nil =>
          rw [scan] at read
          cases read
      | cons byte rest =>
          rw [scan_cons, List.map_cons, List.cons.injEq] at read
          have taken : next byte rest = (some c, (next byte rest).2) := Prod.ext read.1 rfl
          rw [encode_cons, ih read.2, ← eq_append_of_next taken]

theorem eq_map_some_of_mapM {found : List (Option Char)} {text : Text}
    (all : found.mapM id = some text) : found = text.map some := by
  induction found generalizing text with
  | nil =>
      cases all
      rfl
  | cons read found ih =>
      cases read with
      | none => cases all
      | some c =>
          rw [List.mapM_cons] at all
          rcases Option.bind_eq_some_iff.mp all with ⟨first, same, all⟩
          rcases Option.bind_eq_some_iff.mp all with ⟨later, others, whole⟩
          cases same
          cases whole
          rw [ih others, List.map_cons]

/-- The strict reading is the inverse of encoding. -/
theorem decode?_eq_some_iff {bytes : Bytes} {text : Text} :
    decode? bytes = some text ↔ encode text = bytes := by
  constructor
  · intro read
    exact encode_of_scan (eq_map_some_of_mapM read)
  · intro encoded
    rw [← encoded, decode?_encode]

end Utf8
end MiniShell
