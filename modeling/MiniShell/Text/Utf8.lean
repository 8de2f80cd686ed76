namespace MiniShell

/-- A text is a sequence of Unicode scalar values.  Command lines, variable
values and messages are texts. -/
abbrev Text := List Char

/-- What streams carry and files hold. -/
abbrev Bytes := List UInt8

namespace Utf8

/-!
# Texts as bytes

UTF-8 in both directions.  Reading goes through one scanner, `scan`, which
cuts any byte sequence into well-formed characters and maximal broken runs.
The strict reading `decode?` accepts a sequence exactly when no run is broken;
the lenient reading `decodeLossy` puts the replacement character in the place
of each broken run.  Both therefore agree on every well-formed sequence.
-/

def encodeChar (c : Char) : Bytes :=
  let code := c.toNat
  if code < 0x80 then
    [code.toUInt8]
  else if code < 0x800 then
    [(0xC0 + code / 0x40).toUInt8, (0x80 + code % 0x40).toUInt8]
  else if code < 0x10000 then
    [(0xE0 + code / 0x1000).toUInt8, (0x80 + code / 0x40 % 0x40).toUInt8,
      (0x80 + code % 0x40).toUInt8]
  else
    [(0xF0 + code / 0x40000).toUInt8, (0x80 + code / 0x1000 % 0x40).toUInt8,
      (0x80 + code / 0x40 % 0x40).toUInt8, (0x80 + code % 0x40).toUInt8]

def encode (text : Text) : Bytes :=
  text.flatMap encodeChar

@[simp] theorem encode_nil : encode [] = [] := rfl

@[simp] theorem encode_cons (c : Char) (text : Text) :
    encode (c :: text) = encodeChar c ++ encode text := rfl

@[simp] theorem encode_append (first second : Text) :
    encode (first ++ second) = encode first ++ encode second := by
  simp [encode]

theorem length_encodeChar_pos (c : Char) : 0 < (encodeChar c).length := by
  unfold encodeChar
  dsimp only
  split
  · exact Nat.succ_pos _
  · split
    · exact Nat.succ_pos _
    · split
      · exact Nat.succ_pos _
      · exact Nat.succ_pos _

/-- A text cut in two where its first part takes exactly so many bytes, or `none`
if there is no such place. -/
def cut? : Text -> Nat -> Option (Text × Text)
  | [], count => if count = 0 then some ([], []) else none
  | c :: text, count =>
      if count = 0 then some ([], c :: text)
      else if (encodeChar c).length ≤ count then
        (cut? text (count - (encodeChar c).length)).map fun parts =>
          (c :: parts.1, parts.2)
      else none

/-- Every place between two characters can be cut. -/
theorem cut?_append (first second : Text) :
    cut? (first ++ second) (encode first).length = some (first, second) := by
  induction first with
  | nil => cases second <;> simp [cut?]
  | cons c first ih =>
      have positive := length_encodeChar_pos c
      have nonzero : (encodeChar c).length + (encode first).length ≠ 0 := by omega
      rw [List.cons_append, encode_cons, List.length_append, cut?, if_neg nonzero,
        if_pos (Nat.le_add_right _ _), Nat.add_sub_cancel_left, ih]
      rfl

/-- Read the bytes that must follow a leading byte.  Each range says which
values the next byte may take, and `code` is the number read so far.  The
result is the character, or `none` if a byte is missing or out of its range,
together with what was not consumed.  A byte out of its range stays unread. -/
def follow (code : Nat) : List (Nat × Nat) -> Bytes -> Option Char × Bytes
  | [], rest => (some (Char.ofNat code), rest)
  | _ :: _, [] => (none, [])
  | (low, high) :: ranges, byte :: rest =>
      if low ≤ byte.toNat ∧ byte.toNat ≤ high then
        follow (code * 0x40 + byte.toNat % 0x40) ranges rest
      else (none, byte :: rest)

/-- The value that a leading byte contributes, and the ranges of the bytes
that it asks for.  The narrow second ranges keep out overlong forms,
surrogates and values beyond the last plane. -/
def lead? (byte : Nat) : Option (Nat × List (Nat × Nat)) :=
  if byte < 0x80 then some (byte, [])
  else if byte < 0xC2 then none
  else if byte < 0xE0 then some (byte - 0xC0, [(0x80, 0xBF)])
  else if byte = 0xE0 then some (0, [(0xA0, 0xBF), (0x80, 0xBF)])
  else if byte = 0xED then some (0xD, [(0x80, 0x9F), (0x80, 0xBF)])
  else if byte < 0xF0 then some (byte - 0xE0, [(0x80, 0xBF), (0x80, 0xBF)])
  else if byte = 0xF0 then some (0, [(0x90, 0xBF), (0x80, 0xBF), (0x80, 0xBF)])
  else if byte < 0xF4 then
    some (byte - 0xF0, [(0x80, 0xBF), (0x80, 0xBF), (0x80, 0xBF)])
  else if byte = 0xF4 then some (4, [(0x80, 0x8F), (0x80, 0xBF), (0x80, 0xBF)])
  else none

/-- Read one character, or one maximal broken run, of a nonempty sequence. -/
def next (byte : UInt8) (rest : Bytes) : Option Char × Bytes :=
  match lead? byte.toNat with
  | none => (none, rest)
  | some (code, ranges) => follow code ranges rest

theorem length_follow_snd_le (code : Nat) (ranges : List (Nat × Nat))
    (bytes : Bytes) : (follow code ranges bytes).2.length ≤ bytes.length := by
  induction ranges generalizing code bytes with
  | nil => simp [follow]
  | cons range ranges ih =>
      cases bytes with
      | nil => simp [follow]
      | cons byte rest =>
          simp only [follow]
          split
          · have shorter := ih (code * 0x40 + byte.toNat % 0x40) rest
            simp only [List.length_cons]
            omega
          · exact Nat.le_refl _

theorem length_next_snd_le (byte : UInt8) (rest : Bytes) :
    (next byte rest).2.length ≤ rest.length := by
  unfold next
  split
  · exact Nat.le_refl _
  · exact length_follow_snd_le _ _ _

/-- The characters of a byte sequence in order, with `none` for each maximal
broken run. -/
def scan : Bytes -> List (Option Char)
  | [] => []
  | byte :: rest =>
      (next byte rest).1 :: scan (next byte rest).2
termination_by bytes => bytes.length
decreasing_by
  have shorter := length_next_snd_le byte rest
  simp only [List.length_cons]
  omega

/-- The text that the bytes spell, if they are well formed. -/
def decode? (bytes : Bytes) : Option Text :=
  (scan bytes).mapM id

/-- The text that the bytes spell, with U+FFFD for every maximal broken run. -/
def decodeLossy (bytes : Bytes) : Text :=
  (scan bytes).map fun read => read.getD '\uFFFD'

end Utf8
end MiniShell
