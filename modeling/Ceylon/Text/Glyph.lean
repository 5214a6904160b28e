/-!
# Source text as glyphs

Source files arrive as bytes that need not be well-formed UTF-8.  `decode` reads them into a list of
glyphs: a glyph is a character with a well-formed encoding, or a single stray byte at which no such
encoding starts.  Overlong forms, surrogates, code points past the last plane and cut-off sequences
all count as stray, one byte at a time, so the widths of the glyphs always add up to the number of
bytes.
-/

namespace Ceylon.Text

/-- One unit of source text. -/
inductive Glyph where
  /-- A character in its well-formed encoding. -/
  | char (c : Char)
  /-- A byte at which no well-formed encoding starts. -/
  | stray (b : UInt8)
deriving DecidableEq, Repr, Inhabited

namespace Glyph

/-- The number of bytes the glyph takes in the source. -/
def width : Glyph → Nat
  | .char c => c.utf8Size
  | .stray _ => 1

/-- Whether the byte continues a multi-byte encoding. -/
def isTail (b : UInt8) : Bool :=
  0x80 ≤ b && b ≤ 0xbf

/-- The payload of a continuation byte. -/
def tailBits (b : UInt8) : Nat :=
  b.toNat - 0x80

/-- The character whose encoding starts at byte `a` and goes on in `rest`, with the number of
continuation bytes it takes.  The bounds on the second byte rule out overlong forms and surrogates. -/
def leading (a : UInt8) (rest : List UInt8) : Option (Char × Nat) :=
  if a < 0x80 then some (Char.ofNat a.toNat, 0)
  else match rest with
  | [] => none
  | b :: rest =>
    if 0xc2 ≤ a && a ≤ 0xdf && isTail b then
      some (Char.ofNat ((a.toNat - 0xc0) * 64 + tailBits b), 1)
    else match rest with
    | [] => none
    | c :: rest =>
      let second := isTail b && (a != 0xe0 || 0xa0 ≤ b) && (a != 0xed || b ≤ 0x9f)
      if 0xe0 ≤ a && a ≤ 0xef && second && isTail c then
        some (Char.ofNat ((a.toNat - 0xe0) * 4096 + tailBits b * 64 + tailBits c), 2)
      else match rest with
      | [] => none
      | d :: _ =>
        let second := isTail b && (a != 0xf0 || 0x90 ≤ b) && (a != 0xf4 || b ≤ 0x8f)
        if 0xf0 ≤ a && a ≤ 0xf4 && second && isTail c && isTail d then
          some (Char.ofNat ((a.toNat - 0xf0) * 262144 + tailBits b * 4096 + tailBits c * 64
            + tailBits d), 3)
        else none

/-- Reads the bytes after the first `skip` of them, which belong to a character already read. -/
def decodeAfter : (skip : Nat) → List UInt8 → List Glyph
  | _, [] => []
  | skip + 1, _ :: rest => decodeAfter skip rest
  | 0, b :: rest =>
    match leading b rest with
    | some (c, tails) => .char c :: decodeAfter tails rest
    | none => .stray b :: decodeAfter 0 rest

/-- The glyphs of a byte string. -/
def decode (bytes : List UInt8) : List Glyph :=
  decodeAfter 0 bytes

/-- The glyphs of a text, all of them characters. -/
def ofString (s : String) : List Glyph :=
  s.toList.map .char

/-- The leading characters that satisfy `p`; a stray byte ends them. -/
def takeChars (p : Char → Bool) : List Glyph → List Char
  | .char c :: rest => if p c then c :: takeChars p rest else []
  | _ => []

end Glyph

end Ceylon.Text
