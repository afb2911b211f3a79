/-!
# UTF-8

Bytes as text. A byte sequence is cut into pieces: characters, and the shortest runs of bytes that
start no character. Decoding wants characters only; lossy decoding puts the replacement character
for every other piece.
-/

namespace VirtualShell
namespace Text
namespace Utf8

/-- A character, the bytes of a character that the next byte rules out, or the start of a
character at the end of the text. -/
inductive Piece where
  | char (c : Char)
  | broken (length : Nat)
  | cut (length : Nat)
  deriving DecidableEq, Repr

/-- What a first byte announces. -/
inductive Lead where
  | single
  | sequence (length : Nat) (low high : UInt8)
  | invalid

/-- The length of the sequence that a byte opens, with the bounds of the byte after it. The bounds
keep out long forms, surrogates and everything above U+10FFFF. -/
def lead (b : UInt8) : Lead :=
  if b < 0x80 then .single
  else if b < 0xC2 then .invalid
  else if b < 0xE0 then .sequence 2 0x80 0xBF
  else if b = 0xE0 then .sequence 3 0xA0 0xBF
  else if b = 0xED then .sequence 3 0x80 0x9F
  else if b < 0xF0 then .sequence 3 0x80 0xBF
  else if b = 0xF0 then .sequence 4 0x90 0xBF
  else if b < 0xF4 then .sequence 4 0x80 0xBF
  else if b = 0xF4 then .sequence 4 0x80 0x8F
  else .invalid

/-- Bytes that continue a character. -/
def isTail (b : UInt8) : Bool :=
  0x80 ≤ b && b ≤ 0xBF

/-- The six bits that a continuation byte carries. -/
def tailBits (b : UInt8) : Nat :=
  b.toNat % 64

/-- The piece that starts with byte `a` when `rest` follows it. -/
def leadingPiece (a : UInt8) (rest : List UInt8) : Piece :=
  match lead a with
  | .single => .char (Char.ofNat a.toNat)
  | .invalid => .broken 1
  | .sequence length low high =>
    match rest with
    | [] => .cut 1
    | b :: rest =>
      if b < low ∨ high < b then .broken 1
      else if length = 2 then .char (Char.ofNat (a.toNat % 32 * 64 + tailBits b))
      else
        match rest with
        | [] => .cut 2
        | c :: rest =>
          if !isTail c then .broken 2
          else if length = 3 then
            .char (Char.ofNat ((a.toNat % 16 * 64 + tailBits b) * 64 + tailBits c))
          else
            match rest with
            | [] => .cut 3
            | d :: _ =>
              if !isTail d then .broken 3
              else .char (Char.ofNat
                (((a.toNat % 8 * 64 + tailBits b) * 64 + tailBits c) * 64 + tailBits d))

/-- The bytes of a piece. -/
def Piece.size : Piece → Nat
  | .char c => c.utf8Size
  | .broken length => length
  | .cut length => length

/-- The pieces of the bytes after the first `skip` of them. -/
def piecesAfter : Nat → List UInt8 → List Piece
  | _, [] => []
  | 0, a :: rest => leadingPiece a rest :: piecesAfter ((leadingPiece a rest).size - 1) rest
  | skip + 1, _ :: rest => piecesAfter skip rest

/-- The bytes as pieces. A byte that rules a sequence out is looked at again as a first byte. -/
def pieces (bytes : List UInt8) : List Piece :=
  piecesAfter 0 bytes

/-- The character of a piece, with the replacement character for what is none. -/
def Piece.shown : Piece → Char
  | .char c => c
  | .broken _ => '\uFFFD'
  | .cut _ => '\uFFFD'

/-- Where the bytes stop being text: the first byte of the first piece that is no character, and
the number of bytes that are wrong, which is open when the text ends too early. -/
structure Fault where
  index : Nat
  length : Option Nat
  deriving DecidableEq, Repr

/-- The first fault, with `index` bytes before the pieces. -/
def faultAfter (index : Nat) : List Piece → Option Fault
  | [] => none
  | .char c :: rest => faultAfter (index + c.utf8Size) rest
  | .broken length :: _ => some ⟨index, some length⟩
  | .cut _ :: _ => some ⟨index, none⟩

/-- The sentence that tells of a fault. -/
def Fault.message (fault : Fault) : String :=
  match fault.length with
  | some length => s!"invalid utf-8 sequence of {length} bytes from index {fault.index}"
  | none => s!"incomplete utf-8 byte sequence from index {fault.index}"

/-- The bytes of a list of characters. -/
def encodeChars (cs : List Char) : List UInt8 :=
  cs.flatMap String.utf8EncodeChar

/-- The bytes of a text. -/
def encode (s : String) : List UInt8 :=
  encodeChars s.toList

/-- The text that the bytes are, or where they stop being one. -/
def decode (bytes : List UInt8) : Except Fault String :=
  match faultAfter 0 (pieces bytes) with
  | some fault => .error fault
  | none => .ok (String.ofList ((pieces bytes).map Piece.shown))

/-- The text of the bytes with the replacement character for every piece that is no character. -/
def decodeLossy (bytes : List UInt8) : String :=
  String.ofList ((pieces bytes).map Piece.shown)

end Utf8
end Text
end VirtualShell
