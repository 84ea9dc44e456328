namespace SecretFill.Text

/-!
# UTF-8

Strict decoding: no overlong form, no surrogate, nothing beyond U+10FFFF.

* `decodeOne` — reads one character from some bytes.
* `Utf8Fault` — where bytes stop being UTF-8, and how.
* `decodeUtf8`, `encodeUtf8` — whole texts.
-/

/-- Bytes that are no UTF-8. -/
structure Utf8Fault where
  /-- The bytes before the fault; they are valid. -/
  validUpTo : Nat
  /-- The length of the wrong sequence; absent if the bytes end inside a sequence. -/
  width : Option Nat
deriving DecidableEq, Repr

/-- Whether a byte continues a sequence. -/
def isContinuation (b : UInt8) : Bool := 0x80 ≤ b && b < 0xC0

/-- The six value bits of a continuation byte. -/
def continuationBits (b : UInt8) : Nat := b.toNat % 64

/-- What the first bytes of a text are. -/
inductive Lead where
  /-- A character and the number of its bytes. -/
  | character (c : Char) (width : Nat)
  /-- A wrong sequence of this many bytes. -/
  | wrong (width : Nat)
  /-- A sequence that the end of the text cuts off. -/
  | cut
deriving DecidableEq, Repr

/-- The bounds of the second byte after a first byte of a sequence of three or four bytes: they
    exclude overlong forms, surrogates and values that are too large. -/
def secondBounds (first : UInt8) : UInt8 × UInt8 :=
  if first = 0xE0 then (0xA0, 0xBF)
  else if first = 0xED then (0x80, 0x9F)
  else if first = 0xF0 then (0x90, 0xBF)
  else if first = 0xF4 then (0x80, 0x8F)
  else (0x80, 0xBF)

/-- Whether a byte may follow a first byte. -/
def mayFollow (first second : UInt8) : Bool :=
  let (low, high) := secondBounds first
  low ≤ second && second ≤ high

/-- The first character of a text of at least one byte. -/
def decodeOne (first : UInt8) (rest : List UInt8) : Lead :=
  let a := first.toNat
  if first < 0x80 then .character (Char.ofNat a) 1
  else if first < 0xC2 || 0xF4 < first then .wrong 1
  else
    match rest with
    | [] => .cut
    | b :: rest =>
      if !mayFollow first b then .wrong 1
      else if first < 0xE0 then .character (Char.ofNat (a % 32 * 64 + continuationBits b)) 2
      else
        match rest with
        | [] => .cut
        | c :: rest =>
          if !isContinuation c then .wrong 2
          else if first < 0xF0 then
            .character
              (Char.ofNat (a % 16 * 4096 + continuationBits b * 64 + continuationBits c)) 3
          else
            match rest with
            | [] => .cut
            | d :: _ =>
              if !isContinuation d then .wrong 3
              else
                .character
                  (Char.ofNat (a % 8 * 262144 + continuationBits b * 4096
                    + continuationBits c * 64 + continuationBits d)) 4

/-- Decodes bytes of which `done` were read before; `skip` bytes belong to the character read last. -/
def decodeFrom (done skip : Nat) : List UInt8 → Except Utf8Fault (List Char)
  | [] => .ok []
  | b :: rest =>
    match skip with
    | skip + 1 => decodeFrom (done + 1) skip rest
    | 0 =>
      match decodeOne b rest with
      | .character c width => (decodeFrom (done + 1) (width - 1) rest).map (c :: ·)
      | .wrong width => .error ⟨done, some width⟩
      | .cut => .error ⟨done, none⟩

/-- Decodes a text. -/
def decodeUtf8 (bytes : List UInt8) : Except Utf8Fault (List Char) := decodeFrom 0 0 bytes

/-- The bytes of one character. -/
def encodeOne (c : Char) : List UInt8 :=
  let n := c.toNat
  if n < 0x80 then [n.toUInt8]
  else if n < 0x800 then [(0xC0 + n / 64).toUInt8, (0x80 + n % 64).toUInt8]
  else if n < 0x10000 then
    [(0xE0 + n / 4096).toUInt8, (0x80 + n / 64 % 64).toUInt8, (0x80 + n % 64).toUInt8]
  else
    [(0xF0 + n / 262144).toUInt8, (0x80 + n / 4096 % 64).toUInt8, (0x80 + n / 64 % 64).toUInt8,
      (0x80 + n % 64).toUInt8]

/-- Encodes a text. -/
def encodeUtf8 (cs : List Char) : List UInt8 := cs.flatMap encodeOne

end SecretFill.Text
