import JitLens.Text.Digit
/-!
# UTF-8

Texts as bytes and back.  A sequence of bytes that is no text is refused with the place and the
reason, or read with the replacement character for each longest piece that could still have
started a character.
-/

namespace JitLens.Text

/-- The contents of a file or of a stream. -/
abbrev Bytes := List UInt8

/-- The bytes of one character. -/
def encodeChar (c : Char) : Bytes :=
  let n := c.toNat
  if n < 0x80 then [UInt8.ofNat n]
  else if n < 0x800 then [UInt8.ofNat (0xc0 + n / 64), UInt8.ofNat (0x80 + n % 64)]
  else if n < 0x10000 then
    [UInt8.ofNat (0xe0 + n / 4096), UInt8.ofNat (0x80 + n / 64 % 64), UInt8.ofNat (0x80 + n % 64)]
  else
    [UInt8.ofNat (0xf0 + n / 262144), UInt8.ofNat (0x80 + n / 4096 % 64),
      UInt8.ofNat (0x80 + n / 64 % 64), UInt8.ofNat (0x80 + n % 64)]

/-- The bytes of a text. -/
def encode (cs : List Char) : Bytes :=
  cs.flatMap encodeChar

/-- Why bytes are no text. -/
inductive DecodeFault where
  | startByte
  | continuationByte
  | endOfData
  deriving DecidableEq, Repr

/-- The reason in words. -/
def DecodeFault.reason : DecodeFault → String
  | .startByte => "invalid start byte"
  | .continuationByte => "invalid continuation byte"
  | .endOfData => "unexpected end of data"

/-- What bytes start with: a character and the count of its bytes, or a count of bytes that
start no character. -/
inductive Decoded where
  | char (c : Char) (size : Nat)
  | fault (reason : DecodeFault) (size : Nat)

/-- Whether a byte continues a character. -/
def isContinuation (b : UInt8) : Bool :=
  0x80 ≤ b.toNat && b.toNat < 0xc0

/-- Range of the second byte behind a first byte of a character of three or four bytes. -/
def secondRange (first : Nat) : Nat × Nat :=
  if first = 0xe0 then (0xa0, 0xbf)
  else if first = 0xed then (0x80, 0x9f)
  else if first = 0xf0 then (0x90, 0xbf)
  else if first = 0xf4 then (0x80, 0x8f)
  else (0x80, 0xbf)

/-- Whether a second byte may follow a first byte. -/
def secondFits (first second : UInt8) : Bool :=
  let (low, high) := secondRange first.toNat
  low ≤ second.toNat && second.toNat ≤ high

/-- Reads one character behind its first byte. -/
def decodeNext (b : UInt8) (rest : Bytes) : Decoded :=
  let n := b.toNat
  if n < 0x80 then .char (Char.ofNat n) 1
  else if n < 0xc2 then .fault .startByte 1
  else if n < 0xe0 then
    match rest with
    | [] => .fault .endOfData 1
    | c :: _ =>
      if isContinuation c then .char (Char.ofNat ((n - 0xc0) * 64 + (c.toNat - 0x80))) 2
      else .fault .continuationByte 1
  else if n < 0xf0 then
    match rest with
    | [] => .fault .endOfData 1
    | [c] => if secondFits b c then .fault .endOfData 2 else .fault .continuationByte 1
    | c :: d :: _ =>
      if !secondFits b c then .fault .continuationByte 1
      else if !isContinuation d then .fault .continuationByte 2
      else .char (Char.ofNat ((n - 0xe0) * 4096 + (c.toNat - 0x80) * 64 + (d.toNat - 0x80))) 3
  else if n < 0xf5 then
    match rest with
    | [] => .fault .endOfData 1
    | [c] => if secondFits b c then .fault .endOfData 2 else .fault .continuationByte 1
    | [c, d] =>
      if !secondFits b c then .fault .continuationByte 1
      else if !isContinuation d then .fault .continuationByte 2
      else .fault .endOfData 3
    | c :: d :: e :: _ =>
      if !secondFits b c then .fault .continuationByte 1
      else if !isContinuation d then .fault .continuationByte 2
      else if !isContinuation e then .fault .continuationByte 3
      else .char (Char.ofNat ((n - 0xf0) * 262144 + (c.toNat - 0x80) * 4096 +
        (d.toNat - 0x80) * 64 + (e.toNat - 0x80))) 4
  else .fault .startByte 1

/-- The bytes that are no text, with their place. -/
structure DecodeError where
  fault : DecodeFault
  /-- The bytes that start no character. -/
  bytes : Bytes
  position : Nat
  deriving DecidableEq, Repr

/-- The error in words. -/
def DecodeError.message (e : DecodeError) : String :=
  match e.bytes with
  | [b] =>
    "'utf-8' codec can't decode byte 0x" ++ String.ofList (hexDigits false 2 b.toNat) ++
      " in position " ++ toString e.position ++ ": " ++ e.fault.reason
  | bs =>
    "'utf-8' codec can't decode bytes in position " ++ toString e.position ++ "-" ++
      toString (e.position + bs.length - 1) ++ ": " ++ e.fault.reason

/-- Reads bytes from a position on; `skip` bytes belong to a character that is already read. -/
def decodeFrom : Nat → Nat → Bytes → Except DecodeError (List Char)
  | _, _, [] => .ok []
  | position, skip + 1, _ :: bs => decodeFrom (position + 1) skip bs
  | position, 0, b :: bs =>
    match decodeNext b bs with
    | .char c size => (decodeFrom (position + 1) (size - 1) bs).map (c :: ·)
    | .fault reason size => .error ⟨reason, (b :: bs).take size, position⟩

/-- Reads bytes as a text. -/
def decode (bs : Bytes) : Except DecodeError (List Char) :=
  decodeFrom 0 0 bs

/-- Reads bytes, with the replacement character for what is no text. -/
def decodeLossyFrom : Nat → Bytes → List Char
  | _, [] => []
  | skip + 1, _ :: bs => decodeLossyFrom skip bs
  | 0, b :: bs =>
    match decodeNext b bs with
    | .char c size => c :: decodeLossyFrom (size - 1) bs
    | .fault _ size => '\ufffd' :: decodeLossyFrom (size - 1) bs

/-- Reads bytes as a text, with the replacement character for what is no text. -/
def decodeLossy (bs : Bytes) : List Char :=
  decodeLossyFrom 0 bs

end JitLens.Text
