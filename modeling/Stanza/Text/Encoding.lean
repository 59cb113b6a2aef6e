/-!
Texts as bytes.

`decode` reads UTF-8 strictly: overlong forms, surrogates and cut sequences are refused, and
`decodingAccount` tells where and why. `encode` writes it. A text file is decoded and then read with
every line ended by a line feed.
-/

namespace Stanza.Text

/-- Whether a byte continues a sequence. -/
def isContinuation (b : UInt8) : Bool := decide (0x80 ≤ b.toNat ∧ b.toNat ≤ 0xbf)

/-- The six bits that a continuation byte adds to a code. -/
def continued (code : Nat) (b : UInt8) : Nat := code * 64 + (b.toNat - 0x80)

/-- The text that UTF-8 bytes stand for. -/
def decode : List UInt8 → Option (List Char)
  | [] => some []
  | a :: rest =>
      let n := a.toNat
      if n < 0x80 then (decode rest).map (Char.ofNat n :: ·)
      else if n < 0xc2 then none
      else if n < 0xe0 then
        match rest with
        | b :: rest =>
            if isContinuation b then
              (decode rest).map (Char.ofNat (continued (n - 0xc0) b) :: ·)
            else none
        | _ => none
      else if n < 0xf0 then
        match rest with
        | b :: c :: rest =>
            let code := continued (continued (n - 0xe0) b) c
            if isContinuation b && isContinuation c && decide (0x800 ≤ code) &&
                !decide (0xd800 ≤ code ∧ code ≤ 0xdfff) then
              (decode rest).map (Char.ofNat code :: ·)
            else none
        | _ => none
      else if n < 0xf5 then
        match rest with
        | b :: c :: d :: rest =>
            let code := continued (continued (continued (n - 0xf0) b) c) d
            if isContinuation b && isContinuation c && isContinuation d &&
                decide (0x10000 ≤ code ∧ code ≤ 0x10ffff) then
              (decode rest).map (Char.ofNat code :: ·)
            else none
        | _ => none
      else none

/-- The bytes of one character. -/
def encodeChar (c : Char) : List UInt8 :=
  let n := c.toNat
  let tail (k : Nat) : UInt8 := UInt8.ofNat (0x80 + n / k % 64)
  if n < 0x80 then [UInt8.ofNat n]
  else if n < 0x800 then [UInt8.ofNat (0xc0 + n / 64), tail 1]
  else if n < 0x10000 then [UInt8.ofNat (0xe0 + n / 4096), tail 64, tail 1]
  else [UInt8.ofNat (0xf0 + n / 262144), tail 4096, tail 64, tail 1]

/-- The UTF-8 bytes of a text. -/
def encode (text : List Char) : List UInt8 := text.flatMap encodeChar

/-- The text with a line feed for every carriage return and for every pair of both. -/
def unixLines : List Char → List Char
  | '\r' :: '\n' :: rest => '\n' :: unixLines rest
  | '\r' :: rest => '\n' :: unixLines rest
  | c :: rest => c :: unixLines rest
  | [] => []

/-- The number of bytes of the sequence that a byte starts; none starts no sequence. -/
def sequenceLength (first : UInt8) : Nat :=
  let n := first.toNat
  if n < 0x80 then 1
  else if n < 0xc2 then 0
  else if n < 0xe0 then 2
  else if n < 0xf0 then 3
  else if n < 0xf5 then 4
  else 0

/-- Whether a byte can follow the first byte of a sequence. -/
def canFollow (first second : UInt8) : Bool :=
  isContinuation second &&
    match first.toNat with
    | 0xe0 => decide (0xa0 ≤ second.toNat)
    | 0xed => decide (second.toNat < 0xa0)
    | 0xf0 => decide (0x90 ≤ second.toNat)
    | 0xf4 => decide (second.toNat < 0x90)
    | _ => true

/-- How many of the bytes after the first one of a sequence belong to it. -/
def continuations (first : UInt8) : List UInt8 → Nat
  | [] => 0
  | second :: rest =>
      if canFollow first second then 1 + (rest.takeWhile isContinuation).length else 0

/-- The wording for bytes from a position on that are no sequence. -/
def noSequence (bytes : List UInt8) (position : Nat) (reason : String) : String :=
  match bytes with
  | [single] =>
      "'utf-8' codec can't decode byte 0x" ++ String.ofList (hexByte single) ++
        s!" in position {position}: " ++ reason
  | _ =>
      s!"'utf-8' codec can't decode bytes in position {position}-{position + bytes.length - 1}: " ++
        reason
where
  /-- The two digits of a byte. -/
  hexByte (b : UInt8) : List Char := [Nat.digitChar (b.toNat / 16), Nat.digitChar (b.toNat % 16)]

/-- What is wrong with bytes that are no text, of which those before a position and some more, as
many as given, are right. -/
def accountFrom (right position : Nat) : List UInt8 → String
  | [] => ""
  | first :: rest =>
      match right with
      | n + 1 => accountFrom n (position + 1) rest
      | 0 =>
          let tail := rest.take (sequenceLength first - 1)
          let good := continuations first tail
          if sequenceLength first = 0 then noSequence [first] position "invalid start byte"
          else if good + 1 = sequenceLength first then accountFrom good (position + 1) rest
          else
            noSequence (first :: tail.take good) position
              (if good = tail.length then "unexpected end of data" else "invalid continuation byte")

/-- What is wrong with bytes that are no text. -/
def decodingAccount (bytes : List UInt8) : String := accountFrom 0 0 bytes

/-- The text of a text file. -/
def decodeFile (bytes : List UInt8) : Option (List Char) := (decode bytes).map unixLines

end Stanza.Text
