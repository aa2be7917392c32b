import Scaffold.Text.Basic

/-!
# UTF-8

Strict decoding of bytes, one byte at a time.  Between two bytes the decoder stands either between
characters or inside one, and then knows how many continuation bytes are owed and which range the
next one has to lie in; the ranges after the lead bytes `E0`, `ED`, `F0` and `F4` exclude overlong
forms, surrogates and code points beyond the last one.  An error names the bytes of the character
that were acceptable up to the point where it failed.
-/

namespace Scaffold

/-- The contents of a file. -/
abbrev Bytes := List UInt8

namespace Utf8

/-- Why bytes are no UTF-8. -/
inductive Problem where
  | badStart
  | badContinuation
  | truncated
  deriving DecidableEq, Repr

/-- Where decoding failed: the first byte of the character, and how many of its bytes are named. -/
structure DecodeError where
  position : Nat
  width : Nat
  lead : Nat
  problem : Problem
  deriving DecidableEq, Repr

/-- The state inside a character. -/
structure Pending where
  /-- The lead byte. -/
  lead : Nat
  /-- How many bytes were read. -/
  seen : Nat
  /-- How many continuation bytes are owed. -/
  owed : Nat
  /-- The least value of the next byte. -/
  low : Nat
  /-- The greatest value of the next byte. -/
  high : Nat
  /-- The bits read so far. -/
  code : Nat

/-- The state after a lead byte that starts a character of several bytes. -/
def Pending.ofLead? (b : Nat) : Option Pending :=
  if 0xC2 ≤ b && b ≤ 0xDF then some ⟨b, 1, 1, 0x80, 0xBF, b - 0xC0⟩
  else if b == 0xE0 then some ⟨b, 1, 2, 0xA0, 0xBF, 0⟩
  else if b == 0xED then some ⟨b, 1, 2, 0x80, 0x9F, 0xD⟩
  else if 0xE1 ≤ b && b ≤ 0xEF then some ⟨b, 1, 2, 0x80, 0xBF, b - 0xE0⟩
  else if b == 0xF0 then some ⟨b, 1, 3, 0x90, 0xBF, 0⟩
  else if 0xF1 ≤ b && b ≤ 0xF3 then some ⟨b, 1, 3, 0x80, 0xBF, b - 0xF0⟩
  else if b == 0xF4 then some ⟨b, 1, 3, 0x80, 0x8F, 4⟩
  else none

/-- Decodes from a position on, given the state inside a character that starts before it. -/
def decodeFrom (position : Nat) : Option Pending → Bytes → Except DecodeError Text
  | none, [] => .ok []
  | some p, [] => .error ⟨position - p.seen, p.seen, p.lead, .truncated⟩
  | none, b :: rest =>
    let n := b.toNat
    if n < 0x80 then (decodeFrom (position + 1) none rest).map (Char.ofNat n :: ·)
    else match Pending.ofLead? n with
      | none => .error ⟨position, 1, n, .badStart⟩
      | some p => decodeFrom (position + 1) (some p) rest
  | some p, b :: rest =>
    let n := b.toNat
    if n < p.low || p.high < n then
      .error ⟨position - p.seen, p.seen, p.lead, .badContinuation⟩
    else
      let code := p.code * 64 + (n - 0x80)
      if p.owed = 1 then (decodeFrom (position + 1) none rest).map (Char.ofNat code :: ·)
      -- only the second byte of a character can have a range of its own
      else decodeFrom (position + 1) (some ⟨p.lead, p.seen + 1, p.owed - 1, 0x80, 0xBF, code⟩) rest

/-- The text that bytes stand for. -/
def decode (bytes : Bytes) : Except DecodeError Text := decodeFrom 0 none bytes

/-- The bytes of a text.  Every text has them, since no character is a surrogate. -/
def encode (text : Text) : Bytes := text.flatMap String.utf8EncodeChar

/-- A digit below sixteen, in lower case. -/
def hexDigit (n : Nat) : Char :=
  if n < 10 then Char.ofNat (48 + n) else Char.ofNat (87 + n)

/-- The reason that an error message gives. -/
def Problem.message : Problem → Text
  | .badStart => "invalid start byte"
  | .badContinuation => "invalid continuation byte"
  | .truncated => "unexpected end of data"

/-- One byte is shown, several are given by their positions. -/
def DecodeError.message (e : DecodeError) : Text :=
  (if e.width = 1 then
    "'utf-8' codec can't decode byte 0x" ++ [hexDigit (e.lead / 16), hexDigit (e.lead % 16)] ++
      " in position " ++ Text.ofNat e.position
  else
    "'utf-8' codec can't decode bytes in position " ++ Text.ofNat e.position ++ "-" ++
      Text.ofNat (e.position + e.width - 1)) ++ ": " ++ e.problem.message

end Utf8

/-- Reads every line end as a newline. -/
def Text.unifyNewlines : Text → Text
  | [] => []
  | '\r' :: '\n' :: rest => '\n' :: unifyNewlines rest
  | '\r' :: rest => '\n' :: unifyNewlines rest
  | c :: rest => c :: unifyNewlines rest

end Scaffold
