import OptimalAssignment.Text.Quoted

/-!
# UTF-8

A character is a lead byte and up to three continuation bytes.  The first continuation byte has
narrower bounds after some lead bytes, so that no character has two forms and no surrogate has one.
-/

namespace OptimalAssignment.Text.Utf8

inductive Fault where
  | start
  | continuation
  | cutOff
  deriving DecidableEq, Repr

def Fault.words : Fault → String
  | .start => "invalid start byte"
  | .continuation => "invalid continuation byte"
  | .cutOff => "unexpected end of data"

/-- Bytes that are no character, and the place of the first of them. -/
structure DecodeError where
  fault : Fault
  place : Nat
  bytes : List UInt8
  deriving DecidableEq, Repr

def DecodeError.message (e : DecodeError) : String :=
  let which := match e.bytes with
    | [b] => s!"byte 0x{String.ofList (hexDigits 2 b.toNat)} in position {e.place}"
    | bs => s!"bytes in position {e.place}-{e.place + bs.length - 1}"
  s!"'utf-8' codec can't decode {which}: {e.fault.words}"

/-- Bounds of any continuation byte. -/
def free : Nat × Nat := (0x80, 0xbf)

/-- The bounds of the continuation bytes after a lead byte; nothing if no character starts so. -/
def tail? (lead : Nat) : Option (List (Nat × Nat)) :=
  if lead < 0x80 then some []
  else if lead < 0xc2 then none
  else if lead < 0xe0 then some [free]
  else if lead = 0xe0 then some [(0xa0, 0xbf), free]
  else if lead = 0xed then some [(0x80, 0x9f), free]
  else if lead < 0xf0 then some [free, free]
  else if lead = 0xf0 then some [(0x90, 0xbf), free, free]
  else if lead < 0xf4 then some [free, free, free]
  else if lead = 0xf4 then some [(0x80, 0x8f), free, free]
  else none

/-- The bits of a lead byte that count, by the number of continuation bytes. -/
def leadBits (lead length : Nat) : Nat :=
  if length = 0 then lead else lead % Nat.pow 2 (6 - length)

/-- The code point of bytes within bounds, or how many of them are before the first fault. -/
def follow (code seen : Nat) : List (Nat × Nat) → List UInt8 → Except (Fault × Nat) Nat
  | [], _ => .ok code
  | _ :: _, [] => .error (.cutOff, seen)
  | (low, high) :: bounds, b :: bs =>
      if low ≤ b.toNat ∧ b.toNat ≤ high then
        follow (64 * code + b.toNat % 64) (seen + 1) bounds bs
      else .error (.continuation, seen)

/-- The first character and the number of its continuation bytes. -/
def first (lead : UInt8) (rest : List UInt8) : Except (Fault × Nat) (Char × Nat) :=
  match tail? lead.toNat with
  | none => .error (.start, 0)
  | some bounds =>
      (follow (leadBits lead.toNat bounds.length) 0 bounds rest).map fun code =>
        (Char.ofNat code, bounds.length)

def decodeFrom (place : Nat) : List UInt8 → Except DecodeError (List Char)
  | [] => .ok []
  | b :: bs =>
      match first b bs with
      | .error (fault, seen) => .error ⟨fault, place, b :: bs.take seen⟩
      | .ok (c, length) => (decodeFrom (place + 1 + length) (bs.drop length)).map (c :: ·)
termination_by bytes => bytes.length

def decode (bytes : List UInt8) : Except DecodeError (List Char) :=
  decodeFrom 0 bytes

/-- Bytes that arrive piece by piece: what the end cuts off has been set aside, and its place is
counted from its own start. -/
def decodeInput (bytes : List UInt8) : Except DecodeError (List Char) :=
  (decode bytes).mapError fun e => if e.fault = .cutOff then { e with place := 0 } else e

end OptimalAssignment.Text.Utf8
