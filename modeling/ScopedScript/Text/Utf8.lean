import ScopedScript.Text.Quoted

namespace ScopedScript.Text

inductive Utf8Fault
  | invalidStart
  | unexpectedEnd
  | invalidContinuation
deriving DecidableEq

structure Utf8Error where
  position : Nat
  lead : Nat
  count : Nat
  fault : Utf8Fault
deriving DecidableEq

def Utf8Fault.message : Utf8Fault → String
  | .invalidStart => "invalid start byte"
  | .unexpectedEnd => "unexpected end of data"
  | .invalidContinuation => "invalid continuation byte"

def Utf8Error.message (e : Utf8Error) : String :=
  let first := e.position
  let last := e.position + e.count - 1
  let byte := String.ofList (hexPadded 2 e.lead)
  let what :=
    if e.count = 1 then s!"byte 0x{byte} in position {first}"
    else s!"bytes in position {first}-{last}"
  s!"'utf-8' codec can't decode {what}: {e.fault.message}"

/-- The bits a lead byte adds to its character and the ranges of the bytes that must follow;
nothing if no character starts with the byte. -/
def leadByte? (b : Nat) : Option (Nat × List (Nat × Nat)) :=
  let any := (0x80, 0xBF)
  if b < 0x80 then some (b, [])
  else if b < 0xC2 then none
  else if b < 0xE0 then some (b % 0x20, [any])
  else if b = 0xE0 then some (b % 0x10, [(0xA0, 0xBF), any])
  else if b = 0xED then some (b % 0x10, [(0x80, 0x9F), any])
  else if b < 0xF0 then some (b % 0x10, [any, any])
  else if b = 0xF0 then some (b % 0x08, [(0x90, 0xBF), any, any])
  else if b < 0xF4 then some (b % 0x08, [any, any, any])
  else if b = 0xF4 then some (b % 0x08, [(0x80, 0x8F), any, any])
  else none

def continuation (ranges : List (Nat × Nat)) (code read : Nat) (bytes : List Nat) :
    Except (Nat × Utf8Fault) (Nat × Nat) :=
  match ranges, bytes with
  | [], _ => .ok (code, read)
  | _ :: _, [] => .error (read, .unexpectedEnd)
  | (low, high) :: ranges, b :: bytes =>
    if low ≤ b ∧ b ≤ high then continuation ranges (code * 0x40 + b % 0x40) (read + 1) bytes
    else .error (read, .invalidContinuation)

def decodeFrom (position : Nat) : (bytes : List Nat) → Except Utf8Error (List Char)
  | [] => .ok []
  | lead :: bytes =>
    match leadByte? lead with
    | none => .error ⟨position, lead, 1, .invalidStart⟩
    | some (bits, ranges) =>
      match continuation ranges bits 0 bytes with
      | .error (fitting, fault) => .error ⟨position, lead, fitting + 1, fault⟩
      | .ok (code, read) =>
        (decodeFrom (position + 1 + read) (bytes.drop read)).map (Char.ofNat code :: ·)
termination_by bytes => bytes.length
decreasing_by simp only [List.length_drop, List.length_cons]; omega

def decodeUtf8 (bytes : List UInt8) : Except Utf8Error (List Char) :=
  decodeFrom 0 (bytes.map UInt8.toNat)

end ScopedScript.Text
