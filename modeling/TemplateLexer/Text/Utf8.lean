import TemplateLexer.Text.Number

/-! UTF-8, with the place and the cause of the first fault. A character's first byte says how
many follow and bounds the second, so that no overlong form, surrogate or number past U+10FFFF
can be read. -/

set_option autoImplicit false

namespace TemplateLexer.Utf8

/-- What a first byte promises: its own bits, how many bytes follow, and the range of the
first of these. -/
structure Lead where
  bits : Nat
  follow : Nat
  low : Nat
  high : Nat
  deriving DecidableEq, Repr

def lead? (byte : UInt8) : Option Lead :=
  let n := byte.toNat
  if n < 0x80 then some ⟨n, 0, 0x80, 0xBF⟩
  else if n < 0xC2 then none
  else if n < 0xE0 then some ⟨n - 0xC0, 1, 0x80, 0xBF⟩
  else if n = 0xE0 then some ⟨0, 2, 0xA0, 0xBF⟩
  else if n = 0xED then some ⟨0xD, 2, 0x80, 0x9F⟩
  else if n < 0xF0 then some ⟨n - 0xE0, 2, 0x80, 0xBF⟩
  else if n = 0xF0 then some ⟨0, 3, 0x90, 0xBF⟩
  else if n < 0xF4 then some ⟨n - 0xF0, 3, 0x80, 0xBF⟩
  else if n = 0xF4 then some ⟨4, 3, 0x80, 0x8F⟩
  else none

inductive Cause where
  | start
  | continuation
  | truncated
  deriving DecidableEq, Repr

structure Fault where
  cause : Cause
  offset : Nat
  byte : UInt8
  length : Nat
  deriving DecidableEq, Repr

/-- Read the bytes that follow a first byte. The count of those read tells how far a fault
reaches. -/
def follow (code read : Nat) : (owed low high : Nat) → List UInt8 →
    Except (Cause × Nat) (Nat × List UInt8)
  | 0, _, _, rest => .ok (code, rest)
  | _ + 1, _, _, [] => .error (.truncated, read)
  | owed + 1, low, high, byte :: rest =>
    if low ≤ byte.toNat && byte.toNat ≤ high then
      follow (code * 64 + (byte.toNat - 0x80)) (read + 1) owed 0x80 0xBF rest
    else .error (.continuation, read)

theorem length_follow_le {code read owed low high value : Nat} {bytes rest : List UInt8}
    (read_all : follow code read owed low high bytes = .ok (value, rest)) :
    rest.length ≤ bytes.length := by
  induction owed generalizing code read low high bytes with
  | zero =>
    cases bytes <;> cases read_all <;> exact Nat.le_refl _
  | succ owed ih =>
    cases bytes with
    | nil => exact nomatch read_all
    | cons byte bytes =>
      unfold follow at read_all
      split at read_all
      · exact Nat.le_succ_of_le (ih read_all)
      · exact nomatch read_all

/-- Decode from `offset` on, after the characters `decoded`, latest first. -/
def decodeFrom (offset : Nat) (decoded : List Char) (bytes : List UInt8) :
    Except Fault (List Char) :=
  match bytes with
  | [] => .ok decoded.reverse
  | byte :: more =>
    match lead? byte with
    | none => .error ⟨.start, offset, byte, 1⟩
    | some lead =>
      match read : follow lead.bits 0 lead.follow lead.low lead.high more with
      | .error (cause, count) => .error ⟨cause, offset, byte, count + 1⟩
      | .ok (code, rest) => decodeFrom (offset + 1 + lead.follow) (Char.ofNat code :: decoded) rest
termination_by bytes.length
decreasing_by
  have := length_follow_le read
  simp only [List.length_cons]
  omega

def decode (bytes : List UInt8) : Except Fault (List Char) :=
  decodeFrom 0 [] bytes

def encode (text : List Char) : List UInt8 :=
  text.flatMap String.utf8EncodeChar

namespace Fault

def reason (fault : Fault) : String :=
  match fault.cause with
  | .start => "invalid start byte"
  | .continuation => "invalid continuation byte"
  | .truncated => "unexpected end of data"

def message (fault : Fault) : List Char :=
  let place :=
    if fault.length = 1 then
      "byte 0x".toList ++ Text.hex 2 fault.byte.toNat ++ " in position ".toList ++
        Text.decimal fault.offset
    else
      "bytes in position ".toList ++ Text.decimal fault.offset ++ ['-'] ++
        Text.decimal (fault.offset + fault.length - 1 : Nat)
  "'utf-8' codec can't decode ".toList ++ place ++ ": ".toList ++ fault.reason.toList

end Fault

end TemplateLexer.Utf8
