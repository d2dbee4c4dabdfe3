import Otui.Text.Quoted

/-!
# UTF-8

Reading bytes as UTF-8, with the first fault told by its place and its reason. A fault covers the
bytes that belong together: those of a character that is broken off, up to the byte that does not
fit.

After decoding, a text that comes from a file has its line ends made uniform (`unifyLineEnds`).
-/

namespace Otui.Text

/-- Why bytes are not UTF-8. -/
inductive Utf8Reason where
  /-- No character starts with this byte. -/
  | start
  /-- The character goes on with another byte than it may. -/
  | continuation
  /-- The bytes end inside a character. -/
  | truncated
  deriving DecidableEq

/-- The first place where bytes are not UTF-8. -/
structure Utf8Fault where
  /-- The first byte of the fault. -/
  byte : Nat
  /-- The position of that byte. -/
  position : Nat
  /-- How many bytes the fault covers. -/
  length : Nat
  /-- What is wrong with them. -/
  reason : Utf8Reason
  deriving DecidableEq

/-- The words for a reason. -/
def Utf8Reason.message : Utf8Reason → String
  | .start => "invalid start byte"
  | .continuation => "invalid continuation byte"
  | .truncated => "unexpected end of data"

/-- The message for a fault. -/
def Utf8Fault.message (f : Utf8Fault) : String :=
  if f.length = 1 then
    s!"'utf-8' codec can't decode byte 0x{hex 2 f.byte} in position {f.position}: {f.reason.message}"
  else
    s!"'utf-8' codec can't decode bytes in position {f.position}-{f.position + f.length - 1}: " ++
      f.reason.message

/-- What a first byte says about the bytes after it: how many there are, and the bounds of the
next one. -/
def utf8Lead (b : Nat) : Option (Nat × Nat × Nat) :=
  if 0xC2 ≤ b && b ≤ 0xDF then some (1, 0x80, 0xBF)
  else if b = 0xE0 then some (2, 0xA0, 0xBF)
  else if b = 0xED then some (2, 0x80, 0x9F)
  else if 0xE1 ≤ b && b ≤ 0xEF then some (2, 0x80, 0xBF)
  else if b = 0xF0 then some (3, 0x90, 0xBF)
  else if 0xF1 ≤ b && b ≤ 0xF3 then some (3, 0x80, 0xBF)
  else if b = 0xF4 then some (3, 0x80, 0x8F)
  else none

/-- Reads the `owed` bytes that follow a first byte, the next of them between `low` and `high`,
onto the bits read so far. The fault tells how many of them fitted. -/
def utf8Tail (owed low high bits : Nat) (bytes : List UInt8) :
    Except (Nat × Utf8Reason) (Nat × List UInt8) :=
  match owed, bytes with
  | 0, rest => .ok (bits, rest)
  | _ + 1, [] => .error (0, .truncated)
  | owed + 1, b :: rest =>
    if low ≤ b.toNat && b.toNat ≤ high then
      match utf8Tail owed 0x80 0xBF (bits * 64 + b.toNat % 64) rest with
      | .ok r => .ok r
      | .error (n, why) => .error (n + 1, why)
    else .error (0, .continuation)

theorem utf8Tail_length {owed low high bits : Nat} {bytes rest : List UInt8} {v : Nat}
    (h : utf8Tail owed low high bits bytes = .ok (v, rest)) : rest.length ≤ bytes.length := by
  induction owed generalizing low high bits bytes with
  | zero => simp only [utf8Tail, Except.ok.injEq, Prod.mk.injEq] at h; simp [h.2]
  | succ owed ih =>
    cases bytes with
    | nil => simp [utf8Tail] at h
    | cons b bs =>
      simp only [utf8Tail] at h
      split at h
      · split at h
        · next r hr =>
          obtain ⟨v', rest'⟩ := r
          simp only [Except.ok.injEq, Prod.mk.injEq] at h
          obtain ⟨rfl, rfl⟩ := h
          have := ih hr
          simp only [List.length_cons]
          omega
        · simp at h
      · simp at h

/-- Reads the characters of bytes that start at a position. -/
def decodeFrom (position : Nat) : List UInt8 → Except Utf8Fault (List Char)
  | [] => .ok []
  | b :: bytes =>
    if b.toNat < 0x80 then
      match decodeFrom (position + 1) bytes with
      | .ok cs => .ok (Char.ofNat b.toNat :: cs)
      | .error f => .error f
    else
      match utf8Lead b.toNat with
      | none => .error ⟨b.toNat, position, 1, .start⟩
      | some (owed, low, high) =>
        match h : utf8Tail owed low high (b.toNat % Nat.pow 2 (6 - owed)) bytes with
        | .error (fitted, why) => .error ⟨b.toNat, position, fitted + 1, why⟩
        | .ok (n, rest) =>
          match decodeFrom (position + 1 + owed) rest with
          | .ok cs => .ok (Char.ofNat n :: cs)
          | .error f => .error f
  termination_by bytes => bytes.length
  decreasing_by
    · simp
    · have := utf8Tail_length h
      simp only [List.length_cons]
      omega

/-- Reads bytes as UTF-8. -/
def decodeUtf8 (bytes : List UInt8) : Except Utf8Fault String :=
  (decodeFrom 0 bytes).map String.ofList

/-- The bytes of a text. -/
def encodeUtf8 (s : String) : List UInt8 := s.toUTF8.toList

/-- Makes every line end a line feed: a carriage return, with or without a line feed after it,
is one line end. -/
def unifyLineEndsChars : List Char → List Char
  | [] => []
  | '\r' :: '\n' :: cs => '\n' :: unifyLineEndsChars cs
  | '\r' :: cs => '\n' :: unifyLineEndsChars cs
  | c :: cs => c :: unifyLineEndsChars cs

/-- A text with every line end made a line feed. -/
def unifyLineEnds (s : String) : String := String.ofList (unifyLineEndsChars s.toList)

end Otui.Text
