import Mathlib.Data.List.Basic

/-!
# Lengths before bytes

Numbers of one and two bytes, and texts that follow their length. A number that is too large loses
its upper bits; each reader undoes its writer where nothing was lost, and leaves what follows.
-/
namespace Frames

abbrev Bytes := List UInt8

def byte (n : Nat) : Bytes := [.ofNat n]

def word (n : Nat) : Bytes := [.ofNat (n / 256), .ofNat n]

def readByte : Bytes → Option (Nat × Bytes)
  | b :: rest => some (b.toNat, rest)
  | [] => none

def readWord : Bytes → Option (Nat × Bytes)
  | a :: b :: rest => some (a.toNat * 256 + b.toNat, rest)
  | _ => none

def readChunk (n : Nat) (text : Bytes) : Option (Bytes × Bytes) :=
  if n ≤ text.length then some (text.take n, text.drop n) else none

/-- The length in one byte, or in two, before the text. -/
def frame8 (text : Bytes) : Bytes := byte text.length ++ text

def frame16 (text : Bytes) : Bytes := word text.length ++ text

def readFrame8 (text : Bytes) : Option (Bytes × Bytes) :=
  (readByte text).bind fun (n, rest) => readChunk n rest

def readFrame16 (text : Bytes) : Option (Bytes × Bytes) :=
  (readWord text).bind fun (n, rest) => readChunk n rest

@[simp] theorem readByte_byte {n : Nat} (small : n < 256) (rest : Bytes) :
    readByte (byte n ++ rest) = some (n, rest) := by
  simp [byte, readByte, Nat.mod_eq_of_lt small]

@[simp] theorem readWord_word {n : Nat} (small : n < 65536) (rest : Bytes) :
    readWord (word n ++ rest) = some (n, rest) := by
  have upper : n / 256 < 256 := by omega
  simp only [word, readWord, List.cons_append, List.nil_append, UInt8.toNat_ofNat',
    Nat.reducePow, Nat.mod_eq_of_lt upper, Option.some.injEq, Prod.mk.injEq, and_true]
  omega

@[simp] theorem readChunk_append (text rest : Bytes) :
    readChunk text.length (text ++ rest) = some (text, rest) := by
  rw [readChunk, if_pos (by simp), List.take_left, List.drop_left]

@[simp] theorem readFrame8_frame8 {text : Bytes} (short : text.length < 256) (rest : Bytes) :
    readFrame8 (frame8 text ++ rest) = some (text, rest) := by
  rw [frame8, List.append_assoc, readFrame8, readByte_byte short, Option.bind_some]
  exact readChunk_append text rest

@[simp] theorem readFrame16_frame16 {text : Bytes} (short : text.length < 65536) (rest : Bytes) :
    readFrame16 (frame16 text ++ rest) = some (text, rest) := by
  rw [frame16, List.append_assoc, readFrame16, readWord_word short, Option.bind_some]
  exact readChunk_append text rest

theorem readChunk_length {n : Nat} {text chunk rest : Bytes}
    (read : readChunk n text = some (chunk, rest)) : chunk.length = n := by
  unfold readChunk at read
  split at read
  next enough =>
    obtain ⟨rfl, -⟩ := Prod.mk.inj (Option.some.inj read)
    rw [List.length_take]
    omega
  next => cases read

/-- A text that is read after a byte is not longer than 255. -/
theorem readFrame8_length {text chunk rest : Bytes} (read : readFrame8 text = some (chunk, rest)) :
    chunk.length < 256 := by
  obtain ⟨⟨n, after⟩, first, second⟩ := Option.bind_eq_some_iff.mp read
  rw [readChunk_length second]
  cases text with
  | nil => cases first
  | cons b text =>
    obtain ⟨rfl, -⟩ := Prod.mk.inj (Option.some.inj first)
    exact b.toNat_lt

end Frames
