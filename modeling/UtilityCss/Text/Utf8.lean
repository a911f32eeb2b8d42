import UtilityCss.Text.Quoted
/-!
# UTF-8

Texts are stored as bytes in UTF-8. Halves of surrogate pairs have no bytes, which is an error; only
in the names of files do some of them stand for single bytes. Bytes are read in sequences: a
sequence is a character, or a fault that covers the longest beginning of a character that is there,
and at least one byte. Lenient decoding puts U+FFFD for every fault, strict decoding reports the
first one, and in names every byte of a fault becomes the half that stands for it.
-/

namespace UtilityCss.Text.Utf8

/-- Halves of surrogate pairs in a text that have no bytes. -/
structure EncodeError where
  /-- The first of them. -/
  half : Half
  /-- The offset of the first of them. -/
  offset : Nat
  /-- How many halves stand in a row from there on. -/
  length : Nat
  deriving DecidableEq, Repr

/-- The text of the error. -/
def EncodeError.message (e : EncodeError) : String :=
  let place :=
    if e.length = 1 then s!"character '{namedEscape (.half e.half)}' in position {e.offset}"
    else s!"characters in position {e.offset}-{e.offset + e.length - 1}"
  s!"'utf-8' codec can't encode {place}: surrogates not allowed"

/-- The first half without bytes among code points that start at an offset, where `byte?` tells the
byte that a half stands for. -/
def encodeError? (byte? : Half → Option UInt8) (offset : Nat) : List CodePoint → Option EncodeError
  | [] => none
  | .char _ :: cs => encodeError? byte? (offset + 1) cs
  | .half h :: cs =>
    match byte? h with
    | some _ => encodeError? byte? (offset + 1) cs
    | none => some ⟨h, offset, (cs.takeWhile fun c => c.half?.isSome).length + 1⟩

/-- The bytes of a code point. -/
def encodePoint (byte? : Half → Option UInt8) : CodePoint → List UInt8
  | .char c => String.utf8EncodeChar c
  | .half h => (byte? h).toList

/-- The bytes of a text, if all its code points have some. -/
def encodeWith (byte? : Half → Option UInt8) (s : Text) : Except EncodeError (List UInt8) :=
  match encodeError? byte? 0 s.toList with
  | some e => .error e
  | none => .ok (s.toList.flatMap (encodePoint byte?))

/-- The bytes of a text, if it has characters only. -/
def encode (s : Text) : Except EncodeError (List UInt8) := encodeWith (fun _ => none) s

/-- The byte of a name that a half stands for: the halves from U+DC80 to U+DCFF stand for the bytes
from 0x80 to 0xFF. -/
def nameByte? (h : Half) : Option UInt8 :=
  if 0xDC80 ≤ h.toNat && h.toNat ≤ 0xDCFF then some (h.toNat - 0xDC00).toUInt8 else none

/-- The bytes of the name of a file, if all its code points have some. -/
def encodeName (s : Text) : Except EncodeError (List UInt8) := encodeWith nameByte? s

/-- The bytes of those code points of a name that have some. -/
def nameBytes (s : Text) : List UInt8 := s.toList.flatMap (encodePoint nameByte?)

/-- What is wrong with some bytes. -/
inductive Fault where
  | invalidStart
  | invalidContinuation
  | unexpectedEnd
  deriving DecidableEq, Repr

/-- The text of a fault. -/
def Fault.message : Fault → String
  | .invalidStart => "invalid start byte"
  | .invalidContinuation => "invalid continuation byte"
  | .unexpectedEnd => "unexpected end of data"

/-- A character or a fault. -/
inductive Piece where
  | char (c : Char)
  | fault (what : Fault)
  deriving DecidableEq, Repr

/-- A character or a fault with the number of its bytes behind the first one. -/
structure Sequence where
  piece : Piece
  tail : Nat

/-- How the first byte of a longer character goes on: the number of further bytes, the range of the
next one, and the bits of the code point that the first byte carries. -/
structure Lead where
  count : Nat
  low : Nat
  high : Nat
  bits : Nat

/-- What the first byte of a character of two to four bytes tells. -/
def lead? (b : Nat) : Option Lead :=
  if 0xC2 ≤ b && b ≤ 0xDF then some ⟨1, 0x80, 0xBF, b - 0xC0⟩
  else if b = 0xE0 then some ⟨2, 0xA0, 0xBF, 0⟩
  else if b = 0xED then some ⟨2, 0x80, 0x9F, 0xD⟩
  else if 0xE1 ≤ b && b ≤ 0xEF then some ⟨2, 0x80, 0xBF, b - 0xE0⟩
  else if b = 0xF0 then some ⟨3, 0x90, 0xBF, 0⟩
  else if 0xF1 ≤ b && b ≤ 0xF3 then some ⟨3, 0x80, 0xBF, b - 0xF0⟩
  else if b = 0xF4 then some ⟨3, 0x80, 0x8F, 4⟩
  else none

/-- Reads the bytes of a character behind its first one, of which `tail` have been read. -/
def readTail (tail : Nat) : Lead → List UInt8 → Sequence
  | ⟨0, _, _, bits⟩, _ => ⟨.char (Char.ofNat bits), tail⟩
  | ⟨_ + 1, _, _, _⟩, [] => ⟨.fault .unexpectedEnd, tail⟩
  | ⟨count + 1, low, high, bits⟩, b :: bs =>
    if low ≤ b.toNat && b.toNat ≤ high then
      readTail (tail + 1) ⟨count, 0x80, 0xBF, bits * 64 + b.toNat % 64⟩ bs
    else ⟨.fault .invalidContinuation, tail⟩
termination_by l => l.count

/-- The sequence that starts with the byte `b`. -/
def readSequence (b : UInt8) (bs : List UInt8) : Sequence :=
  if b < 0x80 then ⟨.char (Char.ofNat b.toNat), 0⟩
  else
    match lead? b.toNat with
    | some l => readTail 0 l bs
    | none => ⟨.fault .invalidStart, 0⟩

/-- The sequences of some bytes, each with the offset where it starts. -/
def sequencesFrom (offset : Nat) : List UInt8 → List (Nat × Sequence)
  | [] => []
  | b :: bs =>
    let found := readSequence b bs
    (offset, found) :: sequencesFrom (offset + 1 + found.tail) (bs.drop found.tail)
termination_by bs => bs.length
decreasing_by simp only [List.length_drop, List.length_cons]; omega

/-- Bytes as a text with U+FFFD for every fault. -/
def decodeLenient (bytes : List UInt8) : Text :=
  .ofList ((sequencesFrom 0 bytes).map fun (_, found) =>
    match found.piece with
    | .char c => c
    | .fault _ => '\uFFFD')

/-- The name of a file as a text. -/
def decodeName (bytes : List UInt8) : Text :=
  .ofList ((sequencesFrom 0 bytes).flatMap fun (offset, found) =>
    match found.piece with
    | .char c => [.char c]
    | .fault _ =>
      ((bytes.drop offset).take (found.tail + 1)).map fun b => CodePoint.ofNat (0xDC00 + b.toNat))

/-- The first fault in some bytes. -/
structure DecodeError where
  what : Fault
  /-- The offset of the first byte of the fault. -/
  offset : Nat
  /-- The first byte of the fault. -/
  byte : UInt8
  /-- The number of bytes that the fault covers. -/
  length : Nat
  deriving DecidableEq, Repr

/-- The text of the error. -/
def DecodeError.message (e : DecodeError) : String :=
  let place :=
    if e.length = 1 then s!"byte 0x{hexDigits 2 e.byte.toNat} in position {e.offset}"
    else s!"bytes in position {e.offset}-{e.offset + e.length - 1}"
  s!"'utf-8' codec can't decode {place}: {e.what.message}"

/-- Bytes as a text, if there is no fault in them. -/
def decodeStrict (bytes : List UInt8) : Except DecodeError Text :=
  let point (found : Nat × Sequence) : Except DecodeError CodePoint :=
    match found.2.piece with
    | .char c => .ok c
    | .fault what => .error ⟨what, found.1, bytes.getD found.1 0, found.2.tail + 1⟩
  ((sequencesFrom 0 bytes).mapM point).map Text.ofList

/-- Bytes of ASCII are decoded one by one. -/
theorem decodeStrict_of_ascii {bytes : List UInt8} (h : ∀ b ∈ bytes, b < 0x80) :
    decodeStrict bytes = .ok (.ofList (bytes.map fun b => .char (Char.ofNat b.toNat))) := by
  have hpoints (f : Nat × Sequence → Except DecodeError CodePoint)
      (hf : ∀ offset c, f (offset, ⟨.char c, 0⟩) = .ok (.char c)) (offset : Nat) :
      (sequencesFrom offset bytes).mapM f =
        .ok (bytes.map fun b => .char (Char.ofNat b.toNat)) := by
    induction bytes generalizing offset with
    | nil =>
      rw [sequencesFrom]
      rfl
    | cons b bytes ih =>
      rw [List.forall_mem_cons] at h
      rw [sequencesFrom]
      simp only [readSequence, if_pos h.1, List.drop_zero, List.mapM_cons, hf, ih h.2]
      rfl
  unfold decodeStrict
  dsimp only
  rw [hpoints _ fun _ _ => rfl]
  rfl

end UtilityCss.Text.Utf8

namespace UtilityCss.Text

/-- Line breaks of the three usual kinds as single line feeds. -/
def unifyNewlines : List CodePoint → List CodePoint
  | [] => []
  | .char '\r' :: .char '\n' :: rest => '\n' :: unifyNewlines rest
  | c :: rest => (if c = '\r' then .char '\n' else c) :: unifyNewlines rest

/-- A text read from a file, with line feeds for all line breaks. -/
def ofFile (s : Text) : Text := Text.ofList (unifyNewlines s.toList)

/-- Without carriage returns, all line breaks are line feeds already. -/
theorem ofFile_of_not_mem {s : Text} (h : .char '\r' ∉ s.toList) : ofFile s = s := by
  have hsame (cs : List CodePoint) (h : .char '\r' ∉ cs) : unifyNewlines cs = cs := by
    fun_induction unifyNewlines cs with
    | case1 => rfl
    | case2 => simp at h
    | case3 c rest hc ih =>
      rw [List.mem_cons, not_or] at h
      rw [ih h.2, if_neg (Ne.symm h.1)]
  rw [ofFile, hsame _ h]

end UtilityCss.Text
