/-!
# Text as bytes

File contents, file names and paths are bytes; a message is a text.

* `Utf8.encode`, `Utf8.decode?`: the UTF-8 form of a string of characters, and the characters that
  have a given form; each undoes the other (`decode?_encode`, `encode_of_decode?`).
* `Utf8.pieces`: any bytes as characters and **stretches that begin no character**,
  each as long as it could still have become one.
* `Utf8.lossy`: the text in which `U+FFFD` stands for each such stretch.
-/

namespace EngineDir

/-- The contents of a file, the name of an entry or the text of a path. -/
abbrev Bytes := List UInt8

namespace Utf8

/-- The UTF-8 form of a string of characters. -/
def encode (cs : List Char) : Bytes := cs.flatMap String.utf8EncodeChar

/-- The UTF-8 form of a text. -/
def ofText (s : String) : Bytes := encode s.toList

/-- The characters with the UTF-8 form `b`, if `b` is the form of any. -/
def decode? (b : Bytes) : Option (List Char) := b.toByteArray.utf8Decode?.map Array.toList

@[simp] theorem encode_append (cs ds : List Char) : encode (cs ++ ds) = encode cs ++ encode ds := by
  simp [encode]

@[simp] theorem decode?_encode (cs : List Char) : decode? (encode cs) = some cs := by
  have h : (encode cs).toByteArray = cs.utf8Encode := rfl
  simp [decode?, h]

theorem encode_of_decode? {b : Bytes} {cs : List Char} (h : decode? b = some cs) :
    encode cs = b := by
  obtain ⟨a, ha, rfl⟩ := Option.map_eq_some_iff.1 h
  have hs : (b.toByteArray.utf8Decode?).isSome := by simp [ha]
  have hg : a.toList.utf8Encode = b.toByteArray := by
    have := ByteArray.utf8Encode_get_utf8Decode? (h := hs)
    simpa [ha] using this
  have hd := congrArg (fun x => x.data.toList) hg
  simpa [List.utf8Encode, encode] using hd

/-- What bytes are made of. -/
inductive Piece where
  | char (c : Char)
  | stray (b : Bytes)
  deriving DecidableEq

/-- The beginning of a character: the bytes read so far, the bits they carry, how many bytes are
owed, and the range in which the next one has to lie. -/
structure Opening where
  seen : Bytes
  bits : Nat
  owed : Nat
  low : UInt8 := 0x80
  high : UInt8 := 0xBF

/-- What the first byte of a character leads to: a piece at once, or an opening. The ranges leave
out over-long forms, surrogates and what lies above `U+10FFFF`. -/
def start (b : UInt8) : List Piece × Option Opening :=
  if b < 0x80 then ([.char (Char.ofNat b.toNat)], none)
  else if 0xC2 ≤ b ∧ b ≤ 0xDF then ([], some { seen := [b], bits := b.toNat - 0xC0, owed := 1 })
  else if b = 0xE0 then ([], some { seen := [b], bits := 0, owed := 2, low := 0xA0 })
  else if b = 0xED then ([], some { seen := [b], bits := 0xD, owed := 2, high := 0x9F })
  else if 0xE1 ≤ b ∧ b ≤ 0xEF then ([], some { seen := [b], bits := b.toNat - 0xE0, owed := 2 })
  else if b = 0xF0 then ([], some { seen := [b], bits := 0, owed := 3, low := 0x90 })
  else if b = 0xF4 then ([], some { seen := [b], bits := 4, owed := 3, high := 0x8F })
  else if 0xF1 ≤ b ∧ b ≤ 0xF3 then ([], some { seen := [b], bits := b.toNat - 0xF0, owed := 3 })
  else ([.stray [b]], none)

/-- Reads one byte. A byte that does not continue an opening begins anew. -/
def next (o : Option Opening) (b : UInt8) : List Piece × Option Opening :=
  match o with
  | none => start b
  | some o =>
    if o.low ≤ b ∧ b ≤ o.high then
      let bits := o.bits * 64 + (b.toNat - 0x80)
      if o.owed ≤ 1 then ([.char (Char.ofNat bits)], none)
      else ([], some { seen := o.seen ++ [b], bits := bits, owed := o.owed - 1 })
    else
      let (ps, o') := start b
      (.stray o.seen :: ps, o')

/-- The pieces of the bytes that follow an opening. -/
def piecesFrom : Option Opening → Bytes → List Piece
  | none, [] => []
  | some o, [] => [.stray o.seen]
  | o, b :: rest =>
    let (ps, o') := next o b
    ps ++ piecesFrom o' rest

/-- The characters of `b`, and between them the stretches that begin none. -/
def pieces (b : Bytes) : List Piece := piecesFrom none b

/-- A piece as text. -/
def Piece.shown : Piece → Char
  | .char c => c
  | .stray _ => '\uFFFD'

/-- The text of `b`, with `U+FFFD` for each stretch that begins no character. -/
def lossy (b : Bytes) : String := String.ofList ((pieces b).map Piece.shown)

end Utf8

end EngineDir
