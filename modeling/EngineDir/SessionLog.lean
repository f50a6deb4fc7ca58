import EngineDir.Clock.Stamp
import EngineDir.StoreError

/-!
# The log of a session

Each session writes its diagnostics to `LOG`, one stamped line for each message.
What of a line cannot be written is lost; nobody fails because of it.

* `LineBuffer`: the buffer in which each line is made (`SessionLog.line_from_buffer`: nothing of a
  longer line before is left in a line).
* `SessionLog.start`: begins a new `LOG`, after the old one was moved to `LOG.old` if asked.
* `SessionLog.line`: the bytes of one line.
* `SessionLog.write`: writes a line behind those that were written before.
* `SessionLog.close`: writes back what is pending.
-/

namespace EngineDir

/-- A buffer with room for some bytes, of which the first `used` count. Those behind them are left
from what was there before. -/
structure LineBuffer where
  bytes : Bytes
  used : Nat
  used_le : used ≤ bytes.length
  deriving DecidableEq

namespace LineBuffer

/-- A buffer that was never used. -/
def unused : LineBuffer := { bytes := [], used := 0, used_le := Nat.le_refl _ }

/-- What counts. -/
def shown (b : LineBuffer) : Bytes := b.bytes.take b.used

/-- The buffer without anything that counts. No byte of it is touched. -/
def clear (b : LineBuffer) : LineBuffer := { bytes := b.bytes, used := 0, used_le := Nat.zero_le _ }

theorem used_le_overlay (b : LineBuffer) (new : Bytes) :
    b.used + new.length ≤ (FileSystem.overlay b.bytes b.used new).length := by
  rw [FileSystem.length_overlay]
  exact Nat.le_max_right _ _

/-- The buffer with some bytes behind those that count. -/
def push (b : LineBuffer) (new : Bytes) : LineBuffer where
  bytes := FileSystem.overlay b.bytes b.used new
  used := b.used + new.length
  used_le := b.used_le_overlay new

@[simp] theorem shown_clear (b : LineBuffer) : b.clear.shown = [] := rfl

@[simp] theorem shown_push (b : LineBuffer) (new : Bytes) :
    (b.push new).shown = b.shown ++ new := by
  have hlen : (b.bytes.take b.used ++ new).length = b.used + new.length := by
    rw [List.length_append, List.length_take, Nat.min_eq_left b.used_le]
  have hgap : b.used - b.bytes.length = 0 := Nat.sub_eq_zero_of_le b.used_le
  simp only [shown, push, FileSystem.overlay, hgap, List.replicate_zero, List.append_nil]
  exact List.take_left' hlen

/-- The buffer in which a line is made, piece by piece: the stamp, a space, the message and a line
feed. -/
def write (b : LineBuffer) (now : Clock.Reading) (message : String) : LineBuffer :=
  (((b.clear.push (Utf8.encode (Clock.Stamp.text now.civil))).push [32]).push
    (Utf8.ofText message)).push [10]

end LineBuffer

/-- A log that is open: its path, the file behind it, and the buffer for its lines. -/
structure SessionLog where
  path : Bytes
  file : OpenFile
  buffer : LineBuffer
  deriving DecidableEq

namespace SessionLog

/-- The name of the log. -/
def fileName : List Char := ['L', 'O', 'G']

/-- The name of the log of the session before. -/
def oldFileName : List Char := fileName ++ ['.', 'o', 'l', 'd']

/-- The path of the log in a directory. -/
def pathIn (dir : Bytes) : Bytes := join dir (Utf8.encode fileName)

/-- The path of the old log in a directory. -/
def oldPathIn (dir : Bytes) : Bytes := join dir (Utf8.encode oldFileName)

/-- Moves the log to the old log. If that fails, everything stays as it is. -/
def rotated (fs : FileSystem) (dir : Bytes) : FileSystem :=
  match fs.rename (pathIn dir) (oldPathIn dir) with
  | .ok fs' => fs'
  | .error _ => fs

/-- Begins a new log in a directory. -/
def start (fs : FileSystem) (dir : Bytes) (rotate : Bool) :
    Except StoreError SessionLog × FileSystem :=
  let fs' := if rotate then rotated fs dir else fs
  let path := pathIn dir
  match fs'.openForWriting true path with
  | .error e => (.error (.io "open log" path (.os e)), fs')
  | .ok (fs'', i) => (.ok { path := path, file := { node := i, pos := 0 }, buffer := .unused }, fs'')

/-- The bytes of a line: the stamp, the message as it is, and a line feed. -/
def line (now : Clock.Reading) (message : String) : Bytes :=
  Utf8.encode (Clock.Stamp.text now.civil ++ ' ' :: message.toList ++ ['\n'])

/-- A line is its stamp, a space, the message as it is and a line feed. -/
theorem line_eq (now : Clock.Reading) (message : String) :
    line now message =
      Utf8.encode (Clock.Stamp.text now.civil) ++ 32 :: Utf8.ofText message ++ [10] := by
  have hsplit : Clock.Stamp.text now.civil ++ ' ' :: message.toList ++ ['\n'] =
      Clock.Stamp.text now.civil ++ ([' '] ++ (message.toList ++ ['\n'])) := by simp
  have hspace : Utf8.encode [' '] = [32] := by decide
  have hfeed : Utf8.encode ['\n'] = [10] := by decide
  rw [line, hsplit]
  simp only [Utf8.encode_append, hspace, hfeed, Utf8.ofText]
  simp

/-- **Nothing of what was in the buffer before is left in a line.** -/
theorem line_from_buffer (b : LineBuffer) (now : Clock.Reading) (message : String) :
    (b.write now message).shown = line now message := by
  simp [LineBuffer.write, line_eq]

/-- Writes a line, which is made in the buffer. When there is room for a part of it only, that part is
written and the rest is lost. -/
def write (fs : FileSystem) (l : SessionLog) (now : Clock.Reading) (message : String) :
    SessionLog × FileSystem :=
  let buffer := l.buffer.write now message
  let bytes := fs.accepted l.file.node l.file.pos buffer.shown
  match fs.writeAt l.file.node l.file.pos bytes with
  | .error _ => ({ l with buffer := buffer }, fs)
  | .ok fs' => ({ l with file := fs.advance l.file bytes.length, buffer := buffer }, fs')

/-- What is written is the line, or the part of it that there is room for. -/
theorem write_eq (fs : FileSystem) (l : SessionLog) (now : Clock.Reading) (message : String) :
    l.write fs now message =
      match fs.writeAt l.file.node l.file.pos
        (fs.accepted l.file.node l.file.pos (line now message)) with
      | .error _ => ({ l with buffer := l.buffer.write now message }, fs)
      | .ok fs' =>
        ({ l with
            file := fs.advance l.file
              (fs.accepted l.file.node l.file.pos (line now message)).length
            buffer := l.buffer.write now message }, fs') := by
  simp only [write, line_from_buffer]

/-- Writes back what is pending. -/
def close (fs : FileSystem) (l : SessionLog) : Except StoreError Unit :=
  match fs.sync l.file.node with
  | .error e => .error (.io "close log" l.path (.os e))
  | .ok () => .ok ()

end SessionLog

end EngineDir
