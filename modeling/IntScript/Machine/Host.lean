/-!
# Hosts

A host is what a machine writes to, reads from and sleeps on. Its operations are functions on the
state of the host; writing and reading may fail, with the reason as a text.
-/

namespace IntScript

class Host (η : Type) where
  /-- Writes one line of output. -/
  writeLine : String → η → Except String Unit × η
  /-- Reads the next line of input, without its terminator, or nothing at the end of the input. -/
  readLine : η → Except String (Option ByteArray) × η
  /-- Waits for a number of milliseconds. -/
  sleep : Nat → η → η

/-! ## Hosts in memory -/

/-- What one attempt to read meets. -/
inductive InputItem where
  | line (bytes : ByteArray)
  | failure (reason : String)

/-- A host with prepared input that keeps what is written to it. -/
structure MemoryHost where
  input : List InputItem := []
  output : Array String := #[]
  /-- Milliseconds of each sleep. -/
  sleeps : Array Nat := #[]
  /-- Attempts to read, at the end of the input included. -/
  reads : Nat := 0
  /-- Attempts to write, failed ones included. -/
  writes : Nat := 0
  /-- The number of the attempt to write that fails, counted from zero, and the reason. -/
  writeFailure : Option (Nat × String) := none

namespace MemoryHost

/-- A host that offers the given lines. -/
def ofLines (lines : List ByteArray) : MemoryHost where
  input := lines.map .line

def writeLine (line : String) (h : MemoryHost) : Except String Unit × MemoryHost :=
  let counted := { h with writes := h.writes + 1 }
  match h.writeFailure with
  | some (attempt, reason) =>
    if attempt = h.writes then (.error reason, counted)
    else (.ok (), { counted with output := h.output.push line })
  | none => (.ok (), { counted with output := h.output.push line })

def readLine (h : MemoryHost) : Except String (Option ByteArray) × MemoryHost :=
  let counted := { h with reads := h.reads + 1 }
  match h.input with
  | [] => (.ok none, counted)
  | .line bytes :: rest => (.ok (some bytes), { counted with input := rest })
  | .failure reason :: rest => (.error reason, { counted with input := rest })

def sleep (millis : Nat) (h : MemoryHost) : MemoryHost :=
  { h with sleeps := h.sleeps.push millis }

instance : Host MemoryHost := ⟨writeLine, readLine, sleep⟩

end MemoryHost

/-! ## Hosts on byte streams -/

/-- A host whose input is a stream of bytes and whose output is one text. -/
structure Console where
  unread : List UInt8 := []
  written : String := ""
  sleeps : Array Nat := #[]
  deriving DecidableEq

namespace Console

def lineFeed : UInt8 := 0x0A

def carriageReturn : UInt8 := 0x0D

/-- A line without the carriage return that belongs to its terminator. -/
def dropCarriageReturn (bytes : List UInt8) : List UInt8 :=
  if bytes.getLast? = some carriageReturn then bytes.dropLast else bytes

/-- The first line of a stream and what follows it. The line ends at a line feed, which is removed
together with a carriage return right before it. A last line without a line feed is kept as it is,
and an empty stream has no line. -/
def nextLine? (bytes : List UInt8) : Option (List UInt8 × List UInt8) :=
  if bytes.isEmpty then none
  else
    match bytes.span fun b => b != lineFeed with
    | (line, []) => some (line, [])
    | (line, _ :: rest) => some (dropCarriageReturn line, rest)

def writeLine (line : String) (h : Console) : Except String Unit × Console :=
  (.ok (), { h with written := h.written ++ line ++ "\n" })

def readLine (h : Console) : Except String (Option ByteArray) × Console :=
  match nextLine? h.unread with
  | none => (.ok none, h)
  | some (line, rest) => (.ok (some line.toByteArray), { h with unread := rest })

def sleep (millis : Nat) (h : Console) : Console :=
  { h with sleeps := h.sleeps.push millis }

instance : Host Console := ⟨writeLine, readLine, sleep⟩

end Console

end IntScript
