import PodAttach.Cni.Message
import PodAttach.Duration
import PodAttach.Text.Blank

/-!
# Messages as lines

A message is sent as one line of JSON.  `writeLine` gives the bytes of a
line, and `readLine` takes the first line off a stream of bytes.  A line
that is too long, or is not UTF-8, or does not spell a message, is taken off
all the same, so what follows it can still be read.
-/

namespace PodAttach.Cni

/-- Why a message was not sent or received. -/
inductive ProtocolError where
  /-- The connection or the system failed. -/
  | io (reason : String)
  /-- A message could not be written or understood. -/
  | serialization (reason : String)
  /-- The connection was closed before a message. -/
  | closed
  /-- The other side took too long. -/
  | timeout (limit : Duration)
  deriving DecidableEq, Repr, Inhabited

namespace ProtocolError

/-- The wording of a failure. -/
def message : ProtocolError → String
  | .io reason => "I/O error: " ++ reason
  | .serialization reason => "Serialization error: " ++ reason
  | .closed => "Connection closed before a complete message was received"
  | .timeout limit => "Request timed out after " ++ limit.spelled

/-- The kind of a failure. -/
def kind : ProtocolError → String
  | .io _ => "Io"
  | .serialization _ => "Serialization"
  | .closed => "Closed"
  | .timeout _ => "Timeout"

/-- A payload is not UTF-8. -/
def ofFault (f : Utf8.Fault) : ProtocolError :=
  .serialization ("payload is not UTF-8: " ++ f.message)

/-- A line does not spell the message that is wanted. -/
def notAMessage : ProtocolError :=
  .serialization "the line does not spell a message"

/-- A line is longer than allowed. -/
def tooLong (limit : Nat) : ProtocolError :=
  .io ("message exceeds " ++ Text.decimal limit ++ " bytes")

end ProtocolError

/-- The most bytes of a line, with the newline. -/
def maxLineSize : Nat := 1024 * 1024

/-- The byte that ends a line. -/
def newline : UInt8 := 0x0A

/-- The line of a value. -/
def lineOf (v : Json) : Bytes :=
  Utf8.encodeChars v.chars ++ [newline]

/-- The line of a request. -/
def Request.writeLine (r : Request) : Except ProtocolError Bytes :=
  match r.toJson with
  | .ok v => .ok (lineOf v)
  | .error f => .error (.ofFault f)

/-- The line of a response. -/
def Response.writeLine (r : Response) : Except ProtocolError Bytes :=
  match r.toJson with
  | .ok v => .ok (lineOf v)
  | .error f => .error (.ofFault f)

/-- The first line with its newline, if it has one, and what follows it; `seen` holds the bytes
of the line so far, the last one first. -/
def takeLineFrom (seen : Bytes) : Bytes → Bytes × Bytes
  | [] => (seen.reverse, [])
  | b :: rest =>
    if b == newline then ((b :: seen).reverse, rest) else takeLineFrom (b :: seen) rest

/-- The first line with its newline, if it has one, and what follows it. -/
def takeLine (bytes : Bytes) : Bytes × Bytes :=
  takeLineFrom [] bytes

/-- Reads a message from the bytes of one line; white space around it does not count. -/
def ofLine {α : Type} (read : Json.Document → Option α) (line : Bytes) :
    Except ProtocolError α :=
  match Utf8.decodeChars line with
  | .error f => .error (.io f.message)
  | .ok cs =>
    if maxLineSize < line.length then .error (.tooLong maxLineSize)
    else match Json.Document.parse? (Utf8.encodeChars (Text.trimChars cs)) with
      | none => .error .notAMessage
      | some d => match read d with
        | none => .error .notAMessage
        | some m => .ok m

/-- Reads the first message of a stream: the message, and the rest of the stream. -/
def readLine {α : Type} (read : Json.Document → Option α) (stream : Bytes) :
    Except ProtocolError α × Bytes :=
  match stream with
  | [] => (.error .closed, [])
  | _ =>
    let (line, rest) := takeLine stream
    (ofLine read line, rest)

/-- Reads messages until the stream is at its end; the last outcome says so. -/
def readAll {α : Type} (read : Json.Document → Option α) (stream : Bytes) :
    List (Except ProtocolError α) :=
  go read stream.length stream
where
  /-- Reads at most `fuel` messages; each takes at least one byte. -/
  go (read : Json.Document → Option α) :
      (fuel : Nat) → Bytes → List (Except ProtocolError α)
    | _, [] => [.error .closed]
    | 0, _ => [.error .closed]
    | fuel + 1, stream =>
      let (m, rest) := readLine read stream
      m :: go read fuel rest

end PodAttach.Cni
