import Flannel.Kube.Informer
import Flannel.Lib.Framing
import Flannel.Lib.Text

/-!
# The watch stream

`kube/watch.rs`: the apiserver sends one JSON frame on a line, and the decoder makes watch
events of them.  The stream of events is the events that it yields and what it ends with:
nothing at the end of the input, otherwise the error.

A chunk of bytes is put behind what is in the buffer, and the lines that are complete then
are decoded together, before the first of their events is yielded.  A last line without a
line feed is decoded when the input ends, with two differences: all carriage returns at its
end are dropped, not only one, and bytes that are not UTF-8 are replaced.

The JSON library is outside the repository.  Its readers are parameters, and so are the type
of its values and that of the node objects; an error of theirs is its text.
-/

namespace Flannel

namespace Watch

/-- `Status`. -/
structure Status where
  message : String := ""
  reason : String := ""
  code : UInt16 := 0
  deriving DecidableEq, Repr

/-- `is_expired`. -/
def isExpired (status : Status) : Bool := status.code == 410 || status.reason == "Expired"

/-- The errors of `KubeError` that the decoder gives. -/
inductive KubeError where
  | api (status : Status)
  | gone
  | decode (message : String)
  deriving DecidableEq, Repr

/-- `WatchEvent`, for a type of objects. -/
structure WatchEvent (Node : Type) where
  eventType : WatchEventType
  object : Node
  deriving DecidableEq, Repr

/-- `<WatchEventType as Debug>::fmt`. -/
def debugEventType : WatchEventType → String
  | .added => "Added"
  | .modified => "Modified"
  | .deleted => "Deleted"
  | .bookmark => "Bookmark"
  | .error => "Error"

/-- The readers of the JSON library: of a frame, whose object stays a JSON value, of a status
and of a node.  The message of a frame that cannot be read quotes the line. -/
structure Json (Value Node : Type) where
  frame : String → Except String (WatchEventType × Value)
  status : Value → Except String Status
  node : Value → Except String Node
  quote : String → String

section Decoder

variable {Value Node : Type} (json : Json Value Node)

/-- `parse_watch_line`. -/
def parseWatchLine (line : String) : Except KubeError (WatchEvent Node) :=
  match json.frame line with
  | .error e => .error (.decode s!"invalid watch frame {json.quote line}: {e}")
  | .ok (.error, object) =>
    match json.status object with
    | .error e => .error (.decode s!"invalid ERROR status in watch frame: {e}")
    | .ok status => if isExpired status then .error .gone else .error (.api status)
  | .ok (eventType, object) =>
    match json.node object with
    | .error e =>
      .error (.decode s!"invalid node in {debugEventType eventType} watch frame: {e}")
    | .ok node => .ok ⟨eventType, node⟩

/-- A line without a carriage return at its end. -/
def dropReturn (line : List UInt8) : List UInt8 :=
  if line.getLast? = some 13 then line.dropLast else line

/-- A line that is not empty, in `decode_lines`. -/
def decodeLine (line : List UInt8) : Except KubeError (WatchEvent Node) :=
  match Text.fromUtf8 line with
  | .error e => .error (.decode s!"watch frame is not valid UTF-8: {e.toString}")
  | .ok text => parseWatchLine json text

/-- The loop of `decode_lines`, over the lines that it takes out of the buffer. -/
def decodeLoop : List (List UInt8) → Except KubeError (List (WatchEvent Node))
  | [] => .ok []
  | line :: lines =>
    if dropReturn line = [] then decodeLoop lines
    else do
      let event ← decodeLine json (dropReturn line)
      let events ← decodeLoop lines
      return event :: events

/-- `decode_lines`: the events of the complete lines, and the buffer after it. -/
def decodeLines (buf : List UInt8) : Except KubeError (List (WatchEvent Node) × List UInt8) := do
  let (lines, rest) := Framing.completeLines 10 buf
  let events ← decodeLoop json lines
  return (events, rest)

/-- `take_trailing`. -/
def takeTrailing (buf : List UInt8) : String :=
  Text.fromUtf8Lossy (buf.reverse.dropWhile fun b => b = 10 ∨ b = 13).reverse

/-- The events of a stream, and the error that ends it. -/
abbrev Decoded (Node : Type) : Type := List (WatchEvent Node) × Option KubeError

/-- The end of `decode_watch_stream`. -/
def decodeEnd (buf : List UInt8) : Decoded Node :=
  if buf = [] then ([], none)
  else
    let line := takeTrailing buf
    if line = "" then ([], none)
    else
      match parseWatchLine json line with
      | .error e => ([], some e)
      | .ok event => ([event], none)

/-- The loop of `decode_watch_stream` over the chunks, one of which may be an error of the
transport. -/
def decodeChunks (buf : List UInt8) : List (Except String (List UInt8)) → Decoded Node
  | [] => decodeEnd json buf
  | .error e :: _ => ([], some (.decode s!"watch stream transport error: {e}"))
  | .ok chunk :: chunks =>
    match decodeLines json (buf ++ chunk) with
    | .error e => ([], some e)
    | .ok (events, buf) =>
      (events ++ (decodeChunks buf chunks).1, (decodeChunks buf chunks).2)

/-- `decode_watch_stream`. -/
def decodeWatchStream (chunks : List (Except String (List UInt8))) : Decoded Node :=
  decodeChunks json [] chunks

end Decoder

end Watch

end Flannel
