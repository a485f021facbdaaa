import DealFlow360.JsonStringify
import DealFlow360.Lib.Spacing

/-!
# The event stream

`realtime.sse.ts` writes events to a response, `services/realtime.ts` of the
frontend reads them. The response's bytes are the UTF-8 of what is written,
whose lone surrogates are lost; the reader is handed what `TextDecoder` makes
of them, piece by piece. Its callbacks return.

An event is written as its id, its type and its payload in lines that end with
a blank one; a comment is a line of its own. The reader keeps a buffer, splits
it at blank lines and handles each block, looking only at the fields it knows.
The first block with its ready event is handled apart, as the source does. Both
ends are on texts of UTF-16 units.
-/

namespace DealFlow360.Realtime.Sse

open Events (Text trimText toWellFormed)

/-! ## Writing -/

/-- A response and the texts it was given to write. -/
structure Response where
  writableEnded : Bool := false
  written : List Text := []

def Response.write (res : Response) (text : Text) : Response := { res with written := res.written ++ [text] }

/-- The text that the bytes of a response are. -/
def Response.sent (res : Response) : Text := res.written.flatMap toWellFormed

structure SseEvent where
  event : Text
  data : JsonTree
  id : Option Text := none
  retryMs : Option ℕ := none

structure RealtimeEvent where
  id : Text
  channel : Text
  type : Text
  occurredAt : Text
  payload : JsonTree
  /-- No object of the payload has a key twice. -/
  payload_distinct : JsonSyntax.Distinct payload

def lineFeed : ℕ := 0x0A

section Writing

variable (numberText : JsNumber → Text)

def writeSseEvent (res : Response) (input : SseEvent) : Response :=
  if res.writableEnded then res
  else
    let res := match input.retryMs with
      | some retryMs =>
          if 0 < retryMs then res.write (codeUnits "retry: " ++ naturalText retryMs ++ [lineFeed]) else res
      | none => res
    let res := match input.id with
      | some id => if id ≠ [] then res.write (codeUnits "id: " ++ id ++ [lineFeed]) else res
      | none => res
    let res := res.write (codeUnits "event: " ++ input.event ++ [lineFeed])
    res.write (codeUnits "data: " ++ jsonStringify numberText input.data ++ [lineFeed, lineFeed])

def writeSseComment (res : Response) (comment : Text := codeUnits "ping") : Response :=
  if res.writableEnded then res else res.write (codeUnits ": " ++ comment ++ [lineFeed, lineFeed])

/-- What is in an event, as it is written. -/
def RealtimeEvent.data (event : RealtimeEvent) : JsonTree :=
  .object [(codeUnits "id", .string event.id), (codeUnits "channel", .string event.channel),
    (codeUnits "type", .string event.type), (codeUnits "occurredAt", .string event.occurredAt),
    (codeUnits "payload", event.payload)]

def writeRealtimeEvent (res : Response) (event : RealtimeEvent) : Response :=
  writeSseEvent numberText res { event := event.type, id := some event.id, data := event.data }

end Writing

/-! ## Reading -/

structure SseBlock where
  event : Option Text := none
  data : Option Text := none
  deriving DecidableEq

/-- A line of a block. -/
def readLine (block : SseBlock) (line : Text) : SseBlock :=
  if codeUnits "event:" <+: line then { block with event := some (trimText (line.drop 6)) }
  else if codeUnits "data:" <+: line then { block with data := some (trimText (line.drop 5)) }
  else block

def readBlock (chunk : Text) : SseBlock := (Spacing.splitOn [lineFeed] chunk).foldl readLine {}

/-- The blocks of a text and what is left of it. -/
def consumeSse (input : Text) : List SseBlock × Text :=
  let parts := Spacing.splitOn [lineFeed, lineFeed] input
  (parts.dropLast.map readBlock, parts.getLastD [])

/-- The calls of a subscription's callbacks. -/
inductive Callback where
  | onReady (ready : JsonTree)
  | onEvent (event : JsonTree)

/-- The text that is not read yet, the calls so far, and whether `JSON.parse` threw, which ends the subscription. -/
structure Subscription where
  buffer : Text := []
  calls : List Callback := []
  failed : Bool := false

def Subscription.call (subscription : Subscription) (callback : JsonTree → Callback) (data : Text) : Subscription :=
  match jsonParse data with
  | some value => { subscription with calls := subscription.calls ++ [callback value] }
  | none => { subscription with failed := true }

/-- One round of the loop over the blocks; `hasOnReady` says that there is an `onReady`. -/
def handleBlock (hasOnReady : Bool) (subscription : Subscription) (block : SseBlock) : Subscription :=
  if subscription.failed then subscription
  else
    let event := block.event.getD []
    let data := block.data.getD []
    if event = codeUnits "ready" ∧ data ≠ [] then
      if hasOnReady then subscription.call .onReady data else subscription
    else if data = [] ∨ event = [] ∨ event = codeUnits "ping" then subscription
    else subscription.call .onEvent data

/-- What `decode` makes of one chunk is read. -/
def readChunk (hasOnReady : Bool) (subscription : Subscription) (text : Text) : Subscription :=
  if subscription.failed then subscription
  else
    let parsed := consumeSse (subscription.buffer ++ text)
    parsed.1.foldl (handleBlock hasOnReady) { subscription with buffer := parsed.2 }

def subscribeRealtime (hasOnReady : Bool) (texts : List Text) : Subscription := texts.foldl (readChunk hasOnReady) {}

end DealFlow360.Realtime.Sse
