import Runewarp.Basic
import Runewarp.Lib.Transducer
import Runewarp.Lib.Utf8

/-!
# Server-Sent Events framing

`SseParser` is fed the chunks of an event stream and gives the comments and events they
complete.  Between two chunks it keeps the bytes of the unfinished line, whether the last
byte was a CR, and the type and data of the unfinished event.

A CR does not end the line by itself: the line is finished at the next byte, which may be
the LF that belongs to it.

Strings are their UTF-8 bytes.  What is counted is held in memory, so that the saturating
additions of the source never saturate and are additions here.
-/

namespace Runewarp

namespace Sse

def lf : UInt8 := 0x0a

def cr : UInt8 := 0x0d

def colon : UInt8 := 0x3a

def space : UInt8 := 0x20

structure SseLimits where
  maxLineBytes : Nat
  maxEventTypeBytes : Nat
  maxEventDataBytes : Nat
deriving DecidableEq

inductive SseLimitKind where
  | line
  | eventType
  | eventData
deriving DecidableEq

inductive SseParseError where
  | invalidUtf8
  | limitExceeded (limit : SseLimitKind) (value max : Nat)
deriving DecidableEq

structure SseEvent where
  eventType : Option (List UInt8)
  data : List UInt8
deriving DecidableEq

inductive SseParseItem where
  | comment
  | event (event : SseEvent)
deriving DecidableEq

structure SseParser where
  limits : SseLimits
  pending : List UInt8 := []
  eventType : Option (List UInt8) := none
  dataLines : List (List UInt8) := []
  dataBytes : Nat := 0
  sawCr : Bool := false
deriving DecidableEq

/-- `strip_prefix(' ')`, or the text as it is. -/
def stripSpace : List UInt8 → List UInt8
  | [] => []
  | b :: rest => if b = space then rest else b :: rest

/-- `split_once(':')`: the field and its value. -/
def splitField (line : List UInt8) : List UInt8 × List UInt8 :=
  match line.dropWhile (· ≠ colon) with
  | [] => (line, [])
  | _ :: rest => (line.takeWhile (· ≠ colon), stripSpace rest)

/-- `join("\n")`. -/
def joinLines (lines : List (List UInt8)) : List UInt8 := [lf].intercalate lines

namespace SseParser

def new (limits : SseLimits) : SseParser := { limits }

def dispatchEvent (p : SseParser) : SseEvent × SseParser :=
  (⟨p.eventType, joinLines p.dataLines⟩,
    { p with eventType := none, dataLines := [], dataBytes := 0 })

/-- The arm of `event`. -/
def setEventType (p : SseParser) (value : List UInt8) :
    Except SseParseError (SseParser × List SseParseItem) :=
  if value.length > p.limits.maxEventTypeBytes then
    .error (.limitExceeded .eventType value.length p.limits.maxEventTypeBytes)
  else .ok ({ p with eventType := some value }, [])

/-- The arm of `data`. -/
def addData (p : SseParser) (value : List UInt8) :
    Except SseParseError (SseParser × List SseParseItem) :=
  let added := if p.dataLines.isEmpty then value.length else value.length + 1
  let next := p.dataBytes + added
  if next > p.limits.maxEventDataBytes then
    .error (.limitExceeded .eventData next p.limits.maxEventDataBytes)
  else .ok ({ p with dataBytes := next, dataLines := p.dataLines ++ [value] }, [])

def finishLine (p : SseParser) : Except SseParseError (SseParser × List SseParseItem) :=
  let line := p.pending
  let p := { p with pending := [] }
  if line = [] then .ok (p.dispatchEvent.2, [.event p.dispatchEvent.1])
  else if Utf8.valid line = false then .error .invalidUtf8
  else if line.head? = some colon then .ok (p, [.comment])
  else
    let (field, value) := splitField line
    if field = ascii ['e', 'v', 'e', 'n', 't'] then p.setEventType value
    else if field = ascii ['d', 'a', 't', 'a'] then p.addData value
    else
      -- `id`, `retry` and unknown fields.
      .ok (p, [])

/-- The match on a byte in `push`. -/
def acceptByte (p : SseParser) (byte : UInt8) :
    Except SseParseError (SseParser × List SseParseItem) :=
  if byte = lf then p.finishLine
  else if byte = cr then .ok ({ p with sawCr := true }, [])
  else if p.limits.maxLineBytes ≤ p.pending.length then
    .error (.limitExceeded .line (p.pending.length + 1) p.limits.maxLineBytes)
  else .ok ({ p with pending := p.pending ++ [byte] }, [])

/-- One turn of the loop of `push`. -/
def pushByte (p : SseParser) (byte : UInt8) :
    Except SseParseError (SseParser × List SseParseItem) :=
  if p.sawCr then
    let p := { p with sawCr := false }
    if byte = lf then p.finishLine
    else
      -- A lone CR ends the line; the byte starts the next one.
      Transducer.andThen p.finishLine fun p => p.acceptByte byte
  else p.acceptByte byte

/-- `push`. -/
def push (p : SseParser) (chunk : List UInt8) :
    Except SseParseError (SseParser × List SseParseItem) :=
  Transducer.push pushByte p chunk

/-- Calls of `push` up to the first that fails: the items they return, and the parser or
the error at the end. -/
def feed (p : SseParser) (chunks : List (List UInt8)) :
    List SseParseItem × Except SseParseError SseParser :=
  Transducer.feed pushByte p chunks

end SseParser

end Sse

end Runewarp
