import Runewarp.Lib.JsonText
import Runewarp.SseEndings
import Runewarp.Tunnel.ClientTunnel
import Runewarp.Tunnel.Generation

/-!
# Tunnel events on the wire

A Server sends its snapshot as one SSE event whose data is a JSON object, first and again
whenever it changes, and a comment frame when there is nothing to say.  The Client's parser
gets the bytes in chunks of any size.  A comment frame ends in a blank line, at which the
parser dispatches an empty event; the Client takes that for a keepalive too.

`serde_json` is a parameter: `Json.Writer` for `to_string`, and for `from_str` a function
`fromStr` that makes a value of a text, or none.  All that is assumed of it is that it reads
back the text that was written for a snapshot.
-/

namespace Runewarp.Tunnel

open Server (ServerRuntimeGeneration)
open Sse

def snapshotEventType : List UInt8 := ascii ['s', 'n', 'a', 'p', 's', 'h', 'o', 't']

def tunnelEventSseLimits : SseLimits where
  maxLineBytes := 4 * 1024
  maxEventTypeBytes := 64
  maxEventDataBytes := 4 * 1024

def keepaliveComment : List UInt8 :=
  ascii [':', ' ', 'k', 'e', 'e', 'p', 'a', 'l', 'i', 'v', 'e', '\n', '\n']

inductive TunnelEventError where
  | unexpectedEventType
  | malformedState
  | invalidGeneration
deriving DecidableEq

structure WireSnapshotIn where
  generation : String
  replacementGeneration : Option String
deriving DecidableEq

/-- The derived reader.  A hint that is there has to be a string: `null` is not one. -/
def WireSnapshotIn.read : Json → Option WireSnapshotIn
  | .object fields =>
    if fields.countP (·.1 = "generation") ≤ 1 ∧
        fields.countP (·.1 = "replacement_generation") ≤ 1 then do
      let generation ← (← fields.lookup "generation").asStr
      match fields.lookup "replacement_generation" with
      | none => some ⟨generation, none⟩
      | some value => value.asStr.map fun replacement => ⟨generation, some replacement⟩
    else none
  | .array [generation] => generation.asStr.map fun generation => ⟨generation, none⟩
  | .array [generation, replacement] => do
      let generation ← generation.asStr
      let replacement ← replacement.asStr
      some ⟨generation, some replacement⟩
  | _ => none

/-! ## Lines -/

theorem byte_of_isPrintable {cs : List Char} (h : ∀ c ∈ cs, Json.isPrintable c = true) :
    ∀ byte ∈ ascii cs, isText byte = true ∧ byte ≤ 0x7f := by
  intro byte hb
  obtain ⟨c, hc, rfl⟩ := List.mem_map.mp hb
  have hr : 32 ≤ c.toNat ∧ c.toNat < 127 := of_decide_eq_true (h c hc)
  have hn : c.toUInt8.toNat = c.toNat := by
    simp only [Char.toUInt8, UInt32.toNat_toUInt8]
    exact Nat.mod_eq_of_lt (Nat.lt_trans hr.2 (by decide))
  have hne : ∀ other : UInt8, other.toNat < 32 → c.toUInt8 ≠ other := by
    rintro other ho rfl
    omega
  refine ⟨?_, UInt8.le_iff_toNat_le.mpr (hn ▸ Nat.le_of_lt hr.2)⟩
  simp only [isText, Bool.and_eq_true, decide_eq_true_eq]
  exact ⟨hne lf (by decide), hne cr (by decide)⟩

/-- The line with the event's type. -/
def eventLine : List Char :=
  ['e', 'v', 'e', 'n', 't', ':', ' ', 's', 'n', 'a', 'p', 's', 'h', 'o', 't']

/-- The text of a line of printable characters. -/
def printable (cs : List Char) (h : ∀ c ∈ cs, Json.isPrintable c = true) : Text :=
  ⟨ascii cs, fun byte hb => (byte_of_isPrintable h byte hb).1⟩

theorem encodeLines_append (lines lines' : List Text) :
    encodeLines .lf (lines ++ lines') = encodeLines .lf lines ++ encodeLines .lf lines' :=
  List.flatMap_append

/-! ## What is written -/

section

variable [Uuid.Library] {state : TunnelEventState ServerRuntimeGeneration}
  {fromStr : List UInt8 → Option Json}

/-- `WireSnapshotOut`: the fields that are written. -/
def TunnelEventState.wireFields (state : TunnelEventState ServerRuntimeGeneration) :
    List (String × String) :=
  ("generation", state.serverGeneration.display) ::
    (state.replacementGeneration.map fun generation =>
      ("replacement_generation", generation.display)).toList

theorem isPlain_of_mem_display {generation : ServerRuntimeGeneration} {c : Char}
    (h : c ∈ generation.display.toList) : Json.isPlain c = true := by
  have hd : ∀ n < 16, Json.isPlain (Nat.digitChar n) = true := by decide
  rw [ServerRuntimeGeneration.toList_display] at h
  rcases Uuid.mem_hyphenated h with rfl | hl
  · decide
  · obtain ⟨n, hn, rfl⟩ := Hex.exists_digitChar hl
    exact hd n hn

theorem plain_wireFields : Json.Plain state.wireFields := by
  have hg : ∀ c ∈ "generation".toList, Json.isPlain c = true :=
    List.all_eq_true.mp (by decide)
  have hr : ∀ c ∈ "replacement_generation".toList, Json.isPlain c = true :=
    List.all_eq_true.mp (by decide)
  intro entry he
  simp only [TunnelEventState.wireFields, List.mem_cons, Option.mem_toList, Option.map_eq_some_iff]
    at he
  rcases he with rfl | ⟨generation, -, rfl⟩
  · exact ⟨hg, fun c => isPlain_of_mem_display⟩
  · exact ⟨hr, fun c => isPlain_of_mem_display⟩

theorem read_ofStrings : WireSnapshotIn.read (Json.ofStrings state.wireFields) =
    some ⟨state.serverGeneration.display, state.replacementGeneration.map (·.display)⟩ := by
  obtain ⟨generation, replacement⟩ := state
  cases replacement <;> rfl

/-- The line with its data. -/
def dataLine (state : TunnelEventState ServerRuntimeGeneration) : List Char :=
  ['d', 'a', 't', 'a', ':', ' '] ++ Json.compact state.wireFields

theorem isPrintable_of_mem_dataLine {c : Char} (h : c ∈ dataLine state) :
    Json.isPrintable c = true := by
  rcases List.mem_append.mp h with h | h
  · have hf : ∀ c ∈ ['d', 'a', 't', 'a', ':', ' '], Json.isPrintable c = true :=
      List.all_eq_true.mp (by decide)
    exact hf c h
  · exact Json.isPrintable_of_mem_compact plain_wireFields h

variable [Json.Writer]

namespace TunnelEventState

/-- `serde_json::to_string`. -/
def wireData (state : TunnelEventState ServerRuntimeGeneration) : List UInt8 :=
  ascii (Json.Writer.toString state.wireFields)

def encodeSse (state : TunnelEventState ServerRuntimeGeneration) : List UInt8 :=
  ascii ['e', 'v', 'e', 'n', 't', ':', ' '] ++ snapshotEventType ++
    ascii ['\n', 'd', 'a', 't', 'a', ':', ' '] ++ state.wireData ++ ascii ['\n', '\n']

/-- `decode`. -/
def decode (fromStr : List UInt8 → Option Json) (eventType : Option (List UInt8))
    (data : List UInt8) : Except TunnelEventError (TunnelEventState ServerRuntimeGeneration) :=
  if eventType ≠ some snapshotEventType then .error .unexpectedEventType
  else
    match (fromStr data).bind WireSnapshotIn.read with
    | none => .error .malformedState
    | some wire =>
      match ServerRuntimeGeneration.parse wire.generation with
      | none => .error .invalidGeneration
      | some serverGeneration =>
        match wire.replacementGeneration with
        | none => .ok ⟨serverGeneration, none⟩
        | some value =>
          match ServerRuntimeGeneration.parse value with
          | none => .error .malformedState
          | some replacement => .ok ⟨serverGeneration, some replacement⟩

/-- Every generation is a UUIDv7. -/
def IsV7 (state : TunnelEventState ServerRuntimeGeneration) : Prop :=
  state.serverGeneration.isV7 = true ∧
    ∀ generation ∈ state.replacementGeneration, generation.isV7 = true

end TunnelEventState

/-- `from_str` reads the object that `to_string` wrote. -/
def ReadsBack (fromStr : List UInt8 → Option Json)
    (state : TunnelEventState ServerRuntimeGeneration) : Prop :=
  fromStr state.wireData = some (Json.ofStrings state.wireFields)

/-! ## Decoding what was encoded -/

theorem wireData_eq (state : TunnelEventState ServerRuntimeGeneration) :
    state.wireData = ascii (Json.compact state.wireFields) :=
  congrArg ascii (Json.Writer.toString_plain _ plain_wireFields)

theorem decode_wireData (hj : ReadsBack fromStr state) (hv7 : state.IsV7) :
    TunnelEventState.decode fromStr (some snapshotEventType) state.wireData = .ok state := by
  have hre : (fromStr state.wireData).bind WireSnapshotIn.read = _ :=
    (congrArg (Option.bind · WireSnapshotIn.read) hj).trans read_ofStrings
  obtain ⟨hs, hr⟩ := hv7
  obtain ⟨generation, replacement⟩ := state
  rw [TunnelEventState.decode, if_neg (by simp), hre]
  simp only [ServerRuntimeGeneration.parse_display hs]
  cases replacement with
  | none => rfl
  | some replacement =>
    simp only [Option.map_some, ServerRuntimeGeneration.parse_display (hr _ rfl)]

/-! ## Framing -/

/-- What a Server writes to an event stream. -/
inductive Frame where
  | keepalive
  | snapshot (state : TunnelEventState ServerRuntimeGeneration)
deriving DecidableEq

namespace Frame

def bytes : Frame → List UInt8
  | .keepalive => keepaliveComment
  | .snapshot state => state.encodeSse

/-- What the parser gives for a frame. -/
def items : Frame → List SseParseItem
  | .keepalive => [.comment, .event ⟨none, []⟩]
  | .snapshot state => [.event ⟨some snapshotEventType, state.wireData⟩]

def state? : Frame → Option (TunnelEventState ServerRuntimeGeneration)
  | .keepalive => none
  | .snapshot state => some state

end Frame

/-- The lines of a frame. -/
def Frame.lines : Frame → List Text
  | .keepalive =>
    [printable [':', ' ', 'k', 'e', 'e', 'p', 'a', 'l', 'i', 'v', 'e']
      (List.all_eq_true.mp (by decide)), .blank]
  | .snapshot state =>
    [printable eventLine (List.all_eq_true.mp (by decide)),
     printable (dataLine state) fun _ => isPrintable_of_mem_dataLine, .blank]

theorem Frame.bytes_eq (frame : Frame) : frame.bytes = encodeLines .lf frame.lines := by
  cases frame with
  | keepalive => rfl
  | snapshot state =>
    have hd : ascii (dataLine state) = ascii ['d', 'a', 't', 'a', ':', ' '] ++ state.wireData :=
      (wireData_eq state).symm ▸ List.map_append
    simp only [Frame.bytes, TunnelEventState.encodeSse, Frame.lines, encodeLines_cons, printable,
      hd, List.append_assoc]
    rfl

theorem length_wireData (state : TunnelEventState ServerRuntimeGeneration) :
    state.wireData.length ≤ 200 := by
  have hd : ∀ generation : ServerRuntimeGeneration,
      generation.display.toList.length = 36 := by
    intro generation
    rw [ServerRuntimeGeneration.toList_display, Uuid.length_hyphenated]
  have hf : ∀ entry ∈ state.wireFields, (Json.field entry).length ≤ 70 := by
    intro entry he
    rw [Json.length_field]
    simp only [TunnelEventState.wireFields, List.mem_cons, Option.mem_toList,
      Option.map_eq_some_iff] at he
    rcases he with rfl | ⟨generation, -, rfl⟩
    · have hk : "generation".toList.length = 10 := by decide
      rw [hk, hd]
      decide
    · have hk : "replacement_generation".toList.length = 22 := by decide
      rw [hk, hd]
      decide
  rw [wireData_eq]
  obtain ⟨generation, replacement⟩ := state
  cases replacement with
  | none =>
    have hfi := hf _ (.head _)
    simp [TunnelEventState.wireFields, Json.compact, ascii] at hfi ⊢
    omega
  | some replacement =>
    have hfi := hf _ (.head _)
    have hs := hf _ (.tail _ (.head _))
    simp [TunnelEventState.wireFields, Json.compact, ascii] at hfi hs ⊢
    omega

theorem takeLine_data {g : Group} (hd : g.dataLines = []) :
    g.takeLine tunnelEventSseLimits (ascii (dataLine state)) =
      .ok ({ g with dataLines := [state.wireData] }, []) := by
  have hv : Utf8.valid (ascii (dataLine state)) = true := Utf8.valid_ascii fun byte hb =>
    (byte_of_isPrintable (fun _ => isPrintable_of_mem_dataLine) byte hb).2
  have hs : splitField (ascii (dataLine state)) =
      (ascii ['d', 'a', 't', 'a'], state.wireData) := by
    rw [wireData_eq]
    rfl
  have hl : ¬ tunnelEventSseLimits.maxEventDataBytes < state.wireData.length := by
    have hd := length_wireData state
    simp only [tunnelEventSseLimits]
    omega
  have hj : joinLines ([] ++ [state.wireData]) = state.wireData := by
    simp [joinLines]
  unfold Group.takeLine
  rw [if_neg (by rintro ⟨⟩), if_neg (by rw [hv]; decide), if_neg (by rintro ⟨⟩), hs]
  simp only [hd, hj, if_neg hl]
  rfl

/-- A frame gives its items and leaves nothing behind. -/
theorem takeLines_frame (frame : Frame) :
    takeLines tunnelEventSseLimits {} frame.lines = .ok ({}, frame.items) := by
  cases frame with
  | keepalive => rfl
  | snapshot state =>
    have he : ({} : Group).takeLine tunnelEventSseLimits (ascii eventLine) =
        .ok ({ eventType := some snapshotEventType }, []) := by decide
    have hs : ¬ tunnelEventSseLimits.maxLineBytes < (ascii eventLine).length := by decide
    have hl : ¬ tunnelEventSseLimits.maxLineBytes < (ascii (dataLine state)).length := by
      have hd := length_wireData state
      simp only [tunnelEventSseLimits, wireData_eq, dataLine, ascii, List.length_map,
        List.length_append, List.length_cons, List.length_nil] at hd ⊢
      omega
    refine (takeLines_blank [_, _]).trans ?_
    simp only [takeLines, printable, he, if_neg hs, if_neg hl, takeLine_data,
      Transducer.andThen_ok, Except.map]
    simp [Frame.items, joinLines]

theorem takeLines_frames (frames : List Frame) :
    takeLines tunnelEventSseLimits {} (frames.flatMap Frame.lines) =
      .ok ({}, frames.flatMap Frame.items) := by
  induction frames with
  | nil => rfl
  | cons frame frames ih =>
    rw [List.flatMap_cons, takeLines_append, takeLines_frame, Transducer.andThen_ok, ih]
    rfl

theorem bytes_frames (frames : List Frame) :
    frames.flatMap Frame.bytes = encodeLines .lf (frames.flatMap Frame.lines) := by
  induction frames with
  | nil => rfl
  | cons frame frames ih =>
    rw [List.flatMap_cons, List.flatMap_cons, encodeLines_append, frame.bytes_eq, ih]

/-- The frames of a stream, in chunks of any size. -/
theorem feed_frames {frames : List Frame} {chunks : List (List UInt8)}
    (hc : chunks.flatten = frames.flatMap Frame.bytes) :
    (SseParser.new tunnelEventSseLimits).feed chunks =
      (frames.flatMap Frame.items, .ok (.new tunnelEventSseLimits)) := by
  apply Transducer.feed_of_push_ok
  rw [hc, bytes_frames]
  refine (push_encodeLines (g := {}) (by decide) _).trans ?_
  rw [takeLines_frames]
  rfl

/-! ## Streams -/

/-- The events that `EventSubscription::next` does not take for a keepalive. -/
def nonEmptyEvents (items : List SseParseItem) : List SseEvent :=
  items.filterMap fun
    | .comment => none
    | .event event =>
      if event.eventType.isNone && event.data.isEmpty then none else some event

theorem nonEmptyEvents_frames (frames : List Frame) :
    nonEmptyEvents (frames.flatMap Frame.items) =
      (frames.filterMap Frame.state?).map fun state =>
        ⟨some snapshotEventType, state.wireData⟩ := by
  induction frames with
  | nil => rfl
  | cons frame frames ih =>
    rw [List.flatMap_cons, nonEmptyEvents, List.filterMap_append, ← nonEmptyEvents,
      ← nonEmptyEvents, ih]
    cases frame <;> rfl

/-- Whatever the chunks, a stream is decoded to the states that were sent, in order. -/
theorem decode_stream {frames : List Frame}
    (hse : ∀ state ∈ frames.filterMap Frame.state?, ReadsBack fromStr state ∧ state.IsV7)
    {chunks : List (List UInt8)}
    (hc : chunks.flatten = frames.flatMap Frame.bytes) :
    ∃ items, (SseParser.new tunnelEventSseLimits).feed chunks =
        (items, .ok (.new tunnelEventSseLimits)) ∧
      (nonEmptyEvents items).map
          (fun event => TunnelEventState.decode fromStr event.eventType event.data) =
        (frames.filterMap Frame.state?).map .ok := by
  refine ⟨_, feed_frames hc, ?_⟩
  rw [nonEmptyEvents_frames, List.map_map]
  apply List.map_congr_left
  intro state hs
  exact decode_wireData (hse state hs).1 (hse state hs).2

theorem flatMap_keepalives (n : Nat) :
    (List.replicate n Frame.keepalive).flatMap Frame.bytes =
      (List.replicate n keepaliveComment).flatten := by
  rw [List.flatMap_replicate]
  rfl

/-- A snapshot between keepalives, in chunks of any size, is one event that is not empty,
and it is decoded to the snapshot.  A generation is read from its canonical text only. -/
theorem tunnel_events_round_trip (fromStr : List UInt8 → Option Json) :
    (∀ (state : TunnelEventState ServerRuntimeGeneration) (before after : Nat)
      (chunks : List (List UInt8)), ReadsBack fromStr state → state.IsV7 →
      chunks.flatten = (List.replicate before keepaliveComment).flatten ++ state.encodeSse ++
        (List.replicate after keepaliveComment).flatten →
      ∃ items event,
        (SseParser.new tunnelEventSseLimits).feed chunks =
          (items, .ok (.new tunnelEventSseLimits)) ∧
        nonEmptyEvents items = [event] ∧
        TunnelEventState.decode fromStr event.eventType event.data = .ok state) ∧
    ∀ value : String,
      ((ServerRuntimeGeneration.parse value).isSome = true ↔
        ServerRuntimeGeneration.Wire value.toList) ∧
      ∀ generation, ServerRuntimeGeneration.parse value = some generation →
        generation.display = value := by
  refine ⟨fun state before after chunks hj hv7 hc => ?_, fun value => ⟨?_, ?_⟩⟩
  · have hf : chunks.flatten = (List.replicate before Frame.keepalive ++
        [Frame.snapshot state] ++ List.replicate after Frame.keepalive).flatMap Frame.bytes := by
      rw [hc, List.flatMap_append, List.flatMap_append, flatMap_keepalives,
        flatMap_keepalives, List.flatMap_singleton]
      rfl
    have hs : (List.replicate before Frame.keepalive ++ [Frame.snapshot state] ++
        List.replicate after Frame.keepalive).filterMap Frame.state? = [state] := by
      rw [List.filterMap_append, List.filterMap_append, List.filterMap_replicate_of_none rfl,
        List.filterMap_replicate_of_none rfl]
      rfl
    have ha : ∀ sent ∈ [state], ReadsBack fromStr sent ∧ sent.IsV7 :=
      List.forall_mem_singleton.mpr ⟨hj, hv7⟩
    rw [← hs] at ha
    obtain ⟨items, hfe, hd⟩ := decode_stream ha hf
    rw [hs, List.map_singleton] at hd
    obtain ⟨event, he, hst⟩ := List.map_eq_singleton_iff.mp hd
    exact ⟨items, event, hfe, he, hst⟩
  · rw [ServerRuntimeGeneration.wire_iff, Option.isSome_iff_exists]
    simp only [ServerRuntimeGeneration.parse_eq_some]
  · intro generation hp
    exact (ServerRuntimeGeneration.parse_eq_some.mp hp).1.symm

/-- A snapshot with a replacement. -/
def sampleState : TunnelEventState ServerRuntimeGeneration where
  serverGeneration := ⟨0x01928f3e7b6a7c3d8e4f0123456789ab⟩
  replacementGeneration := some ⟨0x01928f3e9c1d7fed9cba9876543210fe⟩

/-- The sample after one keepalive and before another, byte by byte. -/
def sampleChunks : List (List UInt8) :=
  (keepaliveComment ++ sampleState.encodeSse ++ keepaliveComment).map fun byte => [byte]

/-- A reader that knows the text of the sample only. -/
def sampleFromStr (data : List UInt8) : Option Json :=
  if data = sampleState.wireData then some (Json.ofStrings sampleState.wireFields) else none

end

theorem tunnel_events_round_trip_sample :
    letI := Uuid.plainLibrary
    letI := Json.plainWriter
    ReadsBack sampleFromStr sampleState ∧ sampleState.IsV7 ∧
      ∃ items event,
        (SseParser.new tunnelEventSseLimits).feed sampleChunks =
          (items, .ok (.new tunnelEventSseLimits)) ∧
        nonEmptyEvents items = [event] ∧
        TunnelEventState.decode sampleFromStr event.eventType event.data = .ok sampleState := by
  let _ := Uuid.plainLibrary
  let _ := Json.plainWriter
  have hj : ReadsBack sampleFromStr sampleState := if_pos rfl
  have hv7 : sampleState.IsV7 := ⟨by decide, by decide⟩
  refine ⟨hj, hv7, ?_⟩
  refine (tunnel_events_round_trip sampleFromStr).1 sampleState 1 1 sampleChunks hj hv7 ?_
  rw [sampleChunks, ← List.flatMap_def, List.flatMap_singleton']
  simp

end Runewarp.Tunnel
