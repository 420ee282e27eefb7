import Runewarp.ManagedSession.Lifecycle
import Runewarp.SseGrammar

/-!
# The event stream of a Managed session

`ingest_chunk` gives the bytes it reads to the parser of its connection, and then goes
through the items.  A framing error comes in place of the items of its chunk: those the
chunk completes before the offending byte are gone with it.  Those of the chunks before
have all been taken by then.
-/

namespace Runewarp.ManagedSession

open Sse Transducer

variable {V I : Type}

/-- What `ingest_chunk` makes of an item, with `parse_snapshot_event` as a parameter. -/
def streamItem (parseSnapshotEvent : SseEvent → Option (SnapshotEnvelope V)) :
    SseParseItem → StreamItem V
  | .comment => .ignored
  | .event event =>
    if event.eventType = none ∧ event.data = [] then .ignored
    else
      match parseSnapshotEvent event with
      | none => .invalid
      | some envelope => .snapshot envelope

/-- What `ingest_chunk` makes of the bytes of a chunk. -/
def readChunk (parseSnapshotEvent : SseEvent → Option (SnapshotEnvelope V)) (parser : SseParser)
    (bytes : List UInt8) : SseParser × Chunk V :=
  if bytes = [] then (parser, .empty)
  else
    match parser.push bytes with
    | .error _ => (parser, .malformed)
    | .ok (parser, items) => (parser, .items (items.map (streamItem parseSnapshotEvent)))

/-- A connection with its parser. -/
structure Downlink (V I : Type) where
  parser : SseParser
  applied : AppliedRevision
  connection : ConnectionLifecycle V I
  /-- The chunks that `next_chunk` has given. -/
  received : List (List UInt8) := []
  /-- The error that ended the connection. -/
  failure : Option ManagedSessionError := none

namespace Downlink

def connect (limits : SseLimits) (startedAt : Instant) (applied : AppliedRevision)
    (roleState : Bool) : Downlink V I :=
  { parser := .new limits, applied, connection := .connect startedAt roleState }

inductive Action (V : Type) where
  | chunk (now : Instant) (bytes : List UInt8)
  /-- Any other turn. -/
  | turn (now : Instant) (action : ConnectionLifecycle.Action V)

/-- Chunks of bytes come from the parser. -/
def ofBytes : ConnectionLifecycle.Action V → Bool
  | .chunk .empty | .chunk .malformed | .chunk (.items _) => true
  | _ => false

def after (d : Downlink V I) :
    Except ManagedSessionError (AppliedRevision × ConnectionLifecycle V I) → Downlink V I
  | .ok (applied, connection) => { d with applied, connection }
  | .error e => { d with failure := some e }

def step (parseSnapshotEvent : SseEvent → Option (SnapshotEnvelope V))
    (parseInput : V → Except InputError I) (d : Downlink V I) (a : Action V) :
    Option (Downlink V I) :=
  if d.failure.isSome then none
  else
    match a with
    | .chunk now bytes =>
      let (parser, chunk) := readChunk parseSnapshotEvent d.parser bytes
      (d.connection.step parseInput now d.applied (.chunk chunk)).map
        { d with parser, received := d.received ++ [bytes] }.after
    | .turn now action =>
      if ofBytes action then none
      else (d.connection.step parseInput now d.applied action).map d.after

def system (parseSnapshotEvent : SseEvent → Option (SnapshotEnvelope V))
    (parseInput : V → Except InputError I) : Lts (Downlink V I) (Action V) where
  step := step parseSnapshotEvent parseInput

end Downlink

/-! ## Snapshots taken and left -/

/-- The revisions of the snapshots that were accepted. -/
def accepted (events : List ManagedSessionEvent) : List Revision :=
  events.filterMap fun
    | .snapshot revision => some revision
    | _ => none

/-- The revisions of the snapshots among items. -/
def snapshots (items : List (StreamItem V)) : List Revision :=
  items.filterMap fun
    | .snapshot envelope => some envelope.revision
    | _ => none

/-- The items still to be gone through. -/
def Control.left : Control V → List (StreamItem V)
  | .ingest items => items
  | _ => []

@[simp] theorem Control.left_top : (Control.top : Control V).left = [] := rfl

@[simp] theorem Control.left_select {wake : Instant} :
    (Control.select wake : Control V).left = [] := rfl

@[simp] theorem Control.left_ingest {items : List (StreamItem V)} :
    (Control.ingest items).left = items := rfl

@[simp] theorem accepted_append (events events' : List ManagedSessionEvent) :
    accepted (events ++ events') = accepted events ++ accepted events' :=
  List.filterMap_append

@[simp] theorem accepted_supersedes (q : SnapshotQueue I) : accepted q.supersedes = [] := by
  unfold SnapshotQueue.supersedes
  cases q.pending <;> rfl

theorem snapshots_append (items items' : List (StreamItem V)) :
    snapshots (items ++ items') = snapshots items ++ snapshots items' :=
  List.filterMap_append

theorem snapshots_ignored (items : List (StreamItem V)) :
    snapshots (.ignored :: items) = snapshots items := rfl

theorem snapshots_snapshot (envelope : SnapshotEnvelope V) (items : List (StreamItem V)) :
    snapshots (.snapshot envelope :: items) = envelope.revision :: snapshots items := rfl

variable {parseInput : V → Except InputError I} {applied applied' : AppliedRevision}
  {c c' : ConnectionLifecycle V I} {a : ConnectionLifecycle.Action V} {now : Instant}
  {e : ManagedSessionError} {items : List (StreamItem V)}

/-- A snapshot is left until it is accepted. -/
theorem Turn.accepted_left (h : Turn parseInput applied c a applied' c')
    (hch : ∀ items, a ≠ .chunk (.items items))
    (hr : a.returnsApply = true → c.control.left = []) :
    accepted c'.events ++ snapshots c'.control.left =
      accepted c.events ++ snapshots c.control.left := by
  cases h with
  | wait _ he =>
    have hl : c.control.left = [] := by
      cases hc : c.control with
      | ingest items => exact he items hc
      | _ => rfl
    rw [hl]
    rfl
  | chunk => exact absurd rfl (hch _)
  | select ht =>
    rw [ht, Control.left_top, Control.left_select]
  | ignored hl =>
    rw [hl, Control.left_ingest, Control.left_ingest, snapshots_ignored]
  | reported hl | noted hl | invalid hl =>
    rw [hl]
    simp only [Control.left_ingest, snapshots_snapshot, accepted_append, accepted_supersedes,
      List.append_nil, List.append_assoc]
    rfl
  | current => rfl
  | start =>
    simp [accepted]
  | _ =>
    rw [hr rfl, accepted_append]
    simp [accepted]

/-- The apply returns in the select, where nothing is left. -/
theorem left_of_returnsApply {outcome : Except ManagedSessionError
      (AppliedRevision × ConnectionLifecycle V I)}
    (h : c.step parseInput now applied a = some outcome) (ha : a.returnsApply = true) :
    c.control.left = [] := by
  cases a with
  | applyReturns result =>
    cases hc : c.control with
    | ingest items => cases items <;> simp [ConnectionLifecycle.step, hc] at h
    | _ => rfl
  | _ => cases ha

theorem step_chunk {chunk : Chunk V} {outcome : Except ManagedSessionError
      (AppliedRevision × ConnectionLifecycle V I)}
    (h : c.step parseInput now applied (.chunk chunk) = some outcome) :
    c.control.left = [] ∧ outcome = (c.beginChunk now chunk).map fun c => (applied, c) := by
  cases hc : c.control with
  | top => simp [ConnectionLifecycle.step, hc] at h
  | ingest items => cases items <;> simp [ConnectionLifecycle.step, hc] at h
  | select wake => exact ⟨rfl, by simpa [ConnectionLifecycle.step, hc] using h.symm⟩

theorem error_of_map {ε α β : Type} {f : α → β} {x : Except ε α} {error : ε}
    (h : x.map f = .error error) : x = .error error := by
  cases x with
  | error =>
    cases h
    rfl
  | ok => cases h

theorem handleTimer_ne_sse : c.handleTimer now ≠ .error .sse := by
  unfold ConnectionLifecycle.handleTimer
  split
  · split <;> nofun
  · nofun

theorem drive_ne_sse : c.drive now applied ≠ .error .sse := by
  unfold ConnectionLifecycle.drive
  dsimp only
  split
  next h =>
    intro heq
    cases heq
    exact handleTimer_ne_sse h
  next =>
    split
    · split <;> nofun
    · nofun

theorem ingestItem_ne_sse {item : StreamItem V} :
    c.ingestItem parseInput now applied item ≠ .error .sse := by
  cases item with
  | ignored => nofun
  | invalid => nofun
  | snapshot envelope =>
    unfold ConnectionLifecycle.ingestItem
    dsimp only
    split
    · nofun
    · unfold ConnectionLifecycle.acceptEnvelope
      split
      · nofun
      · split <;> nofun

/-- Only bytes that the parser refuses are a framing error. -/
theorem step_sse (h : c.step parseInput now applied a = some (.error .sse)) :
    a = .chunk .malformed := by
  unfold ConnectionLifecycle.step at h
  split at h
  · exact absurd (error_of_map (Option.some.inj h)) drive_ne_sse
  · cases h
  · exact absurd (error_of_map (Option.some.inj h)) ingestItem_ne_sse
  · next wake chunk hs =>
    cases chunk with
    | malformed => rfl
    | _ => cases error_of_map (Option.some.inj h)
  · split at h
    · exact absurd (error_of_map (Option.some.inj h)) handleTimer_ne_sse
    · cases h
  · split at h <;> cases h
  · split at h
    · cases h
    · next result _ _ =>
      cases result with
      | _ => cases error_of_map (Option.some.inj h)
  · split at h <;> cases h
  · split at h <;> cases h
  · cases h

namespace Downlink

variable {parseSnapshotEvent : SseEvent → Option (SnapshotEnvelope V)} {limits : SseLimits}
  {d d' : Downlink V I}

/-- The revisions of the snapshots among the items of the parser. -/
def revisions (parseSnapshotEvent : SseEvent → Option (SnapshotEnvelope V))
    (items : List SseParseItem) : List Revision :=
  snapshots (items.map (streamItem parseSnapshotEvent))

theorem revisions_append (items more : List SseParseItem) :
    revisions parseSnapshotEvent (items ++ more) =
      revisions parseSnapshotEvent items ++ revisions parseSnapshotEvent more := by
  simp only [revisions, List.map_append, snapshots_append]

/-- Every snapshot that the parser has returned is accepted or left.  After a framing error
none is left. -/
inductive Delivered (parseSnapshotEvent : SseEvent → Option (SnapshotEnvelope V))
    (limits : SseLimits) (d : Downlink V I) : Prop where
  | reading (items : List SseParseItem) :
      d.failure ≠ some .sse →
      (SseParser.new limits).feed d.received = (items, .ok d.parser) →
      (d.failure = none → accepted d.connection.events ++ snapshots d.connection.control.left =
        revisions parseSnapshotEvent items) →
      Delivered parseSnapshotEvent limits d
  | refused (before : List (List UInt8)) (chunk : List UInt8) (items : List SseParseItem)
      (p : SseParser) (e : SseParseError) :
      d.failure = some .sse →
      d.received = before ++ [chunk] →
      (SseParser.new limits).feed before = (items, .ok p) →
      p.push chunk = .error e →
      accepted d.connection.events = revisions parseSnapshotEvent items →
      Delivered parseSnapshotEvent limits d

theorem delivered_connect {startedAt : Instant} {roleState : Bool} :
    (connect limits startedAt applied roleState : Downlink V I).Delivered parseSnapshotEvent
      limits :=
  .reading [] nofun rfl fun _ => rfl

theorem Delivered.taken {bytes : List UInt8} {parser : SseParser} {more : List SseParseItem}
    (h : d.Delivered parseSnapshotEvent limits) (hd : d.failure = none)
    (hp : d.parser.push bytes = .ok (parser, more)) (hl : d.connection.control.left = [])
    (he : c.events = d.connection.events)
    (hm : snapshots c.control.left = revisions parseSnapshotEvent more) :
    ({ d with parser, received := d.received ++ [bytes], connection := c, failure := none }
      : Downlink V I).Delivered parseSnapshotEvent limits := by
  cases h with
  | refused _ _ _ _ _ hs => cases hd.symm.trans hs
  | reading items _ hf ht =>
    refine .reading (items ++ more) nofun (feed_concat_ok hf hp) fun _ => ?_
    have ht := ht hd
    rw [hl] at ht
    rw [he, hm, revisions_append]
    exact congrArg (· ++ _) ((List.append_nil _).symm.trans ht)

theorem Delivered.refuse {bytes : List UInt8} {e : SseParseError}
    (h : d.Delivered parseSnapshotEvent limits) (hd : d.failure = none)
    (hp : d.parser.push bytes = .error e) (hl : d.connection.control.left = []) :
    ({ d with received := d.received ++ [bytes], failure := some .sse }
      : Downlink V I).Delivered parseSnapshotEvent limits := by
  cases h with
  | refused _ _ _ _ _ hs => cases hd.symm.trans hs
  | reading items _ hf ht =>
    refine .refused d.received bytes items d.parser e rfl rfl hf hp ?_
    have ht := ht hd
    rw [hl] at ht
    exact (List.append_nil _).symm.trans ht

theorem Delivered.chunk {bytes : List UInt8} (h : d.Delivered parseSnapshotEvent limits)
    (hd : d.failure = none)
    (hs : d.step parseSnapshotEvent parseInput (.chunk now bytes) = some d') :
    d'.Delivered parseSnapshotEvent limits := by
  simp only [Downlink.step, hd, Option.isSome_none, Bool.false_eq_true, if_false] at hs
  obtain ⟨outcome, hc, rfl⟩ := Option.map_eq_some_iff.mp hs
  obtain ⟨hl, rfl⟩ := step_chunk hc
  by_cases he : bytes = []
  · subst he
    have hp : d.parser.push [] = .ok (d.parser, []) := rfl
    exact h.taken hd hp hl (c := { d.connection with control := .top }) rfl rfl
  · simp only [readChunk, if_neg he]
    cases hp : d.parser.push bytes with
    | error e => exact h.refuse hd hp hl
    | ok next =>
      exact h.taken hd hp hl
        (c := { d.connection with
          deadlines := d.connection.deadlines.noteBytes now
          control := .ingest (next.2.map (streamItem parseSnapshotEvent)) }) rfl rfl

theorem Delivered.turn (h : d.Delivered parseSnapshotEvent limits) (hd : d.failure = none)
    (hs : d.step parseSnapshotEvent parseInput (.turn now a) = some d') :
    d'.Delivered parseSnapshotEvent limits := by
  simp only [Downlink.step, hd, Option.isSome_none, Bool.false_eq_true, if_false] at hs
  obtain ⟨hb, hs⟩ := Option.ite_none_left_eq_some.mp hs
  obtain ⟨outcome, ht, rfl⟩ := Option.map_eq_some_iff.mp hs
  cases h with
  | refused _ _ _ _ _ hss => cases hd.symm.trans hss
  | reading items hss hf hto =>
    cases outcome with
    | error e =>
      refine .reading items ?_ hf nofun
      rintro ⟨⟩
      rw [step_sse ht] at hb
      exact hb rfl
    | ok next =>
      refine .reading items hss hf fun _ => ?_
      rw [← hto hd]
      refine (turn_of_step ht).accepted_left ?_ (left_of_returnsApply ht)
      rintro items rfl
      exact hb rfl

theorem Delivered.step {a : Action V} (h : d.Delivered parseSnapshotEvent limits)
    (hs : d.step parseSnapshotEvent parseInput a = some d') :
    d'.Delivered parseSnapshotEvent limits := by
  have hd : d.failure = none := by
    cases hf : d.failure with
    | none => rfl
    | some e => simp [Downlink.step, hf] at hs
  cases a with
  | chunk now bytes => exact h.chunk hd hs
  | turn now action => exact h.turn hd hs

theorem delivered {startedAt : Instant} {roleState : Bool}
    (h : (system parseSnapshotEvent parseInput).Reaches (connect limits startedAt applied roleState)
      d) : d.Delivered parseSnapshotEvent limits :=
  h.invariant (I := fun d => d.Delivered parseSnapshotEvent limits)
    (fun _ _ _ hd _ hs => hd.step hs) delivered_connect

/-! ## Before a framing error -/

/-- The stream fails at byte `n`.  However it is cut, the items of the chunks before the
one that holds this byte are returned; `lost` are those that this chunk completes before
the byte.  A session that reads the chunks up to this one fails with the framing error, and
has by then accepted every snapshot among the items that are returned. -/
theorem accepted_before_framing_error (limits : SseLimits) (chunks : List (List UInt8)) (n : Nat)
    (e : SseParseError)
    (hbefore : ∃ done, (SseParser.new limits).push (chunks.flatten.take n) = .ok done)
    (hfail : (SseParser.new limits).push (chunks.flatten.take (n + 1)) = .error e) :
    ∃ before chunk after p items q lost, chunks = before ++ chunk :: after ∧
      before.flatten.length ≤ n ∧ n < before.flatten.length + chunk.length ∧
      (SseParser.new limits).push before.flatten = .ok (p, items) ∧
      p.push (chunk.take (n - before.flatten.length)) = .ok (q, lost) ∧
      (SseParser.new limits).push (chunks.flatten.take n) = .ok (q, items ++ lost) ∧
      (SseParser.new limits).feed chunks = (items, .error e) ∧
      ∀ (V I : Type) (parseSnapshotEvent : SseEvent → Option (SnapshotEnvelope V))
        (parseInput : V → Except InputError I) (startedAt : Instant) (applied : AppliedRevision)
        (roleState : Bool) (d : Downlink V I),
        (system parseSnapshotEvent parseInput).Reaches (connect limits startedAt applied roleState)
          d →
        d.received = before ++ [chunk] →
        d.failure = some .sse ∧
          accepted d.connection.events = revisions parseSnapshotEvent items := by
  obtain ⟨done, hd⟩ := hbefore
  have htr : trace SseParser.pushByte 0 (.new limits) chunks.flatten = .error (n, e) :=
    trace_of_fails_at hd hfail
  obtain ⟨before, chunk, after, p, items, hch, hp, hc, hfe⟩ := feed_of_error htr
  rw [Nat.zero_add] at hc
  obtain ⟨hle, hlt, ⟨q, lost, ht⟩, -⟩ := trace_error hc
  have hf : (SseParser.new limits).feed before = (items, .ok p) := feed_of_ok hp
  refine ⟨before, chunk, after, p, items, q, lost, hch, hle, hlt, push_of_ok hp,
    push_of_ok ht, ?_, hfe, ?_⟩
  · have hs : chunks.flatten.take n =
        before.flatten ++ chunk.take (n - before.flatten.length) := by
      rw [hch, List.flatten_append, List.flatten_cons, List.take_append,
        List.take_of_length_le hle, List.take_append_of_le_length (by omega)]
    refine push_of_ok (n := 0) ?_
    rw [hs, trace_append, hp, andThen_ok, Nat.zero_add, ht]
    rfl
  · intro V I parseSnapshotEvent parseInput startedAt applied roleState d hra hr
    cases delivered hra with
    | reading items' hss hre =>
      rw [hr] at hre
      have he := feed_concat_error hf (push_of_error hc)
      cases (congrArg Prod.snd hre).symm.trans he
    | refused before' chunk' items' p' e' hss hat hb' hpu ha =>
      obtain ⟨rfl, -⟩ := List.append_inj' (hat.symm.trans hr) rfl
      cases hb'.symm.trans hf
      exact ⟨hss, ha⟩

def snapshotType : List UInt8 := ascii ['s', 'n', 'a', 'p', 's', 'h', 'o', 't']

/-- The event `snapshot` with the data `x`, and then a line that is not UTF-8. -/
def oneEvent : List UInt8 :=
  ascii ['e', 'v', 'e', 'n', 't', ':', ' '] ++ snapshotType ++
    ascii ['\n', 'd', 'a', 't', 'a', ':', ' ', 'x', '\n', '\n']

@[inherit_doc oneEvent]
def notUtf8 : List UInt8 := [255, lf]

def sampleLimits : SseLimits := ⟨64, 64, 64⟩

/-- The event is a snapshot of the revision `r`, and every input is accepted. -/
def sampleSystem : Lts (Downlink Unit Unit) (Action Unit) :=
  system (fun event => if event = ⟨some snapshotType, ascii ['x']⟩ then some ⟨"r", ()⟩ else none)
    fun _ => .ok ()

/-- The event comes in a chunk of its own, and is accepted. -/
theorem accepted_before_framing_error_of_chunk :
    ∃ d, sampleSystem.Reaches (connect sampleLimits 0 {} false) d ∧
      d.received = [oneEvent, notUtf8] ∧ d.failure = some .sse ∧
      accepted d.connection.events = ["r"] := by
  have he : ∃ d ∈ sampleSystem.exec (connect sampleLimits 0 {} false)
      [.turn 0 .drive, .chunk 0 oneEvent, .turn 0 .ingest, .turn 0 .ingest, .turn 0 .drive,
        .turn 0 .drive, .chunk 0 notUtf8], d.received = [oneEvent, notUtf8] := by
    decide
  obtain ⟨d, hd, hr⟩ := he
  have hre := Lts.Reaches.of_exec hd
  obtain ⟨before, chunk, after, p, items, q, lost, hc, hle, hlt, hp, -, -, -, hs⟩ :=
    accepted_before_framing_error sampleLimits [oneEvent, notUtf8] 26 .invalidUtf8 ⟨_, rfl⟩ rfl
  -- Byte 26 is in the second chunk.
  have hb : before = [oneEvent] ∧ chunk = notUtf8 := by
    rcases before with _ | ⟨first, _ | ⟨second, rest⟩⟩
    · cases hc
      exact absurd hlt (by decide)
    · cases hc
      exact ⟨rfl, rfl⟩
    · simp at hc
  obtain ⟨rfl, rfl⟩ := hb
  obtain ⟨hf, ha⟩ := hs _ _ _ _ _ _ _ d hre hr
  cases hp
  exact ⟨d, hre, hr, hf, ha⟩

/-- In one chunk with the error, the event is completed by the bytes before the error, and
lost; the session fails without it. -/
theorem event_lost_with_chunk :
    ((SseParser.new sampleLimits).push ((oneEvent ++ notUtf8).take 26)).map Prod.snd =
        .ok [.event ⟨some snapshotType, ascii ['x']⟩] ∧
      ((SseParser.new sampleLimits).push ((oneEvent ++ notUtf8).take 27)).map Prod.snd =
        .error .invalidUtf8 ∧
      ((SseParser.new sampleLimits).feed [oneEvent ++ notUtf8]).1 = [] ∧
      ∃ d ∈ sampleSystem.exec (connect sampleLimits 0 {} false)
          [.turn 0 .drive, .chunk 0 (oneEvent ++ notUtf8)],
        d.failure = some .sse ∧ accepted d.connection.events = [] :=
  ⟨rfl, rfl, rfl, by decide⟩

end Downlink

end Runewarp.ManagedSession
