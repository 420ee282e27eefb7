import Mathlib.Data.List.TakeWhile
import Runewarp.Sse

/-!
# The line grammar of the event stream

A reference for `SseParser` that sees the whole stream.  `splitLines` cuts it into lines
that end in LF, CRLF or CR, and an unfinished rest.  `Group.takeLine` says what a line
does to the event that is being put together, and `reference` folds it over the lines.

The end of a line takes effect at its LF, and at the byte after it when it is a lone CR.
A line that is too long fails at the first byte that does not fit.

`SseParser` makes the same of the stream, however it is cut into chunks: between two lines
its state is that of the group (`ofGroup`), and one line of the stream leads from one such
state to the next (`trace_line`).
-/

namespace Runewarp.Sse

open Transducer

/-! ## Lines -/

inductive Ending where
  | lf
  | crlf
  | cr
deriving DecidableEq

def Ending.bytes : Ending → List UInt8
  | .lf => [Sse.lf]
  | .crlf => [Sse.cr, Sse.lf]
  | .cr => [Sse.cr]

/-- How many bytes after its first the end takes effect. -/
def Ending.delay : Ending → Nat
  | .lf => 0
  | .crlf | .cr => 1

structure Line where
  content : List UInt8
  ending : Ending
deriving DecidableEq

/-- A byte that does not end a line. -/
def isText (byte : UInt8) : Bool := decide (byte ≠ lf) && decide (byte ≠ cr)

/-- The bytes of the first line. -/
def textOf (stream : List UInt8) : List UInt8 := stream.takeWhile isText

/-- The first line and what comes after it.  Which end a CR is part of is known with the
byte after it. -/
def firstLine (stream : List UInt8) : Option (Line × List UInt8) :=
  match stream.dropWhile isText with
  | [] => none
  | a :: rest =>
    if a = lf then some (⟨textOf stream, .lf⟩, rest)
    else
      match rest with
      | [] => none
      | b :: after =>
        if b = lf then some (⟨textOf stream, .crlf⟩, after)
        else some (⟨textOf stream, .cr⟩, b :: after)

variable {stream rest : List UInt8} {line : Line}

variable {byte : UInt8}

theorem isText_of_mem_textOf (h : byte ∈ textOf stream) : isText byte = true :=
  List.mem_takeWhile_imp h

theorem isText_eq_false (h : isText byte = false) : byte = lf ∨ byte = cr := by
  simpa [isText, or_iff_not_imp_left] using h

/-- Text up to a byte that ends a line. -/
theorem textOf_append_dropWhile (h : stream.dropWhile isText = byte :: rest) :
    stream = textOf stream ++ byte :: rest ∧ (byte = lf ∨ byte = cr) := by
  refine ⟨?_, isText_eq_false ?_⟩
  · rw [← h]
    exact List.takeWhile_append_dropWhile.symm
  · have hh := List.head?_dropWhile_not isText stream
    rw [h] at hh
    exact hh

/-- A stream with a line: the line, the end of it, and the rest. -/
theorem firstLine_eq_some (h : firstLine stream = some (line, rest)) :
    stream = line.content ++ (line.ending.bytes ++ rest) ∧
      (∀ byte ∈ line.content, isText byte = true) ∧
      (line.ending = .cr → ∃ byte after, rest = byte :: after ∧ byte ≠ lf) := by
  unfold firstLine at h
  split at h
  next => cases h
  next a more hd =>
    obtain ⟨hs, he⟩ := textOf_append_dropWhile hd
    have ht : ∀ byte ∈ textOf stream, isText byte = true := fun _ => isText_of_mem_textOf
    split at h
    next ha =>
      subst ha
      cases h
      exact ⟨hs, ht, nofun⟩
    next ha =>
      obtain rfl := he.resolve_left ha
      split at h
      next => cases h
      next b after =>
        split at h
        next hb =>
          subst hb
          cases h
          exact ⟨hs, ht, nofun⟩
        next hb =>
          cases h
          exact ⟨hs, ht, fun _ => ⟨b, after, rfl, hb⟩⟩

/-- A stream without one: text, and maybe a CR. -/
theorem firstLine_eq_none (h : firstLine stream = none) :
    stream = textOf stream ∨ stream = textOf stream ++ [cr] := by
  unfold firstLine at h
  split at h
  next hd =>
    have hs : textOf stream ++ stream.dropWhile isText = stream :=
      List.takeWhile_append_dropWhile
    rw [hd, List.append_nil] at hs
    exact .inl hs.symm
  next a more hd =>
    obtain ⟨hst, he⟩ := textOf_append_dropWhile hd
    split at h
    next => cases h
    next ha =>
      obtain rfl := he.resolve_left ha
      split at h
      next => exact .inr hst
      next =>
        split at h
        next => cases h
        next => cases h

theorem length_of_firstLine (h : firstLine stream = some (line, rest)) :
    rest.length < stream.length := by
  obtain ⟨rfl, -, -⟩ := firstLine_eq_some h
  have hp : 0 < line.ending.bytes.length := by cases line.ending <;> simp [Ending.bytes]
  simp only [List.length_append]
  omega

/-- The lines of a stream, and its unfinished rest. -/
def splitLines (stream : List UInt8) : List Line × List UInt8 :=
  match _h : firstLine stream with
  | none => ([], stream)
  | some (line, rest) => (line :: (splitLines rest).1, (splitLines rest).2)
termination_by stream.length
decreasing_by all_goals exact length_of_firstLine ‹_›

/-! ## Events -/

/-- The event that is being put together. -/
structure Group where
  eventType : Option (List UInt8) := none
  dataLines : List (List UInt8) := []
deriving DecidableEq

/-- What a line does. -/
def Group.takeLine (limits : SseLimits) (g : Group) (content : List UInt8) :
    Except SseParseError (Group × List SseParseItem) :=
  if content = [] then .ok ({}, [.event ⟨g.eventType, joinLines g.dataLines⟩])
  else if Utf8.valid content = false then .error .invalidUtf8
  else if content.head? = some colon then .ok (g, [.comment])
  else
    let (field, value) := splitField content
    if field = ascii ['e', 'v', 'e', 'n', 't'] then
      if limits.maxEventTypeBytes < value.length then
        .error (.limitExceeded .eventType value.length limits.maxEventTypeBytes)
      else .ok ({ g with eventType := some value }, [])
    else if field = ascii ['d', 'a', 't', 'a'] then
      let data := joinLines (g.dataLines ++ [value])
      if limits.maxEventDataBytes < data.length then
        .error (.limitExceeded .eventData data.length limits.maxEventDataBytes)
      else .ok ({ g with dataLines := g.dataLines ++ [value] }, [])
    else .ok (g, [])

/-- The error of a line that is too long, at the first byte that does not fit. -/
def tooLong (limits : SseLimits) (start : Nat) : Nat × SseParseError :=
  (start + limits.maxLineBytes, .limitExceeded .line (limits.maxLineBytes + 1) limits.maxLineBytes)

/-- The lines of a stream that are still to be taken, from byte `start` on. -/
def foldLines (limits : SseLimits) (start : Nat) (g : Group) :
    List Line → List UInt8 → Except (Nat × SseParseError) (List SseParseItem)
  | [], tail =>
    if limits.maxLineBytes < (textOf tail).length then .error (tooLong limits start) else .ok []
  | line :: lines, tail =>
    if limits.maxLineBytes < line.content.length then .error (tooLong limits start)
    else
      match g.takeLine limits line.content with
      | .error e => .error (start + line.content.length + line.ending.delay, e)
      | .ok (g, items) =>
        (foldLines limits (start + line.content.length + line.ending.bytes.length) g
          lines tail).map (items ++ ·)

/-- What the grammar makes of a stream: its items, or its error with the byte at which it
is raised. -/
def reference (limits : SseLimits) (stream : List UInt8) :
    Except (Nat × SseParseError) (List SseParseItem) :=
  foldLines limits 0 {} (splitLines stream).1 (splitLines stream).2

/-! ## The parser between two lines -/

/-- A parser that has this group, and this much of a line. -/
def ofGroup (limits : SseLimits) (g : Group) (pending : List UInt8) : SseParser :=
  { limits
    pending
    eventType := g.eventType
    dataLines := g.dataLines
    dataBytes := (joinLines g.dataLines).length }

variable {limits : SseLimits} {g : Group} {n : Nat} {content pending : List UInt8}

theorem joinLines_concat (lines : List (List UInt8)) (value : List UInt8) :
    (joinLines (lines ++ [value])).length =
      (joinLines lines).length + if lines.isEmpty then value.length else value.length + 1 := by
  unfold joinLines
  induction lines with
  | nil => simp [List.intercalate]
  | cons first lines ih =>
    cases lines with
    | nil => simp [List.intercalate, List.intersperse]
    | cons second lines =>
      simp only [List.cons_append, List.intercalate_cons_cons, List.length_append,
        List.isEmpty_cons, Bool.false_eq_true, if_false] at ih ⊢
      omega

theorem addData_ofGroup (value : List UInt8) : (ofGroup limits g []).addData value =
    if limits.maxEventDataBytes < (joinLines (g.dataLines ++ [value])).length then
      .error (.limitExceeded .eventData (joinLines (g.dataLines ++ [value])).length
        limits.maxEventDataBytes)
    else .ok (ofGroup limits { g with dataLines := g.dataLines ++ [value] } [], []) := by
  simp only [SseParser.addData, ofGroup, joinLines_concat]
  rfl

theorem finishLine_ofGroup : (ofGroup limits g content).finishLine =
    (g.takeLine limits content).map fun (g, items) => (ofGroup limits g [], items) := by
  by_cases he : content = []
  · simp [SseParser.finishLine, Group.takeLine, he, ofGroup, SseParser.dispatchEvent,
      Except.map, joinLines]
  · by_cases hv : Utf8.valid content = false
    · simp [SseParser.finishLine, Group.takeLine, he, hv, ofGroup, Except.map]
    · by_cases hc : content.head? = some colon
      · simp [SseParser.finishLine, Group.takeLine, he, hv, hc, ofGroup, Except.map]
      · -- A field of the event.
        have hf : (ofGroup limits g content).finishLine =
            if (splitField content).1 = ascii ['e', 'v', 'e', 'n', 't'] then
              (ofGroup limits g []).setEventType (splitField content).2
            else if (splitField content).1 = ascii ['d', 'a', 't', 'a'] then
              (ofGroup limits g []).addData (splitField content).2
            else .ok (ofGroup limits g [], []) := by
          unfold SseParser.finishLine
          dsimp only [ofGroup]
          rw [if_neg he, if_neg hv, if_neg hc]
        rw [hf, addData_ofGroup, Group.takeLine, if_neg he, if_neg hv,
          if_neg hc]
        dsimp only
        split
        next =>
          simp only [SseParser.setEventType]
          split
          next hl => rw [if_pos (by exact hl)]; rfl
          next hl => rw [if_neg (by exact hl)]; rfl
        next =>
          split
          next => split <;> rfl
          next => rfl

theorem pushByte_text (h : isText byte = true) : (ofGroup limits g pending).pushByte byte =
      if limits.maxLineBytes ≤ pending.length then
        .error (.limitExceeded .line (pending.length + 1) limits.maxLineBytes)
      else .ok (ofGroup limits g (pending ++ [byte]), []) := by
  simp only [isText, Bool.and_eq_true, decide_eq_true_eq] at h
  simp only [SseParser.pushByte, SseParser.acceptByte, ofGroup, h.1, h.2, if_false,
    Bool.false_eq_true]
  rfl

theorem trace_text (ht : ∀ byte ∈ content, isText byte = true)
    (hf : pending.length + content.length ≤ limits.maxLineBytes) :
    trace SseParser.pushByte n (ofGroup limits g pending) content =
      .ok (ofGroup limits g (pending ++ content), []) := by
  induction content generalizing n pending with
  | nil => simp [trace]
  | cons byte content ih =>
    rw [List.length_cons] at hf
    have hlt : ¬ limits.maxLineBytes ≤ pending.length := by omega
    have hl : (pending ++ [byte]).length + content.length ≤ limits.maxLineBytes := by
      simp only [List.length_append, List.length_singleton]
      omega
    have hr := ih (n := n + 1) (fun b hb => ht b (.tail _ hb)) hl
    rw [trace, pushByte_text (ht byte (.head _)), if_neg hlt]
    simp [Except.mapError, hr, Except.map]

/-- Text that does not fit fails at the first byte that is too much. -/
theorem trace_text_tooLong (ht : ∀ byte ∈ content, isText byte = true)
    (hp : pending.length ≤ limits.maxLineBytes)
    (hl : limits.maxLineBytes < pending.length + content.length) :
    trace SseParser.pushByte (n + pending.length) (ofGroup limits g pending) content =
      .error (tooLong limits n) := by
  induction content generalizing pending with
  | nil =>
    simp only [List.length_nil] at hl
    omega
  | cons byte content ih =>
    rw [List.length_cons] at hl
    rw [trace, pushByte_text (ht byte (.head _))]
    by_cases hf : limits.maxLineBytes ≤ pending.length
    · obtain heq : pending.length = limits.maxLineBytes := by omega
      simp [heq, Except.mapError, tooLong]
    · have hr := @ih (pending ++ [byte]) (fun b hb => ht b (.tail _ hb))
        (by simp only [List.length_append, List.length_singleton]; omega)
        (by simp only [List.length_append, List.length_singleton]; omega)
      rw [List.length_append, List.length_singleton, ← Nat.add_assoc] at hr
      simp [hf, Except.mapError, hr, Except.map]

/-- Such a parser after a CR. -/
def ofGroupCr (limits : SseLimits) (g : Group) (pending : List UInt8) : SseParser :=
  { ofGroup limits g pending with sawCr := true }

theorem pushByte_cr :
    (ofGroup limits g content).pushByte cr = .ok (ofGroupCr limits g content, []) := rfl

theorem pushByte_lf :
    (ofGroup limits g content).pushByte lf = (ofGroup limits g content).finishLine := rfl

theorem pushByte_crlf :
    (ofGroupCr limits g content).pushByte lf = (ofGroup limits g content).finishLine := rfl

theorem pushByte_lone (h : byte ≠ lf) : (ofGroupCr limits g content).pushByte byte =
      andThen (ofGroup limits g content).finishLine fun p => p.acceptByte byte := by
  simp only [SseParser.pushByte, ofGroupCr, if_true, h, if_false]
  rfl

theorem trace_ending_error {ending : Ending} {e : SseParseError}
    (hcr : ending = .cr → ∃ byte after, rest = byte :: after ∧ byte ≠ lf)
    (hl : g.takeLine limits content = .error e) :
    trace SseParser.pushByte n (ofGroup limits g content) (ending.bytes ++ rest) =
      .error (n + ending.delay, e) := by
  have hf : (ofGroup limits g content).finishLine = .error e := by
    rw [finishLine_ofGroup, hl]
    rfl
  cases ending with
  | lf => exact trace_cons_error (pushByte_lf.trans hf)
  | crlf =>
    exact (trace_cons_silent pushByte_cr).trans (trace_cons_error (pushByte_crlf.trans hf))
  | cr =>
    obtain ⟨byte, after, rfl, hb⟩ := hcr rfl
    have hlo : (ofGroupCr limits g content).pushByte byte = .error e := by
      rw [pushByte_lone hb, hf]
      rfl
    exact (trace_cons_silent pushByte_cr).trans (trace_cons_error hlo)

theorem trace_ending {ending : Ending} {g' : Group} {items : List SseParseItem}
    (hcr : ending = .cr → ∃ byte after, rest = byte :: after ∧ byte ≠ lf)
    (hl : g.takeLine limits content = .ok (g', items)) :
    trace SseParser.pushByte n (ofGroup limits g content) (ending.bytes ++ rest) =
      (trace SseParser.pushByte (n + ending.bytes.length) (ofGroup limits g' []) rest).map
        fun (p, more) => (p, items ++ more) := by
  have hf : (ofGroup limits g content).finishLine = .ok (ofGroup limits g' [], items) := by
    rw [finishLine_ofGroup, hl]
    rfl
  cases ending with
  | lf => exact trace_cons_ok (pushByte_lf.trans hf)
  | crlf =>
    exact (trace_cons_silent pushByte_cr).trans (trace_cons_ok (pushByte_crlf.trans hf))
  | cr =>
    obtain ⟨byte, after, rfl, hb⟩ := hcr rfl
    have hlo : (ofGroupCr limits g content).pushByte byte =
        ((ofGroup limits g' []).pushByte byte).map fun (p, more) => (p, items ++ more) := by
      rw [pushByte_lone hb, hf]
      rfl
    exact (trace_cons_silent pushByte_cr).trans (trace_cons_more hlo)

/-- Text that is too long fails before what comes after it. -/
theorem trace_tooLong (ht : ∀ byte ∈ content, isText byte = true)
    (hl : limits.maxLineBytes < content.length) :
    trace SseParser.pushByte n (ofGroup limits g []) (content ++ rest) =
      .error (tooLong limits n) := by
  have hf : trace SseParser.pushByte (n + ([] : List UInt8).length) (ofGroup limits g [])
      content = .error (tooLong limits n) :=
    trace_text_tooLong ht (Nat.zero_le _) (by simpa using hl)
  rw [List.length_nil, Nat.add_zero] at hf
  rw [trace_append, hf]
  rfl

theorem trace_fits (ht : ∀ byte ∈ content, isText byte = true)
    (hf : content.length ≤ limits.maxLineBytes) :
    trace SseParser.pushByte n (ofGroup limits g []) (content ++ rest) =
      trace SseParser.pushByte (n + content.length) (ofGroup limits g content) rest := by
  have hk : trace SseParser.pushByte n (ofGroup limits g []) content =
      .ok (ofGroup limits g content, []) :=
    trace_text ht (by simpa using hf)
  rw [trace_append, hk, andThen_ok]
  cases trace SseParser.pushByte (n + content.length) (ofGroup limits g content) rest <;> rfl

/-- From one line to the next, the parser does what the grammar says. -/
theorem trace_eq_foldLines :
    (trace SseParser.pushByte n (ofGroup limits g []) stream).map Prod.snd =
      foldLines limits n g (splitLines stream).1 (splitLines stream).2 := by
  induction stream using splitLines.induct generalizing n g with
  | case1 stream hn =>
    have ht : ∀ byte ∈ textOf stream, isText byte = true := fun _ => isText_of_mem_textOf
    -- What is left of the stream after its text is nothing or a CR.
    obtain ⟨rest, hs, p, hr⟩ : ∃ rest, stream = textOf stream ++ rest ∧
        ∃ p, trace SseParser.pushByte (n + (textOf stream).length)
          (ofGroup limits g (textOf stream)) rest = .ok (p, []) := by
      rcases firstLine_eq_none hn with heq | heq
      · exact ⟨[], by rwa [List.append_nil], _, rfl⟩
      · exact ⟨[cr], heq, _, rfl⟩
    rw [splitLines, hn]
    simp only [foldLines]
    split
    next hl =>
      rw [hs, trace_tooLong ht hl]
      rfl
    next hf =>
      rw [hs, trace_fits ht (Nat.not_lt.mp hf), hr]
      rfl
  | case2 stream line rest hso ih =>
    obtain ⟨hs, ht, hcr⟩ := firstLine_eq_some hso
    rw [splitLines, hso]
    simp only [foldLines]
    split
    next hl =>
      rw [hs, trace_tooLong ht hl]
      rfl
    next hf =>
      rw [hs, trace_fits ht (Nat.not_lt.mp hf)]
      cases hli : g.takeLine limits line.content with
      | error e =>
        rw [trace_ending_error hcr hli]
        rfl
      | ok next =>
        rw [trace_ending hcr hli]
        dsimp only
        rw [← ih]
        cases trace SseParser.pushByte (n + line.content.length + line.ending.bytes.length)
          (ofGroup limits next.1 []) rest <;> rfl

/-! ## What the parser holds -/

/-- The bytes that are counted are those that are held, and there are no more than allowed. -/
structure SseParser.Bounded (limits : SseLimits) (p : SseParser) : Prop where
  same : p.limits = limits
  dataBytes : p.dataBytes = (joinLines p.dataLines).length
  data : p.dataBytes ≤ limits.maxEventDataBytes
  pending : p.pending.length ≤ limits.maxLineBytes

/-- An event with no more data than allowed. -/
def SseParseItem.Bounded (limits : SseLimits) : SseParseItem → Prop
  | .comment => True
  | .event e => e.data.length ≤ limits.maxEventDataBytes

variable {p p' : SseParser} {items : List SseParseItem}

theorem SseParser.Bounded.new : (SseParser.new limits).Bounded limits :=
  ⟨rfl, rfl, Nat.zero_le _, Nat.zero_le _⟩

theorem SseParser.Bounded.setEventType {value : List UInt8} (h : p.Bounded limits)
    (hs : p.setEventType value = .ok (p', items)) : p'.Bounded limits ∧ items = [] := by
  unfold SseParser.setEventType at hs
  split at hs
  next => cases hs
  next =>
    cases hs
    exact ⟨⟨h.same, h.dataBytes, h.data, h.pending⟩, rfl⟩

theorem SseParser.Bounded.addData {value : List UInt8} (h : p.Bounded limits)
    (hs : p.addData value = .ok (p', items)) : p'.Bounded limits ∧ items = [] := by
  unfold SseParser.addData at hs
  dsimp only at hs
  generalize ha : (if p.dataLines.isEmpty then value.length else value.length + 1) = added at hs
  split at hs
  next => cases hs
  next hf =>
    cases hs
    rw [h.same] at hf
    refine ⟨⟨h.same, ?_, Nat.not_lt.mp hf, h.pending⟩, rfl⟩
    rw [joinLines_concat, ← h.dataBytes, ha]

theorem SseParser.Bounded.finishLine (h : p.Bounded limits)
    (hs : p.finishLine = .ok (p', items)) :
    p'.Bounded limits ∧ ∀ item ∈ items, item.Bounded limits := by
  have ht : ({ p with pending := [] } : SseParser).Bounded limits :=
    ⟨h.same, h.dataBytes, h.data, Nat.zero_le _⟩
  unfold SseParser.finishLine at hs
  dsimp only at hs
  split at hs
  next =>
    cases hs
    refine ⟨⟨h.same, rfl, Nat.zero_le _, Nat.zero_le _⟩, fun item hi => ?_⟩
    rw [List.mem_singleton.mp hi]
    show (joinLines p.dataLines).length ≤ limits.maxEventDataBytes
    rw [← h.dataBytes]
    exact h.data
  next =>
    split at hs
    next => cases hs
    next =>
      split at hs
      next =>
        cases hs
        refine ⟨ht, fun item hi => ?_⟩
        rw [List.mem_singleton.mp hi]
        trivial
      next =>
        split at hs
        next =>
          obtain ⟨hp', rfl⟩ := ht.setEventType hs
          exact ⟨hp', nofun⟩
        next =>
          split at hs
          next =>
            obtain ⟨hp', rfl⟩ := ht.addData hs
            exact ⟨hp', nofun⟩
          next =>
            cases hs
            exact ⟨ht, nofun⟩

theorem SseParser.Bounded.acceptByte (h : p.Bounded limits)
    (hs : p.acceptByte byte = .ok (p', items)) :
    p'.Bounded limits ∧ ∀ item ∈ items, item.Bounded limits := by
  unfold SseParser.acceptByte at hs
  split at hs
  next => exact h.finishLine hs
  next =>
    split at hs
    next =>
      cases hs
      exact ⟨⟨h.same, h.dataBytes, h.data, h.pending⟩, nofun⟩
    next =>
      split at hs
      next => cases hs
      next hf =>
        cases hs
        rw [h.same] at hf
        refine ⟨⟨h.same, h.dataBytes, h.data, ?_⟩, nofun⟩
        simp only [List.length_append, List.length_singleton]
        omega

theorem SseParser.Bounded.pushByte (h : p.Bounded limits) (hs : p.pushByte byte = .ok (p', items)) :
    p'.Bounded limits ∧ ∀ item ∈ items, item.Bounded limits := by
  have hc : ({ p with sawCr := false } : SseParser).Bounded limits :=
    ⟨h.same, h.dataBytes, h.data, h.pending⟩
  unfold SseParser.pushByte at hs
  split at hs
  next =>
    dsimp only at hs
    split at hs
    next => exact hc.finishLine hs
    next =>
      obtain ⟨mid, first, more, hf, ha, rfl⟩ := andThen_eq_ok hs
      obtain ⟨hmi, hfi⟩ := hc.finishLine hf
      obtain ⟨hp', hm⟩ := hmi.acceptByte ha
      exact ⟨hp', fun item hi => (List.mem_append.mp hi).elim (hfi item) (hm item)⟩
  next => exact h.acceptByte hs

/-! ## The refinement -/

/-- However a stream is cut into chunks, `SseParser` gives the items of the grammar, or
fails with its error in the chunk that holds the offending byte, and at that byte.  At
every moment `data_bytes` is the length of the joined data, and no event and no line is
longer than allowed. -/
theorem SseParser.refines_grammar (limits : SseLimits) (chunks : List (List UInt8)) :
    (∀ items, reference limits chunks.flatten = .ok items →
      ∃ p, (SseParser.new limits).feed chunks = (items, .ok p)) ∧
    (∀ n e, reference limits chunks.flatten = .error (n, e) →
      ∃ before chunk after items p, chunks = before ++ chunk :: after ∧
        (SseParser.new limits).feed before = (items, .ok p) ∧
        (SseParser.new limits).feed chunks = (items, .error e) ∧
        before.flatten.length ≤ n ∧ n < before.flatten.length + chunk.length ∧
        (∃ q more, p.push (chunk.take (n - before.flatten.length)) = .ok (q, more)) ∧
        p.push (chunk.take (n - before.flatten.length + 1)) = .error e) ∧
    (∀ items p, (SseParser.new limits).feed chunks = (items, .ok p) →
      p.dataBytes = (joinLines p.dataLines).length ∧ p.pending.length ≤ limits.maxLineBytes ∧
        ∀ event, .event event ∈ items → event.data.length ≤ limits.maxEventDataBytes) := by
  have hr :
      (trace SseParser.pushByte 0 (SseParser.new limits) chunks.flatten).map Prod.snd =
      reference limits chunks.flatten :=
    trace_eq_foldLines (g := {})
  refine ⟨fun items hi => ?_, fun n e he => ?_, fun items p hf => ?_⟩
  · cases ht : trace SseParser.pushByte 0 (SseParser.new limits) chunks.flatten with
    | error e =>
      rw [ht, hi] at hr
      cases hr
    | ok last =>
      rw [ht, hi] at hr
      cases hr
      exact ⟨last.1, feed_of_ok ht⟩
  · have ht : trace SseParser.pushByte 0 (SseParser.new limits) chunks.flatten =
        .error (n, e) := by
      cases ht : trace SseParser.pushByte 0 (SseParser.new limits) chunks.flatten with
      | ok last =>
        rw [ht, he] at hr
        cases hr
      | error e' =>
        rw [ht, he] at hr
        cases hr
        rfl
    obtain ⟨before, chunk, after, p, items, hch, hb, hc, hf⟩ := feed_of_error ht
    rw [Nat.zero_add] at hc
    obtain ⟨hle, hlt, ⟨q, more, hta⟩, hfa⟩ := trace_error hc
    exact ⟨before, chunk, after, items, p, hch, feed_of_ok hb, hf, hle, hlt,
      ⟨q, more, push_of_ok hta⟩, push_of_error hfa⟩
  · have ht := trace_of_feed_ok 0 hf
    obtain ⟨hp, hi⟩ := trace_invariant (I := SseParser.Bounded limits)
      (fun _ _ _ _ hs hst => hs.pushByte hst) .new ht
    exact ⟨hp.dataBytes, hp.pending, fun event hev => hi _ hev⟩

end Runewarp.Sse
