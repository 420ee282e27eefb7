import Mathlib.Data.Bool.AllAny
import Runewarp.SseGrammar

/-!
# One stream with three line endings

A sequence of comments and events is written with every line ended by LF, by CRLF or by
CR.  At the blank line that ends an event the first two have given the same items.  With
CR the last event is still to come: the parser waits for the byte after the CR, and gives
the event with it, before anything that byte does.
-/

namespace Runewarp.Sse

open Transducer

/-! ## Encodings -/

/-- Text of one line. -/
abbrev Text : Type := { bytes : List UInt8 // ∀ byte ∈ bytes, isText byte = true }

/-- A comment, or an event with the lines of its fields. -/
inductive Message where
  | comment (text : Text)
  | event (fields : List Text)

def Text.blank : Text := ⟨[], nofun⟩

def Text.comment (text : Text) : Text :=
  ⟨colon :: text.1, List.forall_mem_cons.mpr ⟨rfl, text.2⟩⟩

def Message.lines : Message → List Text
  | .comment text => [text.comment]
  | .event fields => fields ++ [.blank]

/-- Lines with the same ending. -/
def encodeLines (ending : Ending) (lines : List Text) : List UInt8 :=
  lines.flatMap fun line => line.1 ++ ending.bytes

def encode (ending : Ending) (messages : List Message) : List UInt8 :=
  encodeLines ending (messages.flatMap Message.lines)

variable {limits : SseLimits} {g : Group} {rest content : List UInt8} {ending : Ending}

theorem encodeLines_cons (line : Text) (lines : List Text) :
    encodeLines ending (line :: lines) = line.1 ++ (ending.bytes ++ encodeLines ending lines) := by
  simp [encodeLines]

/-- What a sequence of lines does. -/
def takeLines (limits : SseLimits) : Group → List Text →
    Except SseParseError (Group × List SseParseItem)
  | g, [] => .ok (g, [])
  | g, line :: lines =>
    if limits.maxLineBytes < line.1.length then
      .error (.limitExceeded .line (limits.maxLineBytes + 1) limits.maxLineBytes)
    else andThen (g.takeLine limits line.1) fun g => takeLines limits g lines

theorem takeLines_append (lines lines' : List Text) :
    takeLines limits g (lines ++ lines') =
      andThen (takeLines limits g lines) fun g => takeLines limits g lines' := by
  induction lines generalizing g with
  | nil =>
    simp only [List.nil_append, takeLines, andThen_ok]
    cases takeLines limits g lines' <;> rfl
  | cons line lines ih =>
    simp only [List.cons_append, takeLines]
    split
    next => rfl
    next => simp only [ih, andThen_assoc]

theorem takeLines_blank (lines : List Text) : takeLines limits g (lines ++ [.blank]) =
    andThen (takeLines limits g lines) fun g =>
      .ok ({}, [.event ⟨g.eventType, joinLines g.dataLines⟩]) := by
  rw [takeLines_append]
  simp [takeLines, Text.blank, Group.takeLine, Except.map]

/-! ## Feeding them -/

theorem push_line (ht : ∀ byte ∈ content, isText byte = true)
    (hcr : ending = .cr → ∃ byte after, rest = byte :: after ∧ byte ≠ lf) :
    (ofGroup limits g []).push (content ++ (ending.bytes ++ rest)) =
      if limits.maxLineBytes < content.length then
        .error (.limitExceeded .line (limits.maxLineBytes + 1) limits.maxLineBytes)
      else
        andThen ((g.takeLine limits content).map (Prod.map (ofGroup limits · []) id))
          fun p => p.push rest := by
  split
  next hlo => exact push_of_error (n := 0) (trace_tooLong ht hlo)
  next hf =>
    rw [SseParser.push, push_eq 0, trace_fits ht (Nat.not_lt.mp hf)]
    cases hl : g.takeLine limits content with
    | error e =>
      rw [trace_ending_error hcr hl]
      rfl
    | ok next =>
      obtain ⟨g', items⟩ := next
      rw [trace_ending hcr hl]
      simp only [Except.map, Prod.map_apply, id, andThen_ok, SseParser.push,
        push_eq (0 + content.length + ending.bytes.length)]
      cases trace SseParser.pushByte (0 + content.length + ending.bytes.length)
        (ofGroup limits g' []) rest <;> rfl

/-- Lines that end in LF or CRLF do what they do. -/
theorem push_encodeLines (he : ending ≠ .cr) (lines : List Text) :
    (ofGroup limits g []).push (encodeLines ending lines) =
      (takeLines limits g lines).map (Prod.map (ofGroup limits · []) id) := by
  induction lines generalizing g with
  | nil => rfl
  | cons line lines ih =>
    rw [encodeLines_cons, push_line line.2 fun h => (he h).elim, takeLines]
    split
    next => rfl
    next => exact andThen_map fun _ => ih

/-- A line that ends in CR does not begin with LF, and is not empty. -/
theorem head_encodeLines_cr (line : Text) (lines : List Text) :
    ∃ byte after, encodeLines .cr (line :: lines) = byte :: after ∧ byte ≠ lf := by
  obtain ⟨bytes, ht⟩ := line
  cases bytes with
  | nil => exact ⟨cr, encodeLines .cr lines, rfl, by decide⟩
  | cons byte bytes =>
    refine ⟨byte, bytes ++ (Ending.cr.bytes ++ encodeLines .cr lines), encodeLines_cons .., ?_⟩
    have hb := ht byte (.head _)
    simp only [isText, Bool.and_eq_true, decide_eq_true_eq] at hb
    exact hb.1

/-- With CR the last line, here a blank one, is left to be finished. -/
theorem push_encodeLines_cr (lines : List Text) :
    (ofGroup limits g []).push (encodeLines .cr (lines ++ [.blank])) =
      (takeLines limits g lines).map (Prod.map (ofGroupCr limits · []) id) := by
  induction lines generalizing g with
  | nil => rfl
  | cons line lines ih =>
    have hn : ∃ byte after, encodeLines .cr (lines ++ [.blank]) = byte :: after ∧
      byte ≠ lf := by
      cases lines with
      | nil => exact head_encodeLines_cr ..
      | cons line' lines => exact head_encodeLines_cr ..
    rw [List.cons_append, encodeLines_cons, push_line line.2 fun _ => hn, takeLines]
    split
    next => rfl
    next => exact andThen_map fun _ => ih

/-! ## The equivalence -/

/-- The lines of the messages before an event and of its fields, and then its blank line. -/
theorem encode_event (messages : List Message) (fields : List Text) :
    encode ending (messages ++ [.event fields]) =
      encodeLines ending ((messages.flatMap Message.lines ++ fields) ++ [.blank]) := by
  simp [encode, Message.lines]

theorem push_blank_lf : (ofGroupCr limits g []).push [lf] =
    .ok (.new limits, [.event ⟨g.eventType, joinLines g.dataLines⟩]) := rfl

/-- After the CR of a blank line, every other byte gives the event first. -/
theorem push_blank_cons {byte : UInt8} (h : byte ≠ lf) :
    (ofGroupCr limits g []).push (byte :: rest) =
      ((SseParser.new limits).push (byte :: rest)).map
        fun (p, more) => (p, .event ⟨g.eventType, joinLines g.dataLines⟩ :: more) := by
  have hb : (ofGroup limits g []).finishLine =
      .ok (.new limits, [.event ⟨g.eventType, joinLines g.dataLines⟩]) := rfl
  have hn : (SseParser.new limits).pushByte byte = (SseParser.new limits).acceptByte byte := rfl
  rw [SseParser.push, Transducer.push, pushByte_lone h, hb, andThen_assoc, andThen_ok, ← hn]
  rfl

/-- A stream that ends with the blank line of an event.  In the three encodings it fails
with the same error, or with LF and CRLF it has given the same items, and the parser is
as new.  With CR it has then given the same items up to the event.  The byte that comes
next gives the event, before anything else. -/
theorem SseParser.same_items_with_every_ending (limits : SseLimits) (messages : List Message)
    (fields : List Text) :
    (∃ e, ∀ (ending : Ending) (chunks : List (List UInt8)),
      chunks.flatten = encode ending (messages ++ [.event fields]) →
        ((SseParser.new limits).feed chunks).2 = .error e) ∨
    ∃ items event,
      (∀ (ending : Ending) (chunks : List (List UInt8)), ending ≠ .cr →
        chunks.flatten = encode ending (messages ++ [.event fields]) →
          (SseParser.new limits).feed chunks = (items ++ [.event event], .ok (.new limits))) ∧
      ∀ chunks : List (List UInt8), chunks.flatten = encode .cr (messages ++ [.event fields]) →
        ∃ p, (SseParser.new limits).feed chunks = (items, .ok p) ∧
          p.push [lf] = .ok (.new limits, [.event event]) ∧
          ∀ byte rest, byte ≠ lf → p.push (byte :: rest) =
            ((SseParser.new limits).push (byte :: rest)).map
              fun (p, more) => (p, .event event :: more) := by
  have hcr (chunks : List (List UInt8))
      (hc : chunks.flatten = encode .cr (messages ++ [.event fields])) :=
    (congrArg (SseParser.new limits).push (hc.trans (encode_event messages fields))).trans
      (push_encodeLines_cr (g := {}) (messages.flatMap Message.lines ++ fields))
  have ho (ending : Ending) (chunks : List (List UInt8)) (he : ending ≠ .cr)
      (hc : chunks.flatten = encode ending (messages ++ [.event fields])) :=
    (congrArg (SseParser.new limits).push (hc.trans (encode_event messages fields))).trans
      (push_encodeLines (g := {}) he ((messages.flatMap Message.lines ++ fields) ++ [.blank]))
  simp only [takeLines_blank] at ho
  cases hl : takeLines limits {} (messages.flatMap Message.lines ++ fields) with
  | error e =>
    simp only [hl] at hcr ho
    refine .inl ⟨e, fun ending chunks hc => feed_of_push_error ?_⟩
    by_cases he : ending = .cr
    · subst he
      exact hcr chunks hc
    · exact ho ending chunks he hc
  | ok last =>
    obtain ⟨g, items⟩ := last
    simp only [hl] at hcr ho
    refine .inr ⟨items, ⟨g.eventType, joinLines g.dataLines⟩,
      fun ending chunks he hc => feed_of_push_ok (ho ending chunks he hc),
      fun chunks hc => ⟨ofGroupCr limits g [], feed_of_push_ok (hcr chunks hc),
        push_blank_lf, fun byte rest hb => push_blank_cons hb⟩⟩

/-- The field `data: x`. -/
def Text.sample : Text :=
  ⟨ascii ['d', 'a', 't', 'a', ':', ' ', 'x'], List.all_iff_forall_prop.mp (by decide)⟩

/-- One event, and the stream ends with its blank line: with CR it has not been given. -/
theorem SseParser.event_held_after_cr :
    ((SseParser.new ⟨64, 64, 64⟩).feed [encode .lf [.event [.sample]]]).1 =
        [.event ⟨none, ascii ['x']⟩] ∧
      ((SseParser.new ⟨64, 64, 64⟩).feed [encode .cr [.event [.sample]]]).1 = [] := by
  decide

end Runewarp.Sse
