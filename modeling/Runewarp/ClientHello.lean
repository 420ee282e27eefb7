import Runewarp.Server.VisitorIntake

/-!
# Reading a ClientHello

The Server and the Client both call `read_client_hello`: the one on the Visitor's
connection, the other on the Tunnel stream.  It keeps what it reads and asks the TLS
acceptor after every piece.

The acceptor is a parameter.  What is assumed of it is `stable`: its answer depends on the
bytes alone, and no longer changes once it has one.  Two readers of one stream then find
the same ClientHello, wherever the pieces are cut.
-/

namespace Runewarp

open Server (ParsedClientHello)

def clientHelloBufferLimit : Nat := 16 * 1024

/-- What `Acceptor::accept` answers: with a ClientHello, the server name in it and the
protocols it offers. -/
inductive Acceptance where
  | incomplete
  | invalid
  | accepted (serverName : Option String) (alpnProtocols : List (List UInt8))

/-- `rustls::server::Acceptor`, by the bytes it was given. -/
structure Acceptor where
  accept : List UInt8 → Acceptance
  /-- The answer depends on the bytes of the ClientHello only. -/
  stable : ∀ bytes more, accept bytes ≠ .incomplete → accept (bytes ++ more) = accept bytes

inductive ClientHelloError where
  | io
  | invalidTls
  | invalidSni
  | missingSni
  | tooLong
  | unexpectedEof
deriving DecidableEq

/-- The parameters of `read_client_hello`: the acceptor, and `PublicHostname::try_from`. -/
structure HelloReader where
  acceptor : Acceptor
  tryFrom : String → Option PublicHostname

namespace HelloReader

/-- One turn of the loop of `read_client_hello`. -/
def feed (reader : HelloReader) (buffered chunk : List UInt8) :
    Except ClientHelloError (List UInt8 ⊕ ParsedClientHello) :=
  if clientHelloBufferLimit < (buffered ++ chunk).length then .error .tooLong
  else
    match reader.acceptor.accept (buffered ++ chunk) with
    | .accepted serverName alpnProtocols =>
      match serverName with
      | none => .error .missingSni
      | some serverName =>
        match reader.tryFrom serverName with
        | none => .error .invalidSni
        | some publicHostname => .ok (.inr ⟨publicHostname, alpnProtocols, buffered ++ chunk⟩)
    | .incomplete => .ok (.inl (buffered ++ chunk))
    | .invalid => .error .invalidTls

variable {reader : HelloReader}

/-- An answer given for the shorter of two starts of a stream stands for the longer. -/
theorem accept_eq_of_start {bytes bytes' : List UInt8} (hp : bytes <+: bytes')
    (h : reader.acceptor.accept bytes ≠ .incomplete) :
    reader.acceptor.accept bytes' = reader.acceptor.accept bytes := by
  obtain ⟨more, rfl⟩ := hp
  exact reader.acceptor.stable bytes more h

/-! ## All the reads

A read brings at most `read_buffer` bytes, and they may go on after the ClientHello.  The
limit is charged on the whole of them, before the acceptor is asked. -/

/-- The length of `read_buffer`. -/
def readBufferLength : Nat := 4096

/-- `read_client_hello`, by what the reads give.  A read that fails is `none`; after the
last one the stream has ended, and reads give nothing. -/
def readClientHello (reader : HelloReader) :
    List UInt8 → List (Option (List UInt8)) → Except ClientHelloError ParsedClientHello
  | _, [] => .error .unexpectedEof
  | _, none :: _ => .error .io
  | buffered, some chunk :: reads =>
    match reader.feed buffered chunk with
    | .error e => .error e
    | .ok (.inl buffered) => reader.readClientHello buffered reads
    | .ok (.inr hello) => .ok hello

/-- The reads deliver the stream. -/
structure Delivers (reads : List (List UInt8)) (stream : List UInt8) : Prop where
  flatten : reads.flatten = stream
  nonempty : ∀ read ∈ reads, read ≠ []
  length_le : ∀ read ∈ reads, read.length ≤ readBufferLength

/-- The acceptor answers at the byte that makes `length` bytes, and not before. -/
structure CompletesAt (reader : HelloReader) (stream : List UInt8) (length : Nat) : Prop where
  pos : 0 < length
  length_le : length ≤ stream.length
  answers : reader.acceptor.accept (stream.take length) ≠ .incomplete
  first : ∀ shorter < length, reader.acceptor.accept (stream.take shorter) = .incomplete

/-- What the answer of the acceptor says about the stream. -/
def verdict (reader : HelloReader) :
    Acceptance → Except ClientHelloError (PublicHostname × List (List UInt8))
  | .incomplete => .error .unexpectedEof
  | .invalid => .error .invalidTls
  | .accepted none _ => .error .missingSni
  | .accepted (some serverName) alpnProtocols =>
    match reader.tryFrom serverName with
    | none => .error .invalidSni
    | some publicHostname => .ok (publicHostname, alpnProtocols)

/-- How many bytes have come, with the `count` that came before, at the end of the read that
brings the byte that makes `length`. -/
def readThrough (length : Nat) : Nat → List (List UInt8) → Nat
  | count, [] => count
  | count, read :: reads =>
    if length ≤ count + read.length then count + read.length
    else readThrough length (count + read.length) reads

theorem feed_answers {buffered chunk : List UInt8}
    (hl : (buffered ++ chunk).length ≤ clientHelloBufferLimit)
    (h : reader.acceptor.accept (buffered ++ chunk) ≠ .incomplete) :
    reader.feed buffered chunk =
      (reader.verdict (reader.acceptor.accept (buffered ++ chunk))).map
        fun (publicHostname, alpnProtocols) =>
          .inr ⟨publicHostname, alpnProtocols, buffered ++ chunk⟩ := by
  rw [feed, if_neg (Nat.not_lt.mpr hl)]
  cases ha : reader.acceptor.accept (buffered ++ chunk) with
  | incomplete => exact absurd ha h
  | invalid => rfl
  | accepted serverName alpnProtocols =>
    cases serverName with
    | none => rfl
    | some serverName =>
      simp only [verdict]
      cases reader.tryFrom serverName <;> rfl

theorem feed_incomplete {buffered chunk : List UInt8}
    (hl : (buffered ++ chunk).length ≤ clientHelloBufferLimit)
    (h : reader.acceptor.accept (buffered ++ chunk) = .incomplete) :
    reader.feed buffered chunk = .ok (.inl (buffered ++ chunk)) := by
  rw [feed, if_neg (Nat.not_lt.mpr hl), h]

theorem le_readThrough (length count : Nat) (reads : List (List UInt8)) :
    count ≤ readThrough length count reads := by
  induction reads generalizing count with
  | nil => exact Nat.le_refl count
  | cons read reads ih =>
    rw [readThrough]
    split
    · exact Nat.le_add_right ..
    · exact (Nat.le_add_right ..).trans (ih _)

/-- From a start of the stream that has no answer yet, the reads go on to the one with the
answer. -/
theorem readClientHello_answers {stream buffered : List UInt8} {length : Nat}
    {reads : List (List UInt8)} (hat : reader.CompletesAt stream length)
    (hst : buffered ++ reads.flatten = stream) (hb : buffered.length < length)
    (hf : readThrough length buffered.length reads ≤ clientHelloBufferLimit) :
    length ≤ readThrough length buffered.length reads ∧
    reader.readClientHello buffered (reads.map some) =
      (reader.verdict (reader.acceptor.accept (stream.take length))).map
        fun (publicHostname, alpnProtocols) => ⟨publicHostname, alpnProtocols,
          stream.take (readThrough length buffered.length reads)⟩ := by
  induction reads generalizing buffered with
  | nil =>
    have hle := hat.length_le
    rw [← hst, List.flatten_nil, List.append_nil] at hle
    omega
  | cons read reads ih =>
    have hsp : buffered ++ read ++ reads.flatten = stream := by
      rw [← hst, List.flatten_cons, List.append_assoc]
    have ht : stream.take (buffered.length + read.length) = buffered ++ read := by
      rw [← hsp, ← List.length_append, List.take_left']
      rfl
    have hl : (buffered ++ read).length ≤ clientHelloBufferLimit := by
      refine Nat.le_trans ?_ hf
      rw [readThrough, List.length_append]
      split
      · exact le_rfl
      · exact le_readThrough ..
    rw [readThrough] at hf ⊢
    rw [List.map_cons, readClientHello]
    split
    next hr =>
      -- The answer has been there since byte `length`, and the rest of the read keeps it.
      have hsa : stream.take length <+: buffered ++ read := by
        rw [← ht]
        exact List.take_prefix_take_left hr
      have ha := accept_eq_of_start hsa hat.answers
      refine ⟨hr, ?_⟩
      rw [feed_answers hl (by rw [ha]; exact hat.answers), ha, ht]
      cases reader.verdict (reader.acceptor.accept (stream.take length)) <;> rfl
    next hs =>
      have hn : reader.acceptor.accept (buffered ++ read) = .incomplete := by
        rw [← ht]
        exact hat.first _ (Nat.lt_of_not_le hs)
      rw [if_neg hs, ← List.length_append] at hf
      rw [feed_incomplete hl hn, ← List.length_append]
      refine ih hsp ?_ hf
      rw [List.length_append]
      exact Nat.lt_of_not_le hs

/-- Reads that have brought more than the limit when the last byte of the ClientHello has
come. -/
theorem readClientHello_tooLong {stream buffered : List UInt8} {length : Nat}
    {reads : List (List UInt8)} (hat : reader.CompletesAt stream length)
    (hst : buffered ++ reads.flatten = stream) (hb : buffered.length < length)
    (hl : clientHelloBufferLimit < readThrough length buffered.length reads)
    (hli : buffered.length ≤ clientHelloBufferLimit) :
    reader.readClientHello buffered (reads.map some) = .error .tooLong := by
  induction reads generalizing buffered with
  | nil => exact absurd hl (Nat.not_lt.mpr hli)
  | cons read reads ih =>
    have hsp : buffered ++ read ++ reads.flatten = stream := by
      rw [← hst, List.flatten_cons, List.append_assoc]
    rw [readThrough, ← List.length_append] at hl
    rw [List.map_cons, readClientHello]
    by_cases hf : (buffered ++ read).length ≤ clientHelloBufferLimit
    · have hs : ¬ length ≤ (buffered ++ read).length := fun hr => by
        rw [if_pos hr] at hl
        omega
      have hn : reader.acceptor.accept (buffered ++ read) = .incomplete := by
        have ht : stream.take (buffered ++ read).length = buffered ++ read := by
          rw [← hsp, List.take_left']
          rfl
        rw [← ht]
        exact hat.first _ (Nat.lt_of_not_le hs)
      rw [if_neg hs] at hl
      rw [feed_incomplete hf hn]
      exact ih hsp (Nat.lt_of_not_le hs) hl hf
    · rw [feed, if_pos (Nat.lt_of_not_le hf)]

/-- The verdict is that of the bytes up to the end of the ClientHello, wherever the reads are
cut, and what is buffered is a start of the stream that holds them: exactly if the read that
brings the last byte of the ClientHello ends within the limit. -/
theorem verdict_of_fragments (reader : HelloReader) (stream : List UInt8) (length : Nat)
    (hat : reader.CompletesAt stream length) (reads : List (List UInt8))
    (hreads : Delivers reads stream) :
    ((reader.readClientHello [] (reads.map some)).map
        (fun hello => (hello.publicHostname, hello.alpnProtocols)) =
      reader.verdict (reader.acceptor.accept (stream.take length)) ∧
    ∀ hello, reader.readClientHello [] (reads.map some) = .ok hello →
      hello.bufferedBytes <+: stream ∧ stream.take length <+: hello.bufferedBytes) ↔
    readThrough length 0 reads ≤ clientHelloBufferLimit := by
  have hs : [] ++ reads.flatten = stream := hreads.flatten
  constructor
  · rintro ⟨hv, -⟩
    by_contra hl
    rw [readClientHello_tooLong hat hs hat.pos (Nat.lt_of_not_le hl) (Nat.zero_le _)] at hv
    unfold verdict at hv
    split at hv <;> try split at hv
    all_goals cases hv
  · intro hfits
    obtain ⟨hr, hre⟩ := readClientHello_answers hat hs hat.pos hfits
    rw [hre]
    cases reader.verdict (reader.acceptor.accept (stream.take length)) with
    | error e => exact ⟨rfl, fun _ he => by cases he⟩
    | ok found =>
      refine ⟨rfl, ?_⟩
      rintro hello ⟨⟩
      exact ⟨List.take_prefix .., List.take_prefix_take_left hr⟩

theorem readClientHello_ok {stream : List UInt8} {length : Nat} {reads : List (List UInt8)}
    {publicHostname : PublicHostname} {alpnProtocols : List (List UInt8)}
    (hat : reader.CompletesAt stream length) (hreads : Delivers reads stream)
    (hfits : readThrough length 0 reads ≤ clientHelloBufferLimit)
    (hv : reader.verdict (reader.acceptor.accept (stream.take length)) =
      .ok (publicHostname, alpnProtocols)) :
    reader.readClientHello [] (reads.map some) =
      .ok ⟨publicHostname, alpnProtocols, stream.take (readThrough length 0 reads)⟩ := by
  have hs : [] ++ reads.flatten = stream := hreads.flatten
  rw [(readClientHello_answers hat hs hat.pos hfits).2, hv]
  rfl

/-! ## A stream

The ClientHello of TLS 1.2 for `a.test`, padded to as many bytes as the limit, and then the
first byte of another record. -/

/-- An acceptor that answers for one ClientHello and the server name in it. -/
def knowing (clientHello : List UInt8) (serverName : String) : HelloReader where
  acceptor.accept bytes :=
    if clientHello <+: bytes then .accepted (some serverName) []
    else if bytes <+: clientHello then .incomplete
    else .invalid
  acceptor.stable bytes more h := by
    by_cases hc : clientHello <+: bytes
    · rw [if_pos hc, if_pos (hc.trans (List.prefix_append ..))]
    · rw [if_neg hc] at h ⊢
      have hb : ¬ bytes <+: clientHello := fun hb => h (if_pos hb)
      rw [if_neg hb, if_neg, if_neg]
      · exact fun hm => hb ((List.prefix_append ..).trans hm)
      · exact fun hm => (List.prefix_or_prefix_of_prefix hm (List.prefix_append ..)).elim hc hb
  tryFrom name := some ⟨name⟩

theorem knowing_verdict (clientHello more : List UInt8) (serverName : String) :
    (knowing clientHello serverName).verdict ((knowing clientHello serverName).acceptor.accept
      ((clientHello ++ more).take clientHello.length)) = .ok (⟨serverName⟩, []) := by
  rw [List.take_left' rfl, show (knowing clientHello serverName).acceptor.accept clientHello =
    .accepted (some serverName) [] from if_pos List.prefix_rfl]
  rfl

theorem knowing_completesAt {clientHello : List UInt8} (hpos : 0 < clientHello.length)
    (more : List UInt8) (serverName : String) :
    (knowing clientHello serverName).CompletesAt (clientHello ++ more) clientHello.length := by
  refine ⟨hpos, ?_, ?_, fun n hn => ?_⟩
  · rw [List.length_append]
    exact Nat.le_add_right ..
  · rw [List.take_left' rfl]
    exact fun ha => by cases (if_pos List.prefix_rfl).symm.trans ha
  · rw [List.take_append_of_le_length (Nat.le_of_lt hn)]
    refine (if_neg fun hp => ?_).trans (if_pos (List.take_prefix ..))
    exact Nat.not_le.mpr hn (hp.length_le.trans (List.length_take_le ..))

def sampleHello : List UInt8 :=
  [0x16, 3, 1, 0x3f, 0xfb, 1, 0, 0x3f, 0xf7, 3, 3] ++ List.replicate 32 0 ++
    [0, 0, 2, 0xc0, 0x2b, 1, 0, 0x3f, 0xcc,
      0, 0, 0, 0x0b, 0, 9, 0, 0, 6, 0x61, 0x2e, 0x74, 0x65, 0x73, 0x74,
      0, 0x0a, 0, 4, 0, 2, 0, 0x1d, 0, 0x0d, 0, 4, 0, 2, 4, 3, 0, 0x15, 0x3f, 0xa9] ++
    List.replicate 16297 0

theorem length_sampleHello : sampleHello.length = clientHelloBufferLimit := by
  simp only [sampleHello, List.length_append, List.length_replicate, List.length_cons,
    List.length_nil, clientHelloBufferLimit]

def sampleStream : List UInt8 := sampleHello ++ [0x14]

theorem length_sampleStream : sampleStream.length = 16385 := by
  rw [sampleStream, List.length_append, length_sampleHello]
  rfl

def sampleReader : HelloReader := knowing sampleHello "a.test"

theorem sampleReader_completesAt : sampleReader.CompletesAt sampleStream clientHelloBufferLimit :=
  length_sampleHello ▸
    knowing_completesAt (by rw [length_sampleHello]; decide) [0x14] "a.test"

theorem sampleReader_verdict :
    sampleReader.verdict (sampleReader.acceptor.accept
      (sampleStream.take clientHelloBufferLimit)) = .ok (⟨"a.test"⟩, []) :=
  length_sampleHello ▸ knowing_verdict sampleHello [0x14] "a.test"

/-- A stream in reads of these sizes. -/
def readsOf : List Nat → List UInt8 → List (List UInt8)
  | [], _ => []
  | n :: sizes, stream => stream.take n :: readsOf sizes (stream.drop n)

theorem delivers_readsOf {sizes : List Nat} {stream : List UInt8}
    (h : ∀ n ∈ sizes, 0 < n ∧ n ≤ readBufferLength) (hs : sizes.sum = stream.length) :
    Delivers (readsOf sizes stream) stream := by
  induction sizes generalizing stream with
  | nil => exact ⟨(List.length_eq_zero_iff.mp hs.symm).symm, nofun, nofun⟩
  | cons n sizes ih =>
    rw [List.sum_cons] at hs
    have hd : sizes.sum = (stream.drop n).length := by rw [List.length_drop]; omega
    obtain ⟨hf, hne, hle⟩ := ih (fun m hm => h m (.tail _ hm)) hd
    have hn := h n (.head _)
    refine ⟨?_, List.forall_mem_cons.mpr ⟨List.ne_nil_of_length_pos ?_, hne⟩,
      List.forall_mem_cons.mpr ⟨(List.length_take_le ..).trans hn.2, hle⟩⟩
    · rw [readsOf, List.flatten_cons, hf, List.take_append_drop]
    · rw [List.length_take]
      omega

/-- Full reads up to the limit, and then one byte. -/
def fullSizes : List Nat := [4096, 4096, 4096, 4096, 1]

/-- One byte, and then full reads. -/
def shiftedSizes : List Nat := [1, 4096, 4096, 4096, 4096]

def fullReads : List (List UInt8) := readsOf fullSizes sampleStream

def shiftedReads : List (List UInt8) := readsOf shiftedSizes sampleStream

theorem delivers_fullReads : Delivers fullReads sampleStream :=
  delivers_readsOf (by decide) (by rw [length_sampleStream]; rfl)

theorem delivers_shiftedReads : Delivers shiftedReads sampleStream :=
  delivers_readsOf (by decide) (by rw [length_sampleStream]; rfl)

theorem readThrough_fullReads :
    readThrough clientHelloBufferLimit 0 fullReads = clientHelloBufferLimit := by
  simp [fullReads, fullSizes, readsOf, readThrough, length_sampleStream, clientHelloBufferLimit]

theorem readThrough_shiftedReads :
    readThrough clientHelloBufferLimit 0 shiftedReads = clientHelloBufferLimit + 1 := by
  simp [shiftedReads, shiftedSizes, readsOf, readThrough, length_sampleStream,
    clientHelloBufferLimit]

theorem verdict_of_fragments_fullReads :
    (sampleReader.readClientHello [] (fullReads.map some)).map
        (fun hello => (hello.publicHostname, hello.alpnProtocols)) = .ok (⟨"a.test"⟩, []) :=
  ((verdict_of_fragments sampleReader sampleStream clientHelloBufferLimit
    sampleReader_completesAt fullReads delivers_fullReads).mpr
    (Nat.le_of_eq readThrough_fullReads)).1.trans sampleReader_verdict

theorem readClientHello_fullReads :
    sampleReader.readClientHello [] (fullReads.map some) =
      .ok ⟨⟨"a.test"⟩, [], sampleStream.take clientHelloBufferLimit⟩ := by
  have hr := readClientHello_ok sampleReader_completesAt delivers_fullReads
    (Nat.le_of_eq readThrough_fullReads) sampleReader_verdict
  rwa [readThrough_fullReads] at hr

/-- The ClientHello completes with the last byte of the limit.  When the read that brings it
brings the next byte too, it is refused as too long. -/
theorem fragments_disagree :
    sampleReader.CompletesAt sampleStream clientHelloBufferLimit ∧
      Delivers fullReads sampleStream ∧ Delivers shiftedReads sampleStream ∧
      sampleReader.readClientHello [] (fullReads.map some) =
        .ok ⟨⟨"a.test"⟩, [], sampleStream.take clientHelloBufferLimit⟩ ∧
      sampleReader.readClientHello [] (shiftedReads.map some) = .error .tooLong := by
  have hat := sampleReader_completesAt
  have hs := (List.nil_append _).trans delivers_shiftedReads.flatten
  refine ⟨hat, delivers_fullReads, delivers_shiftedReads, readClientHello_fullReads,
    readClientHello_tooLong hat hs hat.pos ?_ (Nat.zero_le _)⟩
  rw [List.length_nil, readThrough_shiftedReads]
  exact Nat.lt_succ_self _

end HelloReader

end Runewarp
