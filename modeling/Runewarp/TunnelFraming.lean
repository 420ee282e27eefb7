import Runewarp.ClientHello

/-!
# The start of a Tunnel stream

The Server sends the addresses of a Visitor as a PROXY header, and behind it what it has
read of the Visitor's stream.  The Client reads the header, and then the ClientHello once
more.  `tunnel_stream_keeps_visitor` says that the two ends know the same Visitor, however
their reads are cut.
-/

namespace Runewarp

structure DecodedTunnelStream where
  addresses : VisitorTcpAddresses
  clientHello : Server.ParsedClientHello

/-- What `io::Error::other` is made from. -/
inductive TunnelStreamError where
  | proxy (error : ProxyV2Error)
  | hello (error : ClientHelloError)

namespace HelloReader

/-- `read_tunnel_stream`.  The bytes behind the header come in the reads of `cut`. -/
def readTunnelStream (reader : HelloReader) (cut : List UInt8 → List (List UInt8))
    (chunks : List (List UInt8)) : Except TunnelStreamError DecodedTunnelStream :=
  match readProxyV2 chunks with
  | .error e => .error (.proxy e)
  | .ok (addresses, rest) =>
    match reader.readClientHello [] ((cut rest.flatten).map some) with
    | .error e => .error (.hello e)
    | .ok clientHello => .ok ⟨addresses, clientHello⟩

/-- A Visitor that the Server has read is the same to the Client, however the two streams are
cut: its addresses, hostname and protocols, and the bytes of its stream.  The one way to fail
is a read that brings the end of the ClientHello and goes over the limit. -/
theorem tunnel_stream_keeps_visitor (reader : HelloReader) (stream : List UInt8) (length : Nat)
    (hat : reader.CompletesAt stream length) (reads : List (List UInt8))
    (hreads : Delivers reads stream) (addresses : VisitorTcpAddresses)
    (hfamily : addresses.SameFamily) :
    ∀ hello, reader.readClientHello [] (reads.map some) = .ok hello →
      ∃ sent more, Server.encodeTunnelStream addresses hello.bufferedBytes = some sent ∧
        hello.bufferedBytes ++ more = stream ∧
        ∀ cut chunks, Delivers (cut stream) stream → chunks.flatten = sent ++ more →
          reader.readTunnelStream cut chunks =
            if readThrough length 0 (cut stream) ≤ clientHelloBufferLimit then
              .ok ⟨addresses, hello.publicHostname, hello.alpnProtocols,
                stream.take (readThrough length 0 (cut stream))⟩
            else .error (.hello .tooLong) := by
  intro hello hread
  have hs : [] ++ reads.flatten = stream := hreads.flatten
  have hfits : readThrough length 0 reads ≤ clientHelloBufferLimit := by
    by_contra hl
    have ht := readClientHello_tooLong hat hs hat.pos (Nat.lt_of_not_le hl) (Nat.zero_le _)
    cases hread.symm.trans ht
  rw [(readClientHello_answers hat hs hat.pos hfits).2] at hread
  cases hv : reader.verdict (reader.acceptor.accept (stream.take length)) with
  | error e =>
    rw [hv] at hread
    cases hread
  | ok found =>
    rw [hv] at hread
    cases hread
    obtain ⟨header, hh⟩ := exists_encodeProxyV2 hfamily
    refine ⟨_, stream.drop _, by rw [Server.encodeTunnelStream, hh]; rfl,
      List.take_append_drop .., ?_⟩
    intro cut chunks hcut hc
    rw [List.append_assoc, List.take_append_drop] at hc
    obtain ⟨rest, hr, rfl⟩ := (addresses.isHeader_encodeProxyV2 hh).readProxyV2 hc
    have hcs : [] ++ (cut rest.flatten).flatten = rest.flatten := hcut.flatten
    simp only [readTunnelStream, hr]
    by_cases hle : readThrough length 0 (cut rest.flatten) ≤ clientHelloBufferLimit
    · rw [readClientHello_ok hat hcut hle hv, if_pos hle]
    · rw [readClientHello_tooLong hat hcs hat.pos (Nat.lt_of_not_le hle) (Nat.zero_le _),
        if_neg hle]

/-- The Client reads what the Server has sent in the reads of the Server, and in others. -/
theorem tunnel_stream_keeps_visitor_fullReads :
    ∃ hello sent more,
      sampleReader.readClientHello [] (fullReads.map some) = .ok hello ∧
      Server.encodeTunnelStream ⟨⟨.v4 1, 1⟩, ⟨.v4 2, 443⟩⟩ hello.bufferedBytes = some sent ∧
      sampleReader.readTunnelStream (readsOf fullSizes) [sent, more] =
        .ok ⟨⟨⟨.v4 1, 1⟩, ⟨.v4 2, 443⟩⟩, hello⟩ ∧
      sampleReader.readTunnelStream (readsOf shiftedSizes) [sent ++ more] =
        .error (.hello .tooLong) := by
  obtain ⟨sent, more, he, -, hr⟩ := tunnel_stream_keeps_visitor sampleReader sampleStream _
    sampleReader_completesAt fullReads delivers_fullReads ⟨⟨.v4 1, 1⟩, ⟨.v4 2, 443⟩⟩ trivial _
    readClientHello_fullReads
  refine ⟨_, sent, more, readClientHello_fullReads, he, ?_, ?_⟩
  · refine (hr (readsOf fullSizes) _ delivers_fullReads (by simp)).trans ?_
    rw [show readThrough _ 0 (readsOf fullSizes sampleStream) = _ from readThrough_fullReads,
      if_pos le_rfl]
  · refine (hr (readsOf shiftedSizes) _ delivers_shiftedReads (by simp)).trans (if_neg ?_)
    rw [show readThrough _ 0 (readsOf shiftedSizes sampleStream) = _ from
      readThrough_shiftedReads]
    exact Nat.not_succ_le_self _

end HelloReader

end Runewarp
