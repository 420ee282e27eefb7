import Runewarp.Lib.BigEndian
import Mathlib.Data.BitVec

/-!
# Addresses of a Visitor

The addresses of a Visitor's TCP connection, as the socket has them or as a PROXY
protocol header states them, the networks whose headers are trusted, and the header
itself.

`read_proxy_v2` fills two buffers in turn with `read_exact`, so where a header ends
depends on its first sixteen bytes only.  `IsHeader` says what it accepts, and
`proxy_header_codec` that it reads this and nothing more, however the bytes arrive.
-/

namespace Runewarp

/-- `std::net::IpAddr`. -/
inductive IpAddr where
  | v4 (bits : BitVec 32)
  | v6 (bits : BitVec 128)
deriving DecidableEq

/-- `std::net::SocketAddr`. -/
structure SocketAddr where
  ip : IpAddr
  port : BitVec 16
deriving DecidableEq

structure VisitorTcpAddresses where
  source : SocketAddr
  destination : SocketAddr
deriving DecidableEq

/-- A network with its prefix length. -/
structure TrustedNetwork where
  network : IpAddr
  bits : Nat
deriving DecidableEq

namespace TrustedNetwork

/-- The mask of a prefix length.  The source tests for zero first: a shift by the whole
width is an overflow there. -/
def mask (width bits : Nat) : BitVec width :=
  if bits = 0 then 0 else BitVec.allOnes width <<< (width - bits)

/-- `contains`. -/
def contains (n : TrustedNetwork) (address : IpAddr) : Bool :=
  match n.network, address with
  | .v4 network, .v4 address => network &&& mask 32 n.bits == address &&& mask 32 n.bits
  | .v6 network, .v6 address => network &&& mask 128 n.bits == address &&& mask 128 n.bits
  | _, _ => false

end TrustedNetwork

/-! ## The PROXY protocol header -/

/-- `MAX_PROXY_V2_HEADER_LEN`. -/
def maxProxyV2HeaderLen : Nat := 16 * 1024

/-- `SIGNATURE`. -/
def proxyV2Signature : List UInt8 :=
  [0x0d, 0x0a, 0x0d, 0x0a, 0x00, 0x0d, 0x0a, 0x51, 0x55, 0x49, 0x54, 0x0a]

open BigEndian (toBytes ofBytes)

/-- `encode_proxy_v2`.  There is no result where the source has `unreachable!`: the two
addresses are of different families. -/
def VisitorTcpAddresses.encodeProxyV2 (a : VisitorTcpAddresses) : Option (List UInt8) :=
  match a.source.ip, a.destination.ip with
  | .v4 source, .v4 destination =>
    some ((proxyV2Signature ++ [0x21] ++ [0x11] ++ toBytes 2 12) ++
      (toBytes 4 source.toNat ++ (toBytes 4 destination.toNat ++
        (toBytes 2 a.source.port.toNat ++ toBytes 2 a.destination.port.toNat))))
  | .v6 source, .v6 destination =>
    some ((proxyV2Signature ++ [0x21] ++ [0x21] ++ toBytes 2 36) ++
      (toBytes 16 source.toNat ++ (toBytes 16 destination.toNat ++
        (toBytes 2 a.source.port.toNat ++ toBytes 2 a.destination.port.toNat))))
  | _, _ => none

/-- `ProxyV2Error`. -/
inductive ProxyV2Error where
  | io
  | invalid (reason : String)
deriving DecidableEq

/-- What `read_proxy_v2` makes of the first sixteen bytes: the length of the payload. -/
def proxyV2PayloadLen (fixed : List UInt8) : Except ProxyV2Error Nat :=
  if fixed.take 12 ≠ proxyV2Signature then .error (.invalid "signature mismatch")
  else if fixed.getD 12 0 ≠ 0x21 then .error (.invalid "only the PROXY command is supported")
  else
    let payloadLen := ofBytes ((fixed.drop 14).take 2)
    if maxProxyV2HeaderLen < 16 + payloadLen then
      .error (.invalid "header exceeds the 16 KiB limit")
    else if fixed.getD 13 0 = 0x11 then
      if payloadLen < 12 then .error (.invalid "address payload is truncated") else .ok payloadLen
    else if fixed.getD 13 0 = 0x21 then
      if payloadLen < 36 then .error (.invalid "address payload is truncated") else .ok payloadLen
    else .error (.invalid "only TCP over IPv4 or IPv6 is supported")

/-- What it makes of the payload.  Bytes after the addresses are ignored. -/
def proxyV2Addresses (fixed payload : List UInt8) : VisitorTcpAddresses :=
  let port (i : Nat) : BitVec 16 := BitVec.ofNat 16 (ofBytes ((payload.drop i).take 2))
  if fixed.getD 13 0 = 0x11 then
    let ip (i : Nat) : IpAddr := .v4 (BitVec.ofNat 32 (ofBytes ((payload.drop i).take 4)))
    ⟨⟨ip 0, port 8⟩, ⟨ip 4, port 10⟩⟩
  else
    let ip (i : Nat) : IpAddr := .v6 (BitVec.ofNat 128 (ofBytes ((payload.drop i).take 16)))
    ⟨⟨ip 0, port 32⟩, ⟨ip 16, port 34⟩⟩

/-- `read_exact` of `n` bytes of which it has `got`, from a stream that arrives in pieces.
There is no result at the end of the stream. -/
def readExact (n : Nat) (got : List UInt8) :
    List (List UInt8) → Option (List UInt8 × List (List UInt8))
  | [] => if n ≤ got.length then some (got, []) else none
  | chunk :: rest =>
    if n ≤ got.length + chunk.length then
      some (got ++ chunk.take (n - got.length), chunk.drop (n - got.length) :: rest)
    else readExact n (got ++ chunk) rest

/-- `read_proxy_v2`, with what it leaves in the stream. -/
def readProxyV2 (chunks : List (List UInt8)) :
    Except ProxyV2Error (VisitorTcpAddresses × List (List UInt8)) := do
  let (fixed, rest) ← ((readExact 16 [] chunks).elim (.error .io) .ok :
    Except ProxyV2Error (List UInt8 × List (List UInt8)))
  let payloadLen ← proxyV2PayloadLen fixed
  let (payload, rest) ← ((readExact payloadLen [] rest).elim (.error .io) .ok :
    Except ProxyV2Error (List UInt8 × List (List UInt8)))
  .ok (proxyV2Addresses fixed payload, rest)

/-- The bytes `head` are a header with addresses `a`. -/
structure IsHeader (head : List UInt8) (a : VisitorTcpAddresses) : Prop where
  length : ∃ payloadLen, proxyV2PayloadLen (head.take 16) = .ok payloadLen ∧
    head.length = 16 + payloadLen
  addresses : proxyV2Addresses (head.take 16) (head.drop 16) = a

variable {fixed bytes : List UInt8} {n : Nat}

theorem isHeader_of_payload {payload : List UInt8} {a : VisitorTcpAddresses}
    (hf : fixed.length = 16) (hn : proxyV2PayloadLen fixed = .ok n) (hl : payload.length = n)
    (ha : proxyV2Addresses fixed payload = a) : IsHeader (fixed ++ payload) a := by
  have ht : (fixed ++ payload).take 16 = fixed := List.take_left' hf
  have hd : (fixed ++ payload).drop 16 = payload := List.drop_left' hf
  refine ⟨⟨n, by rw [ht, hn], by rw [List.length_append, hf, hl]⟩, ?_⟩
  rw [ht, hd, ha]

theorem VisitorTcpAddresses.isHeader_encodeProxyV2 {a : VisitorTcpAddresses}
    (h : a.encodeProxyV2 = some bytes) : IsHeader bytes a := by
  obtain ⟨⟨sourceIp, sourcePort⟩, ⟨destinationIp, destinationPort⟩⟩ := a
  cases sourceIp with
  | v4 source =>
    cases destinationIp with
    | v4 destination =>
      cases h
      refine isHeader_of_payload (n := 12) rfl (by decide) (by simp) ?_
      simp only [proxyV2Addresses]
      rw [if_pos (by decide)]
      simp [List.drop_append, List.drop_eq_nil_of_le, List.take_of_length_le,
        BigEndian.ofNat_ofBytes_toBytes]
    | v6 destination => cases h
  | v6 source =>
    cases destinationIp with
    | v4 destination => cases h
    | v6 destination =>
      cases h
      refine isHeader_of_payload (n := 36) rfl (by decide) (by simp) ?_
      simp only [proxyV2Addresses]
      rw [if_neg (by decide)]
      simp [List.drop_append, List.drop_eq_nil_of_le, List.take_of_length_le,
        BigEndian.ofNat_ofBytes_toBytes]

/-! ## Reading a header -/

/-- `read_exact` takes as much as it wants and leaves the rest. -/
theorem append_of_readExact {got : List UInt8} {chunks rest : List (List UInt8)}
    (hg : got.length ≤ n) (h : readExact n got chunks = some (bytes, rest)) :
    bytes.length = n ∧ got ++ chunks.flatten = bytes ++ rest.flatten := by
  induction chunks generalizing got with
  | nil =>
    obtain ⟨hn, ⟨⟩⟩ := Option.ite_some_none_eq_some.mp h
    exact ⟨Nat.le_antisymm hg hn, rfl⟩
  | cons chunk chunks ih =>
    by_cases hn : n ≤ got.length + chunk.length
    · rw [readExact, if_pos hn] at h
      cases h
      refine ⟨?_, ?_⟩
      · rw [List.length_append, List.length_take]
        omega
      · rw [List.flatten_cons, List.flatten_cons, List.append_assoc, ← List.append_assoc (.take ..),
          List.take_append_drop]
    · rw [readExact, if_neg hn] at h
      rw [List.flatten_cons, ← List.append_assoc]
      exact ih (by rw [List.length_append]; omega) h

theorem exists_readExact (got : List UInt8) {chunks : List (List UInt8)}
    (h : n ≤ got.length + chunks.flatten.length) : ∃ x, readExact n got chunks = some x := by
  induction chunks generalizing got with
  | nil => exact ⟨_, if_pos h⟩
  | cons chunk chunks ih =>
    unfold readExact
    split
    · exact ⟨_, rfl⟩
    · exact ih _ (by rwa [List.length_append, Nat.add_assoc, ← List.length_append])

theorem proxyV2PayloadLen_eq_ok :
    proxyV2PayloadLen fixed = .ok n ↔ fixed.take 12 = proxyV2Signature ∧
      fixed.getD 12 0 = 0x21 ∧ ofBytes ((fixed.drop 14).take 2) = n ∧
      16 + n ≤ maxProxyV2HeaderLen ∧
      (fixed.getD 13 0 = 0x11 ∧ 12 ≤ n ∨ fixed.getD 13 0 = 0x21 ∧ 36 ≤ n) := by
  unfold proxyV2PayloadLen
  dsimp only
  constructor
  · intro h
    repeat' split at h
    all_goals cases h
    all_goals simp_all
  · rintro ⟨hs, hc, rfl, hl, hf⟩
    rw [if_neg (not_not.mpr hs), if_neg (not_not.mpr hc), if_neg (Nat.not_lt.mpr hl)]
    obtain ⟨hf, hn⟩ | ⟨hf, hn⟩ := hf
    · rw [if_pos hf, if_neg (Nat.not_lt.mpr hn)]
    · rw [if_neg (by rw [hf]; decide), if_pos hf, if_neg (Nat.not_lt.mpr hn)]

theorem proxyV2PayloadLen_take (bytes : List UInt8) :
    proxyV2PayloadLen (bytes.take 16) = proxyV2PayloadLen bytes := by
  simp [proxyV2PayloadLen, List.take_take, List.drop_take, List.getD_eq_getElem?_getD]

variable {head more : List UInt8} {a : VisitorTcpAddresses} {chunks rest : List (List UInt8)}

/-- A header is read and what follows it is left. -/
theorem IsHeader.readProxyV2 (h : IsHeader head a) (hc : chunks.flatten = head ++ more) :
    ∃ rest, readProxyV2 chunks = .ok (a, rest) ∧ rest.flatten = more := by
  obtain ⟨⟨n, hn, hl⟩, ha⟩ := h
  have hlen : chunks.flatten.length = 16 + n + more.length := by
    rw [hc, List.length_append, hl]
  have hf : 16 ≤ 0 + chunks.flatten.length := by omega
  obtain ⟨⟨fixed, mid⟩, hr⟩ := exists_readExact [] hf
  obtain ⟨hf, hm⟩ := append_of_readExact (Nat.zero_le _) hr
  have hml := congrArg List.length hm
  rw [List.nil_append, List.length_append] at hml
  have hn' : n ≤ 0 + mid.flatten.length := by omega
  obtain ⟨⟨payload, rest⟩, hr'⟩ := exists_readExact [] hn'
  obtain ⟨hp, hm'⟩ := append_of_readExact (Nat.zero_le _) hr'
  rw [List.nil_append] at hm hm'
  rw [hm', hc, ← List.append_assoc] at hm
  obtain ⟨rfl, rfl⟩ := List.append_inj hm (by rw [List.length_append, hl, hf, hp])
  rw [List.take_left' hf, List.drop_left' hf] at *
  exact ⟨rest, by simp [Runewarp.readProxyV2, hr, hn, hr', ha, bind, Except.bind], rfl⟩

theorem isHeader_of_readProxyV2 (h : readProxyV2 chunks = .ok (a, rest)) :
    ∃ head, IsHeader head a ∧ chunks.flatten = head ++ rest.flatten := by
  cases hr : readExact 16 [] chunks with
  | none => simp [readProxyV2, hr, bind, Except.bind] at h
  | some x =>
    obtain ⟨fixed, mid⟩ := x
    cases hn : proxyV2PayloadLen fixed with
    | error e => simp [readProxyV2, hr, hn, bind, Except.bind] at h
    | ok n =>
      cases hr' : readExact n [] mid with
      | none => simp [readProxyV2, hr, hn, hr', bind, Except.bind] at h
      | some x =>
        obtain ⟨payload, rest'⟩ := x
        simp only [readProxyV2, hr, hn, hr', bind, Except.bind, Option.elim, Except.ok.injEq,
          Prod.mk.injEq] at h
        obtain ⟨ha, rfl⟩ := h
        obtain ⟨hf, hm⟩ := append_of_readExact (Nat.zero_le _) hr
        obtain ⟨hp, hm'⟩ := append_of_readExact (Nat.zero_le _) hr'
        rw [List.nil_append] at hm hm'
        exact ⟨_, isHeader_of_payload hf hn hp ha, by rw [hm, hm', List.append_assoc]⟩

/-! ## Headers with more than the addresses -/

/-- The header with bytes of type-length-value fields after its addresses, which its length
covers. -/
def withTail (header tail : List UInt8) : List UInt8 :=
  (header.take 14 ++ toBytes 2 (header.length - 16 + tail.length)) ++ (header.drop 16 ++ tail)

/-- `proxyV2Addresses` takes nothing from behind the addresses. -/
theorem proxyV2Addresses_append {fixed' payload tail : List UInt8}
    (hn : proxyV2PayloadLen fixed = .ok n) (hl : payload.length = n)
    (hf : fixed'.getD 13 0 = fixed.getD 13 0) :
    proxyV2Addresses fixed' (payload ++ tail) = proxyV2Addresses fixed payload := by
  obtain ⟨-, -, -, -, h⟩ := proxyV2PayloadLen_eq_ok.mp hn
  have ht : ∀ i w, i + w ≤ n → ((payload ++ tail).drop i).take w = (payload.drop i).take w := by
    intro i w hi
    rw [List.drop_append_of_le_length (by omega), List.take_append_of_le_length (by simp; omega)]
  unfold proxyV2Addresses
  rw [hf]
  obtain ⟨h, hn⟩ | ⟨h, hn⟩ := h
  · simp only [h, if_true]
    rw [ht 0 4 (by omega), ht 4 4 (by omega), ht 8 2 (by omega), ht 10 2 (by omega)]
  · have hne : ¬fixed.getD 13 0 = 0x11 := by rw [h]; decide
    simp only [hne, if_false]
    rw [ht 0 16 (by omega), ht 16 16 (by omega), ht 32 2 (by omega), ht 34 2 (by omega)]

theorem IsHeader.withTail (h : IsHeader head a) {tail : List UInt8}
    (hle : (withTail head tail).length ≤ maxProxyV2HeaderLen) :
    IsHeader (withTail head tail) a := by
  obtain ⟨⟨n, hn, hl⟩, ha⟩ := h
  have hd : (head.drop 16).length = n := by rw [List.length_drop, hl, Nat.add_sub_cancel_left]
  have h14 : (head.take 14).length = 14 := List.length_take_of_le (by omega)
  have hm : 16 + (n + tail.length) ≤ maxProxyV2HeaderLen := by
    rw [Runewarp.withTail, List.length_append, List.length_append, List.length_append, h14, hd,
      BigEndian.length_toBytes] at hle
    exact hle
  obtain ⟨hs, hc, -, -, hf⟩ := proxyV2PayloadLen_eq_ok.mp hn
  -- The two bytes of the length are the only ones of the start that change.
  have ht : ∀ rest i, i < 14 → (head.take 14 ++ rest).getD i 0 = (head.take 16).getD i 0 := by
    intro rest i hi
    simp [List.getD_eq_getElem?_getD, List.getElem?_append_left (h14.symm ▸ hi), hi,
      Nat.lt_trans hi (by decide : 14 < 16)]
  refine isHeader_of_payload (n := n + tail.length) (by simp [h14]) ?_ (by simp [hl]) ?_
  · rw [hl, Nat.add_sub_cancel_left]
    refine proxyV2PayloadLen_eq_ok.mpr ⟨?_, by rw [ht _ _ (by decide), hc], ?_, hm, ?_⟩
    · rw [List.take_append_of_le_length (by omega), ← hs, List.take_take, List.take_take]
      rfl
    · rw [List.drop_left' h14, List.take_of_length_le (by simp),
        BigEndian.ofBytes_toBytes (by simp only [maxProxyV2HeaderLen] at hm; omega)]
    · rw [ht _ _ (by decide)]
      exact hf.imp (fun h => ⟨h.1, by omega⟩) fun h => ⟨h.1, by omega⟩
  · rw [← ha]
    exact proxyV2Addresses_append hn hd (ht _ _ (by decide))

/-- The bytes start with a header that `read_proxy_v2` accepts. -/
structure CarriesHeader (bytes : List UInt8) : Prop where
  signature : bytes.take 12 = proxyV2Signature
  command : bytes.getD 12 0 = 0x21
  limit : 16 + ofBytes ((bytes.drop 14).take 2) ≤ maxProxyV2HeaderLen
  family : bytes.getD 13 0 = 0x11 ∧ 12 ≤ ofBytes ((bytes.drop 14).take 2) ∨
    bytes.getD 13 0 = 0x21 ∧ 36 ≤ ofBytes ((bytes.drop 14).take 2)
  follows : 16 + ofBytes ((bytes.drop 14).take 2) ≤ bytes.length

theorem carriesHeader_iff :
    CarriesHeader bytes ↔ ∃ n, proxyV2PayloadLen bytes = .ok n ∧ 16 + n ≤ bytes.length := by
  simp only [proxyV2PayloadLen_eq_ok]
  constructor
  · rintro ⟨hs, hc, hl, hf, hb⟩
    exact ⟨_, ⟨hs, hc, rfl, hl, hf⟩, hb⟩
  · rintro ⟨n, ⟨hs, hc, rfl, hl, hf⟩, hb⟩
    exact ⟨hs, hc, hl, hf, hb⟩

/-- `SocketAddr`s of one family. -/
def VisitorTcpAddresses.SameFamily (a : VisitorTcpAddresses) : Prop :=
  match a.source.ip, a.destination.ip with
  | .v4 _, .v4 _ | .v6 _, .v6 _ => True
  | _, _ => False

theorem sameFamily_proxyV2Addresses (fixed payload : List UInt8) :
    (proxyV2Addresses fixed payload).SameFamily := by
  unfold proxyV2Addresses
  dsimp only
  split <;> trivial

theorem exists_encodeProxyV2 (h : a.SameFamily) : ∃ header, a.encodeProxyV2 = some header := by
  obtain ⟨⟨_ | _, sourcePort⟩, ⟨_ | _, destinationPort⟩⟩ := a
  · exact ⟨_, rfl⟩
  · exact h.elim
  · exact h.elim
  · exact ⟨_, rfl⟩

/-- The codec of the PROXY header: an encoded header, with any tail, is read back from a stream
in any pieces, and what follows is left; reading succeeds on the streams that carry a header and
no others; and what it returns can be encoded. -/
theorem proxy_header_codec :
    (∀ a : VisitorTcpAddresses, a.SameFamily → ∃ header, a.encodeProxyV2 = some header ∧
      ∀ tail payload chunks, (withTail header tail).length ≤ maxProxyV2HeaderLen →
        chunks.flatten = withTail header tail ++ payload →
        ∃ rest, readProxyV2 chunks = .ok (a, rest) ∧ rest.flatten = payload) ∧
    (∀ chunks, (∃ x, readProxyV2 chunks = .ok x) ↔ CarriesHeader chunks.flatten) ∧
    ∀ chunks a rest, readProxyV2 chunks = .ok (a, rest) →
      a.SameFamily ∧ a.encodeProxyV2 ≠ none := by
  refine ⟨fun a ha => ?_, fun chunks => ⟨?_, fun h => ?_⟩, fun chunks a rest h => ?_⟩
  · obtain ⟨header, he⟩ := exists_encodeProxyV2 ha
    exact ⟨header, he, fun tail payload chunks hle hc =>
      ((a.isHeader_encodeProxyV2 he).withTail hle).readProxyV2 hc⟩
  · rintro ⟨⟨a, rest⟩, h⟩
    obtain ⟨head, ⟨⟨n, hn, hl⟩, -⟩, hc⟩ := isHeader_of_readProxyV2 h
    refine carriesHeader_iff.mpr ⟨n, ?_, ?_⟩
    · rw [hc, ← proxyV2PayloadLen_take, List.take_append_of_le_length (by omega), hn]
    · rw [hc, List.length_append]
      omega
  · obtain ⟨n, hn, hle⟩ := carriesHeader_iff.mp h
    have hh : IsHeader (chunks.flatten.take (16 + n)) _ :=
      ⟨⟨n, by rwa [List.take_take, min_eq_left (by omega), proxyV2PayloadLen_take],
        List.length_take_of_le hle⟩, rfl⟩
    obtain ⟨rest, hr, -⟩ := hh.readProxyV2 (List.take_append_drop ..).symm
    exact ⟨_, hr⟩
  · obtain ⟨head, ⟨-, rfl⟩, -⟩ := isHeader_of_readProxyV2 h
    have hs := sameFamily_proxyV2Addresses (head.take 16) (head.drop 16)
    obtain ⟨header, he⟩ := exists_encodeProxyV2 hs
    exact ⟨hs, by rw [he]; simp⟩

/-- A header in two pieces, the second with a byte of the payload. -/
theorem proxy_header_codec_pieces :
    let a : VisitorTcpAddresses := ⟨⟨.v4 1, 1⟩, ⟨.v4 2, 443⟩⟩
    ∃ header rest, a.encodeProxyV2 = some header ∧
      readProxyV2 [header.take 20, header.drop 20 ++ [0x16]] = .ok (a, rest) ∧
      rest.flatten = [0x16] := by
  intro a
  obtain ⟨header, he, hr⟩ := proxy_header_codec.1 a trivial
  obtain ⟨rest, hok, hf⟩ := hr [] [0x16] [header.take 20, header.drop 20 ++ [0x16]]
    (by cases he; decide) (by cases he; decide)
  exact ⟨header, rest, he, hok, hf⟩

end Runewarp
