import Runewarp.GracefulDuration
import Runewarp.Server.VisitorCoverage
import Runewarp.TunnelFraming

/-!
# Whose addresses a Visitor goes by

With PROXY ingress a Visitor goes by the addresses in its header, so the header is read
only when the peer of the socket is in a trusted network.  Without it the addresses are
those of the socket, and a header is so many bytes of a ClientHello.

A network is read from its text, where the prefix length is bounded by the family before a
mask is shifted by it.  `visitors_go_by_trusted_addresses` says what an accepted network
contains, and follows the task of a Visitor through every run of the intake, with all
others: what it goes by, what it does to the counts of the sources, and that a Visitor
that is not trusted is turned away in the same way whatever it sends.
-/

namespace Runewarp

/-! ## Trusted networks -/

/-- `split_once`. -/
def splitOnce (separator : Char) (cs : List Char) : Option (List Char × List Char) :=
  match cs.dropWhile (· ≠ separator) with
  | [] => none
  | _ :: back => some (cs.takeWhile (· ≠ separator), back)

/-- `parse::<u8>`. -/
def parseU8 (cs : List Char) : Option UInt8 :=
  (parseU64 cs).bind fun n => if n.toNat < UInt8.size then some n.toUInt8 else none

namespace IpAddr

def isIpv4 : IpAddr → Bool
  | .v4 _ => true
  | .v6 _ => false

def width (a : IpAddr) : Nat := if a.isIpv4 then 32 else 128

/-- The bits of an address, from the first. -/
def bit (i : Nat) : IpAddr → Bool
  | .v4 bits => bits.getMsbD i
  | .v6 bits => bits.getMsbD i

end IpAddr

namespace TrustedNetwork

def isCanonical (network : IpAddr) (bits : Nat) : Bool :=
  match network with
  | .v4 network => network &&& mask 32 bits == network
  | .v6 network => network &&& mask 128 bits == network

/-- `from_str`, over the parser of addresses in the standard library. -/
def fromStr (parseIp : List Char → Option IpAddr) (value : String) :
    Except String TrustedNetwork :=
  match splitOnce '/' value.toList with
  | none => .error "must use CIDR notation"
  | some (address, length) =>
    match parseIp address with
    | none => .error "contains an invalid IP address"
    | some network =>
      match parseU8 length with
      | none => .error "contains an invalid prefix"
      | some bits =>
        if network.width < bits.toNat then .error "contains an invalid prefix"
        else if isCanonical network bits.toNat = false then
          .error "must use a canonical network address"
        else .ok ⟨network, bits.toNat⟩

/-- What every accepted network has. -/
structure Accepted (n : TrustedNetwork) : Prop where
  bits_le : n.bits ≤ n.network.width
  /-- Where a mask is shifted, the shift is less than its width. -/
  shift_lt : n.bits ≠ 0 → n.network.width - n.bits < n.network.width
  host_bits : ∀ i, n.bits ≤ i → n.network.bit i = false

variable {w bits : Nat} {x y : BitVec w}

theorem getMsbD_mask (h : bits ≤ w) (i : Nat) : (mask w bits).getMsbD i = decide (i < bits) := by
  unfold mask
  split
  next h0 => simp [h0]
  next =>
    rw [BitVec.getMsbD_shiftLeft, BitVec.getMsbD_allOnes]
    exact decide_eq_decide.mpr (by omega)

theorem and_mask_eq_iff (h : bits ≤ w) :
    x &&& mask w bits = y &&& mask w bits ↔ ∀ i < bits, x.getMsbD i = y.getMsbD i := by
  constructor
  · intro heq i hi
    have hb := congrArg (BitVec.getMsbD · i) heq
    simpa [BitVec.getMsbD_and, getMsbD_mask h, hi] using hb
  · intro heq
    refine BitVec.eq_of_getMsbD_eq fun i _ => ?_
    rw [BitVec.getMsbD_and, BitVec.getMsbD_and, getMsbD_mask h]
    by_cases hi : i < bits
    · rw [heq i hi]
    · simp [hi]

theorem getMsbD_of_and_mask (h : bits ≤ w) (heq : x &&& mask w bits = x) {i : Nat}
    (hi : bits ≤ i) : x.getMsbD i = false := by
  rw [← heq, BitVec.getMsbD_and, getMsbD_mask h]
  simp [hi]

variable {n : TrustedNetwork} {parseIp : List Char → Option IpAddr} {value : String}

theorem accepted_of_fromStr (h : fromStr parseIp value = .ok n) : n.Accepted := by
  unfold fromStr at h
  split at h
  next => cases h
  next address length _ =>
    split at h
    next => cases h
    next network _ =>
      split at h
      next => cases h
      next bits _ =>
        split_ifs at h with hlt hc
        have hle := Nat.le_of_not_lt hlt
        cases h
        refine ⟨hle, fun h0 => Nat.sub_lt_of_pos_le (Nat.pos_of_ne_zero h0) hle, fun i hi => ?_⟩
        rcases network with network | network
        · exact getMsbD_of_and_mask (show _ ≤ 32 from hle) (by simpa [isCanonical] using hc) hi
        · exact getMsbD_of_and_mask (show _ ≤ 128 from hle) (by simpa [isCanonical] using hc) hi

theorem Accepted.contains_iff (h : n.Accepted) (address : IpAddr) :
    n.contains address = true ↔ address.isIpv4 = n.network.isIpv4 ∧
      ∀ i < n.bits, address.bit i = n.network.bit i := by
  obtain ⟨network, bits⟩ := n
  have hle := h.bits_le
  cases network <;> cases address
  case v4.v4 | v6.v6 =>
    simp only [contains, beq_iff_eq, IpAddr.isIpv4, IpAddr.bit, true_and]
    exact eq_comm.trans (and_mask_eq_iff hle)
  case v4.v6 | v6.v4 => simp [contains, IpAddr.isIpv4]

end TrustedNetwork

namespace Server

open VisitorAdmission (removeSource)

/-! ## The addresses of a Visitor -/

/-- A Visitor, by the addresses of its socket and its bytes as they arrive. -/
structure Visitor where
  direct : VisitorTcpAddresses
  chunks : List (List UInt8)

namespace VisitorIntake

/-- A header is asked for and the peer is in no trusted network. -/
def rejects (intake : VisitorIntake) (v : Visitor) : Bool :=
  intake.visitorProxyProtocol &&
    !intake.visitorProxyTrustedNetworks.any (·.contains v.direct.source.ip)

/-- The addresses that a Visitor is to go by. -/
def canonical (intake : VisitorIntake) (v : Visitor) : Option VisitorTcpAddresses :=
  if intake.rejects v then none
  else if intake.visitorProxyProtocol then (readProxyV2 v.chunks).toOption.map Prod.fst
  else some v.direct

/-- What is left of the bytes for the ClientHello. -/
def afterHeader (intake : VisitorIntake) (v : Visitor) : List (List UInt8) :=
  if intake.visitorProxyProtocol then ((readProxyV2 v.chunks).toOption.map Prod.snd).getD []
  else v.chunks

/-- A Visitor with the addresses it is to go by and the ClientHello that it sends. -/
def Heard (intake : VisitorIntake) (reader : HelloReader) (v : Visitor) (x : ParsedVisitor) :
    Prop :=
  intake.canonical v = some x.2 ∧ ∃ reads : List (List UInt8),
    reads.flatten <+: (intake.afterHeader v).flatten ∧
      reader.readClientHello [] (reads.map some) = .ok x.1

variable {intake : VisitorIntake} {v : Visitor} {a : VisitorTcpAddresses}

theorem canonical_rejects (h : intake.rejects v = true) :
    intake.canonical v = none := if_pos h

theorem canonical_direct (h : intake.visitorProxyProtocol = false) :
    intake.canonical v = some v.direct := by
  simp [canonical, rejects, h]

theorem canonical_header {rest : List (List UInt8)}
    (hp : intake.visitorProxyProtocol = true) (hr : intake.rejects v = false)
    (h : readProxyV2 v.chunks = .ok (a, rest)) :
    intake.canonical v = some a := by
  simp [canonical, hp, hr, h, Except.toOption]

theorem Heard.known {reader : HelloReader} {x : ParsedVisitor} (h : intake.Heard reader v x) :
    intake.canonical v ≠ none := by
  rw [h.1]
  exact Option.some_ne_none _

theorem rejects_of_known (h : intake.canonical v = some a) :
    intake.rejects v = false := by
  by_contra hr
  rw [canonical_rejects (Bool.not_eq_false _ ▸ hr)] at h
  cases h

end VisitorIntake

/-- What a step of a Visitor does to the counts of the sources: nothing, or it counts the
Visitor under its source or takes it off. -/
def SourceMoves (known : Option VisitorTcpAddresses) (m m' : HashMap IpAddr Nat) : Prop :=
  m' = m ∨ ∃ a, known = some a ∧
    (m' = m.insert a.source.ip ((m.lookup a.source.ip).getD 0 + 1) ∨
      m' = removeSource m a.source.ip)

namespace IntakePhase

/-- A task in this phase goes by the addresses of its Visitor, if by any. -/
def Knows (intake : VisitorIntake) (reader : HelloReader) (v : Visitor) : IntakePhase → Prop
  | .selecting d => d = v.direct
  | .readingProxy => intake.visitorProxyProtocol = true ∧ intake.rejects v = false
  | .resolved a | .readingHello a => intake.canonical v = some a
  | .parsed (.ok (some x)) | .handling x | .awaitPools x | .awaitMembers x | .forwarding x
  | .opening x | .opened x | .activated x | .registering x => intake.Heard reader v x
  | .proxying bytes => ∃ x, intake.Heard reader v x ∧
    encodeTunnelStream x.2 x.1.bufferedBytes = some bytes
  | .parsed (.error e) => e = .untrustedPeer ↔ intake.rejects v = true
  | .spawned | .leaving | .finished => True
  | _ => intake.canonical v ≠ none

/-- The source that the permit of a task in this phase is counted against. -/
def Counts (known : Option VisitorTcpAddresses) : IntakePhase → Option IpAddr → Prop
  | .spawned, source | .selecting _, source | .readingProxy, source | .resolved _, source =>
    source = none
  | .readingHello a, source => source = some a.source.ip
  | _, source => ∀ ip, source = some ip → ∃ a, known = some a ∧ ip = a.source.ip

/-- The phases of a task whose peer is not trusted. -/
def Rejecting : IntakePhase → Prop
  | .spawned | .selecting _ | .parsed (.error .untrustedPeer) | .leaving | .finished => True
  | _ => False

variable {intake : VisitorIntake} {reader : HelloReader} {v : Visitor} {phase : IntakePhase}
  {source : Option IpAddr}

theorem Knows.rejecting (h : phase.Knows intake reader v) (hr : intake.rejects v = true) :
    phase.Rejecting := by
  have hk := VisitorIntake.canonical_rejects hr
  unfold Knows at h
  unfold Rejecting
  split at h <;> simp_all [VisitorIntake.Heard]

theorem Counts.attributed (h : phase.Counts (intake.canonical v) source)
    (hk : phase.Knows intake reader v) {ip : IpAddr} (hs : source = some ip) :
    ∃ a, intake.canonical v = some a ∧ ip = a.source.ip := by
  unfold Counts at h
  split at h
  case h_5 a => exact ⟨a, hk, Option.some.inj (hs.symm.trans h)⟩
  case h_6 => exact h ip hs
  all_goals cases h.symm.trans hs

end IntakePhase

namespace IntakeTask

open IntakePhase

/-- A task goes by the addresses of its Visitor, and its permit is counted against their
source. -/
structure Follows (intake : VisitorIntake) (reader : HelloReader) (v : Visitor)
    (t : IntakeTask) : Prop where
  knows : t.phase.Knows intake reader v
  counts : ∀ permit, t.visitorPermit = some permit →
    t.phase.Counts (intake.canonical v) permit.source
  /-- When the peer is not trusted it has no other permit. -/
  unrouted : intake.rejects v = true → t.pendingOpenPermit = false ∧ t.activeStreamPermit = false
  closed : t.phase = .finished → t.socket = false

/-- The task has the socket addresses of its Visitor, and its reads give what the Visitor
sends. -/
def Reads (intake : VisitorIntake) (reader : HelloReader) (v : Visitor) : IntakeEvent → Prop
  | .start (some d) => d = v.direct
  | .proxyRead (some a) => ∃ rest, readProxyV2 v.chunks = .ok (a, rest)
  | .helloRead (some hello) => ∃ reads : List (List UInt8),
    reads.flatten <+: (intake.afterHeader v).flatten ∧
      reader.readClientHello [] (reads.map some) = .ok hello
  | _ => True

/-- A step comes to such a task again, and counts only its Visitor. -/
def FollowsTo (intake : VisitorIntake) (reader : HelloReader) (v : Visitor)
    (a : VisitorAdmission) (x : IntakeTask × VisitorAdmission) : Prop :=
  x.1.Follows intake reader v ∧ SourceMoves (intake.canonical v) a.pendingVisitorsBySource
    x.2.pendingVisitorsBySource

variable {intake : VisitorIntake} {v : Visitor} {reader : HelloReader}
  {phase phase' : IntakePhase} {event : IntakeEvent} {t t' : IntakeTask}
  {a a' : VisitorAdmission} {permit : VisitorAdmissionPermit}

theorem Follows.attributed (h : t.Follows intake reader v) (hp : t.visitorPermit = some permit)
    (ip : IpAddr) (hip : permit.source = some ip) :
    ∃ a, intake.canonical v = some a ∧ ip = a.source.ip :=
  (h.counts permit hp).attributed h.knows hip

theorem knows_beginIntake : (beginIntake intake v.direct).Knows intake reader v := by
  fun_cases beginIntake with
  | case1 hp hc => exact ⟨hp, by simp [VisitorIntake.rejects, hc]⟩
  | case2 hp hc => simp [Knows, VisitorIntake.rejects, hp, hc]
  | case3 hp => exact VisitorIntake.canonical_direct (Bool.not_eq_true _ ▸ hp)

theorem counts_beginIntake {known : Option VisitorTcpAddresses} {direct : VisitorTcpAddresses} :
    (beginIntake intake direct).Counts known none := by
  fun_cases beginIntake <;> simp [Counts]

theorem knows_beginProxy {x : ParsedVisitor} (h : intake.Heard reader v x) :
    (beginProxy x).Knows intake reader v := by
  unfold beginProxy
  cases he : encodeTunnelStream x.2 x.1.bufferedBytes with
  | none => exact h.known
  | some bytes => exact ⟨x, h, he⟩

theorem knows_advance (hk : phase.Knows intake reader v)
    (hs : advance intake phase event = some phase') (hr : Reads intake reader v event) :
    phase'.Knows intake reader v ∧ ∀ source, phase.Counts (intake.canonical v) source →
      phase'.Counts (intake.canonical v) source := by
  -- A later phase takes the permit as it is.
  have hl : ∀ source, phase.Counts (intake.canonical v) source →
      ∀ ip, source = some ip → ∃ a, intake.canonical v = some a ∧ ip = a.source.ip :=
    fun source hc ip => hc.attributed hk
  unfold advance at hs
  split at hs
  case h_1 =>
    cases hs
    exact ⟨hr, fun _ hc => hc⟩
  case h_4 =>
    cases hs
    obtain ⟨rest, hok⟩ := hr
    exact ⟨VisitorIntake.canonical_header hk.1 hk.2 hok, fun _ hc => hc⟩
  case h_5 | h_6 =>
    cases hs
    exact ⟨by simp [Knows, hk.2], hl⟩
  case h_8 =>
    cases hs
    exact ⟨⟨hk, hr⟩, hl⟩
  case h_9 | h_10 =>
    cases hs
    exact ⟨by simp [Knows, VisitorIntake.rejects_of_known hk], hl⟩
  case h_12 =>
    cases hs
    refine ⟨?_, ?_⟩
    · fun_cases handle
      case case1 => exact hk.known
      case case6 => exact hk
      all_goals trivial
    · fun_cases handle <;> exact hl
  case h_18 x ok =>
    cases hs
    split
    · refine ⟨knows_beginProxy hk, ?_⟩
      unfold beginProxy
      cases encodeTunnelStream x.2 x.1.bufferedBytes <;> exact hl
    · exact ⟨trivial, hl⟩
  case h_19 =>
    cases hs
    obtain ⟨x, hx, -⟩ := hk
    exact ⟨hx.known, hl⟩
  case h_20 =>
    unfold dropped at hs
    split at hs <;> cases hs
    case h_9 =>
      obtain ⟨x, hx, -⟩ := hk
      exact ⟨hx.known, hl⟩
    all_goals exact ⟨trivial, hl⟩
  case h_21 => cases hs
  all_goals
    cases hs
    first
    | exact ⟨trivial, hl⟩
    | exact ⟨hk, hl⟩
    | split <;> exact ⟨by first | exact trivial | exact hk, hl⟩

theorem sourceMoves_dropVisitor {known : Option VisitorTcpAddresses}
    (h : ∀ ip, permit.source = some ip → ∃ a, known = some a ∧ ip = a.source.ip) :
    SourceMoves known a.pendingVisitorsBySource
      (a.dropVisitor permit).pendingVisitorsBySource := by
  obtain hn | ⟨ip, hip⟩ := Option.eq_none_or_eq_some permit.source
  · exact .inl (by simp [VisitorAdmission.dropVisitor, hn])
  · obtain ⟨a, hk, rfl⟩ := h ip hip
    exact .inr ⟨a, hk, .inr (by simp [VisitorAdmission.dropVisitor, hip])⟩

theorem useCanonicalSource_of_none {permit' : VisitorAdmissionPermit} {source : IpAddr}
    {maximum : Nat} (hn : permit.source = none)
    (h : a.useCanonicalSource permit source maximum = .ok (permit', a')) :
    permit' = ⟨some source⟩ ∧ a'.pendingVisitorsBySource =
      a.pendingVisitorsBySource.insert source
        ((a.pendingVisitorsBySource.lookup source).getD 0 + 1) := by
  unfold VisitorAdmission.useCanonicalSource at h
  rw [hn, if_neg (Option.some_ne_none source)] at h
  dsimp only at h
  split_ifs at h
  cases h
  exact ⟨rfl, rfl⟩

theorem Follows.resolve (h : t.Follows intake reader v) {addresses : VisitorTcpAddresses}
    (hph : t.phase = .resolved addresses) (hp : t.visitorPermit = some permit) :
    FollowsTo intake reader v a (t.resolve a permit addresses) := by
  have hk := h.knows
  have hn := h.counts permit hp
  rw [hph] at hk hn
  unfold IntakeTask.resolve
  split
  next permit' a' hok =>
    obtain ⟨rfl, hm⟩ := useCanonicalSource_of_none hn hok
    exact ⟨⟨hk, fun _ heq => by cases heq; rfl, h.unrouted, by simp⟩,
      .inr ⟨addresses, hk, .inl hm⟩⟩
  next =>
    have hne : intake.canonical v ≠ none := by simp [show intake.canonical v = _ from hk]
    exact ⟨⟨hne, fun _ hp' ip => h.attributed hp' ip, h.unrouted, by simp⟩, .inl rfl⟩

theorem Follows.leave (h : t.Follows intake reader v) :
    FollowsTo intake reader v a (t.leave a) := by
  unfold IntakeTask.leave
  split
  next permit hp =>
    exact ⟨⟨h.knows, by simp, h.unrouted, h.closed⟩, sourceMoves_dropVisitor (h.attributed hp)⟩
  next hp =>
    split_ifs
    · exact ⟨⟨h.knows, h.counts, fun hr => ⟨rfl, (h.unrouted hr).2⟩, h.closed⟩, .inl rfl⟩
    · exact ⟨⟨h.knows, h.counts, fun hr => ⟨(h.unrouted hr).1, rfl⟩, h.closed⟩, .inl rfl⟩
    · exact ⟨⟨trivial, fun _ hp' ip => h.attributed hp' ip, h.unrouted, fun _ => rfl⟩, .inl rfl⟩

theorem Follows.afterProxy (h : t.Follows intake reader v) :
    FollowsTo intake reader v a (t.afterProxy a) := by
  unfold IntakeTask.afterProxy
  split
  next => exact ⟨⟨h.knows, h.counts, h.unrouted, fun _ => rfl⟩, .inl rfl⟩
  next hs =>
    exact ⟨⟨trivial, fun _ hp ip => h.attributed hp ip, fun hr => ⟨(h.unrouted hr).1, rfl⟩,
      fun _ => Bool.not_eq_true _ ▸ hs⟩, .inl rfl⟩

theorem Follows.proceed (h : t.Follows intake reader v) (hs : t.proceed intake a = some (t', a')) :
    FollowsTo intake reader v a (t', a') := by
  have hk := h.knows
  -- A task that goes on to a stream is of a Visitor that is not rejected.
  have hon {x : ParsedVisitor} (hx : intake.Heard reader v x) {P : Prop}
      (hr : intake.rejects v = true) : P := by
    cases (VisitorIntake.canonical_rejects hr).symm.trans hx.1
  unfold IntakeTask.proceed at hs
  split at hs
  next d hph =>
    cases hs
    rw [hph] at hk
    cases hk
    refine ⟨⟨knows_beginIntake, fun permit hp => ?_, h.unrouted, fun hf => ?_⟩, .inl rfl⟩
    · have hn := h.counts permit hp
      rw [hph] at hn
      rw [show permit.source = none from hn]
      exact counts_beginIntake
    · simp only [beginIntake] at hf
      split_ifs at hf
  next addresses hph =>
    obtain ⟨permit, hp, heq⟩ := Option.map_eq_some_iff.mp hs
    exact heq ▸ h.resolve hph hp
  next result hph =>
    obtain ⟨permit, hp, heq⟩ := Option.map_eq_some_iff.mp hs
    have hm := sourceMoves_dropVisitor (a := a) (h.attributed hp)
    rw [hph] at hk
    cases heq
    rcases result with error | _ | x
    · exact ⟨⟨trivial, by simp, h.unrouted, by simp⟩, hm⟩
    · exact ⟨⟨trivial, by simp, h.unrouted, by simp⟩, hm⟩
    · exact ⟨⟨hk, by simp, h.unrouted, by simp⟩, hm⟩
  next x hph =>
    rw [hph] at hk
    split at hs
    next a' hok =>
      cases hs
      obtain ⟨semaphore, rfl, -⟩ := VisitorAdmission.tryAdmitPendingStreamOpen_eq_ok hok
      exact ⟨⟨hk, fun _ hp ip => h.attributed hp ip, hon hk, by simp⟩, .inl rfl⟩
    next =>
      cases hs
      exact ⟨⟨trivial, fun _ hp ip => h.attributed hp ip, h.unrouted, by simp⟩, .inl rfl⟩
  next x hph =>
    rw [hph] at hk
    split at hs
    next a' hok =>
      cases hs
      obtain ⟨semaphore, rfl, -⟩ := VisitorAdmission.tryAdmitActiveRoutedStream_eq_ok hok
      exact ⟨⟨hk, fun _ hp ip => h.attributed hp ip, hon hk, by simp⟩, .inl rfl⟩
    next =>
      cases hs
      exact ⟨⟨trivial, fun _ hp ip => h.attributed hp ip, h.unrouted, by simp⟩, .inl rfl⟩
  next x hph =>
    rw [hph] at hk
    cases hs
    exact ⟨⟨hk, fun _ hp ip => h.attributed hp ip, hon hk, by simp⟩, .inl rfl⟩
  next => exact Option.some.inj hs ▸ h.afterProxy
  next => exact Option.some.inj hs ▸ h.leave
  next => cases hs

theorem Follows.step (h : t.Follows intake reader v) (hr : Reads intake reader v event)
    (hs : t.step intake a event = some (t', a')) : FollowsTo intake reader v a (t', a') := by
  unfold IntakeTask.step at hs
  split at hs
  next => exact h.proceed hs
  next =>
    obtain ⟨phase, hph, heq⟩ := Option.map_eq_some_iff.mp hs
    cases heq
    obtain ⟨hk, hc⟩ := knows_advance h.knows hph hr
    exact ⟨⟨hk, fun permit hp => hc _ (h.counts permit hp), h.unrouted,
      fun hfin => ((advance_next hph).unfinished hfin).elim⟩, .inl rfl⟩

/-! ### The task of a peer that is not trusted -/

/-- The steps that such a task can still take. -/
def stepsToClose (t : IntakeTask) : Nat :=
  match t.phase with
  | .spawned => 5
  | .selecting _ => 4
  | .parsed _ => 3
  | .leaving => 1 + t.visitorPermit.isSome.toNat
  | _ => 0

/-- It reads nothing, so its steps are the same whatever is sent. -/
theorem Follows.reads_rejecting {v' : Visitor} (hd : v'.direct = v.direct)
    (h : t.Follows intake reader v) (hr : intake.rejects v = true)
    (hre : Reads intake reader v event) (hs : t.step intake a event = some (t', a')) :
    Reads intake reader v' event := by
  have hph := h.knows.rejecting hr
  unfold Reads
  split
  case h_1 => exact hd ▸ hre
  case h_2 | h_3 =>
    obtain ⟨phase, hadv, -⟩ := Option.map_eq_some_iff.mp hs
    cases hp : t.phase <;> rw [hp] at hadv hph <;> first | exact hph.elim | cases hadv
  case h_4 => trivial

theorem beginIntake_of_rejects (hr : intake.rejects v = true) :
    beginIntake intake v.direct = .parsed (.error .untrustedPeer) := by
  obtain ⟨hp, hc⟩ := Bool.and_eq_true_iff.mp hr
  rw [beginIntake, if_pos hp, if_neg (by simpa using hc)]

theorem Follows.step_rejecting (h : t.Follows intake reader v) (hr : intake.rejects v = true)
    (hs : t.step intake a event = some (t', a')) : t'.stepsToClose < t.stepsToClose := by
  have hph := h.knows.rejecting hr
  obtain ⟨phase, socket, permit, opens, streams⟩ := t
  obtain ⟨rfl, rfl⟩ : opens = false ∧ streams = false := h.unrouted hr
  have hle : permit.isSome.toNat ≤ 1 := Bool.toNat_le _
  cases phase with
  | spawned =>
    cases event with
    | start d =>
      cases d <;> cases hs <;> simp only [stepsToClose] <;> omega
    | drop =>
      cases hs
      simp only [stepsToClose]
      omega
    | _ => cases hs
  | selecting d =>
    cases event with
    | proceed =>
      cases hs
      simp [stepsToClose, show d = v.direct from h.knows, beginIntake_of_rejects hr]
    | shutdown =>
      cases hs
      simp only [stepsToClose]
      omega
    | _ => cases hs
  | parsed result =>
    cases event with
    | proceed =>
      obtain ⟨permit', -, heq⟩ := Option.map_eq_some_iff.mp hs
      cases heq
      cases result with
      | error e => simp [stepsToClose]
      | ok parsed => exact hph.elim
    | _ => cases hs
  | leaving =>
    cases event with
    | proceed => cases permit <;> cases hs <;> simp [stepsToClose]
    | _ => cases hs
  | finished => cases event <;> cases hs
  | _ => exact hph.elim

theorem Follows.exists_step_rejecting (h : t.Follows intake reader v) (hso : t.Sound)
    (hr : intake.rejects v = true) (hf : t.phase ≠ .finished) :
    ∃ event, (event = .start (some v.direct) ∨ event = .proceed) ∧
      (t.step intake a event).isSome = true := by
  have hph := h.knows.rejecting hr
  obtain ⟨phase, socket, permit, opens, streams⟩ := t
  cases phase with
  | spawned => exact ⟨_, .inl rfl, rfl⟩
  | selecting d => exact ⟨_, .inr rfl, rfl⟩
  | parsed result =>
    refine ⟨_, .inr rfl, ?_⟩
    obtain ⟨hv, -, -⟩ := hso.eq rfl
    simpa [IntakeTask.step, IntakeTask.proceed] using hv
  | leaving => exact ⟨_, .inr rfl, rfl⟩
  | finished => exact (hf rfl).elim
  | _ => exact hph.elim

end IntakeTask

namespace Intake

open HelloReader IntakeTask

/-- Task `i` has the Visitor. -/
def Sends (intake : VisitorIntake) (reader : HelloReader) (i : Nat) (v : Visitor) (_ : Intake) :
    Action → Prop
  | .accept => True
  | .on j event => j = i → Reads intake reader v event

/-- A task and the counts of the sources go by the addresses of its Visitor. -/
structure GoesBy (reader : HelloReader) (i : Nat) (v : Visitor) (u : Intake)
    (task : IntakeTask) : Prop where
  knows : task.phase.Knows u.intake reader v
  counted : ∀ permit, task.visitorPermit = some permit →
    task.phase.Counts (u.intake.canonical v) permit.source
  /-- What is forwarded reads back as these addresses and what was read of the ClientHello. -/
  forwarded : ∀ stream, task.phase = .proxying stream → ∃ x, u.intake.Heard reader v x ∧
    ∀ pieces more, pieces.flatten = stream ++ more →
      ∃ rest, readProxyV2 pieces = .ok (x.2, rest) ∧ rest.flatten = x.1.bufferedBytes ++ more
  moves : ∀ event w, Reads u.intake reader v event → system.step u (.on i event) = some w →
    SourceMoves (u.intake.canonical v) u.admission.pendingVisitorsBySource
      w.admission.pendingVisitorsBySource

/-- In a run from `t` to `u` the task is being rejected, in the same way for all bytes, and
goes on to close its socket. -/
structure Rejected (reader : HelloReader) (i : Nat) (v : Visitor) (t u : Intake)
    (task : IntakeTask) : Prop where
  phase : task.phase.Rejecting
  bytes : ∀ v', v'.direct = v.direct → system.Steps (Sends t.intake reader i v') t u
  closed : task.phase = .finished → task.socket = false
  next : task.phase ≠ .finished → ∃ event w,
    (event = .start (some v.direct) ∨ event = .proceed) ∧ system.step u (.on i event) = some w
  nearer : ∀ event w, Reads u.intake reader v event → system.step u (.on i event) = some w →
    w.admission.pendingVisitorsBySource = u.admission.pendingVisitorsBySource ∧
      ∃ task', w.tasks[i]? = some task' ∧ task'.stepsToClose < task.stepsToClose

variable {s t u w : Intake} {i : Nat} {action : Action} {reader : HelloReader} {v : Visitor}
  {task : IntakeTask}

theorem step_on {event : IntakeEvent} (ht : u.tasks[i]? = some task)
    (hs : system.step u (.on i event) = some w) :
    ∃ task' a, task.step u.intake u.admission event = some (task', a) ∧
      w = { u with admission := a, tasks := u.tasks.set i task' } := by
  cases move_of_step hs with
  | on hi hts =>
    cases ht.symm.trans hi
    exact ⟨_, _, hts, rfl⟩

theorem getElem?_step_other (ht : u.tasks[i]? = some task) (hs : system.step u action = some w)
    (hne : ∀ event, action ≠ .on i event) :
    w.intake = u.intake ∧ w.tasks[i]? = some task := by
  cases move_of_step hs with
  | accept => exact ⟨rfl, getElem?_append_some ht _⟩
  | refuse => exact ⟨rfl, ht⟩
  | @on j _ _ _ event =>
    have hji : j ≠ i := fun h => hne event (by rw [h])
    exact ⟨rfl, (List.getElem?_set_ne hji).trans ht⟩

/-- The task follows the addresses of its Visitor; when the peer is not trusted, the run is
one for any other bytes as well. -/
structure Following (reader : HelloReader) (i : Nat) (v : Visitor) (t u : Intake) : Prop where
  intake_eq : u.intake = t.intake
  task : ∃ task, u.tasks[i]? = some task ∧ task.Follows t.intake reader v ∧ task.Sound
  other : t.intake.rejects v = true → ∀ v', v'.direct = v.direct →
    system.Steps (Sends t.intake reader i v') t u

theorem Following.step (h : Following reader i v t u)
    (hok : Sends t.intake reader i v u action) (hs : system.step u action = some w) :
    Following reader i v t w := by
  obtain ⟨task, ht, hf, hso⟩ := h.task
  by_cases hon : ∃ event, action = .on i event
  · obtain ⟨event, rfl⟩ := hon
    obtain ⟨task', a, hts, rfl⟩ := step_on ht hs
    rw [h.intake_eq] at hts
    refine ⟨h.intake_eq, ⟨task', getElem?_set_moved ht, (hf.step (hok rfl) hts).1,
      (IntakeTask.step_spec hso hts).sound⟩, fun hr v' hd => ?_⟩
    have hok' : Sends t.intake reader i v' u (.on i event) :=
      fun _ => hf.reads_rejecting hd hr (hok rfl) hts
    exact (h.other hr v' hd).tail hok' hs
  · have hne : ∀ event, action ≠ .on i event := fun event he => hon ⟨event, he⟩
    obtain ⟨hin, ht'⟩ := getElem?_step_other ht hs hne
    refine ⟨hin.trans h.intake_eq, ⟨task, ht', hf, hso⟩, fun hr v' hd => ?_⟩
    refine (h.other hr v' hd).tail ?_ hs
    cases action with
    | accept => trivial
    | on j event => exact fun hji => (hne event (by rw [hji])).elim

theorem goesBy_of_follows (ht : u.tasks[i]? = some task) (hf : task.Follows u.intake reader v) :
    GoesBy reader i v u task where
  knows := hf.knows
  counted := hf.counts
  forwarded stream hph := by
    have hk := hf.knows
    rw [hph] at hk
    obtain ⟨x, hx, he⟩ := hk
    obtain ⟨header, hh, rfl⟩ := Option.map_eq_some_iff.mp he
    refine ⟨x, hx, fun pieces more hp => ?_⟩
    rw [List.append_assoc] at hp
    exact (x.2.isHeader_encodeProxyV2 hh).readProxyV2 hp
  moves event w hr hs := by
    obtain ⟨task', a, hts, rfl⟩ := step_on ht hs
    exact (hf.step hr hts).2

theorem Following.rejected (h : Following reader i v t u) (ht : u.tasks[i]? = some task)
    (hf : task.Follows u.intake reader v) (hso : task.Sound) (hr : t.intake.rejects v = true) :
    Rejected reader i v t u task := by
  have hru : u.intake.rejects v = true := h.intake_eq ▸ hr
  refine ⟨hf.knows.rejecting hru, h.other hr, hf.closed, fun hne => ?_, fun event w hre hs => ?_⟩
  · obtain ⟨event, he, hsome⟩ := hf.exists_step_rejecting (a := u.admission) hso hru hne
    obtain ⟨⟨task', a⟩, hts⟩ := Option.isSome_iff_exists.mp hsome
    exact ⟨event, { u with admission := a, tasks := u.tasks.set i task' }, he,
      by simp [system, Intake.step, ht, hts]⟩
  · obtain ⟨task', a, hts, rfl⟩ := step_on ht hs
    refine ⟨?_, task', getElem?_set_moved ht, hf.step_rejecting hru hts⟩
    obtain heq | ⟨addresses, hk, -⟩ := (hf.step hre hts).2
    · exact heq
    · cases (VisitorIntake.canonical_rejects hru).symm.trans hk

theorem following_accept (hs : system.step s .accept = some t)
    (hlt : s.tasks.length < t.tasks.length) :
    t.intake = s.intake ∧ Following reader s.tasks.length v t t := by
  cases move_of_step hs with
  | refuse => exact (lt_irrefl _ hlt).elim
  | accept hok =>
    obtain ⟨semaphore, -, heq⟩ := map_ok hok
    cases heq
    refine ⟨rfl, rfl, ⟨_, List.getElem?_concat_length .., ⟨trivial, ?_, ?_, by simp⟩, ?_⟩,
      fun _ _ _ => .refl⟩
    · rintro permit ⟨⟩
      rfl
    · exact fun _ => ⟨rfl, rfl⟩
    · exact IntakeTask.sound_of_some rfl

/-- A network that is accepted contains the addresses of its family with its first bits.
A Visitor of a peer in no such network is rejected before anything it sends is read; any
other is counted, and handed on, with the addresses of its header, or with those of its
socket where no header is asked for. -/
theorem visitors_go_by_trusted_addresses :
    (∀ (parseIp : List Char → Option IpAddr) (value : String) (n : TrustedNetwork),
      TrustedNetwork.fromStr parseIp value = .ok n → n.Accepted ∧
        ∀ address, n.contains address = true ↔ address.isIpv4 = n.network.isIpv4 ∧
          ∀ i < n.bits, address.bit i = n.network.bit i) ∧
    ∀ (reader : HelloReader) (v : Visitor) (s t u : Intake),
      system.step s .accept = some t → s.tasks.length < t.tasks.length →
      system.Steps (Sends s.intake reader s.tasks.length v) t u →
      ∃ task, u.tasks[s.tasks.length]? = some task ∧ u.intake = s.intake ∧
        GoesBy reader s.tasks.length v u task ∧
        (s.intake.rejects v = true → Rejected reader s.tasks.length v t u task) := by
  refine ⟨fun parseIp value n hok => ?_, fun reader v s t u hs hlt hrun => ?_⟩
  · have ha := TrustedNetwork.accepted_of_fromStr hok
    exact ⟨ha, ha.contains_iff⟩
  · obtain ⟨hin, hfo⟩ : _ ∧ Following reader s.tasks.length v t t := following_accept hs hlt
    rw [← hin] at hrun ⊢
    have hu := hrun.invariant (I := Following reader s.tasks.length v t)
      (fun _ _ _ h hok hst => h.step hok hst) hfo
    obtain ⟨task, ht, hf, hso⟩ := hu.task
    rw [← hu.intake_eq] at hf
    exact ⟨task, ht, hu.intake_eq, goesBy_of_follows ht hf, hu.rejected ht hf hso⟩

/-- PROXY ingress from one network. -/
def sampleTrust : Intake :=
  start { serverHostname := ⟨"a"⟩, publicTlsConfig := true, visitorProxyProtocol := true
          visitorProxyTrustedNetworks := [⟨.v4 0x0a000000, 8⟩] } {}

/-- A Visitor whose peer is not in it. -/
def sampleOutsider : Visitor := ⟨⟨⟨.v4 0x0b000000, 1⟩, ⟨.v4 2, 443⟩⟩, []⟩

def sampleAddresses : VisitorTcpAddresses := ⟨⟨.v4 1, 1⟩, ⟨.v4 2, 443⟩⟩

/-- A Visitor whose peer is in it, with a header before its ClientHello. -/
def sampleInsider : Visitor where
  direct := ⟨⟨.v4 0x0a000001, 1⟩, ⟨.v4 2, 443⟩⟩
  chunks := sampleAddresses.encodeProxyV2.getD [] :: fullReads

/-- The events of a Visitor that is proxied. -/
def sampleProxied (hello : ParsedClientHello) : List IntakeEvent :=
  [.start (some sampleInsider.direct), .proceed, .proxyRead (some sampleAddresses), .proceed,
    .helloRead (some hello), .proceed, .handle true false, .locked true, .locked true, .proceed,
    .streamOpened true, .proceed, .proceed, .registered true]

/-- The intake when it has accepted a Visitor. -/
def accepted : Intake := (system.step sampleTrust .accept).getD sampleTrust

theorem steps_accepted (events : List IntakeEvent)
    (hr : ∀ event ∈ events, Reads sampleTrust.intake sampleReader v event)
    (hu : system.exec accepted (events.map (.on 0)) = some u) :
    system.Steps (Sends sampleTrust.intake sampleReader 0 v) accepted u :=
  .of_exec (P := Sends _ _ _ _ sampleTrust) hu (List.forall_mem_map.mpr fun e he _ => hr e he)

theorem reads_sampleProxied {bytes : List UInt8}
    (h : sampleReader.readClientHello [] (fullReads.map some) = .ok ⟨⟨"a.test"⟩, [], bytes⟩) :
    ∀ event ∈ sampleProxied ⟨⟨"a.test"⟩, [], bytes⟩,
      Reads sampleTrust.intake sampleReader sampleInsider event := by
  obtain ⟨rest, hr, hf⟩ : ∃ rest, readProxyV2 sampleInsider.chunks = .ok (sampleAddresses, rest) ∧
      rest.flatten = fullReads.flatten :=
    (sampleAddresses.isHeader_encodeProxyV2 rfl).readProxyV2 rfl
  have ha : sampleTrust.intake.afterHeader sampleInsider = rest := by
    rw [VisitorIntake.afterHeader, hr]
    rfl
  simp only [sampleProxied, List.forall_mem_cons, Reads, ha]
  exact ⟨trivial, trivial, ⟨rest, hr⟩, trivial, ⟨fullReads, by rw [hf], h⟩, by simp⟩

/-- A Visitor that is rejected, and one that is proxied. -/
theorem visitors_go_by_trusted_addresses_two :
    (∃ n, TrustedNetwork.fromStr (fun _ => some (.v4 0x0a000000)) "10.0.0.0/8" = .ok n ∧
      n.Accepted) ∧
    (∃ u task, u.tasks[0]? = some task ∧ task.phase = .parsed (.error .untrustedPeer) ∧
      Rejected sampleReader 0 sampleOutsider accepted u task) ∧
    ∃ u task stream, u.tasks[0]? = some task ∧ task.phase = .proxying stream ∧
      GoesBy sampleReader 0 sampleInsider u task := by
  have hn : TrustedNetwork.fromStr (fun _ => some (.v4 0x0a000000)) "10.0.0.0/8" =
    .ok ⟨.v4 0x0a000000, 8⟩ := by decide
  refine ⟨⟨_, hn, (visitors_go_by_trusted_addresses.1 _ _ _ hn).1⟩, ?_, ?_⟩
  · obtain ⟨task, ht, -, -, hr⟩ := visitors_go_by_trusted_addresses.2 sampleReader sampleOutsider
      sampleTrust accepted _ rfl (by decide)
      (steps_accepted [.start (some sampleOutsider.direct), .proceed]
        (by simp [Reads]) rfl)
    cases ht
    exact ⟨_, _, rfl, rfl, hr (by decide)⟩
  · -- The bytes of the ClientHello are not looked at.
    have hex : ∀ bytes, ∃ u, system.exec accepted
        ((sampleProxied ⟨⟨"a.test"⟩, [], bytes⟩).map (.on 0)) = some u ∧
        ∃ task stream, u.tasks[0]? = some task ∧ task.phase = .proxying stream :=
      fun bytes => ⟨_, rfl, _, _, rfl, rfl⟩
    obtain ⟨u, hu, task, stream, ht, hp⟩ := hex _
    obtain ⟨task', ht', -, hg, -⟩ := visitors_go_by_trusted_addresses.2 sampleReader sampleInsider
      sampleTrust accepted u rfl (by decide)
      (steps_accepted _ (reads_sampleProxied readClientHello_fullReads) hu)
    cases ht.symm.trans ht'
    exact ⟨u, task, stream, ht, hp, hg⟩

end Intake

end Server

end Runewarp
