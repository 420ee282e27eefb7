import Runewarp.Lib.Balance
import Runewarp.Server.ActiveClient
import Mathlib.Data.List.Rotate

/-!
# The member a Visitor goes to

`least_active_index` finds the first of the least loaded members, counted around the pool
from the round-robin offset.  A run of Visitors on a pool that does not change keeps its
members as even as they were, to within one; Visitors that leave no load behind go round
the pool.
-/

namespace Runewarp.Server

open Balance

/-- How far an index is from `start`, around a pool of `len` members. -/
def cyclicDistance (len start i : Nat) : Nat := (i + (len - start % len)) % len

/-- An eligible index of minimal load, the first one from `start`. -/
structure FirstLeast (len start : Nat) (load : Nat → Option Nat) (i : Nat) : Prop where
  lt : i < len
  least : ∃ active, load i = some active ∧ ∀ j < len, ∀ other, load j = some other →
    active ≤ other ∧ (other = active → cyclicDistance len start i ≤ cyclicDistance len start j)

theorem cyclicDistance_offset {len offset : Nat} (h : offset < len) (start : Nat) :
    cyclicDistance len start ((start + offset) % len) = offset := by
  have hp : 0 < len := Nat.zero_lt_of_lt h
  have hst := Nat.mod_lt start hp
  rw [cyclicDistance, Nat.mod_add_mod]
  have hs : start + offset + (len - start % len) = offset + len * (start / len + 1) := by
    have hd := Nat.div_add_mod start len
    rw [Nat.mul_add, Nat.mul_one]
    omega
  rw [hs, Nat.add_mul_mod_self_left, Nat.mod_eq_of_lt h]

/-- Each index comes up once, at its distance. -/
theorem offset_cyclicDistance {len i : Nat} (h : i < len) (start : Nat) :
    (start + cyclicDistance len start i) % len = i := by
  have hst := Nat.mod_lt start (Nat.zero_lt_of_lt h)
  rw [cyclicDistance, Nat.add_mod_mod]
  have hs : start + (i + (len - start % len)) = i + len * (start / len + 1) := by
    have hd := Nat.div_add_mod start len
    rw [Nat.mul_add, Nat.mul_one]
    omega
  rw [hs, Nat.add_mul_mod_self_left, Nat.mod_eq_of_lt h]

theorem cyclicDistance_lt {len i : Nat} (h : i < len) (start : Nat) :
    cyclicDistance len start i < len :=
  Nat.mod_lt _ (Nat.zero_lt_of_lt h)

section LeastActive

variable {len start i : Nat} {load : Nat → Option Nat}

/-- The members `least_active_index` reads, in its order. -/
def candidates (len start : Nat) (load : Nat → Option Nat) : List (Nat × Nat) :=
  (List.range len).filterMap fun offset =>
    (load ((start + offset) % len)).map fun active => ((start + offset) % len, active)

theorem leastActiveIndex_eq : leastActiveIndex len start load =
    ((candidates len start load).argmin Prod.snd).map Prod.fst := rfl

theorem mem_candidates {active : Nat} :
    (i, active) ∈ candidates len start load ↔ i < len ∧ load i = some active := by
  simp only [candidates, List.mem_filterMap, List.mem_range, Option.map_eq_some_iff, Prod.mk.injEq]
  constructor
  · rintro ⟨offset, hlt, active, hl, rfl, rfl⟩
    exact ⟨Nat.mod_lt _ (Nat.zero_lt_of_lt hlt), hl⟩
  · rintro ⟨hlt, hl⟩
    refine ⟨cyclicDistance len start i, cyclicDistance_lt hlt start, active, ?_, ?_, rfl⟩
    · rw [offset_cyclicDistance hlt, hl]
    · rw [offset_cyclicDistance hlt]

theorem candidates_ascending : (candidates len start load).Pairwise
    fun p q => cyclicDistance len start p.1 < cyclicDistance len start q.1 := by
  rw [candidates, List.pairwise_filterMap]
  have hr : (List.range len).Pairwise fun a b => a < b ∧ a < len ∧ b < len := by
    refine List.Pairwise.imp_of_mem ?_ List.pairwise_lt_range
    intro a b ha hb hab
    exact ⟨hab, List.mem_range.mp ha, List.mem_range.mp hb⟩
  refine hr.imp ?_
  rintro a b ⟨hab, ha, hb⟩ p hp q hq
  obtain ⟨-, -, rfl⟩ := Option.map_eq_some_iff.mp hp
  obtain ⟨-, -, rfl⟩ := Option.map_eq_some_iff.mp hq
  rwa [cyclicDistance_offset ha, cyclicDistance_offset hb]

theorem leastActiveIndex_eq_none_iff :
    leastActiveIndex len start load = none ↔ ∀ i < len, load i = none := by
  rw [leastActiveIndex_eq, Option.map_eq_none_iff, List.argmin_eq_none,
    List.eq_nil_iff_forall_not_mem]
  constructor
  · intro h i hi
    by_contra hl
    obtain ⟨active, hl⟩ := Option.ne_none_iff_exists'.mp hl
    exact h (i, active) (mem_candidates.mpr ⟨hi, hl⟩)
  · rintro h ⟨i, active⟩ hm
    obtain ⟨hi, hl⟩ := mem_candidates.mp hm
    rw [h i hi] at hl
    cases hl

theorem leastActiveIndex_eq_some_iff :
    leastActiveIndex len start load = some i ↔ FirstLeast len start load i := by
  rw [leastActiveIndex_eq, Option.map_eq_some_iff]
  constructor
  · rintro ⟨⟨i, active⟩, ha, rfl⟩
    rw [argmin_eq_some_iff_of_ascending candidates_ascending] at ha
    obtain ⟨hm, hl⟩ := ha
    obtain ⟨hlt, hlo⟩ := mem_candidates.mp hm
    refine ⟨hlt, active, hlo, fun j hj other ho => ?_⟩
    exact hl (j, other) (mem_candidates.mpr ⟨hj, ho⟩)
  · rintro ⟨hlt, active, hlo, hl⟩
    refine ⟨(i, active), ?_, rfl⟩
    rw [argmin_eq_some_iff_of_ascending candidates_ascending]
    refine ⟨mem_candidates.mpr ⟨hlt, hlo⟩, ?_⟩
    rintro ⟨j, other⟩ hm
    obtain ⟨hj, ho⟩ := mem_candidates.mp hm
    exact hl j hj other ho

theorem firstLeast_start (start : Nat) {active : Nat} (hle : 0 < len)
    (hl : ∀ j < len, load j = some active) : FirstLeast len start load (start % len) := by
  have hs := Nat.mod_lt start hle
  refine ⟨hs, active, hl _ hs, fun j hj other ho => ?_⟩
  rw [hl j hj] at ho
  cases ho
  have hz : cyclicDistance len start (start % len) = 0 := cyclicDistance_offset hle start
  exact ⟨le_rfl, fun _ => hz ▸ Nat.zero_le _⟩

end LeastActive

namespace ActiveClientPool

/-- What a selection hands out of a member. -/
def selected (m : PoolMember) : SelectedTunnelConnection :=
  ⟨m.memberId, m.clientIdentity, m.connection, m.activeStreams⟩

/-- The load of a member that accepts Visitors. -/
def observed (pool : ActiveClientPool) (accepts : ServerTunnel → Bool) (load : Nat → Nat)
    (index : Nat) : Option Nat :=
  match pool.members[index]? with
  | some m => if accepts m.connection then some (load m.activeStreams) else none
  | none => none

variable {pool : ActiveClientPool} {accepts : ServerTunnel → Bool} {load : Nat → Nat}

theorem observed_eq_some {index active : Nat} : pool.observed accepts load index = some active ↔
    ∃ m, pool.members[index]? = some m ∧ accepts m.connection ∧ load m.activeStreams = active := by
  unfold observed
  cases pool.members[index]? with
  | none => simp
  | some m => simp

/-- The index that is selected, if the pool has any member. -/
def selectedIndex (pool : ActiveClientPool) (accepts : ServerTunnel → Bool) (load : Nat → Nat) :
    Option Nat :=
  leastActiveIndex pool.members.length (pool.nextRoundRobinOffset % pool.members.length)
    (pool.observed accepts load)

theorem selectConnection_eq (hl : pool.members.length ≠ 0) :
    pool.selectConnection accepts load =
      (((pool.selectedIndex accepts load).bind (pool.members[·]?)).map selected,
        { pool with nextRoundRobinOffset := (pool.nextRoundRobinOffset + 1) % 2 ^ 64 }) := by
  unfold selectConnection
  dsimp only
  rw [if_neg hl]
  split
  · next m hm =>
    have hi : (pool.selectedIndex accepts load).bind (pool.members[·]?) = some m := hm
    rw [hi]
    rfl
  · next hm =>
    have hi : (pool.selectedIndex accepts load).bind (pool.members[·]?) = none := hm
    rw [hi]
    rfl

theorem selectConnection_fst : (pool.selectConnection accepts load).1 =
    ((pool.selectedIndex accepts load).bind (pool.members[·]?)).map selected := by
  by_cases hl : pool.members.length = 0
  · have hn : pool.selectedIndex accepts load = none := by
      rw [selectedIndex, leastActiveIndex_eq_none_iff]
      intro i hi
      rw [hl] at hi
      exact absurd hi (Nat.not_lt_zero i)
    rw [hn, selectConnection, if_pos hl]
    rfl
  · rw [selectConnection_eq hl]

end ActiveClientPool

/-! ## Runs of selections -/

/-- A pool with the stream counters of its members. -/
structure Placement where
  pool : ActiveClientPool
  load : Nat → Nat

namespace Placement

open ActiveClientPool

/-- `select_connection`. -/
def select (accepts : ServerTunnel → Bool) (s : Placement) :
    Option SelectedTunnelConnection × Placement :=
  let result := s.pool.selectConnection accepts s.load
  (result.1, { s with pool := result.2 })

def recordOpenStream (s : Placement) (connection : SelectedTunnelConnection) : Placement :=
  let counter := connection.activeStreams
  { s with load := Function.update s.load counter (s.load counter + 1) }

/-- A call whose selection is recorded. -/
def place (accepts : ServerTunnel → Bool) (s : Placement) : Placement :=
  match (s.select accepts).1 with
  | some connection => (s.select accepts).2.recordOpenStream connection
  | none => (s.select accepts).2

/-- What `n` calls select when nothing is recorded. -/
def selections (accepts : ServerTunnel → Bool) : Nat → Placement →
    List (Option SelectedTunnelConnection)
  | 0, _ => []
  | n + 1, s => (s.select accepts).1 :: selections accepts n (s.select accepts).2

/-- The stream counters of the members that accept Visitors. -/
def Counter (accepts : ServerTunnel → Bool) (members : List PoolMember) (counter : Nat) : Prop :=
  ∃ m ∈ members, accepts m.connection ∧ m.activeStreams = counter

variable {accepts : ServerTunnel → Bool} {s : Placement}

theorem place_members : (s.place accepts).pool.members = s.pool.members := by
  unfold place
  split <;> simp [recordOpenStream, select]

/-- A recorded selection puts one more on the least loaded; a call that finds no member
leaves the loads. -/
theorem place_raises (accepts : ServerTunnel → Bool) (s : Placement) :
    (s.place accepts).load = s.load ∨
    Raise (Counter accepts s.pool.members) s.load (s.place accepts).load := by
  unfold place
  split
  · next connection hs =>
    right
    simp only [select, selectConnection_fst] at hs
    obtain ⟨m, hm, rfl⟩ := Option.map_eq_some_iff.mp hs
    obtain ⟨i, hi, hm⟩ := Option.bind_eq_some_iff.mp hm
    obtain ⟨active, hlo, hl⟩ := (leastActiveIndex_eq_some_iff.mp hi).least
    obtain ⟨m', hm', hac, rfl⟩ := observed_eq_some.mp hlo
    cases hm.symm.trans hm'
    refine .least m.activeStreams ⟨m, List.mem_of_getElem? hm, hac, rfl⟩ ?_
    rintro _ ⟨other, hot, ha, rfl⟩
    obtain ⟨j, hj⟩ := List.getElem?_of_mem hot
    have ho : s.pool.observed accepts s.load j = some (s.load other.activeStreams) :=
      observed_eq_some.mpr ⟨other, hj, ha, rfl⟩
    exact (hl j (List.getElem?_eq_some_iff.mp hj).1 _ ho).1
  · exact .inl rfl

/-- A run of recorded selections is a run of raises of the least. -/
theorem raises_of_places (n : Nat) (s : Placement) :
    Relation.ReflTransGen (Raise (Counter accepts s.pool.members)) s.load
      ((place accepts)^[n] s).load := by
  induction n generalizing s with
  | zero => exact .refl
  | succ n ih =>
    have hr := ih (s.place accepts)
    rw [place_members] at hr
    rcases place_raises accepts s with hs | hra
    · rwa [hs] at hr
    · exact .head hra hr

/-- Members that all accept Visitors and are equally loaded. -/
structure Even (accepts : ServerTunnel → Bool) (s : Placement) (active : Nat) : Prop where
  accepts : ∀ m ∈ s.pool.members, accepts m.connection
  load : ∀ m ∈ s.pool.members, s.load m.activeStreams = active

/-- The offset alone selects among equally loaded members. -/
theorem Even.select {active : Nat} (h : s.Even accepts active) (hl : s.pool.members.length ≠ 0) :
    s.select accepts =
      (s.pool.members[s.pool.nextRoundRobinOffset % s.pool.members.length]?.map selected,
        ⟨{ s.pool with nextRoundRobinOffset := (s.pool.nextRoundRobinOffset + 1) % 2 ^ 64 },
          s.load⟩) := by
  have hi : s.pool.selectedIndex accepts s.load =
      some (s.pool.nextRoundRobinOffset % s.pool.members.length) := by
    refine leastActiveIndex_eq_some_iff.mpr ?_
    have hlo : ∀ j < s.pool.members.length, s.pool.observed accepts s.load j = some active := by
      intro j hj
      have hm := List.getElem_mem hj
      exact observed_eq_some.mpr
        ⟨_, List.getElem?_eq_getElem hj, h.accepts _ hm, h.load _ hm⟩
    have hf := firstLeast_start (s.pool.nextRoundRobinOffset % s.pool.members.length)
      (Nat.pos_of_ne_zero hl) hlo
    rwa [Nat.mod_mod] at hf
  rw [Placement.select, selectConnection_eq hl, hi]
  rfl

/-- The calls go round the pool as long as the offset does not wrap. -/
theorem Even.selections {active : Nat} (k : Nat) (h : s.Even accepts active)
    (hl : s.pool.members.length ≠ 0) (hw : s.pool.nextRoundRobinOffset + k ≤ 2 ^ 64) :
    s.selections accepts k = (List.range k).map fun j =>
      s.pool.members[(s.pool.nextRoundRobinOffset + j) % s.pool.members.length]?.map selected := by
  induction k generalizing s with
  | zero => rfl
  | succ k ih =>
    rw [Placement.selections, h.select hl, List.range_succ_eq_map, List.map_cons, List.map_map]
    refine congrArg (_ :: ·) ?_
    cases k with
    | zero => rfl
    | succ k =>
      have hn : (s.pool.nextRoundRobinOffset + 1) % 2 ^ 64 =
          s.pool.nextRoundRobinOffset + 1 := Nat.mod_eq_of_lt (by omega)
      rw [hn]
      have hr := ih (s := ⟨{ s.pool with
        nextRoundRobinOffset := s.pool.nextRoundRobinOffset + 1 }, s.load⟩)
        { h with } hl (by dsimp only; omega)
      rw [hr]
      refine List.map_congr_left fun j _ => ?_
      dsimp only [Function.comp]
      rw [Nat.add_assoc, Nat.add_comm 1 j]

/-- One round visits every member once. -/
theorem Even.selections_perm {active : Nat} (h : s.Even accepts active)
    (hw : s.pool.nextRoundRobinOffset + s.pool.members.length ≤ 2 ^ 64) :
    (s.selections accepts s.pool.members.length).Perm
      (s.pool.members.map fun m => some (selected m)) := by
  by_cases hl : s.pool.members.length = 0
  · rw [List.length_eq_zero_iff.mp hl]
    exact .refl _
  have hr : s.selections accepts s.pool.members.length =
      (s.pool.members.rotate s.pool.nextRoundRobinOffset).map fun m => some (selected m) := by
    rw [h.selections _ hl hw]
    refine List.ext_getElem (by simp) fun j hj _ => ?_
    have hlt := Nat.mod_lt (j + s.pool.nextRoundRobinOffset) (Nat.pos_of_ne_zero hl)
    simp only [List.getElem_map, List.getElem_range, List.getElem_rotate]
    rw [Nat.add_comm, List.getElem?_eq_getElem hlt, Option.map_some]
  rw [hr]
  exact (List.rotate_perm _ _).map _

end Placement

open Placement ActiveClientPool in
/-- Selection goes to the first of the least loaded, keeps the loads together and goes
round a pool that is even. -/
theorem selection_balances_visitors :
    (∀ len start load,
      (leastActiveIndex len start load = none ↔ ∀ i < len, load i = none) ∧
      ∀ i, leastActiveIndex len start load = some i ↔ FirstLeast len start load i) ∧
    (∀ accepts (s : Placement) n, ∀ m ∈ s.pool.members, ∀ m' ∈ s.pool.members,
      accepts m.connection → accepts m'.connection →
      (((place accepts)^[n] s).load m.activeStreams).dist
          (((place accepts)^[n] s).load m'.activeStreams) ≤
        (s.load m.activeStreams).dist (s.load m'.activeStreams) + 1) ∧
    ∀ accepts (s : Placement), (∀ m ∈ s.pool.members, accepts m.connection) →
      (∀ m ∈ s.pool.members, ∀ m' ∈ s.pool.members,
        s.load m.activeStreams = s.load m'.activeStreams) →
      s.pool.nextRoundRobinOffset + s.pool.members.length ≤ 2 ^ 64 →
      (s.selections accepts s.pool.members.length).Perm
        (s.pool.members.map fun m => some (selected m)) := by
  refine ⟨fun len start load => ⟨leastActiveIndex_eq_none_iff, fun i =>
    leastActiveIndex_eq_some_iff⟩, ?_, ?_⟩
  · intro accepts s n m hm m' hm' ha ha'
    have hd := dist_le_of_raises (raises_of_places n s) ⟨m, hm, ha, rfl⟩ ⟨m', hm', ha', rfl⟩
    omega
  · intro accepts s ha hl hw
    cases hme : s.pool.members with
    | nil => exact .refl _
    | cons first rest =>
      rw [← hme]
      have hf : first ∈ s.pool.members := by simp [hme]
      have he : s.Even accepts (s.load first.activeStreams) :=
        ⟨ha, fun m hm => hl m hm first hf⟩
      exact he.selections_perm hw

open Placement ActiveClientPool in
/-- Two idle members, from the second round on. -/
theorem selection_balances_visitors_two :
    ∃ s : Placement, s.pool.members.length = 2 ∧ s.pool.nextRoundRobinOffset = 3 ∧
      (s.selections (fun _ => true) 2).Perm (s.pool.members.map fun m => some (selected m)) := by
  let identity : ClientIdentity := ⟨List.replicate 32 0, rfl⟩
  let member (k : Nat) : PoolMember := ⟨⟨identity, ⟨k, identity⟩, k, k, ⟨k, identity⟩, rfl⟩, k⟩
  let s : Placement := ⟨⟨[member 1, member 2], 3, 3⟩, fun _ => 0⟩
  refine ⟨s, rfl, rfl, ?_⟩
  exact selection_balances_visitors.2.2 (fun _ => true) s (fun _ _ => rfl)
    (fun _ _ _ _ => rfl) (by decide)

end Runewarp.Server
