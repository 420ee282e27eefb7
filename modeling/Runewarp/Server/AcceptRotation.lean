import Runewarp.Lib.Lts

/-!
# Rotation of the listeners

A Server accepts from several listeners of a kind, and starts to look for one that is ready
at a cursor.  `accept_public_connections` polls them itself; `accept_tunnel_connections` has
an accept future for each endpoint, in the order from the cursor on, and `select_all` gives
the position of the first that is ready.  The cursor then moves behind what was accepted, so
a listener that stays ready has its turn within one round.
-/

namespace Runewarp.Server.AcceptRotation

/-- The listeners of one kind: the cursor, the accept future if there is one, and from
which listeners connections were accepted. -/
structure Accepting (φ : Type) where
  cursor : Nat
  future : Option φ := none
  accepted : List Nat := []

inductive Event where
  /-- The accept function is called; an earlier future has been dropped. -/
  | call
  /-- `wait_before_public_accept` is over. -/
  | elapse
  /-- A poll that comes to the listeners, some of which are ready. -/
  | poll (ready : Nat → Bool)
  | drop

/-- A listener is ready at this event if it is a poll. -/
def Event.Readies (i : Nat) : Event → Prop
  | .poll ready => ready i = true
  | _ => True

/-- A poll is pending, or ends with a listener and the next cursor. -/
def Accepting.settle {φ : Type} (s : Accepting φ) : Option (Nat × Nat) → Accepting φ
  | none => s
  | some (index, cursor) => ⟨cursor, none, s.accepted ++ [index]⟩

/-- The loop of `accept_public_connections`. -/
def pollPublic (n cursor : Nat) (ready : Nat → Bool) : Option (Nat × Nat) :=
  ((List.range n).find? fun offset => ready ((cursor + offset) % n)).map fun offset =>
    let index := (cursor + offset) % n
    (index, (index + 1) % n)

/-- `accept_public_connections`; of its future, whether it has waited. -/
def publicSystem (n : Nat) : Lts (Accepting Bool) Event where
  step s
    | .call => some { s with future := some false }
    | .elapse => s.future.map fun _ => { s with future := some true }
    | .poll ready =>
      if s.future = some true then some (s.settle (pollPublic n s.cursor ready)) else none
    | .drop => some { s with future := none }

/-- `cycle().skip(cursor).take(n)` of the endpoints. -/
def accepts (n cursor : Nat) : List Nat :=
  (List.range n).map fun offset => (cursor + offset) % n

/-- `select_all`: the first future that is ready, and its position. -/
def selectAll (futures : List Nat) (ready : Nat → Bool) : Option (Nat × Nat) := do
  let index ← futures.findIdx? ready
  let endpoint ← futures[index]?
  some (endpoint, index)

/-- `accept_tunnel_connections`; of its future, the endpoints in their order. -/
def tunnelSystem (n : Nat) : Lts (Accepting (List Nat)) Event where
  step s
    | .call => some { s with future := some (accepts n s.cursor) }
    | .elapse => none
    | .poll ready => s.future.map fun futures =>
      s.settle ((selectAll futures ready).map fun (endpoint, index) =>
        (endpoint, (s.cursor + index + 1) % n))
    | .drop => some { s with future := none }

/-! ## One turn -/

section

variable {φ : Type} {n : Nat} {s t : Accepting φ} {e : Event} {cursor i : Nat}
  {ready : Nat → Bool}

/-- What a poll comes to: the first listener from the cursor on that is ready. -/
inductive Picks (n cursor : Nat) (ready : Nat → Bool) : Option (Nat × Nat) → Prop where
  | pending : (∀ k < n, ready ((cursor + k) % n) = false) → Picks n cursor ready none
  | first (offset : Nat) : offset < n → ready ((cursor + offset) % n) = true →
      (∀ k < offset, ready ((cursor + k) % n) = false) →
      Picks n cursor ready (some ((cursor + offset) % n, (cursor + offset + 1) % n))

theorem picks_pollPublic : Picks n cursor ready (pollPublic n cursor ready) := by
  unfold pollPublic
  cases h : (List.range n).find? fun offset => ready ((cursor + offset) % n) with
  | none => exact .pending (by simpa using h)
  | some offset =>
    obtain ⟨hr, hm, hf⟩ := List.find?_range_eq_some.mp h
    simp only [Option.map_some, Nat.mod_add_mod]
    exact .first offset (List.mem_range.mp hm) hr (by simpa using hf)

theorem picks_selectAll : Picks n cursor ready ((selectAll (accepts n cursor) ready).map
    fun (endpoint, index) => (endpoint, (cursor + index + 1) % n)) := by
  unfold selectAll
  cases h : (accepts n cursor).findIdx? ready with
  | none => exact .pending (by simpa [accepts] using h)
  | some index =>
    obtain ⟨hi, hr, hf⟩ := List.findIdx?_eq_some_iff_getElem.mp h
    simp only [accepts, List.length_map, List.length_range, List.getElem_map,
      List.getElem_range] at hi hr hf
    have hp := Picks.first index hi hr fun k hk => by simpa using hf k hk
    simpa [accepts, hi] using hp

/-- A poll goes by `Picks`; any other step leaves the cursor and what was accepted. -/
inductive Turn (n : Nat) (s : Accepting φ) : Event → Accepting φ → Prop where
  | stays {e : Event} {t : Accepting φ} : t.cursor = s.cursor → t.accepted = s.accepted →
      (∀ ready, e ≠ .poll ready) → Turn n s e t
  | polls {ready : Nat → Bool} {out : Option (Nat × Nat)} : Picks n s.cursor ready out →
      Turn n s (.poll ready) (s.settle out)

theorem turn_public {s t : Accepting Bool} (hs : (publicSystem n).step s e = some t) :
    Turn n s e t := by
  cases e with
  | poll ready =>
    obtain ⟨-, heq⟩ := Option.ite_none_right_eq_some.mp hs
    exact Option.some.inj heq ▸ .polls picks_pollPublic
  | elapse =>
    obtain ⟨waited, -, rfl⟩ := Option.map_eq_some_iff.mp hs
    exact .stays rfl rfl (by simp)
  | _ =>
    cases hs
    exact .stays rfl rfl (by simp)

/-- The futures are those of the cursor: it does not move while there is a future. -/
def Ordered (n : Nat) (s : Accepting (List Nat)) : Prop :=
  ∀ futures, s.future = some futures → futures = accepts n s.cursor

theorem turn_tunnel {s t : Accepting (List Nat)} (h : Ordered n s)
    (hs : (tunnelSystem n).step s e = some t) : Turn n s e t ∧ Ordered n t := by
  cases e with
  | call =>
    cases hs
    exact ⟨.stays rfl rfl (by simp), fun _ hf => (Option.some.inj hf).symm⟩
  | elapse => cases hs
  | poll ready =>
    obtain ⟨futures, hf, rfl⟩ := Option.map_eq_some_iff.mp hs
    rw [h futures hf]
    have hp := @picks_selectAll n s.cursor ready
    refine ⟨.polls hp, ?_⟩
    generalize (selectAll (accepts n s.cursor) ready).map _ = out at hp ⊢
    cases hp with
    | pending => exact h
    | first => exact fun _ hf => by cases hf
  | drop =>
    cases hs
    exact ⟨.stays rfl rfl (by simp), fun _ hf => by cases hf⟩

/-! ## Whole runs -/

/-- What the listeners of a kind can rely on. -/
structure Rotates (n : Nat) (sys : Lts (Accepting φ) Event) (s : Accepting φ) : Prop where
  cursor_lt : s.cursor < n
  /-- When one is ready, the poll accepts from it or from another one. -/
  accepts : ∀ ready i t, i < n → ready i = true → sys.step s (.poll ready) = some t →
    ∃ j < n, ready j = true ∧ t.accepted = s.accepted ++ [j]
  /-- One that stays ready is among the next `n` that are accepted from. -/
  within : ∀ i t, i < n → sys.Steps (fun _ e => e.Readies i) s t →
    ∃ l, t.accepted = s.accepted ++ l ∧ (n ≤ l.length → ∃ k < n, l[k]? = some i)

theorem exists_offset (hc : cursor < n) (hi : i < n) : ∃ d < n, i = (cursor + d) % n := by
  refine ⟨(i + n - cursor) % n, Nat.mod_lt _ (Nat.zero_lt_of_lt hi), ?_⟩
  rw [Nat.add_mod_mod, Nat.add_sub_cancel' (Nat.le_add_left_of_le (Nat.le_of_lt hc)),
    Nat.add_mod_right, Nat.mod_eq_of_lt hi]

theorem Turn.cursor_lt (h : Turn n s e t) (hc : s.cursor < n) : t.cursor < n := by
  cases h with
  | stays hcu => exact hcu ▸ hc
  | polls hp =>
    cases hp with
    | pending => exact hc
    | first => exact Nat.mod_lt _ (Nat.zero_lt_of_lt hc)

/-- Listener `i` is among the first `n` of `l`, or its turn comes within what is left of
the round. -/
def Served (n i : Nat) (s : Accepting φ) (l : List Nat) : Prop :=
  (∃ k < n, l[k]? = some i) ∨ ∃ d, i = (s.cursor + d) % n ∧ l.length + d < n

/-- The listener is ready, so the search does not go past it. -/
theorem Served.first {l : List Nat} {offset : Nat} (hs : Served n i s l) (hi : ready i = true)
    (hf : ∀ k < offset, ready ((s.cursor + k) % n) = false) :
    Served n i (s.settle (some ((s.cursor + offset) % n, (s.cursor + offset + 1) % n)))
      (l ++ [(s.cursor + offset) % n]) := by
  rcases hs with ⟨k, hk, hl⟩ | ⟨d, rfl, hd⟩
  · have hlt := (List.getElem?_eq_some_iff.mp hl).1
    exact .inl ⟨k, hk, by rwa [List.getElem?_append_left hlt]⟩
  · have hle : offset ≤ d := by
      by_contra hlt
      exact absurd hi (by simp [hf d (Nat.lt_of_not_le hlt)])
    rcases Nat.eq_or_lt_of_le hle with rfl | hlt
    · exact .inl ⟨l.length, by omega, List.getElem?_concat_length ..⟩
    · refine .inr ⟨d - offset - 1, ?_, by rw [List.length_append, List.length_singleton]; omega⟩
      rw [Accepting.settle, Nat.mod_add_mod]
      congr 1
      omega

theorem Turn.served {l : List Nat} (h : Turn n s e t) (he : e.Readies i) (hs : Served n i s l) :
    ∃ l', t.accepted = s.accepted ++ l' ∧ Served n i t (l ++ l') := by
  cases h with
  | stays hc ha =>
    refine ⟨[], by simpa using ha, ?_⟩
    rw [List.append_nil, Served, hc]
    exact hs
  | polls hp =>
    cases hp with
    | pending => exact ⟨[], by simp [Accepting.settle], by rwa [List.append_nil]⟩
    | first offset ho hr hf => exact ⟨_, rfl, hs.first he hf⟩

theorem rotates {sys : Lts (Accepting φ) Event} {I : Accepting φ → Prop}
    (turn : ∀ s e t, I s → sys.step s e = some t → Turn n s e t ∧ I t) (h : I s)
    (hc : s.cursor < n) : Rotates n sys s where
  cursor_lt := hc
  accepts ready i t hi hr hs := by
    obtain ⟨d, hd, rfl⟩ := exists_offset hc hi
    cases (turn s _ t h hs).1 with
    | stays _ _ hne => exact absurd rfl (hne ready)
    | polls hp =>
      cases hp with
      | pending hf => exact absurd hr (by simp [hf d hd])
      | first offset _ ho _ => exact ⟨_, Nat.mod_lt _ (Nat.zero_lt_of_lt hc), ho, rfl⟩
  within i t hi hrun := by
    obtain ⟨d, hd, hid⟩ := exists_offset hc hi
    have hinv := hrun.invariant (I := fun t => I t ∧ ∃ l, t.accepted = s.accepted ++ l ∧
      Served n i t l) ?_ ⟨h, [], by simp, .inr ⟨d, hid, by simpa using hd⟩⟩
    · obtain ⟨-, l, hl, hk | ⟨d, -, hlt⟩⟩ := hinv
      · exact ⟨l, hl, fun _ => hk⟩
      · exact ⟨l, hl, fun hle => by omega⟩
    · rintro t e u ⟨hI, l, hl, hserved⟩ he hst
      obtain ⟨htu, hI'⟩ := turn t e u hI hst
      obtain ⟨l', hl', hserved'⟩ := htu.served he hserved
      exact ⟨hI', l ++ l', by rw [hl', hl, List.append_assoc], hserved'⟩

theorem rotates_of_reaches {sys : Lts (Accepting φ) Event} {I : Accepting φ → Prop}
    (turn : ∀ s e t, I s → sys.step s e = some t → Turn n s e t ∧ I t) (hs : I s)
    (hc : s.cursor < n) (hrun : sys.Reaches s t) : Rotates n sys t := by
  have hinv := hrun.invariant (I := fun t => I t ∧ t.cursor < n) ?_ ⟨hs, hc⟩
  · exact rotates turn hinv.1 hinv.2
  · rintro t e u ⟨hI, hlt⟩ - hst
    exact ⟨(turn t e u hI hst).2, (turn t e u hI hst).1.cursor_lt hlt⟩

end

/-- In every run of either accept function, from every cursor: a listener that stays ready
is accepted from within any `n` accepts, and none is passed over but for another. -/
theorem listeners_rotate (n cursor : Nat) (h : cursor < n) :
    (∀ s, (publicSystem n).Reaches { cursor } s → Rotates n (publicSystem n) s) ∧
      ∀ s, (tunnelSystem n).Reaches { cursor } s → Rotates n (tunnelSystem n) s :=
  ⟨fun _ hrun => rotates_of_reaches (I := fun _ => True)
      (fun _ _ _ _ hs => ⟨turn_public hs, trivial⟩) trivial h hrun,
    fun _ hrun => rotates_of_reaches (fun _ _ _ ho hs => turn_tunnel ho hs)
      (fun _ hf => by cases hf) h hrun⟩

/-- Both listeners are accepted from, in turn. -/
theorem listeners_rotate_two :
    (∃ s, (publicSystem 2).Reaches { cursor := 1 } s ∧ s.accepted = [1, 0] ∧
      Rotates 2 (publicSystem 2) s) ∧
    ∃ s, (tunnelSystem 2).Reaches { cursor := 1 } s ∧ s.accepted = [0, 1] ∧
      Rotates 2 (tunnelSystem 2) s := by
  have hp : (publicSystem 2).exec { cursor := 1 } [.call, .elapse, .poll fun _ => true, .call,
      .elapse, .poll fun _ => true] = some ⟨1, none, [1, 0]⟩ := rfl
  have ht : (tunnelSystem 2).exec { cursor := 1 } [.call, .poll (· == 0), .call,
      .poll fun _ => true] = some ⟨0, none, [0, 1]⟩ := rfl
  have hr := listeners_rotate 2 1 (by decide)
  exact ⟨⟨_, .of_exec hp, rfl, hr.1 _ (.of_exec hp)⟩, _, .of_exec ht, rfl, hr.2 _ (.of_exec ht)⟩

end Runewarp.Server.AcceptRotation
