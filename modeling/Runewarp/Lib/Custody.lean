import Mathlib.Data.List.Nodup

/-!
# Custody of owned values

Values move between *sites*: a table, the stack of a running task, a queue.
`held k` lists what site `k` holds.  Ownership says that a value is held in at
most one place.  `Custody.Once f held` says so for values told apart by a key
`f`: no key is held twice, at one site or at two.

The rules follow what a step of a program can do with owned values: hand some
over from one site to another, drop some, or take a new one in.
-/

namespace Custody

variable {κ ι δ : Type} {f : ι → δ} {held held' : κ → List ι}

/-- No key is held twice. -/
structure Once (f : ι → δ) (held : κ → List ι) : Prop where
  site_eq : ∀ {k l : κ} {x y : ι}, x ∈ held k → y ∈ held l → f x = f y → k = l
  nodup : ∀ k, ((held k).map f).Nodup

/-- What is held under one key is one value. -/
theorem Once.eq (h : Once f held) {k l : κ} {x y : ι} (hx : x ∈ held k) (hy : y ∈ held l)
    (he : f x = f y) : x = y := by
  have hkl := h.site_eq hx hy he
  subst hkl
  exact List.inj_on_of_nodup_map (h.nodup k) hx hy he

theorem once_nil : Once f fun _ : κ => ([] : List ι) :=
  ⟨fun hx => absurd hx List.not_mem_nil, fun _ => List.nodup_nil⟩

theorem Once.congr (h : Once f held) (he : ∀ k, held' k = held k) : Once f held' := by
  rwa [show held' = held from funext he]

theorem Once.dropped (h : Once f held) (hs : ∀ k, (held' k).Sublist (held k)) :
    Once f held' where
  site_eq hx hy := h.site_eq ((hs _).subset hx) ((hs _).subset hy)
  nodup k := ((hs k).map f).nodup (h.nodup k)

/-- Handing `xs` over from site `a` to site `b` keeps custody. -/
theorem Once.moved {a b : κ} {xs rest : List ι} (h : Once f held) (hab : a ≠ b)
    (ha : held a = xs ++ rest) (ha' : held' a = rest) (hb : (held' b).Perm (held b ++ xs))
    (hk : ∀ k, k ≠ a → k ≠ b → held' k = held k) : Once f held' := by
  have hxs : ∀ {x}, x ∈ xs → x ∈ held a := fun hx => ha ▸ List.mem_append_left rest hx
  have hs := h.nodup a
  rw [ha, List.map_append, List.nodup_append] at hs
  obtain ⟨hnx, hn, hdi⟩ := hs
  -- A value held afterwards stayed where it was, or was handed over to `b`.
  have ho : ∀ {k x}, x ∈ held' k → (x ∈ held k ∧ (k = a → x ∈ rest)) ∨ (k = b ∧ x ∈ xs) := by
    intro k x hx
    by_cases hka : k = a
    · subst hka
      rw [ha'] at hx
      exact .inl ⟨ha ▸ List.mem_append_right xs hx, fun _ => hx⟩
    · by_cases hkb : k = b
      · subst hkb
        rcases List.mem_append.mp (hb.subset hx) with hold | hne
        · exact .inl ⟨hold, fun he => absurd he hka⟩
        · exact .inr ⟨rfl, hne⟩
      · rw [hk k hka hkb] at hx
        exact .inl ⟨hx, fun he => absurd he hka⟩
  -- A value that stayed has no key of one that was handed over.
  have hst : ∀ {k x y}, x ∈ held k → (k = a → x ∈ rest) → y ∈ xs → f x ≠ f y := by
    intro k x y hx hr hy he
    have hka := h.site_eq hx (hxs hy) he
    exact hdi _ (List.mem_map_of_mem hy) _ (List.mem_map_of_mem (hr hka)) he.symm
  refine ⟨?_, ?_⟩
  · intro k l x y hx hy he
    rcases ho hx with ⟨hx, hxa⟩ | ⟨rfl, hx⟩
    · rcases ho hy with ⟨hy, -⟩ | ⟨-, hy⟩
      · exact h.site_eq hx hy he
      · exact absurd he (hst hx hxa hy)
    · rcases ho hy with ⟨hy, hya⟩ | ⟨rfl, -⟩
      · exact absurd he.symm (hst hy hya hx)
      · rfl
  · intro k
    by_cases hka : k = a
    · subst hka
      rw [ha']
      exact hn
    · by_cases hkb : k = b
      · subst hkb
        rw [(hb.map f).nodup_iff, List.map_append, List.nodup_append]
        refine ⟨h.nodup k, hnx, ?_⟩
        intro d hd e he hde
        obtain ⟨x, hx, rfl⟩ := List.mem_map.mp hd
        obtain ⟨y, hy, rfl⟩ := List.mem_map.mp he
        exact hab (h.site_eq hx (hxs hy) hde).symm
      · rw [hk k hka hkb]
        exact h.nodup k

theorem Once.taken {a : κ} {x : ι} (h : Once f held) (hn : ∀ k, ∀ y ∈ held k, f y ≠ f x)
    (ha : held' a = held a ++ [x]) (hk : ∀ k, k ≠ a → held' k = held k) : Once f held' := by
  have ho : ∀ {k y}, y ∈ held' k → y ∈ held k ∨ (k = a ∧ y = x) := by
    intro k y hy
    by_cases hka : k = a
    · subst hka
      rw [ha, List.mem_append, List.mem_singleton] at hy
      exact hy.imp_right fun he => ⟨rfl, he⟩
    · rw [hk k hka] at hy
      exact .inl hy
  refine ⟨?_, ?_⟩
  · intro k l y z hy hz he
    rcases ho hy with hy | ⟨rfl, rfl⟩
    · rcases ho hz with hz | ⟨rfl, rfl⟩
      · exact h.site_eq hy hz he
      · exact absurd he (hn k y hy)
    · rcases ho hz with hz | ⟨rfl, -⟩
      · exact absurd he.symm (hn l z hz)
      · rfl
  · intro k
    by_cases hka : k = a
    · subst hka
      rw [ha, List.map_append, List.nodup_append]
      refine ⟨h.nodup k, List.nodup_singleton _, ?_⟩
      intro d hd e he hde
      obtain ⟨y, hy, rfl⟩ := List.mem_map.mp hd
      obtain rfl := List.mem_singleton.mp he
      exact hn k y hy hde
    · rw [hk k hka]
      exact h.nodup k

end Custody
