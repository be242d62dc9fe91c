import Slab.Proofs.Pool.Crew

/-!
# What a call knows

A call sees the head once and relies on it until it attempts its exchange. In between other calls
may take the slot that it saw and give it back, so that the head shows the same number again with
another link behind it.

The generation settles this: an exchange that succeeds less than `2 ^ 32` exchanges after the call
saw the head found the very same head, so nothing was exchanged in between (`SeenAt.current`), and
the link of a free slot changes only when the head does.

* `SeenAt`: the head was seen after so many exchanges;
* `Call.Valid`: what a call knows of the head and of the links;
* `Call.Outcome`: what one step of a call can do, with `Call.step_outcome`;
* `Call.shown?`: the head that a call was shown and relies on.
-/

namespace Slab.Pool

/-- What is shared after an exchange of the head. -/
def Shared.exchanged (s : Shared) (index : UInt32) : Shared :=
  { s with head := ⟨index, s.head.generation + 1⟩ }

/-- The head `h` was seen when `k` of the `n` exchanges so far had succeeded. -/
structure SeenAt (s : Shared) (n k : ℕ) (h : Head) : Prop where
  le : k ≤ n
  generation : h.generation = UInt32.ofNat k
  head : k = n → s.head = h

/-- What a call knows that was shown the head when `k` of the `n` exchanges so far had succeeded. -/
def Call.Valid (g : Slots) (s : Shared) (n k : ℕ) : Call → Prop
  | .acquireSeen h | .acquireLost h | .releaseSeen _ h | .releaseLost _ h => SeenAt s n k h
  | .acquireLinked h next =>
    SeenAt s n k h ∧ h.index ≠ nil ∧ (k = n → next = s.memory.load32 (g.place h.index))
  | .releaseLinked i h => SeenAt s n k h ∧ s.memory.load32 (g.place i) = h.index
  | _ => True

namespace SeenAt

variable {s s' : Shared} {n n' k : ℕ} {h : Head}

/-- A call that is shown the head now. -/
theorem now (hgen : s.head.generation = UInt32.ofNat n) : SeenAt s n n s.head :=
  ⟨Nat.le_refl n, hgen, fun _ => rfl⟩

theorem congr (hs : SeenAt s n k h) (hhead : s'.head = s.head) : SeenAt s' n k h :=
  ⟨hs.le, hs.generation, fun he => hhead.trans (hs.head he)⟩

/-- After another exchange the head that was seen is stale. -/
theorem stale (hs : SeenAt s n k h) (hlt : n < n') : SeenAt s' n' k h :=
  ⟨Nat.le_trans hs.le (Nat.le_of_lt hlt), hs.generation,
    fun he => absurd (he ▸ hs.le) (Nat.not_le.2 hlt)⟩

/-- A head that is found unchanged in time has not been exchanged since it was seen. -/
theorem current (hs : SeenAt s n k h) (hgen : s.head.generation = UInt32.ofNat n)
    (heq : s.head = h) (hlt : n < k + UInt32.size) : k = n := by
  have hmod : (UInt32.ofNat n).toNat = (UInt32.ofNat k).toNat := by
    rw [← hgen, ← hs.generation, heq]
  have hsize : UInt32.size = 4294967296 := rfl
  have hle := hs.le
  rw [UInt32.toNat_ofNat', UInt32.toNat_ofNat'] at hmod
  omega

end SeenAt

namespace Call

variable {g : Slots} {s s' : Shared} {n n' k : ℕ} {c : Call}

/-- What a call knows stays true while the head and the links it relies on stay the same: those of
the first free slot and of a slot that it has linked. -/
theorem Valid.congr (h : c.Valid g s n k) (hhead : s'.head = s.head)
    (hfirst : s.head.index ≠ nil →
      s'.memory.load32 (g.place s.head.index) = s.memory.load32 (g.place s.head.index))
    (hlinked : ∀ i hd, c = .releaseLinked i hd →
      s'.memory.load32 (g.place i) = s.memory.load32 (g.place i)) : c.Valid g s' n k := by
  cases c with
  | acquireSeen hd | acquireLost hd | releaseSeen _ hd | releaseLost _ hd => exact h.congr hhead
  | acquireLinked hd next =>
    obtain ⟨hs, hne, hnext⟩ := h
    refine ⟨hs.congr hhead, hne, fun he => ?_⟩
    -- the link that was read is that of the first free slot
    have hd_eq := hs.head he
    rw [hnext he, ← hd_eq, hfirst (by rwa [hd_eq])]
  | releaseLinked i hd => exact ⟨h.1.congr hhead, (hlinked i hd rfl).trans h.2⟩
  | acquire | acquireWon _ | acquired _ | exhausted | release _ | releaseWon _ | released =>
    trivial

/-- What a call knows stays true when another call exchanges the head. -/
theorem Valid.stale (h : c.Valid g s n k) (hlt : n < n') (hmem : s'.memory = s.memory) :
    c.Valid g s' n' k := by
  cases c with
  | acquireSeen hd | acquireLost hd | releaseSeen _ hd | releaseLost _ hd => exact h.stale hlt
  | acquireLinked hd next =>
    obtain ⟨hs, hne, -⟩ := h
    exact ⟨hs.stale hlt, hne, fun he => absurd (he ▸ hs.le) (Nat.not_le.2 hlt)⟩
  | releaseLinked i hd => exact ⟨h.1.stale hlt, by rw [hmem]; exact h.2⟩
  | acquire | acquireWon _ | acquired _ | exhausted | release _ | releaseWon _ | released =>
    trivial

/-- What one step of a call does to what is shared, and what the call knows afterwards when the step
does not exchange the head. -/
inductive Outcome (g : Slots) (s : Shared) : Call → Shared → Call → Prop
  /-- At most a counter changes. -/
  | quiet {c c' : Call} {counters : Counters} (owned : c'.owned? = c.owned?)
      (made : c'.made? = none) (handed : c.handed? = none)
      (valid : ∀ n k, s.head.generation = UInt32.ofNat n → c.Valid g s n k →
        c'.Valid g { s with counters } n (if c.looks then n else k)) :
      Outcome g s c { s with counters } c'
  /-- A call hands the slot that it has taken to its caller. -/
  | hand {i : UInt32} {counters : Counters} :
      Outcome g s (.acquireWon i) { s with counters } (.acquired i)
  /-- A slot that is to be given back is linked to the first free one. -/
  | link {i : UInt32} {h : Head} :
      Outcome g s (.releaseSeen i h)
        { s with memory := s.memory.store32 (g.place i) h.index } (.releaseLinked i h)
  /-- The first free slot is taken. -/
  | pop {next : UInt32} :
      Outcome g s (.acquireLinked s.head next) (s.exchanged next) (.acquireWon s.head.index)
  /-- A slot is given back. -/
  | push {i : UInt32} :
      Outcome g s (.releaseLinked i s.head) (s.exchanged i) (.releaseWon i)

/-- **Every step of a call has one of these outcomes.** -/
theorem step_outcome (g : Slots) (spurious : Bool) (s : Shared) (c : Call) :
    Outcome g s c (c.step g spurious s).1 (c.step g spurious s).2 := by
  cases c with
  | acquire => exact .quiet rfl rfl rfl fun n k hgen _ => SeenAt.now hgen
  | release i => exact .quiet rfl rfl rfl fun n k hgen _ => SeenAt.now hgen
  | acquireSeen h =>
    by_cases hn : h.index = nil
    · simp only [step, if_pos hn]
      exact .quiet rfl rfl rfl fun _ _ _ _ => trivial
    · simp only [step, if_neg hn]
      exact .quiet rfl rfl rfl fun n k _ hv =>
        ⟨SeenAt.congr hv rfl, hn, fun he => by rw [SeenAt.head hv he]⟩
  | acquireLinked h next =>
    by_cases hs : s.head = h ∧ spurious = false
    · simp only [step, if_pos hs]
      rw [← hs.1]
      exact .pop
    · simp only [step, if_neg hs]
      exact .quiet rfl rfl rfl fun n k hgen _ => SeenAt.now hgen
  | releaseLinked i h =>
    by_cases hs : s.head = h ∧ spurious = false
    · simp only [step, if_pos hs]
      rw [← hs.1]
      exact .push
    · simp only [step, if_neg hs]
      exact .quiet rfl rfl rfl fun n k hgen _ => SeenAt.now hgen
  | releaseSeen i h => exact .link
  | acquireLost h => exact .quiet rfl rfl rfl fun n k _ hv => SeenAt.congr hv rfl
  | releaseLost i h => exact .quiet rfl rfl rfl fun n k _ hv => SeenAt.congr hv rfl
  | acquireWon i => exact .hand
  | releaseWon i => exact .quiet rfl rfl rfl fun _ _ _ _ => trivial
  | acquired i => exact .quiet rfl rfl rfl fun _ _ _ _ => trivial
  | exhausted => exact .quiet rfl rfl rfl fun _ _ _ _ => trivial
  | released => exact .quiet rfl rfl rfl fun _ _ _ _ => trivial

/-! ### The head that a call relies on -/

/-- The head that the call was shown and relies on. -/
def shown? : Call → Option Head
  | acquireSeen h | acquireLinked h _ | acquireLost h | releaseSeen _ h | releaseLinked _ h
  | releaseLost _ h => some h
  | _ => none

section Shown

variable {spurious : Bool} {hd : Head}

/-- A call that relies on a head has just been shown it or relied on it before. -/
theorem shown?_step (hs : (c.step g spurious s).2.shown? = some hd) :
    if c.looks then s.head = hd else c.shown? = some hd := by
  cases c with
  | acquire | release _ => exact Option.some.inj hs
  | acquireSeen hd' =>
    by_cases hn : hd'.index = nil
    · simp only [step, if_pos hn] at hs
      cases hs
    · simp only [step, if_neg hn] at hs
      exact hs
  | acquireLinked hd' _ | releaseLinked _ hd' =>
    by_cases hx : s.head = hd' ∧ spurious = false
    · simp only [step, if_pos hx] at hs
      cases hs
    · simp only [step, if_neg hx] at hs
      exact Option.some.inj hs
  | acquireLost _ | releaseSeen _ _ | releaseLost _ _ => exact hs
  | acquireWon _ | acquired _ | exhausted | releaseWon _ | released => cases hs

theorem made?_of_shown? (hs : c.shown? = some hd) : c.made? = none := by
  cases c <;> first | rfl | cases hs

/-- Only an exchange changes the head. -/
theorem head_step (h : (c.step g spurious s).2.made? = none) :
    (c.step g spurious s).1.head = s.head := by
  have ho := step_outcome g spurious s c
  generalize (c.step g spurious s).1 = s' at ho ⊢
  generalize (c.step g spurious s).2 = c' at ho h
  cases ho with
  | quiet _ _ _ _ | hand | link => rfl
  | pop | push => cases h

end Shown

end Call

end Slab.Pool
