import Slab.Proofs.Workspace.Representation

/-!
# One user of a pool

A pool that nobody else uses answers what its ledger answers, whatever its user does and whatever he
writes into the slots that he holds.

* `Site.run`: operations on a pool one after another;
* `PoolOp.written?`, `Site.Frame`: the slot that an operation writes to, and the bytes that an
  operation leaves alone;
* `Mirrors.step`, `Mirrors.run`: the pool goes on to mirror its ledger;
* `Site.Agrees`: what is promised of every state.
-/

namespace Slab

/-- The held slot into which an operation writes a value. -/
def PoolOp.written? : PoolOp → Option ℕ
  | .write slot _ => some slot
  | _ => none

namespace Site

/-- Operations one after another, with their answers. -/
def run (base : ℕ) : Site → Memory → List PoolOp → Site × Memory × List PoolAnswer
  | s, m, [] => (s, m, [])
  | s, m, op :: ops =>
    let (s, m, a) := s.step base m op
    let (s, m, as) := run base s m ops
    (s, m, a :: as)

/-- The bytes that an operation leaves alone. -/
structure Frame (s₀ : Site) (op : PoolOp) (l l' : Ledger) (m m' : Memory) : Prop where
  /-- Bytes that belong to no slot. -/
  outside : ∀ a, (a < s₀.pool.region.offset ∨
    s₀.pool.region.offset + s₀.pool.capacity * s₀.pool.slotSize ≤ a) → m'.load a = m.load a
  /-- Bytes of slots that are held before and afterwards, apart from the value that is written. -/
  kept : ∀ k ∈ l.held.keys, k ∈ l'.held.keys → ∀ a, s₀.pool.slots.Covers k a →
    (op.written? = some k →
      s₀.pool.offsetOf (UInt32.ofNat k) + s₀.element.shape.size ≤ a) → m'.load a = m.load a

namespace Represents

variable {s₀ s : Site} {m m' : Memory} {l l' : Ledger} {op : PoolOp}

/-- An operation that touches no slot that is held before and afterwards. -/
theorem frame (h : Represents s₀ s m l) {P : ℕ → Prop} (hm : Touches s₀.pool.slots P m m')
    (hP : ∀ k, P k → k < s₀.pool.capacity)
    (hkept : ∀ k ∈ l.held.keys, k ∈ l'.held.keys → ¬ P k) : Frame s₀ op l l' m m' where
  outside a ha := by
    refine hm a fun k hk hka => ?_
    have hb := hka.bounds h.layout (hP k hk)
    simp only [Pool.slots] at hb
    omega
  kept k hk hk' a ha _ := by
    refine hm a fun j hj hja => hkept k hk hk' ?_
    exact hja.unique h.layout (hP j hj) (h.sound.lt_of_held hk) ha ▸ hj

/-- An operation that writes nothing. -/
theorem frame_refl (h : Represents s₀ s m l) : Frame s₀ op l l' m m :=
  h.frame (Touches.refl _ (fun _ => False) m) (fun _ => False.elim) fun _ _ _ => id

end Represents

namespace Mirrors

variable {s₀ s : Site} {m : Memory} {l : Ledger}

/-! ### Moves one after another -/

theorem takeMany (h : Mirrors s₀ s m l) (n : ℕ) :
    ∃ s', Site.takeMany n s m = (s', m, (l.takeMany n).2) ∧
      Mirrors s₀ s' m (l.takeMany n).1 := by
  induction n generalizing s l with
  | zero => exact ⟨s, rfl, h⟩
  | succ n ih =>
    obtain ⟨s₁, he₁, h₁⟩ := h.take
    obtain ⟨s₂, he₂, h₂⟩ := ih h₁
    refine ⟨s₂, ?_, h₂⟩
    simp only [Site.takeMany, he₁, he₂]
    rfl

theorem giveBackAll (h : Mirrors s₀ s m l) {ks : List ℕ} (hnodup : ks.Nodup)
    (hheld : ∀ k ∈ ks, k ∈ l.held.keys) :
    ∃ s' m', Site.giveBackAll ks s m = (s', m') ∧ Mirrors s₀ s' m' (l.giveBackAll ks) ∧
      Touches s₀.pool.slots (· ∈ ks) m m' := by
  induction ks generalizing s m l with
  | nil => exact ⟨s, m, rfl, h, Touches.refl _ _ _⟩
  | cons k ks ih =>
    obtain ⟨s₁, m₁, he₁, h₁, hm₁⟩ := h.giveBack (hheld k List.mem_cons_self)
    obtain ⟨s₂, m₂, he₂, h₂, hm₂⟩ :=
      ih h₁ (List.nodup_cons.1 hnodup).2 (Ledger.Sound.held_giveBack hnodup hheld)
    refine ⟨s₂, m₂, ?_, h₂, ?_⟩
    · simp only [Site.giveBackAll, he₁, he₂]
    · refine (hm₁.mono ?_).trans (hm₂.mono fun j => List.mem_cons_of_mem k)
      rintro j rfl
      exact List.mem_cons_self

/-- A slot that was just taken was free before. -/
theorem free_or_out (h : Mirrors s₀ s m l) {i : UInt32} (hi : i ∈ l.free) {out : List ℕ} {k : ℕ}
    (hk : (l.held.insert i.toNat (.raw none)).find? k = none ∨ k ∈ out ++ [i.toNat]) :
    l.held.find? k = none ∨ k ∈ out := by
  rw [Dict.find?_insert, List.mem_append, List.mem_singleton] at hk
  by_cases hki : k = i.toNat
  · exact Or.inl (hki ▸ Dict.find?_eq_none_iff.2 (h.sound.not_held hi))
  · rw [if_neg hki] at hk
    exact hk.imp_right fun hk => hk.resolve_right hki

/-- A thread's rounds touch only slots that were free, and those that it had out. -/
theorem hammerAlone (h : Mirrors s₀ s m l) (hold rounds : ℕ) {out : List ℕ}
    (hnodup : out.Nodup) (hheld : ∀ k ∈ out, k ∈ l.held.keys) :
    ∃ s' m', Site.hammerAlone hold rounds out s m = (s', m') ∧
      Mirrors s₀ s' m' (l.hammerAlone hold rounds out) ∧
      Touches s₀.pool.slots
        (fun k => k < s₀.pool.capacity ∧ (l.held.find? k = none ∨ k ∈ out)) m m' := by
  induction rounds generalizing s m l out with
  | zero =>
    obtain ⟨s', m', he, h', hm⟩ := h.giveBackAll hnodup hheld
    exact ⟨s', m', he, h', hm.mono fun k hk => ⟨h.sound.lt_of_held (hheld k hk), Or.inr hk⟩⟩
  | succ rounds ih =>
    obtain ⟨s₁, he₁, h₁⟩ := h.take
    cases hfree : l.free with
    | nil =>
      rw [Ledger.take_of_nil hfree] at he₁ h₁
      obtain ⟨s₂, m₂, he₂, h₂, hm₂⟩ := ih h₁ hnodup hheld
      refine ⟨s₂, m₂, ?_, ?_, hm₂⟩
      · simp only [Site.hammerAlone, he₁, he₂]
      · simp only [Ledger.hammerAlone, Ledger.take_of_nil hfree]
        exact h₂
    | cons i rest =>
      obtain ⟨hnodup', hheld'⟩ := h.sound.out_concat (t := .raw none) hfree hnodup hheld
      have hi : i ∈ l.free := hfree ▸ List.mem_cons_self
      rw [Ledger.take_of_cons hfree] at he₁ h₁
      by_cases hfull : hold ≤ (out ++ [i.toNat]).length
      · -- the thread gives everything back and goes on with nothing out
        obtain ⟨s₂, m₂, he₂, h₂, hm₂⟩ := h₁.giveBackAll hnodup' hheld'
        obtain ⟨s₃, m₃, he₃, h₃, hm₃⟩ :=
          ih h₂ List.nodup_nil (fun k hk => absurd hk List.not_mem_nil)
        refine ⟨s₃, m₃, ?_, ?_, ?_⟩
        · simp only [Site.hammerAlone, he₁, if_pos hfull, he₂, he₃]
        · simp only [Ledger.hammerAlone, Ledger.take_of_cons hfree, if_pos hfull]
          exact h₃
        · refine (hm₂.mono ?_).trans (hm₃.mono ?_)
          · intro k hk
            exact ⟨h₁.sound.lt_of_held (hheld' k hk), h.free_or_out hi (Or.inr hk)⟩
          · rintro k ⟨hk, hnone | hmem⟩
            · rw [Ledger.find?_giveBackAll] at hnone
              split_ifs at hnone with hout
              · exact ⟨hk, h.free_or_out hi (Or.inr hout)⟩
              · exact ⟨hk, h.free_or_out hi (Or.inl hnone)⟩
            · exact absurd hmem List.not_mem_nil
      · obtain ⟨s₂, m₂, he₂, h₂, hm₂⟩ := ih h₁ hnodup' hheld'
        refine ⟨s₂, m₂, ?_, ?_, hm₂.mono fun k hk => ⟨hk.1, h.free_or_out hi hk.2⟩⟩
        · simp only [Site.hammerAlone, he₁, if_neg hfull, he₂]
        · simp only [Ledger.hammerAlone, Ledger.take_of_cons hfree, if_neg hfull]
          exact h₂

theorem hammer (h : Mirrors s₀ s m l) (rounds hold threads : ℕ) :
    ∃ s' m', Site.hammer rounds hold threads s m = (s', m') ∧
      Mirrors s₀ s' m' (l.hammer rounds hold threads) ∧
      Touches s₀.pool.slots (fun k => k < s₀.pool.capacity ∧ l.held.find? k = none) m m' := by
  induction threads generalizing s m l with
  | zero => exact ⟨s, m, rfl, h, Touches.refl _ _ _⟩
  | succ threads ih =>
    have hnil : ∀ k ∈ ([] : List ℕ), k ∈ l.held.keys := fun k hk => absurd hk List.not_mem_nil
    obtain ⟨s₁, m₁, he₁, h₁, hm₁⟩ := h.hammerAlone hold rounds List.nodup_nil hnil
    obtain ⟨s₂, m₂, he₂, h₂, hm₂⟩ := ih h₁
    have hfind := (h.sound.hammerAlone h.layout.capacity_le hold rounds List.nodup_nil hnil).2
    refine ⟨s₂, m₂, ?_, h₂, ?_⟩
    · simp only [Site.hammer, he₁, he₂]
    · refine (hm₁.mono ?_).trans (hm₂.mono ?_)
      · rintro k ⟨hk, hnone | hmem⟩
        · exact ⟨hk, hnone⟩
        · exact absurd hmem List.not_mem_nil
      · rintro k ⟨hk, hnone⟩
        rw [hfind k, if_neg List.not_mem_nil] at hnone
        exact ⟨hk, hnone⟩

/-! ### Operations -/

/-- A value is written into a held slot. -/
theorem write (h : Mirrors s₀ s m l) {slot : ℕ} {t : Tenure}
    (hslot : l.held.find? slot = some t) (t' : Tenure) {v : Value} (hv : t'.value? = some v) :
    Mirrors s₀ { s with leases := s.leases.insert slot t'.lease } (s.store m slot v)
        (l.put slot t') ∧
      Frame s₀ (.write slot v) l (l.put slot t') m (s.store m slot v) := by
  have hk := Dict.mem_keys_of_find? hslot
  have hm : Touches s₀.pool.slots (· = slot) m (s₀.store m slot v) := touches_store h.size_le
  rw [h.store_eq]
  refine ⟨h.put hk hv hm payload_store, ?_, fun k hk' _ a ha hpast => ?_⟩
  · intro a ha
    refine hm a ?_
    rintro k rfl hka
    have hb := hka.bounds h.layout (h.sound.lt_of_held hk)
    simp only [Pool.slots] at hb
    omega
  · by_cases he : k = slot
    · -- behind the value in the slot itself
      subst he
      exact load_store_of_not_payload (Or.inr (hpast rfl))
    · refine hm a ?_
      rintro j rfl hja
      exact he (ha.unique h.layout (h.sound.lt_of_held hk') (h.sound.lt_of_held hk) hja)

/-- A held slot is given back. -/
theorem release (h : Mirrors s₀ s m l) {slot : ℕ} {t : Tenure}
    (hslot : l.held.find? slot = some t) (op : PoolOp) :
    ∃ s' m', s.giveBack m slot = (s', m') ∧ Mirrors s₀ s' m' (l.giveBack slot) ∧
      Frame s₀ op l (l.giveBack slot) m m' := by
  have hk := Dict.mem_keys_of_find? hslot
  obtain ⟨s', m', he, h', hm⟩ := h.giveBack hk
  refine ⟨s', m', he, h', h.frame hm ?_ ?_⟩
  · rintro j rfl
    exact h.sound.lt_of_held hk
  · rintro j - hj rfl
    exact Dict.find?_eq_none_iff.1 (by simp [Ledger.giveBack, Dict.find?_erase]) hj

/-- A held slot contains the value that the ledger says. -/
theorem fetch_of_held (h : Mirrors s₀ s m l) {slot : ℕ} {t : Tenure} {v : Value}
    (hslot : l.held.find? slot = some t) (hv : t.value? = some v) :
    s.fetch m slot = s₀.element.decode (s₀.element.encode v) := by
  rw [h.fetch_eq, h.payload_eq slot t v hslot hv]

theorem step_acquireWith (h : Mirrors s₀ s m l) (base : ℕ) (v : Value) :
    ∃ s' m', s.step base m (.acquireWith v) = (s', m', (l.step s₀ base (.acquireWith v)).2) ∧
      Mirrors s₀ s' m' (l.step s₀ base (.acquireWith v)).1 ∧
      Frame s₀ (.acquireWith v) l (l.step s₀ base (.acquireWith v)).1 m m' := by
  simp only [Site.step, Ledger.step]
  cases hfree : l.free with
  | nil =>
    obtain ⟨s', he, hr⟩ := h.toRepresents.take (.guarded v)
    rw [Ledger.take_of_nil hfree] at he hr ⊢
    simp only [Tenure.lease] at he
    rw [he]
    exact ⟨s', m, rfl, { hr with payload_eq := h.payload_eq }, h.frame_refl⟩
  | cons i rest =>
    obtain ⟨s', he, h'⟩ := h.takeWith hfree v
    have hi : i ∈ l.free := hfree ▸ List.mem_cons_self
    rw [Ledger.take_of_cons hfree] at h' ⊢
    rw [he]
    refine ⟨s', s₀.store m i.toNat v, by simp only [h'.placeOf_eq, h'.store_eq], h', ?_⟩
    refine h.frame (touches_store h.size_le) ?_ ?_
    · rintro j rfl
      exact h.sound.lt_of_free hi
    · rintro j hj - rfl
      exact h.sound.not_held hi hj

theorem step_releaseAll (h : Mirrors s₀ s m l) (base : ℕ) (descending : Bool) :
    ∃ s' m', s.step base m (.releaseAll descending) =
        (s', m', (l.step s₀ base (.releaseAll descending)).2) ∧
      Mirrors s₀ s' m' (l.step s₀ base (.releaseAll descending)).1 ∧
      Frame s₀ (.releaseAll descending) l (l.step s₀ base (.releaseAll descending)).1 m m' := by
  have hnodup : (if descending then l.held.keys.reverse else l.held.keys).Nodup := by
    split
    · exact List.nodup_reverse.2 h.sound.sorted.nodup
    · exact h.sound.sorted.nodup
  have hmem : ∀ k, k ∈ (if descending then l.held.keys.reverse else l.held.keys) ↔
      k ∈ l.held.keys := by
    intro k
    split
    · exact List.mem_reverse
    · exact Iff.rfl
  obtain ⟨s', m', he, h', hm⟩ := h.giveBackAll hnodup fun k => (hmem k).1
  have hkeys : s.leases.map Prod.fst = l.held.keys := h.keys_leases
  simp only [Site.step, Ledger.step, hkeys, he]
  refine ⟨s', m', rfl, h', h.frame hm (fun k hk => h.sound.lt_of_held ((hmem k).1 hk)) ?_⟩
  intro k _ hk hout
  refine Dict.find?_eq_none_iff.1 ?_ hk
  rw [Ledger.find?_giveBackAll, if_pos hout]

theorem step_write (h : Mirrors s₀ s m l) (base slot : ℕ) (v : Value) :
    ∃ s' m', s.step base m (.write slot v) = (s', m', (l.step s₀ base (.write slot v)).2) ∧
      Mirrors s₀ s' m' (l.step s₀ base (.write slot v)).1 ∧
      Frame s₀ (.write slot v) l (l.step s₀ base (.write slot v)).1 m m' := by
  simp only [Site.step, Ledger.step, h.find?_leases]
  cases hslot : l.held.find? slot with
  | none => exact ⟨s, m, rfl, h, h.frame_refl⟩
  | some t =>
    cases t with
    | raw w => exact ⟨_, _, rfl, h.write hslot (.raw (some v)) rfl⟩
    | guarded w =>
      -- a guard stays a guard, so the leases do not change at all
      have hself : s.leases.insert slot .guarded = s.leases := by
        refine Dict.insert_eq_self ?_ ?_
        · rw [Dict.Sorted, h.keys_leases]
          exact h.sound.sorted
        · rw [h.find?_leases, hslot]
          rfl
      have hw := h.write hslot (.guarded v) rfl
      simp only [Tenure.lease, hself] at hw
      exact ⟨_, _, rfl, hw⟩

theorem step_read (h : Mirrors s₀ s m l) (base slot : ℕ) :
    ∃ s' m', s.step base m (.read slot) = (s', m', (l.step s₀ base (.read slot)).2) ∧
      Mirrors s₀ s' m' (l.step s₀ base (.read slot)).1 ∧
      Frame s₀ (.read slot) l (l.step s₀ base (.read slot)).1 m m' := by
  simp only [Site.step, Ledger.step, h.find?_leases]
  cases hslot : l.held.find? slot with
  | none => exact ⟨s, m, rfl, h, h.frame_refl⟩
  | some t =>
    cases hv : t.value? with
    | none =>
      cases t with
      | raw w =>
        cases hv
        exact ⟨s, m, rfl, h, h.frame_refl⟩
      | guarded w => cases hv
    | some v =>
      have hfetch := h.fetch_of_held hslot hv
      simp only [hv]
      refine ⟨s, m, ?_, h, h.frame_refl⟩
      cases t with
      | raw w =>
        cases hv
        simp only [Option.map, Tenure.lease, Option.isSome, hfetch]
      | guarded w =>
        simp only [Option.map, Tenure.lease, hfetch]

/-- **Every operation on a pool does what its ledger says**, and leaves alone the slots that are
held before and afterwards. -/
theorem step (h : Mirrors s₀ s m l) (base : ℕ) (op : PoolOp) :
    ∃ s' m', s.step base m op = (s', m', (l.step s₀ base op).2) ∧
      Mirrors s₀ s' m' (l.step s₀ base op).1 ∧ Frame s₀ op l (l.step s₀ base op).1 m m' := by
  cases op with
  | acquire =>
    obtain ⟨s', he, h'⟩ := h.take
    simp only [Site.step, Ledger.step, he]
    cases hfree : l.free with
    | nil =>
      rw [Ledger.take_of_nil hfree] at h' ⊢
      exact ⟨s', m, rfl, h', h.frame_refl⟩
    | cons i rest =>
      rw [Ledger.take_of_cons hfree] at h' ⊢
      exact ⟨s', m, by simp only [h'.placeOf_eq], h', h.frame_refl⟩
  | acquireWith v => exact h.step_acquireWith base v
  | acquireMany n =>
    obtain ⟨s', he, h'⟩ := h.takeMany n
    simp only [Site.step, Ledger.step, he]
    exact ⟨s', m, rfl, h', h.frame_refl⟩
  | release slot =>
    simp only [Site.step, Ledger.step, h.find?_leases]
    cases hslot : l.held.find? slot with
    | none => exact ⟨s, m, rfl, h, h.frame_refl⟩
    | some t =>
      obtain ⟨s', m', he, h', hf⟩ := h.release hslot (.release slot)
      cases t <;> exact ⟨s', m', by simp only [Option.map, Tenure.lease, he], h', hf⟩
  | releaseAll descending => exact h.step_releaseAll base descending
  | write slot v => exact h.step_write base slot v
  | read slot => exact h.step_read base slot
  | display slot =>
    simp only [Site.step, Ledger.step, h.find?_leases]
    cases hslot : l.held.find? slot with
    | none => exact ⟨s, m, rfl, h, h.frame_refl⟩
    | some t =>
      cases t with
      | raw w => exact ⟨s, m, rfl, h, h.frame_refl⟩
      | guarded v =>
        have hfetch := h.fetch_of_held hslot rfl
        exact ⟨s, m, by simp only [Option.map, Tenure.lease, hfetch], h, h.frame_refl⟩
  | intoRaw slot =>
    simp only [Site.step, Ledger.step, h.find?_leases]
    cases hslot : l.held.find? slot with
    | none => exact ⟨s, m, rfl, h, h.frame_refl⟩
    | some t =>
      cases t with
      | raw w => exact ⟨s, m, rfl, h, h.frame_refl⟩
      | guarded v =>
        have hput := h.put (t := .raw (some v)) (Dict.mem_keys_of_find? hslot) rfl
          (Touches.refl _ _ m) (h.payload_eq slot _ v hslot rfl)
        exact ⟨_, m, by simp only [Option.map, Tenure.lease, h.placeOf_eq]; rfl, hput,
          h.frame_refl⟩
  | contains offset =>
    simp only [Site.step, Ledger.step, h.slotIndex_eq]
    exact ⟨s, m, rfl, h, h.frame_refl⟩
  | info =>
    simp only [Site.step, Ledger.step, Pool.footprintBytes, h.capacity_eq, h.slotSize_eq]
    exact ⟨s, m, rfl, h, h.frame_refl⟩
  | countFree =>
    simp only [Site.step, Ledger.step, h.countFree_eq]
    exact ⟨s, m, rfl, h, h.frame_refl⟩
  | snapshot =>
    simp only [Site.step, Ledger.step, Pool.snapshot, h.counters_eq]
    exact ⟨s, m, rfl, h, h.frame_refl⟩
  | describe =>
    simp only [Site.step, Ledger.step, h.describe_eq]
    exact ⟨s, m, rfl, h, h.frame_refl⟩
  | hammer threads rounds hold =>
    obtain ⟨s', m', he, h', hm⟩ := h.hammer rounds hold threads
    simp only [Site.step, Ledger.step, he, h'.countFree_eq]
    refine ⟨s', m', rfl, h', h.frame hm (fun k => And.left) ?_⟩
    intro k hk _ hfree
    exact Dict.find?_eq_none_iff.1 hfree.2 hk

/-- **A run of operations on a pool does what its ledger says.** -/
theorem run (h : Mirrors s₀ s m l) (base : ℕ) (ops : List PoolOp) :
    ∃ s' m', Site.run base s m ops = (s', m', (l.run s₀ base ops).2) ∧
      Mirrors s₀ s' m' (l.run s₀ base ops).1 := by
  induction ops generalizing s m l with
  | nil => exact ⟨s, m, rfl, h⟩
  | cons op ops ih =>
    obtain ⟨s₁, m₁, he₁, h₁, -⟩ := h.step base op
    obtain ⟨s₂, m₂, he₂, h₂⟩ := ih h₁
    refine ⟨s₂, m₂, ?_, h₂⟩
    simp only [Site.run, he₁, he₂]
    rfl

/-- A new pool is what a new ledger says. -/
theorem new {shape : Shape} {p : Pool} {m₀ : Memory} {e : Element} (h : p.Built shape m₀ m)
    (he : p.shape = e.shape) : Mirrors ⟨e, p, []⟩ ⟨e, p, []⟩ m (.new p.capacity) where
  element_eq := rfl
  original_eq := rfl
  counters_eq := h.counters_eq
  layout := h.sound
  size_le := by
    rw [← he, h.shape_eq]
    exact h.size_le
  linked := h.linked
  leases_eq := rfl
  sound := .new h.sound.capacity_le
  payload_eq := by
    intro k t v hk _
    cases hk

end Mirrors

/-! ### What is promised -/

/-- What a pool that was built as `s₀`, its memory and the ledger of its user have in common. -/
structure Agrees (s₀ s : Site) (m : Memory) (l : Ledger) : Prop where
  element_eq : s.element = s₀.element
  original_eq : s.pool.original = s₀.pool.original
  /-- The links lead through the stack of the free slots. -/
  freeSlots_eq : (s.pool.shared m).freeSlots s.pool.slots = l.free
  leases_eq : s.leases = l.held.mapValues Tenure.lease
  /-- Every held slot contains what was last written to it. -/
  payload_eq : ∀ k t v, l.held.find? k = some t → t.value? = some v →
    s.payload m k = s.element.encode v
  /-- Each slot is free or held, and none is both. -/
  whole : (l.free.map UInt32.toNat ++ l.held.keys).Perm (List.range s.pool.capacity)
  /-- The counters show what happened, modulo `2 ^ 64`, and no exchange has failed. -/
  counters_eq : s.pool.counters = l.counters
  acquired_eq : l.acquired < UInt64.size → s.pool.counters.acquired.toNat = l.acquired
  released_eq : l.released < UInt64.size → s.pool.counters.released.toNat = l.released
  exhausted_eq : l.exhausted < UInt64.size → s.pool.counters.exhausted.toNat = l.exhausted
  contended_eq : s.pool.counters.contended = 0
  inUse_eq : l.acquired < UInt64.size → s.pool.inUse = l.held.length
  freeCount_eq : l.acquired < UInt64.size →
    s.pool.freeCount = s.pool.capacity - l.held.length
  countFree_eq : s.pool.countFree m = s.pool.capacity - l.held.length

theorem Mirrors.agrees {s₀ s : Site} {m : Memory} {l : Ledger} (h : Mirrors s₀ s m l) :
    Agrees s₀ s m l := by
  -- below the limit of the counters their difference is the number of held slots
  have hbalance := h.sound.balance
  have hlen := h.sound.length_add
  have hinUse : l.acquired < UInt64.size → s.pool.inUse = l.held.length := by
    intro hlt
    rw [Pool.inUse, h.counters_eq, Pool.Counters.inUse, Pool.toNat_satSub]
    show (UInt64.ofNat l.acquired).toNat - (UInt64.ofNat l.released).toNat = _
    rw [UInt64.toNat_ofNat_of_lt' hlt, UInt64.toNat_ofNat_of_lt' (by omega)]
    omega
  exact
    { element_eq := h.element_eq
      original_eq := h.original_eq
      freeSlots_eq := h.freeSlots_eq
      leases_eq := h.leases_eq
      payload_eq := by
        intro k t v hk hv
        rw [h.payload_same, h.element_eq]
        exact h.payload_eq k t v hk hv
      whole := h.capacity_eq ▸ h.sound.whole
      counters_eq := h.counters_eq
      acquired_eq := fun hlt => by
        rw [h.counters_eq]
        exact UInt64.toNat_ofNat_of_lt' hlt
      released_eq := fun hlt => by
        rw [h.counters_eq]
        exact UInt64.toNat_ofNat_of_lt' hlt
      exhausted_eq := fun hlt => by
        rw [h.counters_eq]
        exact UInt64.toNat_ofNat_of_lt' hlt
      contended_eq := by
        rw [h.counters_eq]
        rfl
      inUse_eq := hinUse
      freeCount_eq := fun hlt => by rw [Pool.freeCount, hinUse hlt]
      countFree_eq := by
        rw [h.countFree_eq, h.capacity_eq]
        omega }

/-- **A pool answers what its ledger answers**: a new pool that nobody else uses behaves, whatever
operations follow, like the stack of its free slots. -/
theorem run_refines {p : Pool} {m : Memory} {e : Element} (h : p.New m) (he : p.shape = e.shape)
    (base : ℕ) (ops : List PoolOp) :
    (run base ⟨e, p, []⟩ m ops).2.2 = ((Ledger.new p.capacity).run ⟨e, p, []⟩ base ops).2 ∧
      Agrees ⟨e, p, []⟩ (run base ⟨e, p, []⟩ m ops).1 (run base ⟨e, p, []⟩ m ops).2.1
        ((Ledger.new p.capacity).run ⟨e, p, []⟩ base ops).1 := by
  obtain ⟨shape, m₀, hb⟩ := h.built
  obtain ⟨s', m', hrun, h'⟩ := (Mirrors.new hb he).run base ops
  rw [hrun]
  exact ⟨rfl, h'.agrees⟩

/-- A user who fills a pool of two slots, is refused a third one, and turns a guard into an address
before he gives it back. -/
def filled : List PoolOp :=
  [.acquire, .write 0 (.number 7), .acquireWith (.number 9), .acquire, .intoRaw 1, .release 0,
    .read 1, .countFree]

theorem run_refines_filled :
    Pool.twoSlots.New (Pool.linkSlots Pool.twoSlots.slots .zero) ∧
      Pool.twoSlots.shape = (Element.unsigned .double).shape ∧
      ((Ledger.new 2).run ⟨.unsigned .double, Pool.twoSlots, []⟩ 0 filled).2 =
        [.placed ⟨0, 0, true⟩, .written 0, .placed ⟨1, 64, true⟩, .exhausted, .placed ⟨1, 64, true⟩,
          .released 0, .value (.number 9), .count 1] ∧
      (run 0 ⟨.unsigned .double, Pool.twoSlots, []⟩ (Pool.linkSlots Pool.twoSlots.slots .zero)
        filled).2.2 = ((Ledger.new 2).run ⟨.unsigned .double, Pool.twoSlots, []⟩ 0 filled).2 :=
  ⟨Pool.new_twoSlots, rfl, by decide, (run_refines Pool.new_twoSlots rfl 0 filled).1⟩

end Site
end Slab
