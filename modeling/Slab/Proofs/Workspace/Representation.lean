import Slab.Proofs.Pool.Construction
import Slab.Proofs.Workspace.Ledger

/-!
# How memory keeps a ledger

The free list of a pool lies in the slots that its user overwrites. What the ledger of the user says
can be read off the pool and its memory nevertheless: the links of the free slots lead through the
stack, and the first bytes of each held slot are those of the value that was last written to it.

* `Pool.Slots.Covers`, `Touches`: a byte belongs to a slot, and only bytes of certain slots differ;
* `Site.payload`: the bytes of a slot that belong to its value;
* `Site.Represents`, `Site.Mirrors`: the pool and its memory are what the ledger says, without and
  with the values.

Operations on a pool are made of a few moves: `Mirrors.take`, `Mirrors.takeWith`,
`Mirrors.giveBack` and `Mirrors.put`.
-/

namespace Slab

/-! ### Bytes of slots -/

/-- The byte at `a` belongs to the slot. -/
def Pool.Slots.Covers (g : Pool.Slots) (slot a : ℕ) : Prop :=
  g.place (UInt32.ofNat slot) ≤ a ∧ a < g.place (UInt32.ofNat slot) + g.slotSize

/-- Only bytes of the slots in question differ. -/
def Touches (g : Pool.Slots) (P : ℕ → Prop) (m m' : Memory) : Prop :=
  ∀ a, (∀ k, P k → ¬ g.Covers k a) → m'.load a = m.load a

namespace Touches

variable {g : Pool.Slots} {P Q : ℕ → Prop} {m m₁ m' : Memory}

theorem refl (g : Pool.Slots) (P : ℕ → Prop) (m : Memory) : Touches g P m m := fun _ _ => rfl

theorem mono (h : Touches g P m m') (hPQ : ∀ k, P k → Q k) : Touches g Q m m' :=
  fun a ha => h a fun k hk => ha k (hPQ k hk)

theorem trans (h : Touches g P m m₁) (h' : Touches g P m₁ m') : Touches g P m m' :=
  fun a ha => (h' a ha).trans (h a ha)

end Touches

namespace Pool

theorem Slots.Covers.unique {g : Slots} (hg : g.Sound) {j k a : ℕ} (hj : j < g.capacity)
    (hk : k < g.capacity) (hja : g.Covers j a) (hka : g.Covers k a) : j = k := by
  by_contra hne
  have hdis := g.place_disjoint fun he => hne (ofNat_inj_of_lt hg.capacity_le hj hk he)
  obtain ⟨hj1, hj2⟩ := hja
  obtain ⟨hk1, hk2⟩ := hka
  omega

/-- The bytes of the slots are those of the pool. -/
theorem Slots.Covers.bounds {g : Slots} (hg : g.Sound) {k a : ℕ} (hk : k < g.capacity)
    (ha : g.Covers k a) : g.base ≤ a ∧ a < g.base + g.capacity * g.slotSize := by
  have hbase := g.base_le_place (UInt32.ofNat k)
  have hend : g.place (UInt32.ofNat k) + g.slotSize ≤ g.base + g.capacity * g.slotSize :=
    g.place_add_le_end (by rwa [toNat_ofNat_of_le hg.capacity_le hk])
  obtain ⟨h1, h2⟩ := ha
  omega

/-- Every byte of a pool belongs to one of its slots. -/
theorem Slots.exists_covers {g : Slots} (hg : g.Sound) {a : ℕ} (h1 : g.base ≤ a)
    (h2 : a < g.base + g.capacity * g.slotSize) : ∃ k < g.capacity, g.Covers k a := by
  have hlt : (a - g.base) / g.slotSize < g.capacity := by
    refine Nat.div_lt_of_lt_mul ?_
    rw [Nat.mul_comm]
    omega
  have hdiv := Nat.div_add_mod (a - g.base) g.slotSize
  have hmod := Nat.mod_lt (a - g.base) hg.slotSize_pos
  refine ⟨_, hlt, ?_⟩
  unfold Slots.Covers Slots.place
  rw [toNat_ofNat_of_le hg.capacity_le hlt, Nat.mul_comm]
  omega

/-- The pool as it was built. -/
def original (p : Pool) : Pool := { p with head := ⟨0, 0⟩, counters := {} }

/-! ### Calls that nobody interferes with -/

theorem acquire_of_nil {p : Pool} {m : Memory} (h : p.head.index = nil) :
    p.acquire m = ({ p with counters.exhausted := p.counters.exhausted + 1 }, m, none) := by
  rw [acquire, Shared.acquire_of_nil p.slots (p.shared m) h]
  rfl

theorem acquire_of_ne_nil {p : Pool} {m : Memory} (h : p.head.index ≠ nil) :
    p.acquire m =
      ({ p with
          head := ⟨m.load32 (p.slots.place p.head.index), p.head.generation + 1⟩
          counters.acquired := p.counters.acquired + 1 },
        m, some p.head.index) := by
  rw [acquire, Shared.acquire_of_ne_nil p.slots (p.shared m) h]
  rfl

theorem release_eq (p : Pool) (m : Memory) (i : UInt32) :
    p.release m i =
      ({ p with
          head := ⟨i, p.head.generation + 1⟩
          counters.released := p.counters.released + 1 },
        m.store32 (p.slots.place i) p.head.index) := by
  rw [release, Shared.release_eq]
  simp only [update, shared]

end Pool

namespace Ledger

theorem counters_exhausted (l : Ledger) :
    ({ l with exhausted := l.exhausted + 1 } : Ledger).counters =
      { l.counters with exhausted := l.counters.exhausted + 1 } := by
  simp [counters, UInt64.ofNat_add]

theorem counters_acquired (l : Ledger) (free : List UInt32) (held : Dict ℕ Tenure) :
    ({ l with free, held, acquired := l.acquired + 1 } : Ledger).counters =
      { l.counters with acquired := l.counters.acquired + 1 } := by
  simp [counters, UInt64.ofNat_add]

theorem counters_giveBack (l : Ledger) (k : ℕ) :
    (l.giveBack k).counters = { l.counters with released := l.counters.released + 1 } := by
  simp [counters, giveBack, UInt64.ofNat_add]

end Ledger

namespace Site

/-- The bytes of a slot that belong to its value. -/
def payload (s : Site) (m : Memory) (slot : ℕ) : List UInt8 :=
  m.read (s.pool.offsetOf (UInt32.ofNat slot)) s.element.shape.size

/-- The pool that was built as `s₀` is now what the ledger says, up to the values in its slots. -/
structure Represents (s₀ s : Site) (m : Memory) (l : Ledger) : Prop where
  element_eq : s.element = s₀.element
  original_eq : s.pool.original = s₀.pool.original
  counters_eq : s.pool.counters = l.counters
  layout : s₀.pool.slots.Sound
  size_le : s₀.element.shape.size ≤ s₀.pool.slotSize
  linked : Pool.Linked s₀.pool.slots m s.pool.head.index l.free
  leases_eq : s.leases = l.held.mapValues Tenure.lease
  sound : l.Sound s₀.pool.capacity

/-- The pool that was built as `s₀` is now what the ledger says, and so are the values. -/
structure Mirrors (s₀ s : Site) (m : Memory) (l : Ledger) : Prop extends
    Represents s₀ s m l where
  payload_eq : ∀ k t v, l.held.find? k = some t → t.value? = some v →
    s₀.payload m k = s₀.element.encode v

section Payload

variable {s : Site} {m m' : Memory} {k : ℕ} {v : Value}

/-- The payload of a slot depends only on the bytes of the slot. -/
theorem payload_congr (hs : s.element.shape.size ≤ s.pool.slotSize)
    (hm : ∀ a, s.pool.slots.Covers k a → m'.load a = m.load a) :
    s.payload m' k = s.payload m k :=
  Memory.read_congr fun a h1 h2 => hm a ⟨h1, Nat.lt_of_lt_of_le h2 (Nat.add_le_add_left hs _)⟩

theorem payload_store : s.payload (s.store m k v) k = s.element.encode v := by
  have h := Memory.read_write_self m (s.pool.offsetOf (UInt32.ofNat k)) (s.element.encode v)
  rw [Element.length_encode] at h
  exact h

/-- Writing a value changes the payload of the slot alone. -/
theorem load_store_of_not_payload {a : ℕ}
    (ha : a < s.pool.offsetOf (UInt32.ofNat k) ∨
      s.pool.offsetOf (UInt32.ofNat k) + s.element.shape.size ≤ a) :
    (s.store m k v).load a = m.load a := by
  refine Memory.load_write_of_disjoint _ _ _ _ ?_
  rwa [Element.length_encode]

theorem touches_store (hs : s.element.shape.size ≤ s.pool.slotSize) :
    Touches s.pool.slots (· = k) m (s.store m k v) := by
  intro a ha
  refine load_store_of_not_payload ?_
  by_contra hn
  rw [not_or, Nat.not_lt, Nat.not_le] at hn
  exact ha k rfl ⟨hn.1, Nat.lt_of_lt_of_le hn.2 (Nat.add_le_add_left hs _)⟩

end Payload

namespace Represents

variable {s₀ s : Site} {m m' : Memory} {l : Ledger}

theorem slots_eq (h : Represents s₀ s m l) : s.pool.slots = s₀.pool.slots := by
  show s.pool.original.slots = s₀.pool.original.slots
  rw [h.original_eq]

theorem offsetOf_eq (h : Represents s₀ s m l) (i : UInt32) :
    s.pool.offsetOf i = s₀.pool.offsetOf i := by
  unfold Pool.offsetOf
  rw [h.slots_eq]

theorem store_eq (h : Represents s₀ s m l) (m' : Memory) (k : ℕ) (v : Value) :
    s.store m' k v = s₀.store m' k v := by
  unfold Site.store
  rw [h.offsetOf_eq, h.element_eq]

theorem payload_same (h : Represents s₀ s m l) (m' : Memory) (k : ℕ) :
    s.payload m' k = s₀.payload m' k := by
  unfold Site.payload
  rw [h.offsetOf_eq, h.element_eq]

theorem fetch_eq (h : Represents s₀ s m l) (m' : Memory) (k : ℕ) :
    s.fetch m' k = s₀.element.decode (s₀.payload m' k) := by
  rw [← h.payload_same, ← h.element_eq]
  rfl

theorem placeOf_eq (h : Represents s₀ s m l) (base : ℕ) (i : UInt32) :
    s.placeOf base i = s₀.placeOf base i := by
  have hp : s.pool.addressOf i = s₀.pool.addressOf i := by
    show s.pool.original.addressOf i = s₀.pool.original.addressOf i
    rw [h.original_eq]
  rw [Site.placeOf, Site.placeOf, hp]

theorem capacity_eq (h : Represents s₀ s m l) : s.pool.capacity = s₀.pool.capacity :=
  congrArg Pool.Slots.capacity h.slots_eq

theorem slotSize_eq (h : Represents s₀ s m l) : s.pool.slotSize = s₀.pool.slotSize :=
  congrArg Pool.Slots.slotSize h.slots_eq

theorem region_eq (h : Represents s₀ s m l) : s.pool.region = s₀.pool.region := by
  show s.pool.original.region = s₀.pool.original.region
  rw [h.original_eq]

theorem slotIndex_eq (h : Represents s₀ s m l) (address : ℕ) :
    s.pool.slotIndex address = s₀.pool.slotIndex address := by
  show s.pool.original.slotIndex address = s₀.pool.original.slotIndex address
  rw [h.original_eq]

theorem describe_eq (h : Represents s₀ s m l) :
    s.pool.describe = { s₀.pool with counters := l.counters }.describe := by
  show { s.pool.original with counters := s.pool.counters }.describe =
    { s₀.pool.original with counters := l.counters }.describe
  rw [h.original_eq, h.counters_eq]

theorem find?_leases (h : Represents s₀ s m l) (k : ℕ) :
    s.leases.find? k = (l.held.find? k).map Tenure.lease := by
  rw [h.leases_eq, Dict.find?_mapValues]

theorem keys_leases (h : Represents s₀ s m l) : s.leases.keys = l.held.keys := by
  rw [h.leases_eq, Dict.keys_mapValues]

/-- The path of the links is the stack of the ledger. -/
theorem freeSlots_eq (h : Represents s₀ s m l) :
    (s.pool.shared m).freeSlots s.pool.slots = l.free := by
  have hlen := h.sound.length_add
  rw [h.slots_eq]
  refine Pool.Linked.freeSlots_eq (s := s.pool.shared m) h.linked ?_
  show l.free.length ≤ s₀.pool.capacity
  omega

theorem countFree_eq (h : Represents s₀ s m l) : s.pool.countFree m = l.free.length := by
  rw [Pool.countFree, h.freeSlots_eq]

/-- Bytes of held slots may change. -/
theorem touch (h : Represents s₀ s m l) {P : ℕ → Prop} (hm : Touches s₀.pool.slots P m m')
    (hP : ∀ k, P k → k ∈ l.held.keys) : Represents s₀ s m' l := by
  refine { h with linked := h.linked.congr fun i hi => Memory.load32_congr fun a h1 h2 => ?_ }
  have hline := h.layout.line_le
  unfold cacheLine at hline
  have hi' : s₀.pool.slots.Covers i.toNat a := by
    rw [Pool.Slots.Covers, UInt32.ofNat_toNat]
    omega
  refine hm a fun k hk hka => ?_
  -- the byte would belong to a slot that is both free and held
  have he := hi'.unique h.layout (h.sound.lt_of_free hi) (h.sound.lt_of_held (hP k hk)) hka
  exact h.sound.not_held hi (he ▸ hP k hk)

/-- The top slot is taken. -/
theorem take (h : Represents s₀ s m l) (t : Tenure) :
    ∃ s', s.take m t.lease = (s', m, (l.take t).2) ∧ Represents s₀ s' m (l.take t).1 := by
  have hlinked := h.linked
  have hsound := h.sound.take t
  cases hfree : l.free with
  | nil =>
    rw [hfree] at hlinked
    rw [Ledger.take_of_nil hfree] at hsound ⊢
    refine ⟨{ s with pool.counters.exhausted := s.pool.counters.exhausted + 1 }, ?_,
      { h with counters_eq := ?_, sound := hsound }⟩
    · rw [Site.take, Pool.acquire_of_nil hlinked]
    · rw [Ledger.counters_exhausted, ← h.counters_eq]
  | cons i rest =>
    rw [hfree] at hlinked
    obtain ⟨hi, hne, hrest⟩ := hlinked
    rw [Ledger.take_of_cons hfree] at hsound ⊢
    refine ⟨{ s with
        pool.head := ⟨m.load32 (s.pool.slots.place s.pool.head.index), s.pool.head.generation + 1⟩
        pool.counters.acquired := s.pool.counters.acquired + 1
        leases := s.leases.insert i.toNat t.lease }, ?_,
      { h with counters_eq := ?_, linked := ?_, leases_eq := ?_, sound := hsound }⟩
    · rw [Site.take, Pool.acquire_of_ne_nil (by rw [hi]; exact hne), hi]
    · rw [Ledger.counters_acquired, ← h.counters_eq]
    · show Pool.Linked _ _ (m.load32 (s.pool.slots.place s.pool.head.index)) rest
      rw [h.slots_eq, hi]
      exact hrest
    · show s.leases.insert i.toNat t.lease = _
      rw [h.leases_eq]
      exact Dict.insert_mapValues _ _ _ _

/-- A held slot is given back. -/
theorem giveBack (h : Represents s₀ s m l) {k : ℕ} (hk : k ∈ l.held.keys) :
    ∃ s' m', s.giveBack m k = (s', m') ∧ Represents s₀ s' m' (l.giveBack k) ∧
      Touches s₀.pool.slots (· = k) m m' := by
  have hlt := h.sound.lt_of_held hk
  have hnat := Pool.toNat_ofNat_of_le h.layout.capacity_le hlt
  have hne : UInt32.ofNat k ≠ Pool.nil :=
    Pool.ne_nil_of_lt h.layout.capacity_le (by rw [hnat]; exact hlt)
  have htouch : Touches s₀.pool.slots (· = k) m
      (m.store32 (s₀.pool.slots.place (UInt32.ofNat k)) s.pool.head.index) := by
    intro a ha
    refine Pool.load_store32_of_other_slot h.layout _ _ _ a ?_
    have hn := ha k rfl
    unfold Pool.Slots.Covers at hn
    omega
  have hlinked := (h.touch htouch fun j hj => hj ▸ hk).linked
  refine ⟨{ s with
      pool.head := ⟨UInt32.ofNat k, s.pool.head.generation + 1⟩
      pool.counters.released := s.pool.counters.released + 1
      leases := s.leases.erase k }, _, ?_,
    { h with counters_eq := ?_, linked := ?_, leases_eq := ?_, sound := ?_ }, htouch⟩
  · rw [Site.giveBack, Pool.release_eq, h.slots_eq]
  · rw [Ledger.counters_giveBack, ← h.counters_eq]
  · -- the link of the slot leads to what was the first free one
    refine ⟨rfl, hne, ?_⟩
    rw [Memory.load32_store32]
    exact hlinked
  · show s.leases.erase k = _
    rw [h.leases_eq]
    exact Dict.erase_mapValues _ _ _
  · exact h.sound.giveBack h.layout.capacity_le hk

/-- A held slot is held in another way, and its bytes may change. -/
theorem put (h : Represents s₀ s m l) {k : ℕ} (hk : k ∈ l.held.keys) (t : Tenure)
    (hm : Touches s₀.pool.slots (· = k) m m') :
    Represents s₀ { s with leases := s.leases.insert k t.lease } m' (l.put k t) :=
  { h.touch hm fun j hj => hj ▸ hk with
    leases_eq := by
      show s.leases.insert k t.lease = _
      rw [h.leases_eq]
      exact Dict.insert_mapValues _ _ _ _
    sound := h.sound.put hk t }

end Represents

namespace Mirrors

variable {s₀ s s' : Site} {m m' : Memory} {l l' : Ledger}

/-- Only the bytes of the slots matter. -/
theorem congr (h : Mirrors s₀ s m l)
    (hm : ∀ k < s₀.pool.capacity, ∀ a, s₀.pool.slots.Covers k a → m'.load a = m.load a) :
    Mirrors s₀ s m' l where
  toRepresents := by
    refine { h.toRepresents with
      linked := h.linked.congr fun i hi => Memory.load32_congr fun a h1 h2 => ?_ }
    have hline := h.layout.line_le
    unfold cacheLine at hline
    refine hm i.toNat (h.sound.lt_of_free hi) a ?_
    rw [Pool.Slots.Covers, UInt32.ofNat_toNat]
    omega
  payload_eq k t v hk hv := by
    rw [← h.payload_eq k t v hk hv]
    exact payload_congr h.size_le (hm k (h.sound.lt_of_held (Dict.mem_keys_of_find? hk)))

/-- The pool may be compared with itself instead of with what was built. -/
theorem rebase (h : Mirrors s₀ s m l) : Mirrors s s m l where
  element_eq := rfl
  original_eq := rfl
  counters_eq := h.counters_eq
  layout := h.slots_eq ▸ h.layout
  size_le := by
    rw [h.element_eq, h.slotSize_eq]
    exact h.size_le
  linked := h.slots_eq ▸ h.linked
  leases_eq := h.leases_eq
  sound := h.capacity_eq ▸ h.sound
  payload_eq k t v hk hv := by
    rw [h.payload_same, h.element_eq]
    exact h.payload_eq k t v hk hv

/-- The relation holds again when each slot with a value has just been written or was left alone. -/
theorem next (h : Mirrors s₀ s m l) (hr : Represents s₀ s' m' l') {P : ℕ → Prop}
    (hm : Touches s₀.pool.slots P m m') (hP : ∀ j, P j → j < s₀.pool.capacity)
    (hkept : ∀ k t v, l'.held.find? k = some t → t.value? = some v →
      s₀.payload m' k = s₀.element.encode v ∨ (l.held.find? k = some t ∧ ¬ P k)) :
    Mirrors s₀ s' m' l' := by
  refine { hr with payload_eq := fun k t v hk hv => ?_ }
  rcases hkept k t v hk hv with hw | ⟨hk, hn⟩
  · exact hw
  · rw [← h.payload_eq k t v hk hv]
    refine payload_congr h.size_le fun a ha => hm a fun j hj hja => hn ?_
    have hlt := h.sound.lt_of_held (Dict.mem_keys_of_find? hk)
    exact hja.unique h.layout (hP j hj) hlt ha ▸ hj

/-- The top slot is taken and holds no value yet. -/
theorem take (h : Mirrors s₀ s m l) :
    ∃ s', s.take m (.raw false) = (s', m, (l.take (.raw none)).2) ∧
      Mirrors s₀ s' m (l.take (.raw none)).1 := by
  obtain ⟨s', he, hr⟩ := h.toRepresents.take (.raw none)
  refine ⟨s', he, h.next hr (Touches.refl _ (fun _ => False) m) (fun _ => False.elim) ?_⟩
  intro k t v hk hv
  cases hfree : l.free with
  | nil =>
    rw [Ledger.take_of_nil hfree] at hk
    exact Or.inr ⟨hk, id⟩
  | cons i rest =>
    rw [Ledger.take_of_cons hfree] at hk
    rw [Dict.find?_insert] at hk
    split_ifs at hk
    · cases hk
      cases hv
    · exact Or.inr ⟨hk, id⟩

/-- The top slot is taken and given a value. -/
theorem takeWith (h : Mirrors s₀ s m l) {i : UInt32} {rest : List UInt32}
    (hfree : l.free = i :: rest) (v : Value) :
    ∃ s', s.take m .guarded = (s', m, some i) ∧
      Mirrors s₀ s' (s₀.store m i.toNat v) (l.take (.guarded v)).1 := by
  obtain ⟨s', he, hr⟩ := h.toRepresents.take (.guarded v)
  rw [Ledger.take_of_cons hfree] at he hr ⊢
  have hm : Touches s₀.pool.slots (· = i.toNat) m (s₀.store m i.toNat v) := touches_store h.size_le
  have hi : i.toNat ∈ (l.held.insert i.toNat (.guarded v)).keys :=
    Dict.mem_keys_insert.2 (Or.inl rfl)
  refine ⟨s', he, h.next (hr.touch hm fun j hj => hj ▸ hi) hm ?_ ?_⟩
  · rintro j rfl
    exact h.sound.lt_of_free (hfree ▸ List.mem_cons_self)
  · intro k t w hk hw
    rw [Dict.find?_insert] at hk
    split_ifs at hk with hki
    · -- the slot that was just taken
      cases hk
      cases hw
      rw [hki]
      exact Or.inl payload_store
    · exact Or.inr ⟨hk, hki⟩

/-- A held slot is given back. -/
theorem giveBack (h : Mirrors s₀ s m l) {k : ℕ} (hk : k ∈ l.held.keys) :
    ∃ s' m', s.giveBack m k = (s', m') ∧ Mirrors s₀ s' m' (l.giveBack k) ∧
      Touches s₀.pool.slots (· = k) m m' := by
  obtain ⟨s', m', he, hr, hm⟩ := h.toRepresents.giveBack hk
  refine ⟨s', m', he, h.next hr hm ?_ ?_, hm⟩
  · rintro j rfl
    exact h.sound.lt_of_held hk
  · intro j t v hj hv
    rw [show (l.giveBack k).held = l.held.erase k from rfl, Dict.find?_erase] at hj
    split_ifs at hj with hne
    exact Or.inr ⟨hj, hne⟩

/-- A held slot is held in another way and contains the value that the ledger says. -/
theorem put (h : Mirrors s₀ s m l) {k : ℕ} (hk : k ∈ l.held.keys) {t : Tenure} {v : Value}
    (hv : t.value? = some v) (hm : Touches s₀.pool.slots (· = k) m m')
    (hpayload : s₀.payload m' k = s₀.element.encode v) :
    Mirrors s₀ { s with leases := s.leases.insert k t.lease } m' (l.put k t) := by
  refine h.next (h.toRepresents.put hk t hm) hm ?_ ?_
  · rintro j rfl
    exact h.sound.lt_of_held hk
  · intro j t' v' hj hv'
    rw [show (l.put k t).held = l.held.insert k t from rfl, Dict.find?_insert] at hj
    split_ifs at hj with he
    · -- the slot itself; all others are left alone
      cases hj
      rw [hv] at hv'
      cases hv'
      rw [he]
      exact Or.inl hpayload
    · exact Or.inr ⟨hj, he⟩

end Mirrors
end Site
end Slab
