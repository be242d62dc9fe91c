import Slab.Proofs.Workspace.Ground
import Slab.Proofs.Workspace.Record
import Slab.Proofs.Workspace.Refinement

/-!
# What every operation on a workspace keeps

All pools of a workspace share the memory of a few arenas, and the links of their free lists lie
between the values of their users. What keeps them from harming each other is that no byte has two
owners, and that an operation on a pool stays within the pool.

* `Site.Kept`: a pool keeps what the holders of its slots wrote;
* `Workspace.Inv`: no byte has two owners, and every pool keeps what the record says;
* `Workspace.MayChange`: the bytes that an operation may change;
* `Workspace.Follows`: an operation keeps the invariant and changes no other bytes.

An operation that touches no pool follows by `Inv.quiet`, one on a pool or for a new pool by
`Inv.update`.
-/

namespace Slab

/-! ### One pool -/

namespace Site

/-- The pool lies in its region, and each of its held slots contains what was last written to it. -/
structure Kept (s : Site) (m : Memory) (held : Holdings) : Prop where
  fits : s.pool.capacity * s.pool.slotSize ≤ s.pool.region.length
  mirrors : ∃ l, Mirrors s s m l ∧ l.held.find? = held

namespace Kept

variable {s : Site} {m m' : Memory} {held : Holdings}

/-- A slot lies in the region. -/
theorem slot_bounds (h : Kept s m held) {k : ℕ} (hk : k < s.pool.capacity) :
    s.pool.region.offset ≤ s.pool.offsetOf (UInt32.ofNat k) ∧
      s.pool.offsetOf (UInt32.ofNat k) + s.pool.slotSize ≤
        s.pool.region.offset + s.pool.region.length := by
  obtain ⟨hfits, l, hl, -⟩ := h
  have hend : s.pool.offsetOf (UInt32.ofNat k) + s.pool.slotSize ≤
      s.pool.region.offset + s.pool.capacity * s.pool.slotSize :=
    Pool.Slots.place_add_le_end (by rwa [Pool.toNat_ofNat_of_le hl.layout.capacity_le hk])
  exact ⟨s.pool.slots.base_le_place _, by omega⟩

/-- The bytes of a slot lie in the region. -/
theorem bounds (h : Kept s m held) {k a : ℕ} (hk : k < s.pool.capacity)
    (ha : s.pool.slots.Covers k a) :
    s.pool.region.offset ≤ a ∧ a < s.pool.region.offset + s.pool.region.length := by
  obtain ⟨h1, h2⟩ := h.slot_bounds hk
  exact ⟨Nat.le_trans h1 ha.1, Nat.lt_of_lt_of_le ha.2 h2⟩

/-- Only the bytes of the region matter. -/
theorem congr (h : Kept s m held)
    (hm : ∀ a, s.pool.region.offset ≤ a → a < s.pool.region.offset + s.pool.region.length →
      m'.load a = m.load a) : Kept s m' held := by
  obtain ⟨l, hl, hheld⟩ := h.mirrors
  refine ⟨h.fits, l, hl.congr fun k hk a ha => ?_, hheld⟩
  obtain ⟨h1, h2⟩ := h.bounds hk ha
  exact hm a h1 h2

/-- A new pool. -/
theorem new {shape : Shape} {p : Pool} {m₀ : Memory} {e : Element} (h : p.Built shape m₀ m)
    (he : p.shape = e.shape) : Kept ⟨e, p, []⟩ m fun _ => none :=
  ⟨h.fits, _, Mirrors.new h he, rfl⟩

/-- An operation on the pool changes bytes only in slots that are free before or afterwards, and in
the slot that it writes to. -/
theorem step (h : Kept s m held) (base : ℕ) (op : PoolOp) :
    ∃ s' m' answer, s.step base m op = (s', m', answer) ∧ Kept s' m' (held.note op answer) ∧
      s'.pool.region = s.pool.region ∧
      ∀ a, m'.load a ≠ m.load a → ∃ k < s.pool.capacity, s.pool.slots.Covers k a ∧
        (held k = none ∨ held.note op answer k = none ∨
          (op.written? = some k ∧
            a < s.pool.offsetOf (UInt32.ofNat k) + s.element.shape.size)) := by
  obtain ⟨hfits, l, hl, rfl⟩ := h
  obtain ⟨s', m', he, hl', hframe⟩ := hl.step base op
  have hnote := Ledger.note_step hl.sound hl.layout.capacity_le s base op
  refine ⟨s', m', _, he, ⟨?_, _, hl'.rebase, hnote⟩, hl'.region_eq, fun a ha => ?_⟩
  · rw [hl'.capacity_eq, hl'.slotSize_eq, hl'.region_eq]
    exact hfits
  · have hin : s.pool.slots.base ≤ a ∧
        a < s.pool.slots.base + s.pool.slots.capacity * s.pool.slots.slotSize := by
      by_contra hn
      refine ha (hframe.outside a ?_)
      simp only [Pool.slots] at hn
      omega
    obtain ⟨k, hk, hka⟩ := Pool.Slots.exists_covers hl.layout hin.1 hin.2
    refine ⟨k, hk, hka, ?_⟩
    rw [← hnote]
    -- otherwise the slot would be held before and afterwards and not be written to
    by_contra hn
    rw [not_or, not_or, Dict.find?_eq_none_iff, Dict.find?_eq_none_iff, not_not, not_not] at hn
    obtain ⟨h1, h2, h3⟩ := hn
    refine ha (hframe.kept k h1 h2 a hka fun hw => ?_)
    by_contra hlt
    exact h3 ⟨hw, Nat.lt_of_not_le hlt⟩

end Kept
end Site

/-! ### All pools -/

namespace Workspace

/-- No byte has two owners, and every pool keeps what the record says. -/
structure Inv (w : Workspace) (r : Record) : Prop where
  tiled : Tiled w.arenas w.own
  none : ∀ name, w.pools.find? name = none → r name = fun _ => Option.none
  kept : ∀ name t a, w.pools.find? name = some t → w.arenas[t.arena]? = some a →
    t.site.Kept a.memory (r name)

/-- A byte of an arena. -/
def byte? (w : Workspace) (i b : ℕ) : Option UInt8 := w.arenas[i]?.map fun a => a.memory.load b

/-- The bytes that an operation with its answer may change. -/
inductive MayChange (w w' : Workspace) (r : Record) (i b : ℕ) : Op → Answer → Prop
  /-- A new pool links its slots, in its own region. -/
  | build {name : String} {element : Element} {capacity : ℕ} {slotSize : Option ℕ}
      {ground : Ground} {answer : Answer} {t : Tenant} (hpool : w'.pools.find? name = some t)
      (harena : t.arena = i)
      (hbyte : t.site.pool.region.offset ≤ b ∧
        b < t.site.pool.region.offset + t.site.pool.region.length)
      (hanswer : answer = .pool t.site.pool.capacity t.site.pool.slotSize
        t.site.pool.footprintBytes t.site.pool.state) :
      MayChange w w' r i b (.pool name element capacity slotSize ground) answer
  /-- A link or a first value is stored in a slot that nobody holds before or nobody holds
  afterwards. -/
  | link {name : String} {op : PoolOp} {answer : PoolAnswer} {state : PoolState} {t : Tenant}
      {k : ℕ} (hpool : w.pools.find? name = some t) (harena : t.arena = i)
      (hslot : k < t.site.pool.capacity) (hbyte : t.site.pool.slots.Covers k b)
      (hfree : r name k = none ∨ (r name).note op answer k = none) :
      MayChange w w' r i b (.onPool name op) (.onPool answer state)
  /-- A holder writes a value into his slot. -/
  | write {name : String} {answer : PoolAnswer} {state : PoolState} {t : Tenant} {k : ℕ}
      {v : Value} (hpool : w.pools.find? name = some t) (harena : t.arena = i)
      (hslot : k < t.site.pool.capacity) (hheld : r name k ≠ none)
      (hbyte : t.site.pool.offsetOf (UInt32.ofNat k) ≤ b ∧
        b < t.site.pool.offsetOf (UInt32.ofNat k) + t.site.element.shape.size) :
      MayChange w w' r i b (.onPool name (.write k v)) (.onPool answer state)

/-- An operation keeps the invariant and changes no bytes but those that it may change. -/
structure Follows (w w' : Workspace) (r : Record) (op : Op) (answer : Answer) : Prop where
  inv : Inv w' (r.note op answer)
  bytes : ∀ i b, i < w.arenas.length → w'.byte? i b ≠ w.byte? i b → MayChange w w' r i b op answer

variable {w w' : Workspace} {r : Record} {op : Op} {answer : Answer}

/-- An operation that changes neither pools nor memory. -/
theorem Inv.quiet (h : Inv w r) (hnote : r.note op answer = r) (htiled : Tiled w'.arenas w'.own)
    (hpools : w'.pools = w.pools)
    (hmemory : ∀ (i : ℕ) (a : Arena), w.arenas[i]? = some a →
      ∃ a' : Arena, w'.arenas[i]? = some a' ∧ a'.memory = a.memory) :
    Follows w w' r op answer where
  inv := hnote.symm ▸
    { tiled := htiled
      none := fun name hn => h.none name (hpools ▸ hn)
      kept := by
        intro name t a' ht ha'
        rw [hpools] at ht
        obtain ⟨a, ha, -⟩ := h.tiled.within _ _ (own_of_pool ht)
        obtain ⟨a'', ha'', hm⟩ := hmemory t.arena a ha
        rw [ha'] at ha''
        cases ha''
        rw [hm]
        exact h.kept name t a ht ha }
  bytes := by
    intro i b hi hne
    obtain ⟨a, ha⟩ : ∃ a, w.arenas[i]? = some a := ⟨_, List.getElem?_eq_getElem hi⟩
    obtain ⟨a', ha', hm⟩ := hmemory i a ha
    refine absurd ?_ hne
    simp [byte?, ha, ha', hm]

/-- An operation that changes nothing. -/
theorem Inv.same (h : Inv w r) (hnote : r.note op answer = r) : Follows w w r op answer :=
  h.quiet hnote h.tiled rfl fun _ a ha => ⟨a, ha, rfl⟩

/-- An operation that changes one pool, or adds it, and bytes of its region. -/
theorem Inv.update (h : Inv w r) {name : String} {t : Tenant} {a a' : Arena} {held : Holdings}
    (hnote : r.note op answer = Function.update r name held)
    (htiled : Tiled w'.arenas w'.own) (hpools : w'.pools = w.pools.insert name t)
    (harenas : w'.arenas = w.arenas.set t.arena a') (ha : w.arenas[t.arena]? = some a)
    (hmemory : ∀ b, (b < t.site.pool.region.offset ∨
      t.site.pool.region.offset + t.site.pool.region.length ≤ b) →
        a'.memory.load b = a.memory.load b)
    (hkept : t.site.Kept a'.memory held)
    (hmay : ∀ b, a'.memory.load b ≠ a.memory.load b →
      MayChange w w' r t.arena b op answer) : Follows w w' r op answer := by
  have hlt : t.arena < w.arenas.length := (List.getElem?_eq_some_iff.1 ha).1
  have hnew : w'.arenas[t.arena]? = some a' := by
    rw [harenas, List.getElem?_set_self hlt]
  have hold : ∀ i, i ≠ t.arena → w'.arenas[i]? = w.arenas[i]? := by
    intro i hi
    rw [harenas, List.getElem?_set_ne (Ne.symm hi)]
  have hfind : ∀ n, w'.pools.find? n = if n = name then some t else w.pools.find? n := by
    intro n
    rw [hpools, Dict.find?_insert]
  refine ⟨hnote.symm ▸ ⟨htiled, ?_, ?_⟩, ?_⟩
  · intro n hn
    rw [hfind] at hn
    split_ifs at hn with he
    rw [Function.update_of_ne he]
    exact h.none n hn
  · intro n u b hu hb
    rw [hfind] at hu
    split_ifs at hu with he
    · -- the pool itself
      cases hu
      rw [hnew] at hb
      cases hb
      rw [he, Function.update_self]
      exact hkept
    · rw [Function.update_of_ne he]
      by_cases hi : u.arena = t.arena
      · rw [hi, hnew] at hb
        cases hb
        -- another pool on the same arena, whose region is apart
        have hu' := own_of_pool (w := w') ((hfind n).trans (by rw [if_neg he, hu]))
        have ht' := own_of_pool (w := w') ((hfind name).trans (by rw [if_pos rfl]))
        have hapart := htiled.apart _ _ _ _ (fun hne => he (Owner.pool.inj hne)) hu' ht' hi
        refine (h.kept n u a hu (hi ▸ ha)).congr fun c h1 h2 => hmemory c ?_
        rcases hapart with hle | hle
        · exact Or.inl (Nat.lt_of_lt_of_le h2 hle)
        · exact Or.inr (Nat.le_trans hle h1)
      · -- a pool on another arena
        rw [hold _ hi] at hb
        exact h.kept n u b hu hb
  · intro i b _ hne
    by_cases hi : i = t.arena
    · subst hi
      refine hmay b fun he => hne ?_
      simp [byte?, hnew, ha, he]
    · exact absurd (by simp [byte?, hold i hi]) hne

end Workspace
end Slab
