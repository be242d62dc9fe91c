import Slab.Proofs.Pool.Knowledge
import Slab.Proofs.Pool.Ownership

/-!
# No interleaving loses or duplicates a slot

Threads that share a pool keep the free list whole: at every moment its links lead through different
slots to the end marker, and these slots and the ones that are out are all slots of the pool, each
of them once.

* `Crew.Inv`: the invariant, with the list of the free slots;
* `Inv.go`, `Inv.step`, `inv_run`: a step of a call, an event and a run preserve it;
* `Crew.Conserved`: what is promised of every state, with `conserved_run`.
-/

namespace Slab.Pool

namespace Crew

variable {ι : Type} {g : Slots} {c : Crew ι} {free : List UInt32}

/-- What holds at every moment, with the free slots, the first one first. -/
structure Inv (g : Slots) (c : Crew ι) (free : List UInt32) : Prop where
  linked : Linked g c.shared.memory c.shared.head.index free
  replayed : replay (numbers g.capacity) c.exchanges = some free
  generation : c.shared.head.generation = UInt32.ofNat c.log.length
  slots : (free ++ c.out).Perm (numbers g.capacity)
  owners : Owners c.held (fun t => (c.call t).owned?) c.out
  calls : ∀ t, (c.call t).Valid g c.shared c.log.length (c.seen t)

namespace Inv

theorem nodup (h : Inv g c free) (hg : g.Sound) : (free ++ c.out).Nodup :=
  h.slots.nodup_iff.2 (nodup_numbers hg.capacity_le)

theorem lt_capacity (h : Inv g c free) (hg : g.Sound) {i : UInt32} (hi : i ∈ free ++ c.out) :
    i.toNat < g.capacity :=
  (mem_numbers hg.capacity_le).1 (h.slots.mem_iff.1 hi)

theorem not_mem_out (h : Inv g c free) (hg : g.Sound) {i : UInt32} (hi : i ∈ free) : i ∉ c.out :=
  fun ho => (List.disjoint_of_nodup_append (h.nodup hg)) hi ho

theorem mem_out_of_owned (h : Inv g c free) {t : ι} {i : UInt32}
    (hi : (c.call t).owned? = some i) : i ∈ c.out :=
  h.owners.mem_of_owned hi

/-- The first free slot is on the list. -/
theorem head_mem (h : Inv g c free) (hn : c.shared.head.index ≠ nil) :
    c.shared.head.index ∈ free := by
  obtain ⟨rest, rfl, -⟩ := h.linked.exists_cons hn
  exact List.mem_cons_self

/-- Only the links of the free slots and of those that a call has linked matter. -/
theorem memory (h : Inv g c free) {m : Memory}
    (hfree : ∀ i ∈ free, m.load32 (g.place i) = c.shared.memory.load32 (g.place i))
    (hlinked : ∀ t i hd, c.call t = .releaseLinked i hd →
      m.load32 (g.place i) = c.shared.memory.load32 (g.place i)) :
    Inv g { c with shared.memory := m } free where
  linked := h.linked.congr hfree
  replayed := h.replayed
  generation := h.generation
  slots := h.slots
  owners := h.owners
  calls t := (h.calls t).congr rfl (fun hn => hfree _ (h.head_mem hn)) (hlinked t)

/-- Bytes of a held slot, or of no slot at all, may change. -/
theorem write (h : Inv g c free) {m : Memory}
    (hm : ∀ i, i ∈ free ∨ (i ∈ c.out ∧ i ∉ c.held) →
      m.load32 (g.place i) = c.shared.memory.load32 (g.place i)) :
    Inv g { c with shared.memory := m } free := by
  refine h.memory (fun i hi => hm i (Or.inl hi)) fun t i hd ht => hm i (Or.inr ?_)
  have hown : (c.call t).owned? = some i := by rw [ht]; rfl
  exact ⟨h.mem_out_of_owned hown, h.owners.not_held t i hown⟩

/-- A call that attempts an exchange in time and finds the head that it saw found it untouched. -/
theorem untouched (h : Inv g c free) {t : ι} {spurious : Bool}
    (hp : c.Prompt (.go t spurious)) (ha : (c.call t).attempts)
    (hs : SeenAt c.shared c.log.length (c.seen t) c.shared.head) : c.seen t = c.log.length :=
  hs.current h.generation rfl (hp ha)

/-- A thread that is between two calls has no slot in the hands of a call. -/
theorem owned_of_isDone {x : Call} (hx : x.isDone) : x.owned? = none := by
  cases x <;> first | rfl | cases hx

/-- The holder of a slot writes one of its bytes. -/
theorem writeHeld (h : Inv g c free) (hg : g.Sound) {slot : UInt32} {k : ℕ} {v : UInt8}
    (hslot : slot ∈ c.held) (hk : k < g.slotSize) :
    Inv g { c with shared.memory := c.shared.memory.store (g.place slot + k) v } free := by
  refine h.write fun i hi => ?_
  -- a held slot is neither free nor in the hands of a call
  have hne : i ≠ slot := by
    rintro rfl
    rcases hi with hfree | ⟨-, hnot⟩
    · exact h.not_mem_out hg hfree (h.owners.mem_of_held hslot)
    · exact hnot hslot
  refine load32_eq_of_other_slot hg (fun a ha => ?_) hne
  rw [Memory.load_store, if_neg (by omega)]

/-- Somebody writes a byte outside the pool. -/
theorem writeElsewhere (h : Inv g c free) (hg : g.Sound) {a : ℕ} {v : UInt8}
    (ha : a < g.base ∨ g.base + g.capacity * g.slotSize ≤ a) :
    Inv g { c with shared.memory := c.shared.memory.store a v } free := by
  refine h.write fun i hi => ?_
  have hmem : i ∈ free ++ c.out := List.mem_append.2 (hi.imp id And.left)
  have hend := Slots.place_add_le_end (h.lt_capacity hg hmem)
  have hbase := g.base_le_place i
  have hline := hg.line_le
  unfold cacheLine at hline
  refine Memory.load32_congr fun b _ _ => ?_
  rw [Memory.load_store, if_neg (by omega)]

variable [DecidableEq ι]

theorem owned_update (call : ι → Call) (t : ι) (x : Call) :
    (fun u => (Function.update call t x u).owned?) =
      Function.update (fun u => (call u).owned?) t x.owned? := by
  funext u
  rcases eq_or_ne u t with rfl | hne
  · rw [Function.update_self, Function.update_self]
  · rw [Function.update_of_ne hne, Function.update_of_ne hne]

/-- The calls after one of them has changed, when the others keep what they know. -/
theorem calls_update {s : Shared} {n : ℕ} {call : ι → Call} {v : ι → ℕ} {t : ι} {x : Call}
    {k : ℕ} (hx : x.Valid g s n k) (hothers : ∀ u, u ≠ t → (call u).Valid g s n (v u)) (u : ι) :
    (Function.update call t x u).Valid g s n (Function.update v t k u) := by
  rcases eq_or_ne u t with rfl | hne
  · rw [Function.update_self, Function.update_self]
    exact hx
  · rw [Function.update_of_ne hne, Function.update_of_ne hne]
    exact hothers u hne

/-- A call goes on with the same slot in its hands, and at most a counter changes. -/
theorem quiet (h : Inv g c free) {t : ι} {x : Call} {k : ℕ} {n : Counters}
    (howned : x.owned? = (c.call t).owned?)
    (hvalid : x.Valid g { c.shared with counters := n } c.log.length k) :
    Inv g { c with
      shared.counters := n
      call := Function.update c.call t x
      seen := Function.update c.seen t k } free where
  linked := h.linked
  replayed := h.replayed
  generation := h.generation
  slots := h.slots
  owners := by
    have he := owned_update c.call t x
    rw [howned, Function.update_eq_self] at he
    exact he ▸ h.owners
  calls := calls_update hvalid fun u _ =>
    (h.calls u).congr rfl (fun _ => rfl) fun _ _ _ => rfl

/-- A call of which nothing is asked any more has exchanged the head. -/
theorem exchange (h : Inv g c free) {t : ι} {x : Exchange} {next : Call} {index : UInt32}
    {free' : List UInt32} (hmade : next.made? = some x) (hnext : ∀ s n k, next.Valid g s n k)
    (hhand : (c.call t).handed? = none) (hlinked : Linked g c.shared.memory index free')
    (happly : x.apply free = some free')
    (hslots : (free' ++ Exchange.settle c.out x).Perm (free ++ c.out))
    (howners : Owners c.held (Function.update (fun u => (c.call u).owned?) t next.owned?)
      (Exchange.settle c.out x)) :
    Inv g (c.advance t (c.shared.exchanged index) next) free' where
  linked := hlinked
  replayed := by
    rw [exchanges_advance, hmade]
    exact (replay_concat _ _ x).trans (by rw [h.replayed]; exact happly)
  generation := by
    rw [length_log_advance c t _ hmade, UInt32.ofNat_add]
    exact congrArg (· + 1) h.generation
  slots := by
    rw [out_advance c t _ hmade]
    exact hslots.trans h.slots
  owners := by
    rw [held_advance c hhand, out_advance c t _ hmade]
    exact owned_update c.call t next ▸ howners
  calls u := by
    rw [length_log_advance c t _ hmade]
    rcases eq_or_ne u t with rfl | hne
    · rw [call_advance_self]
      exact hnext _ _ _
    · -- whatever another call has seen is stale now
      rw [call_advance_of_ne c hne, seen_advance_of_ne c hne]
      exact (h.calls u).stale (Nat.lt_succ_self _) rfl

/-- The first free slot is taken. -/
theorem pop (h : Inv g c free) (hg : g.Sound) {t : ι} {spurious : Bool} {next : UInt32}
    (hp : c.Prompt (.go t spurious)) (ht : c.call t = .acquireLinked c.shared.head next) :
    ∃ rest, Inv g (c.advance t (c.shared.exchanged next) (.acquireWon c.shared.head.index))
      rest := by
  have hvalid := h.calls t
  rw [ht] at hvalid
  obtain ⟨hseen, hne, hnext⟩ := hvalid
  -- the link that was read is still the link of the first free slot
  have hlink := hnext (h.untouched hp (by rw [ht]; rfl) hseen)
  obtain ⟨rest, rfl, hrest⟩ := h.linked.exists_cons hne
  have hnone : (c.call t).owned? = none := by rw [ht]; rfl
  have hnot : c.shared.head.index ∉ c.out := h.not_mem_out hg List.mem_cons_self
  refine ⟨rest, h.exchange rfl (fun _ _ _ => trivial) (by rw [ht]; rfl) ?_ ?_ ?_ ?_⟩
  · rw [hlink]
    exact hrest
  · simp [Exchange.apply]
  · exact List.perm_middle
  · exact h.owners.pop hnone hnot

/-- A slot is given back. -/
theorem push (h : Inv g c free) (hg : g.Sound) {t : ι} {i : UInt32}
    (ht : c.call t = .releaseLinked i c.shared.head) :
    Inv g (c.advance t (c.shared.exchanged i) (.releaseWon i)) (i :: free) := by
  have hvalid := h.calls t
  rw [ht] at hvalid
  have hown : (c.call t).owned? = some i := by rw [ht]; rfl
  have hout := h.mem_out_of_owned hown
  have hlt := h.lt_capacity hg (List.mem_append_right free hout)
  refine h.exchange rfl (fun _ _ _ => trivial) (by rw [ht]; rfl) ?_ rfl ?_ ?_
  · -- the call has linked the slot to the head that it finds
    refine ⟨rfl, ne_nil_of_lt hg.capacity_le hlt, ?_⟩
    rw [hvalid.2]
    exact h.linked
  · exact List.perm_middle.symm.trans
      (List.Perm.append_left free (List.perm_cons_erase hout).symm)
  · exact h.owners.push (h.nodup hg).of_append_right hown

/-- A slot in the hands of a call is linked to the head that the call saw. -/
theorem link (h : Inv g c free) (hg : g.Sound) {t : ι} {i : UInt32} {hd : Head} {m : Memory}
    (ht : c.call t = .releaseSeen i hd) (hlink : m.load32 (g.place i) = hd.index)
    (hother : ∀ j, j ≠ i → m.load32 (g.place j) = c.shared.memory.load32 (g.place j)) :
    Inv g (c.advance t { c.shared with memory := m } (.releaseLinked i hd)) free := by
  have hown : (c.call t).owned? = some i := by rw [ht]; rfl
  have hmem : Inv g { c with shared.memory := m } free := by
    refine h.memory (fun j hj => hother j ?_) fun u j hd' hu => hother j ?_
    · rintro rfl
      exact h.not_mem_out hg hj (h.mem_out_of_owned hown)
    · -- another call cannot have the slot too
      rintro rfl
      have hut : u = t := h.owners.unique u t j (by rw [hu]; rfl) hown
      rw [hut, ht] at hu
      cases hu
  have hvalid := h.calls t
  rw [ht] at hvalid
  have hquiet := hmem.quiet (t := t) (x := .releaseLinked i hd) (k := c.seen t)
    (n := c.shared.counters) hown.symm ⟨SeenAt.congr hvalid rfl, hlink⟩
  have he : c.advance t { c.shared with memory := m } (.releaseLinked i hd) = { c with
      shared.memory := m
      call := Function.update c.call t (.releaseLinked i hd)
      seen := Function.update c.seen t (c.seen t) } := by
    simp [advance, ht, Call.handed?, Call.made?, Call.looks, Call.attempts]
  rw [he]
  exact hquiet

/-- A call hands the slot that it has taken to its caller. -/
theorem hand (h : Inv g c free) {t : ι} {i : UInt32} {counters : Counters}
    (ht : c.call t = .acquireWon i) :
    Inv g (c.advance t { c.shared with counters } (.acquired i)) free := by
  have he : c.advance t { c.shared with counters } (.acquired i) = { c with
      shared.counters := counters
      call := Function.update c.call t (.acquired i)
      held := i :: c.held } := by
    simp [advance, ht, Call.handed?, Call.made?, Call.looks, Call.attempts]
  rw [he]
  exact
    { linked := h.linked
      replayed := h.replayed
      generation := h.generation
      slots := h.slots
      owners := by
        show Owners (i :: c.held) (fun u => (Function.update c.call t (.acquired i) u).owned?) _
        rw [owned_update]
        exact h.owners.hand (by rw [ht]; rfl)
      calls := by
        have hcalls := calls_update (x := .acquired i) (t := t) (k := c.seen t)
          (g := g) (s := { c.shared with counters }) (n := c.log.length) (v := c.seen) trivial
          fun u _ => (h.calls u).congr rfl (fun _ => rfl) fun _ _ _ => rfl
        rw [Function.update_eq_self] at hcalls
        exact hcalls }

/-- **One step of a call preserves the invariant.** -/
theorem go (h : Inv g c free) (hg : g.Sound) {t : ι} {spurious : Bool}
    (hp : c.Prompt (.go t spurious)) : ∃ free', Inv g (c.go g t spurious) free' := by
  have ho := Call.step_outcome g spurious c.shared (c.call t)
  show ∃ free', Inv g (c.advance t ((c.call t).step g spurious c.shared).1
    ((c.call t).step g spurious c.shared).2) free'
  generalize ((c.call t).step g spurious c.shared).1 = s at ho ⊢
  generalize ((c.call t).step g spurious c.shared).2 = next at ho ⊢
  generalize ht : c.call t = x at ho
  cases ho with
  | quiet howned hmade hhanded hvalid =>
    rename_i counters
    have he : c.advance t { c.shared with counters } next = { c with
        shared.counters := counters
        call := Function.update c.call t next
        seen := Function.update c.seen t (if x.looks then c.log.length else c.seen t) } := by
      cases hl : x.looks <;> simp [advance, ht, hhanded, hmade, hl]
    rw [he]
    have hcall := h.calls t
    rw [ht] at hcall
    exact ⟨free, h.quiet (by rw [ht, howned]) (hvalid _ _ h.generation hcall)⟩
  | hand => exact ⟨free, h.hand ht⟩
  | link =>
    exact ⟨free, h.link hg ht (Memory.load32_store32 _ _ _) fun j hj =>
      load32_eq_of_other_slot hg (load_store32_of_other_slot hg _ _ _) hj⟩
  | pop => exact h.pop hg hp ht
  | push => exact ⟨_, h.push hg ht⟩

/-- A thread begins to take a slot. -/
theorem take (h : Inv g c free) {t : ι} (ht : (c.call t).isDone) :
    Inv g { c with call := Function.update c.call t .acquire } free := by
  have hq := h.quiet (t := t) (x := .acquire) (k := c.seen t) (n := c.shared.counters)
    (owned_of_isDone ht).symm trivial
  rw [Function.update_eq_self] at hq
  exact hq

/-- A thread begins to give a held slot back. -/
theorem give (h : Inv g c free) {t : ι} {slot : UInt32} (ht : (c.call t).isDone)
    (hslot : slot ∈ c.held) :
    Inv g { c with
      call := Function.update c.call t (.release slot)
      held := c.held.erase slot } free where
  linked := h.linked
  replayed := h.replayed
  generation := h.generation
  slots := h.slots
  owners := by
    show Owners (c.held.erase slot) (fun u => (Function.update c.call t (.release slot) u).owned?) _
    rw [owned_update]
    exact h.owners.give (owned_of_isDone ht) hslot
  calls := by
    have hcalls := calls_update (x := .release slot) (t := t) (k := c.seen t) (g := g)
      (s := c.shared) (n := c.log.length) (v := c.seen) trivial fun u _ => h.calls u
    rw [Function.update_eq_self] at hcalls
    exact hcalls

/-- **Every prompt event preserves the invariant.** -/
theorem step (h : Inv g c free) (hg : g.Sound) {e : Event ι} (hp : c.Prompt e) :
    ∃ free', Inv g (c.step g e) free' := by
  cases e with
  | take t =>
    rw [Crew.step]
    split_ifs with hd
    · exact ⟨free, h.take hd⟩
    · exact ⟨free, h⟩
  | give t slot =>
    rw [Crew.step]
    split_ifs with hd
    · exact ⟨free, h.give hd.1 hd.2⟩
    · exact ⟨free, h⟩
  | go t spurious => exact h.go hg hp
  | write slot k v =>
    rw [Crew.step]
    split_ifs with hw
    · exact ⟨free, h.writeHeld hg hw.1 hw.2⟩
    · exact ⟨free, h⟩
  | elsewhere a v =>
    rw [Crew.step]
    split_ifs with ha
    · exact ⟨free, h.writeElsewhere hg ha⟩
    · exact ⟨free, h⟩

end Inv

/-- The invariant holds when nobody has asked for anything yet. -/
theorem inv_linked {p : Pool} {m : Memory} (h : Linked p.slots m p.head.index (numbers p.capacity))
    (hgeneration : p.head.generation = 0) :
    Inv p.slots (start (p.shared m) : Crew ι) (numbers p.capacity) where
  linked := h
  replayed := rfl
  generation := hgeneration
  slots := by
    show (numbers p.capacity ++ []).Perm _
    rw [List.append_nil]
    exact List.Perm.refl _
  owners := Owners.none
  calls := fun _ => trivial

theorem inv_start {p : Pool} {m : Memory} (h : New p m) :
    Inv p.slots (start (p.shared m) : Crew ι) (numbers p.capacity) := by
  obtain ⟨shape, m₀, hb⟩ := h.built
  exact inv_linked hb.linked (congrArg Head.generation hb.head_eq)

/-! ### What is promised -/

/-- What is promised of every state of threads that share a pool. -/
structure Conserved (g : Slots) (c : Crew ι) : Prop where
  /-- The links lead from the head through the free slots and then to the end marker. -/
  linked : Linked g c.shared.memory c.shared.head.index (c.shared.freeSlots g)
  distinct : (c.shared.freeSlots g).Nodup
  below : ∀ i ∈ c.shared.freeSlots g, i.toNat < g.capacity
  /-- The free slots and those popped and not yet pushed back are all slots, each of them once. -/
  whole : (c.shared.freeSlots g ++ c.out).Perm (numbers g.capacity)
  /-- A slot that is popped and not yet pushed back is in exactly one pair of hands. -/
  exclusive : Owners c.held (fun t => (c.call t).owned?) c.out
  /-- When no call is under way the free slots and the held ones are as many as the slots. -/
  quiescent : (∀ t, (c.call t).isDone) →
    (c.shared.freeSlots g).length + c.held.length = g.capacity

theorem Inv.freeSlots_eq {g : Slots} {c : Crew ι} {free : List UInt32} (h : Inv g c free) :
    c.shared.freeSlots g = free := by
  refine h.linked.freeSlots_eq ?_
  have hlen := h.slots.length_eq
  rw [List.length_append, length_numbers] at hlen
  omega

/-- While no call is under way the slots that are out are the held ones. -/
theorem Inv.out_perm_held {g : Slots} {c : Crew ι} {free : List UInt32} (h : Inv g c free)
    (hg : g.Sound) (hdone : ∀ t, (c.call t).isDone) : c.out.Perm c.held := by
  refine (List.perm_ext_iff_of_nodup (h.nodup hg).of_append_right h.owners.held_nodup).2 fun i => ?_
  rw [h.owners.mem_out]
  refine ⟨?_, Or.inl⟩
  rintro (hi | ⟨t, ht⟩)
  · exact hi
  · rw [Inv.owned_of_isDone (hdone t)] at ht
    cases ht

theorem Inv.conserved {g : Slots} {c : Crew ι} {free : List UInt32} (h : Inv g c free)
    (hg : g.Sound) : Conserved g c where
  linked := h.freeSlots_eq ▸ h.linked
  distinct := h.freeSlots_eq ▸ (h.nodup hg).of_append_left
  below i hi := h.lt_capacity hg (List.mem_append_left _ (h.freeSlots_eq ▸ hi))
  whole := h.freeSlots_eq ▸ h.slots
  exclusive := h.owners
  quiescent hdone := by
    have hlen := h.slots.length_eq
    rw [List.length_append, length_numbers, (h.out_perm_held hg hdone).length_eq] at hlen
    rw [h.freeSlots_eq, hlen]

/-! ### Runs -/

variable [DecidableEq ι]

/-- **The invariant holds after every timely run.** -/
theorem Inv.run (h : Inv g c free) (hg : g.Sound) {es : List (Event ι)} (ht : Timely g c es) :
    ∃ free', Inv g (Crew.run g c es) free' := by
  refine ht.invariant (motive := fun c => ∃ free, Inv g c free) ?_ ⟨_, h⟩
  rintro c e ⟨free, hinv⟩ hp
  exact hinv.step hg hp

theorem inv_run {p : Pool} {m : Memory} (h : New p m) {es : List (Event ι)}
    (ht : Timely p.slots (start (p.shared m)) es) :
    ∃ free, Inv p.slots (run p.slots (start (p.shared m)) es) free := by
  obtain ⟨shape, m₀, hb⟩ := h.built
  exact (inv_start h).run hb.sound ht

/-- **No interleaving loses or duplicates a slot**: whatever any number of threads do with a new
pool, in whatever order their steps come, the free list stays whole and every slot that is out is in
exactly one pair of hands. -/
theorem conserved_run {p : Pool} {m : Memory} (h : New p m) {es : List (Event ι)}
    (ht : Timely p.slots (start (p.shared m)) es) :
    Conserved p.slots (run p.slots (start (p.shared m)) es) := by
  obtain ⟨shape, m₀, hb⟩ := h.built
  obtain ⟨free, hinv⟩ := inv_run h ht
  exact hinv.conserved hb.sound

/-- Two threads at a pool of two slots. The first one sees slot 0 and its link; then the second one
takes both slots and gives slot 0 back, so that the head shows slot 0 again; then the first one
attempts its exchange. -/
def overtaken : List (Event Bool) :=
  [.take false, .go false false, .go false false,
    .take true, .go true false, .go true false, .go true false, .go true false,
    .take true, .go true false, .go true false, .go true false, .go true false,
    .write 0 0 7, .give true 0, .go true false, .go true false, .go true false, .go true false,
    .go false false]

theorem conserved_overtaken :
    New twoSlots (linkSlots twoSlots.slots .zero) ∧ Timely twoSlots.slots pair overtaken ∧
      (run twoSlots.slots pair overtaken).held = [1] ∧
      (run twoSlots.slots pair overtaken).call false = .acquireLost ⟨0, 3⟩ ∧
      Conserved twoSlots.slots (run twoSlots.slots pair overtaken) :=
  ⟨new_twoSlots, timely_of_lt (by decide), by decide, by decide,
    conserved_run new_twoSlots (timely_of_lt (by decide))⟩

end Crew
end Slab.Pool
