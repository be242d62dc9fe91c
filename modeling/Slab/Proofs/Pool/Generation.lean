import Slab.Proofs.Pool.Crew

/-!
# The generation comes round

The generation beside the head is a word of 32 bits. Every exchange raises it, so `2 ^ 32` exchanges
later it is what it was, and whoever was shown the head before them cannot tell that there were any:
the exchange succeeds and puts a link in the place of the head that may long be out of date. This is
what `Crew.Timely` rules out.

* `Crew.takes`, `Crew.gives`, `Crew.cycles`: whole calls as events, with nobody interfering;
* `Crew.Unmoved`: two states that differ in the generation and the counters at most;
* `Crew.run_cycles`, `Crew.head_cycles`: taking a slot and giving it back again and again;
* `Crew.run_lapped`: what becomes of a thread that waits in the meantime;
* `lapped`: such a run on a pool of three slots.
-/

namespace Slab.Pool
namespace Crew

variable {ι : Type}

/-- A thread takes a slot, and nobody interferes. -/
def takes (t : ι) : List (Event ι) := .take t :: List.replicate 4 (.go t false)

/-- A thread gives a slot back, and nobody interferes. -/
def gives (t : ι) (slot : UInt32) : List (Event ι) :=
  .give t slot :: List.replicate 4 (.go t false)

/-- A thread takes the slot and gives it back, so many times. -/
def cycles (t : ι) (slot : UInt32) (n : ℕ) : List (Event ι) :=
  (List.replicate n (takes t ++ gives t slot)).flatten

theorem length_cycles (t : ι) (slot : UInt32) (n : ℕ) : (cycles t slot n).length = 10 * n := by
  simp [cycles, takes, gives, Nat.mul_comm]

/-- The same calls and held slots, and the same free list. -/
structure Unmoved (g : Slots) (c c' : Crew ι) : Prop where
  call : c'.call = c.call
  held : c'.held = c.held
  index : c'.shared.head.index = c.shared.head.index
  link : ∀ i, c'.shared.memory.load32 (g.place i) = c.shared.memory.load32 (g.place i)

variable {g : Slots} {c c' c'' : Crew ι}

theorem Unmoved.refl (g : Slots) (c : Crew ι) : Unmoved g c c := ⟨rfl, rfl, rfl, fun _ => rfl⟩

theorem Unmoved.trans (h : Unmoved g c c') (h' : Unmoved g c' c'') : Unmoved g c c'' where
  call := h'.call.trans h.call
  held := h'.held.trans h.held
  index := h'.index.trans h.index
  link i := (h'.link i).trans (h.link i)

variable [DecidableEq ι] {t u : ι} {i : UInt32}

theorem run_takes (hdone : (c.call t).isDone) (hne : c.shared.head.index ≠ nil) :
    (run g c (takes t)).shared = (c.shared.acquire g).1 ∧
      (run g c (takes t)).call = Function.update c.call t (.acquired c.shared.head.index) ∧
      (run g c (takes t)).held = c.shared.head.index :: c.held := by
  rw [Shared.acquire_of_ne_nil g _ hne]
  simp [takes, List.replicate, step, hdone, go, advance, Call.step, hne, Call.handed?]

theorem run_gives (hdone : (c.call t).isDone) (hi : i ∈ c.held) :
    (run g c (gives t i)).shared = c.shared.release g i ∧
      (run g c (gives t i)).call = Function.update c.call t .released ∧
      (run g c (gives t i)).held = c.held.erase i := by
  rw [Shared.release_eq]
  simp [gives, List.replicate, step, hdone, hi, go, advance, Call.step, Call.handed?]

/-- A slot that is taken and given back leaves the free list as it was. -/
theorem run_cycle (hg : g.Sound) (hcall : c.call t = .released) (hi : c.shared.head.index = i)
    (hne : i ≠ nil) :
    Unmoved g c (run g c (takes t ++ gives t i)) ∧
      (run g c (takes t ++ gives t i)).shared.head.generation =
        c.shared.head.generation + 2 := by
  subst hi
  obtain ⟨hshared, hcalls, hheld⟩ := run_takes (g := g) (c := c) (by rw [hcall]; rfl) hne
  rw [Shared.acquire_of_ne_nil g _ hne] at hshared
  rw [run_append]
  generalize run g c (takes t) = b at hshared hcalls hheld ⊢
  obtain ⟨hshared', hcalls', hheld'⟩ :=
    run_gives (g := g) (c := b) (t := t) (i := c.shared.head.index)
      (by rw [hcalls, Function.update_self]; rfl) (by rw [hheld]; exact List.mem_cons_self)
  rw [Shared.release_eq, hshared] at hshared'
  have hmemory : (run g b (gives t c.shared.head.index)).shared.memory =
      c.shared.memory.store32 (g.place c.shared.head.index)
        (c.shared.memory.load32 (g.place c.shared.head.index)) := by
    rw [hshared']
  refine ⟨⟨?_, ?_, ?_, fun j => ?_⟩, ?_⟩
  · rw [hcalls', hcalls, Function.update_idem, ← hcall, Function.update_eq_self]
  · rw [hheld', hheld, List.erase_cons_head]
  · rw [hshared']
  · -- the slot is linked to what it was linked to before
    rw [hmemory]
    by_cases hj : j = c.shared.head.index
    · rw [hj, Memory.load32_store32]
    · exact load32_eq_of_other_slot hg (load_store32_of_other_slot hg _ _ _) hj
  · rw [hshared']
    exact UInt32.add_assoc _ 1 1

/-- Every cycle raises the generation by two and leaves the free list as it was. -/
theorem run_cycles (hg : g.Sound) (hcall : c.call t = .released) (hi : c.shared.head.index = i)
    (hne : i ≠ nil) (n : ℕ) :
    Unmoved g c (run g c (cycles t i n)) ∧
      (run g c (cycles t i n)).shared.head.generation =
        c.shared.head.generation + UInt32.ofNat (2 * n) := by
  induction n generalizing c with
  | zero => exact ⟨.refl g c, (UInt32.add_zero _).symm⟩
  | succ n ih =>
    obtain ⟨hfirst, hraised⟩ := run_cycle hg hcall hi hne
    obtain ⟨hrest, hraised'⟩ := ih (hfirst.call ▸ hcall) (hfirst.index.trans hi)
    rw [cycles, List.replicate_succ, List.flatten_cons, run_append]
    refine ⟨hfirst.trans hrest, hraised'.trans ?_⟩
    rw [hraised, Nat.mul_succ, UInt32.ofNat_add, UInt32.add_assoc,
      UInt32.add_comm (UInt32.ofNat _)]
    rfl

/-- **After `2 ^ 32` exchanges the head is what it was.** -/
theorem head_cycles (hg : g.Sound) (hcall : c.call t = .released)
    (hne : c.shared.head.index ≠ nil) :
    (run g c (cycles t c.shared.head.index 2147483648)).shared.head = c.shared.head := by
  obtain ⟨hsame, hraised⟩ := run_cycles hg hcall rfl hne 2147483648
  have hround : UInt32.ofNat (2 * 2147483648) = 0 := by decide +kernel
  rw [hround, UInt32.add_zero] at hraised
  exact Head.ext hsame.index hraised

/-- A thread that has been shown the head as it is now takes its slot. -/
theorem run_won {next : UInt32} (hcall : c.call u = .acquireLinked c.shared.head next) :
    (run g c [.go u false, .go u false]).call =
        Function.update c.call u (.acquired c.shared.head.index) ∧
      (run g c [.go u false, .go u false]).held = c.shared.head.index :: c.held ∧
      (run g c [.go u false, .go u false]).shared.head.index = next ∧
      (run g c [.go u false, .go u false]).shared.memory = c.shared.memory := by
  simp [step, go, advance, hcall, Call.step, Call.handed?]

/-- **A link that is out of date comes into the place of the head**: while a thread waits to
exchange the head that it was shown, with the link that it read then, another thread brings the
generation round. The exchange succeeds, whatever the link of the slot is by now. -/
theorem run_lapped (hg : g.Sound) {h : Head} {next : UInt32} {n : ℕ}
    (hu : c.call u = .acquireLinked h next) (ht : c.call t = .released)
    (hi : c.shared.head.index = h.index) (hne : h.index ≠ nil)
    (hround : c.shared.head.generation + UInt32.ofNat (2 * n) = h.generation) :
    let c' := run g c (cycles t h.index n ++ [.go u false, .go u false])
    c'.call = Function.update c.call u (.acquired h.index) ∧ c'.held = h.index :: c.held ∧
      c'.shared.head.index = next ∧
      ∀ i, c'.shared.memory.load32 (g.place i) = c.shared.memory.load32 (g.place i) := by
  obtain ⟨hsame, hraised⟩ := run_cycles hg ht hi hne n
  dsimp only
  rw [run_append]
  generalize run g c (cycles t h.index n) = b at hsame hraised ⊢
  have hhead : b.shared.head = h := Head.ext (hsame.index.trans hi) (hraised.trans hround)
  have hwaits : b.call u = .acquireLinked b.shared.head next := by rw [hsame.call, hu, hhead]
  obtain ⟨hcalls, hheld, hindex, hmemory⟩ := run_won (g := g) hwaits
  refine ⟨?_, ?_, hindex, fun i => ?_⟩
  · rw [hcalls, hsame.call, hhead]
  · rw [hheld, hsame.held, hhead]
  · rw [hmemory]
    exact hsame.link i

end Crew

/-! ### Three slots -/

/-- A pool of three slots at the start of the memory. -/
def threeSlots : Pool where
  shape := ⟨8, 8⟩
  region := ⟨0, 0, 192⟩
  capacity := 3
  slotSize := 64
  head := ⟨0, 0⟩
  counters := {}

theorem new_threeSlots : New threeSlots (linkSlots threeSlots.slots .zero) := by
  have h : Pool.inRegion ⟨8, 8⟩ 3 8 ⟨0, 0, 192⟩ .zero =
    .ok (threeSlots, linkSlots threeSlots.slots .zero) := rfl
  exact .inRegion h

namespace Crew

/-- A thread is about to take slot 0 and has read the link to slot 1. The other thread takes all
three slots and gives slot 0 back. -/
def ahead : List (Event Bool) :=
  [.take true, .go true false, .go true false] ++ takes false ++ takes false ++ takes false ++
    gives false 0

/-- Then the other thread takes slot 0 and gives it back `n` times, and the waiting thread exchanges
the head. -/
def lapped (n : ℕ) : List (Event Bool) :=
  ahead ++ (cycles false 0 n ++ [.go true false, .go true false])

/-- Three slots and two threads that have done nothing yet. -/
def trio : Crew Bool := start (threeSlots.shared (linkSlots threeSlots.slots .zero))

/-- **A slot is held and free at once**: if the generation has come round by the time of the
exchange, all three slots are held in the end, and two of them are on the free list. -/
theorem run_lapped_trio {n : ℕ} (hround : 4 + UInt32.ofNat (2 * n) = 0) :
    (∀ t, ((run threeSlots.slots trio (lapped n)).call t).isDone) ∧
      (run threeSlots.slots trio (lapped n)).held = [0, 2, 1] ∧
      (run threeSlots.slots trio (lapped n)).shared.freeSlots threeSlots.slots = [1, 2] := by
  obtain ⟨_, _, hb⟩ := new_threeSlots.built
  have hu : (run threeSlots.slots trio ahead).call true = .acquireLinked ⟨0, 0⟩ 1 := by
    decide +kernel
  have ht : (run threeSlots.slots trio ahead).call false = .released := by decide +kernel
  have hhead : (run threeSlots.slots trio ahead).shared.head = ⟨0, 4⟩ := by decide +kernel
  have hheld : (run threeSlots.slots trio ahead).held = [2, 1] := by decide +kernel
  have hone : (run threeSlots.slots trio ahead).shared.memory.load32 (threeSlots.slots.place 1) =
      2 := by decide +kernel
  have htwo : (run threeSlots.slots trio ahead).shared.memory.load32 (threeSlots.slots.place 2) =
      nil := by decide +kernel
  rw [lapped, run_append]
  generalize run threeSlots.slots trio ahead = c at hu ht hhead hheld hone htwo
  obtain ⟨hcalls, hheld', hindex, hlink⟩ := run_lapped hb.sound hu ht
    (by rw [hhead]) (by decide) (by rw [hhead]; exact hround)
  refine ⟨?_, ?_, ?_⟩
  · rw [hcalls]
    rintro (_ | _)
    · rw [Function.update_of_ne (by decide), ht]
      rfl
    · rw [Function.update_self]
      rfl
  · rw [hheld', hheld]
  · have hpath : Linked threeSlots.slots _ _ [1, 2] :=
      ⟨hindex, by decide, (hlink 1).trans hone, by decide, (hlink 2).trans htwo⟩
    exact hpath.freeSlots_eq (by decide)

end Crew
end Slab.Pool
