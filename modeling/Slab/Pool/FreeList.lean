import Slab.Memory
import Slab.Pool.Counters
import Slab.Pool.Layout

/-!
# The free list of a pool

The free slots of a pool are a list: the head is the number of the first free slot, and the first
four bytes of every free slot hold the number of the next one. Whoever takes or gives back a slot
exchanges the head, with a generation number beside it that every exchange raises, so that an
exchange succeeds only if no other one happened since the head was seen.

* `Head`, `Slots`, `Shared`: the head, where the slots lie, what all threads share;
* `Head.pack`, `Head.unpack`: the head as the one word that an exchange compares, with `pack_inj`;
* `Call`, `Call.step`: a call between two of its steps, and one step, which touches what is shared
  at most once;
* `Shared.acquire`, `Shared.release`: a call that nobody interferes with;
* `linkSlots`, `chain`: setting up the links, and following them.

The first four bytes of a slot that is out belong to its holder.
-/

namespace Slab.Pool

/-- The number of the first free slot and the number of exchanges so far. -/
@[ext]
structure Head where
  index : UInt32
  generation : UInt32
  deriving DecidableEq, Repr, Inhabited

namespace Head

/-- The head as one word, the generation above the index. -/
def pack (h : Head) : UInt64 := (h.generation.toUInt64 <<< 32) ||| h.index.toUInt64

/-- The head that a word holds. -/
def unpack (w : UInt64) : Head := ⟨w.toUInt32, (w >>> 32).toUInt32⟩

theorem unpack_pack (h : Head) : unpack h.pack = h := by
  have h32 : (32 : UInt64).toBitVec % 64 = 32#64 := rfl
  have hindex : h.pack.toUInt32 = h.index := by
    apply UInt32.toBitVec_inj.mp
    apply BitVec.eq_of_getLsbD_eq
    intro i hi
    simp only [pack, UInt64.toBitVec_toUInt32, UInt64.toBitVec_or, UInt64.toBitVec_shiftLeft,
      UInt32.toBitVec_toUInt64, BitVec.getLsbD_setWidth, BitVec.getLsbD_or, h32,
      BitVec.shiftLeft_eq', BitVec.getLsbD_shiftLeft]
    grind
  have hgeneration : (h.pack >>> 32).toUInt32 = h.generation := by
    apply UInt32.toBitVec_inj.mp
    apply BitVec.eq_of_getLsbD_eq
    intro i hi
    simp only [pack, UInt64.toBitVec_toUInt32, UInt64.toBitVec_or, UInt64.toBitVec_shiftLeft,
      UInt64.toBitVec_shiftRight, UInt32.toBitVec_toUInt64, BitVec.getLsbD_setWidth,
      BitVec.getLsbD_or, h32, BitVec.shiftLeft_eq', BitVec.getLsbD_shiftLeft,
      BitVec.ushiftRight_eq', BitVec.getLsbD_ushiftRight]
    grind
  rw [unpack, hindex, hgeneration]

theorem pack_unpack (w : UInt64) : (unpack w).pack = w := by
  have h32 : (32 : UInt64).toBitVec % 64 = 32#64 := rfl
  apply UInt64.toBitVec_inj.mp
  apply BitVec.eq_of_getLsbD_eq
  intro i hi
  simp only [pack, unpack, UInt64.toBitVec_toUInt32, UInt64.toBitVec_or, UInt64.toBitVec_shiftLeft,
    UInt64.toBitVec_shiftRight, UInt32.toBitVec_toUInt64, BitVec.getLsbD_setWidth,
    BitVec.getLsbD_or, h32, BitVec.shiftLeft_eq', BitVec.getLsbD_shiftLeft,
    BitVec.ushiftRight_eq', BitVec.getLsbD_ushiftRight]
  -- a bit comes from the index below bit 32 and from the generation above
  grind

/-- To compare the words is to compare index and generation. -/
theorem pack_inj {h h' : Head} : h.pack = h'.pack ↔ h = h' := by
  refine ⟨fun he => ?_, congrArg pack⟩
  rw [← unpack_pack h, he, unpack_pack]

end Head

/-- Where the slots lie in memory. -/
structure Slots where
  /-- The place of the first slot. -/
  base : Nat
  slotSize : Nat
  capacity : Nat
  deriving DecidableEq, Repr

/-- The place of a slot. -/
def Slots.place (g : Slots) (index : UInt32) : Nat := g.base + index.toNat * g.slotSize

/-- What the threads that use a pool share. -/
structure Shared where
  head : Head
  counters : Counters
  memory : Memory

/-- A call between two of its steps. -/
inductive Call
  /-- About to see the head, to take a slot. -/
  | acquire
  /-- The head has been seen; about to read the link of its slot, or to count that there is none. -/
  | acquireSeen (head : Head)
  /-- The link has been read; about to exchange the head. -/
  | acquireLinked (head : Head) (next : UInt32)
  /-- The exchange failed and showed another head; about to count that. -/
  | acquireLost (head : Head)
  /-- The exchange succeeded; about to count that. -/
  | acquireWon (index : UInt32)
  /-- A slot was taken. -/
  | acquired (index : UInt32)
  /-- There was no free slot. -/
  | exhausted
  /-- About to see the head, to give a slot back. -/
  | release (index : UInt32)
  /-- The head has been seen; about to link the slot to it. -/
  | releaseSeen (index : UInt32) (head : Head)
  /-- The slot has been linked; about to exchange the head. -/
  | releaseLinked (index : UInt32) (head : Head)
  /-- The exchange failed and showed another head; about to count that. -/
  | releaseLost (index : UInt32) (head : Head)
  /-- The exchange succeeded; about to count that. -/
  | releaseWon (index : UInt32)
  /-- The slot was given back. -/
  | released
  deriving DecidableEq, Repr

namespace Call

/-- One step of a call. `spurious` says that an exchange that could succeed fails nevertheless. -/
def step (g : Slots) (spurious : Bool) (s : Shared) : Call → Shared × Call
  | acquire => (s, acquireSeen s.head)
  | acquireSeen head =>
    if head.index = nil then
      ({ s with counters.exhausted := s.counters.exhausted + 1 }, exhausted)
    else (s, acquireLinked head (s.memory.load32 (g.place head.index)))
  | acquireLinked head next =>
    if s.head = head ∧ spurious = false then
      ({ s with head := ⟨next, head.generation + 1⟩ }, acquireWon head.index)
    else (s, acquireLost s.head)
  | acquireLost head =>
    ({ s with counters.contended := s.counters.contended + 1 }, acquireSeen head)
  | acquireWon index =>
    ({ s with counters.acquired := s.counters.acquired + 1 }, acquired index)
  | acquired index => (s, acquired index)
  | exhausted => (s, exhausted)
  | release index => (s, releaseSeen index s.head)
  | releaseSeen index head =>
    ({ s with memory := s.memory.store32 (g.place index) head.index }, releaseLinked index head)
  | releaseLinked index head =>
    if s.head = head ∧ spurious = false then
      ({ s with head := ⟨index, head.generation + 1⟩ }, releaseWon index)
    else (s, releaseLost index s.head)
  | releaseLost index head =>
    ({ s with counters.contended := s.counters.contended + 1 }, releaseSeen index head)
  | releaseWon _ =>
    ({ s with counters.released := s.counters.released + 1 }, released)
  | released => (s, released)

/-- The slot of a call that has taken one. -/
def slot? : Call → Option UInt32
  | acquired index => some index
  | _ => none

/-- Whether a call has ended. -/
def isDone : Call → Bool
  | acquired _ | exhausted | released => true
  | _ => false

/-- So many steps of a call, with nobody interfering. -/
def alone (g : Slots) : Nat → Shared → Call → Shared × Call
  | 0, s, c => (s, c)
  | n + 1, s, c =>
    let (s, c) := step g false s c
    alone g n s c

end Call

/-- Takes the first free slot, if there is one. -/
def Shared.acquire (g : Slots) (s : Shared) : Shared × Option UInt32 :=
  let (s, c) := Call.alone g 4 s .acquire
  (s, c.slot?)

/-- Gives a slot back, which becomes the first free one. -/
def Shared.release (g : Slots) (s : Shared) (index : UInt32) : Shared :=
  (Call.alone g 4 s (.release index)).1

/-- The number after a slot in a new pool, which links every slot to the next one. -/
def nextOf (capacity index : Nat) : UInt32 :=
  if index + 1 = capacity then nil else UInt32.ofNat (index + 1)

/-- Links all slots in ascending order. -/
def linkSlots (g : Slots) (m : Memory) : Memory :=
  (List.range g.capacity).foldl
    (fun m i => m.store32 (g.place (UInt32.ofNat i)) (nextOf g.capacity i)) m

/-- The slots met from `index` on when following the links, `fuel` of them at most. -/
def chain (g : Slots) (m : Memory) : Nat → UInt32 → List UInt32
  | 0, _ => []
  | fuel + 1, index =>
    if index = nil then []
    else index :: chain g m fuel (m.load32 (g.place index))

/-- The slots of the free list, the first one first. -/
def Shared.freeSlots (g : Slots) (s : Shared) : List UInt32 :=
  chain g s.memory (g.capacity + 1) s.head.index

theorem Shared.acquire_of_nil (g : Slots) (s : Shared) (h : s.head.index = nil) :
    s.acquire g = ({ s with counters.exhausted := s.counters.exhausted + 1 }, none) := by
  simp [Shared.acquire, Call.alone, Call.step, Call.slot?, h]

theorem Shared.acquire_of_ne_nil (g : Slots) (s : Shared) (h : s.head.index ≠ nil) :
    s.acquire g =
      ({ s with
          head := ⟨s.memory.load32 (g.place s.head.index), s.head.generation + 1⟩
          counters.acquired := s.counters.acquired + 1 },
        some s.head.index) := by
  simp [Shared.acquire, Call.alone, Call.step, Call.slot?, h]

theorem Shared.release_eq (g : Slots) (s : Shared) (index : UInt32) :
    s.release g index =
      { s with
          head := ⟨index, s.head.generation + 1⟩
          counters.released := s.counters.released + 1
          memory := s.memory.store32 (g.place index) s.head.index } := by
  simp [Shared.release, Call.alone, Call.step]

end Slab.Pool
