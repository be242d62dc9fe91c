import Slab.Payload.Element
import Slab.Proofs.Arena.Construction
import Slab.Settings.Footprint
import Slab.Settings.Reservation

/-!
# The footprint foretells the pool

Whether the slots of settings fit is decided twice: before anything is reserved, from the numbers in
the settings alone, and by the constructor of the pool, on the arena. The first decision cuts a
product that no machine word holds off at the largest size, the second finds it out and names the
largest size in its error.

* `poolOn`: the pool that settings ask for, for elements of any shape;
* `slotBytes_eq_ok`: both decisions count with slots of the same size;
* `SameVerdict`: two verdicts that say the same, down to the numbers in an error;
* `checkFootprint_agrees`: **the two decisions are the same** on a new arena.
-/

namespace Slab.Footprint

variable {host : Host} {s : Settings} {shape : Shape} {a : Arena}

/-- The pool for elements of a shape that settings ask for, on an arena. -/
def poolOn (s : Settings) (shape : Shape) (a : Arena) : Except PoolError (Pool × Arena) :=
  match s.pool.slotSize with
  | some n => Pool.withSlotSize shape s.pool.capacity.toNat n.toNat a
  | none => Pool.new shape s.pool.capacity.toNat a

theorem poolOn_eq (s : Settings) (shape : Shape) (a : Arena) :
    poolOn s shape a = Pool.withSlotSize shape s.pool.capacity.toNat
      ((s.pool.slotSize.map UInt64.toNat).getD shape.size) a := by
  unfold poolOn
  cases s.pool.slotSize <;> rfl

/-- The two computations of the size of a slot agree wherever the constructor gets to its own. -/
theorem slotBytes_eq_ok (halign : shape.align ≤ cacheLine) (hpos : 0 < s.pool.capacity.toNat)
    (hcap : s.pool.capacity.toNat ≤ Pool.nil.toNat)
    (hslot : s.pool.slotBytes shape.size < Size.limit) :
    Pool.slotBytes shape s.pool.capacity.toNat
        ((s.pool.slotSize.map UInt64.toNat).getD shape.size) =
      .ok (s.pool.slotBytes shape.size) := by
  have hround := Size.roundUp?_eq_some_iff.2 ⟨rfl, hslot⟩
  unfold Pool.slotBytes
  rw [if_neg (by omega), if_neg (by omega), if_neg (by omega)]
  split
  · rename_i n hn
    exact congrArg Except.ok (Option.some.inj (hn.symm.trans hround))
  · rename_i hn
    cases hn.symm.trans hround

/-- A verdict on the slots of settings before an arena of `available` bytes is built, and that of
the constructor on the arena. -/
inductive SameVerdict (s : Settings) (element available : ℕ) :
    Except FootprintError Unit → Except PoolError (Pool × Arena) → Prop
  /-- The slots fit, and are as many and as large as the settings say. -/
  | fits {p : Pool} {a : Arena}
      (hfit : s.pool.capacity.toNat * s.pool.slotBytes element ≤ available)
      (hslot : p.slotSize = s.pool.slotBytes element)
      (hfoot : p.footprintBytes = s.pool.capacity.toNat * s.pool.slotBytes element) :
      SameVerdict s element available (.ok ()) (.ok (p, a))
  /-- They do not, and both errors name the same numbers. -/
  | exceeds {required : ℕ}
      (hfull : available < s.pool.capacity.toNat * s.pool.slotBytes element)
      (hreq : required = Size.satMul s.pool.capacity.toNat (s.pool.slotBytes element)) :
      SameVerdict s element available (.error ⟨required, available⟩)
        (.error (.capacityExceedsArena required available))

/-- The check compares the bytes of the slots with those of the arena. -/
theorem checkFootprint_eq {element : ℕ} (ha : Arena.build host s.arenaOptions = .ok a) :
    s.checkFootprint element =
      if a.size < s.pool.capacity.toNat * s.pool.slotBytes element then
        .error ⟨Size.satMul s.pool.capacity.toNat (s.pool.slotBytes element), a.size⟩
      else .ok () := by
  have hsize : Size.satRoundUp pageSize s.arena.sizeBytes.toNat = a.size := by
    rw [Size.satRoundUp, show Size.roundUp? pageSize s.arena.sizeBytes.toNat = some a.size from
      (Arena.build_eq_ok ha).1, Option.getD_some]
  have hpage : a.size < Size.largest := Arena.size_lt_largest_of_build ha
  have hiff : a.size < Size.satMul s.pool.capacity.toNat (s.pool.slotBytes element) ↔
      a.size < s.pool.capacity.toNat * s.pool.slotBytes element := by
    rw [Size.satMul]
    omega
  unfold Settings.checkFootprint
  dsimp only
  rw [hsize]
  simp only [hiff]

/-- **The check before the arena is built and the constructor of the pool on it decide the same.**
-/
theorem checkFootprint_agrees (halign : shape.align ≤ cacheLine)
    (hpos : 0 < s.pool.capacity.toNat) (hcap : s.pool.capacity.toNat < UInt32.size)
    (hslot : s.pool.slotBytes shape.size < Size.limit)
    (ha : Arena.build host s.arenaOptions = .ok a) :
    SameVerdict s shape.size a.size (s.checkFootprint shape.size) (poolOn s shape a) := by
  have hs := slotBytes_eq_ok halign hpos (Nat.le_sub_one_of_lt hcap) hslot
  have hcursor : a.cursor = 0 := (Arena.build_eq_ok ha).2.2
  have hremaining : a.remaining = a.size := by rw [Arena.remaining, Arena.reserved, hcursor]; rfl
  rw [checkFootprint_eq ha, poolOn_eq]
  split_ifs with hfull
  · rw [Pool.withSlotSize_eq_error hs (by rwa [hremaining]), hremaining]
    exact .exceeds hfull rfl
  · have hlt : s.pool.capacity.toNat * s.pool.slotBytes shape.size < Size.limit :=
      Nat.lt_of_le_of_lt (Nat.le_of_not_lt hfull) (Arena.size_lt_of_build ha)
    have hfit : a.cursor + s.pool.capacity.toNat * s.pool.slotBytes shape.size ≤ a.size := by omega
    obtain ⟨p, a', hp, hcap', hslot'⟩ := Pool.withSlotSize_eq_ok hs hlt hfit
    rw [hp]
    exact .fits (Nat.le_of_not_lt hfull) hslot' (by rw [Pool.footprintBytes, hcap', hslot'])

/-- The most slots there can be, each so large that no machine word holds the bytes of all. -/
def immense : Settings := { pool := { capacity := 0xFFFFFFFF, slotSize := some 0x10000000000 } }

/-- Both decisions name the largest size where no machine word holds the bytes of all slots. -/
theorem checkFootprint_agrees_immense :
    ∃ a, Arena.build .reference immense.arenaOptions = .ok a ∧
      immense.checkFootprint Element.order.shape.size = .error ⟨Size.largest, a.size⟩ ∧
      SameVerdict immense Element.order.shape.size a.size
        (immense.checkFootprint Element.order.shape.size)
        (poolOn immense Element.order.shape a) := by
  obtain ⟨a, ha⟩ : ∃ a, Arena.build .reference immense.arenaOptions = .ok a := ⟨_, rfl⟩
  refine ⟨a, ha, ?_, checkFootprint_agrees (by decide) (by decide) (by decide) (by decide) ha⟩
  rw [checkFootprint_eq ha]
  cases ha
  decide

end Slab.Footprint
