import Mathlib.Logic.Function.Basic
import Slab.Proofs.Workspace.Ledger
import Slab.Workspace.Basic

/-!
# What the users know

Whoever uses a workspace sees its answers and nothing else. From what was asked and answered he
knows which slots are held, how, and what was last written to each of them.

* `Holdings`, `Holdings.note`: the held slots of a pool, and what an answer adds to that;
* `Record`, `Record.note`, `Record.after`: the same for all pools by name, after one answer and
  after many.

`Ledger.note_step` says that the held slots of a ledger are what its user knows of them.
-/

namespace Slab

namespace Tenure

/-- After the holder has written a value. -/
def write (v : Value) : Tenure → Tenure
  | raw _ => raw (some v)
  | guarded _ => guarded v

/-- After the holder has given up the guard for the address. -/
def intoRaw (t : Tenure) : Tenure := raw t.value?

end Tenure

/-- The held slots of a pool, each with how it is held. -/
abbrev Holdings := ℕ → Option Tenure

/-- The held slots after an answer. -/
def Holdings.note (h : Holdings) : PoolOp → PoolAnswer → Holdings
  | .acquire, .placed place => Function.update h place.slot (some (.raw none))
  | .acquireWith v, .placed place => Function.update h place.slot (some (.guarded v))
  | .acquireMany _, .slots l => fun k => if some k ∈ l then some (.raw none) else h k
  | .release _, .released slot => Function.update h slot none
  | .release _, .dropped slot => Function.update h slot none
  | .releaseAll _, .releasedAll slots => fun k => if k ∈ slots then none else h k
  | .write _ v, .written slot => Function.update h slot ((h slot).map (Tenure.write v))
  | .intoRaw slot, .placed _ => Function.update h slot ((h slot).map Tenure.intoRaw)
  | _, _ => h

/-- The held slots of all pools by name. -/
abbrev Record := String → Holdings

namespace Record

/-- Nothing is held. -/
def empty : Record := fun _ _ => none

/-- The held slots after an answer. A new pool under a name replaces the older one. -/
def note (r : Record) : Op → Answer → Record
  | .pool name _ _ _ _, .pool _ _ _ _ => Function.update r name fun _ => none
  | .onPool name op, .onPool answer _ => Function.update r name ((r name).note op answer)
  | _, _ => r

/-- The held slots after operations with their answers. -/
def after (r : Record) (ops : List Op) (answers : List Answer) : Record :=
  (ops.zip answers).foldl (fun r e => r.note e.1 e.2) r

end Record

namespace Ledger

variable {l : Ledger}

theorem find?_giveBack (slot : ℕ) :
    (l.giveBack slot).held.find? = Function.update l.held.find? slot none := by
  funext k
  rw [giveBack, Dict.find?_erase]
  by_cases hk : k = slot
  · rw [if_pos hk, hk, Function.update_self]
  · rw [if_neg hk, Function.update_of_ne hk]

theorem find?_put (slot : ℕ) (t : Tenure) :
    (l.put slot t).held.find? = Function.update l.held.find? slot (some t) := by
  funext k
  rw [put, Dict.find?_insert]
  by_cases hk : k = slot
  · rw [if_pos hk, hk, Function.update_self]
  · rw [if_neg hk, Function.update_of_ne hk]

theorem find?_take {i : UInt32} {rest : List UInt32} (hfree : l.free = i :: rest) (t : Tenure) :
    (l.take t).1.held.find? = Function.update l.held.find? i.toNat (some t) := by
  rw [take_of_cons hfree]
  exact find?_put i.toNat t

theorem find?_takeMany (n k : ℕ) :
    (l.takeMany n).1.held.find? k =
      if some k ∈ (l.takeMany n).2 then some (.raw none) else l.held.find? k := by
  induction n generalizing l with
  | zero => rfl
  | succ n ih =>
    show ((l.take (.raw none)).1.takeMany n).1.held.find? k =
      if some k ∈ (l.take (.raw none)).2.map UInt32.toNat ::
          ((l.take (.raw none)).1.takeMany n).2 then some (.raw none) else l.held.find? k
    rw [ih]
    cases hfree : l.free with
    | nil => simp [take_of_nil hfree]
    | cons i rest =>
      rw [find?_take hfree, take_of_cons hfree]
      by_cases hk : k = i.toNat
      · subst hk
        simp
      · rw [Function.update_of_ne hk]
        simp [hk]

/-- **The held slots of a ledger are what its user knows of them.** -/
theorem note_step {n : ℕ} (h : l.Sound n) (hn : n ≤ Pool.nil.toNat) (s : Site) (base : ℕ)
    (op : PoolOp) :
    (l.step s base op).1.held.find? = Holdings.note l.held.find? op (l.step s base op).2 := by
  cases op with
  | acquire =>
    simp only [step]
    cases hfree : l.free with
    | nil =>
      rw [take_of_nil hfree]
      rfl
    | cons i rest =>
      have hfind := find?_take hfree (.raw none)
      rw [take_of_cons hfree] at hfind ⊢
      exact hfind
  | acquireWith v =>
    simp only [step]
    cases hfree : l.free with
    | nil =>
      rw [take_of_nil hfree]
      rfl
    | cons i rest =>
      have hfind := find?_take hfree (.guarded v)
      rw [take_of_cons hfree] at hfind ⊢
      exact hfind
  | acquireMany m =>
    funext k
    exact find?_takeMany m k
  | release slot =>
    simp only [step]
    cases hslot : l.held.find? slot with
    | none => rfl
    | some t => cases t <;> exact find?_giveBack slot
  | releaseAll descending =>
    funext k
    exact find?_giveBackAll l _ k
  | write slot v =>
    simp only [step]
    cases hslot : l.held.find? slot with
    | none => rfl
    | some t =>
      cases t <;>
      · simp only [Holdings.note, hslot]
        exact find?_put slot _
  | read slot =>
    simp only [step]
    cases hslot : l.held.find? slot with
    | none => rfl
    | some t => cases hv : t.value? <;> simp only [hv] <;> rfl
  | display slot =>
    simp only [step]
    cases hslot : l.held.find? slot with
    | none => rfl
    | some t => cases t <;> rfl
  | intoRaw slot =>
    simp only [step]
    cases hslot : l.held.find? slot with
    | none => rfl
    | some t =>
      cases t with
      | raw w => rfl
      | guarded v =>
        simp only [Holdings.note, hslot]
        exact find?_put slot _
  | hammer threads rounds hold =>
    funext k
    exact (h.hammer hn rounds hold threads).2 k
  | contains _ | info | countFree | snapshot | describe => rfl

end Ledger
end Slab
