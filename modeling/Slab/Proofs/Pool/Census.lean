import Mathlib.Data.Set.Card
import Slab.Proofs.Pool.Conservation

/-!
# What the counters count

A call exchanges the head first and counts that afterwards, so the counters lag behind the free list
by the calls that are in between. Apart from these calls, the slots handed out and not given back
are the slots that are out.

* `Counter`, `Call.marks`: the four counters, and the one that the next step of a call raises;
* `Call.Turn`, `Call.turn_step`: what one step of a call does to the slots and their counters;
* `census`: how many threads are at a point of their calls;
* `Crew.Room`, `Crew.Roomy`: no counter goes round, at an event and in a run;
* `Crew.Books`: the invariant, with `Books.step`.

The invariant does not ask for timely runs. A free list that a call has spoiled because it came too
late is still counted rightly.
-/

namespace Slab.Pool

/-- The counters of a pool. -/
inductive Counter
  | acquired
  | released
  | exhausted
  | contended
  deriving DecidableEq, Repr

/-- What a counter shows. -/
def Counters.count (n : Counters) : Counter → UInt64
  | .acquired => n.acquired
  | .released => n.released
  | .exhausted => n.exhausted
  | .contended => n.contended

/-! ### One step of a call -/

namespace Call

/-- The counter that the next step of a call raises. -/
def marks : Call → Option Counter
  | acquireSeen head => if head.index = nil then some .exhausted else none
  | acquireLost _ | releaseLost _ _ => some .contended
  | acquireWon _ => some .acquired
  | releaseWon _ => some .released
  | _ => none

/-- Whether the call has taken a slot off the free list and not yet counted that. -/
def popped : Call → Bool
  | acquireWon _ => true
  | _ => false

/-- Whether the call has put its slot on the free list and not yet counted that. -/
def pushed : Call → Bool
  | releaseWon _ => true
  | _ => false

/-- Whether the slot is in the hands of the call. -/
def owns (i : UInt32) (c : Call) : Bool := c.owned? = some i

/-- Whether any slot is in the hands of the call. -/
def owning (c : Call) : Bool := c.owned?.isSome

/-- A step raises the counter that it is to raise by one, and no other. -/
theorem count_step (g : Slots) (spurious : Bool) (s : Shared) (c : Call) (k : Counter) :
    (c.step g spurious s).1.counters.count k =
      s.counters.count k + if c.marks = some k then 1 else 0 := by
  cases c with
  | acquireSeen head =>
    by_cases hn : head.index = nil
    · cases k <;> simp [step, marks, hn, Counters.count]
    · simp [step, marks, hn]
  | acquireLinked head _ | releaseLinked _ head =>
    by_cases hs : s.head = head ∧ spurious = false <;> simp [step, marks, hs]
  | acquireLost _ | releaseLost _ _ | acquireWon _ | releaseWon _ =>
    cases k <;> simp [step, marks, Counters.count]
  | acquire | acquired _ | exhausted | release _ | releaseSeen _ _ | released =>
    simp [step, marks]

/-- What one step of a call does to the slots and to their counters. -/
inductive Turn : Call → Call → Prop
  /-- No slot changes hands, and none is counted. -/
  | idle {c c' : Call} (owned : c'.owned? = c.owned?) (made : c.made? = none)
      (made' : c'.made? = none) (acquired : c.marks ≠ some .acquired)
      (released : c.marks ≠ some .released) : Turn c c'
  | pop {head : Head} {next i : UInt32} : Turn (acquireLinked head next) (acquireWon i)
  | hand {i : UInt32} : Turn (acquireWon i) (acquired i)
  | push {head : Head} {i : UInt32} : Turn (releaseLinked i head) (releaseWon i)
  | settle {i : UInt32} : Turn (releaseWon i) released

/-- **Every step of a call is such a turn.** -/
theorem turn_step (g : Slots) (spurious : Bool) (s : Shared) (c : Call) :
    Turn c (c.step g spurious s).2 := by
  cases c with
  | acquireSeen head =>
    by_cases hn : head.index = nil
    · simp only [step, if_pos hn]
      exact .idle rfl rfl rfl (by simp [marks, hn]) (by simp [marks, hn])
    · simp only [step, if_neg hn]
      exact .idle rfl rfl rfl (by simp [marks, hn]) (by simp [marks, hn])
  | acquireLinked head next =>
    by_cases hs : s.head = head ∧ spurious = false
    · simp only [step, if_pos hs]
      exact .pop
    · simp only [step, if_neg hs]
      exact .idle rfl rfl rfl (by simp [marks]) (by simp [marks])
  | releaseLinked i head =>
    by_cases hs : s.head = head ∧ spurious = false
    · simp only [step, if_pos hs]
      exact .push
    · simp only [step, if_neg hs]
      exact .idle rfl rfl rfl (by simp [marks]) (by simp [marks])
  | acquireWon i => exact .hand
  | releaseWon i => exact .settle
  | acquire | acquireLost _ | acquired _ | exhausted | release _ | releaseSeen _ _
  | releaseLost _ _ | released =>
    exact .idle rfl rfl rfl (by simp [marks]) (by simp [marks])

theorem made?_of_isDone {c : Call} (h : c.isDone) : c.made? = none := by
  cases c <;> first | rfl | cases h

theorem popped_eq_false {c : Call} (h : c.made? = none) : c.popped = false := by
  cases c <;> first | rfl | cases h

theorem pushed_eq_false {c : Call} (h : c.made? = none) : c.pushed = false := by
  cases c <;> first | rfl | cases h

theorem handed?_eq_none {c : Call} (h : c.made? = none) : c.handed? = none := by
  cases c <;> first | rfl | cases h

/-- The slots that are out after the exchange that the step to this point has made. -/
def outAfter (out : List UInt32) (c : Call) : List UInt32 :=
  c.made?.toList.foldl Exchange.settle out

namespace Turn

variable {c c' : Call} {out : List UInt32}

/-- Slots that are taken off the free list are counted or not yet counted, and so are those that are
put on it. -/
theorem balance (h : Turn c c') (hout : ∀ i, c.owned? = some i → i ∈ out) :
    (if c.marks = some .acquired then 1 else 0) + c'.popped.toNat + (c.pushed.toNat + out.length) =
      c.popped.toNat + ((if c.marks = some .released then 1 else 0) + c'.pushed.toNat +
        (outAfter out c').length) := by
  cases h with
  | idle owned made made' acquired released =>
    simp [outAfter, made', acquired, released, popped_eq_false, pushed_eq_false, made]
  | @pop _ _ i =>
    have hafter : (outAfter out (acquireWon i)).length = out.length + 1 := rfl
    simp [hafter, marks, popped, pushed, Nat.add_comm]
  | hand => simp [outAfter, made?, marks, popped, pushed]
  | @push _ i =>
    have hafter : (outAfter out (releaseWon i)).length + 1 = out.length :=
      List.length_erase_add_one (hout i rfl)
    simp [← hafter, marks, popped, pushed, Nat.add_comm]
  | settle => simp [outAfter, made?, marks, popped, pushed]

/-- A slot comes out into the hands of the call, from there to the caller, and back. -/
theorem count (h : Turn c c') (hout : ∀ i, c.owned? = some i → i ∈ out) (held : List UInt32)
    (i : UInt32) :
    (outAfter out c').count i + (held.count i + (c.owns i).toNat) =
      out.count i + ((c.handed?.toList ++ held).count i + (c'.owns i).toNat) := by
  cases h with
  | idle owned made made' _ _ => simp [outAfter, made', owns, owned, handed?_eq_none made]
  | @pop _ _ j =>
    have hafter : outAfter out (acquireWon j) = j :: out := rfl
    rw [hafter]
    by_cases hij : j = i <;> simp [owns, owned?, handed?, hij, Nat.add_comm, Nat.add_left_comm]
  | @hand j => by_cases hij : j = i <;> simp [outAfter, made?, owns, owned?, handed?, hij]
  | @push _ j =>
    have hafter : outAfter out (releaseWon j) = out.erase j := rfl
    have hpos := List.count_pos_iff.2 (hout j rfl)
    rw [hafter, List.count_erase]
    by_cases hij : j = i
    · subst hij
      simp only [owns, owned?, handed?, beq_self_eq_true, if_true, Option.toList_none,
        List.nil_append, decide_true, Bool.toNat_true, reduceCtorEq, decide_false,
        Bool.toNat_false]
      omega
    · simp [owns, owned?, handed?, hij]
  | settle => simp [outAfter, made?, owns, owned?, handed?]

theorem length (h : Turn c c') (hout : ∀ i, c.owned? = some i → i ∈ out) (held : List UInt32) :
    (outAfter out c').length + (held.length + c.owning.toNat) =
      out.length + ((c.handed?.toList ++ held).length + c'.owning.toNat) := by
  cases h with
  | idle owned made made' _ _ => simp [outAfter, made', owning, owned, handed?_eq_none made]
  | @pop _ _ i =>
    have hafter : (outAfter out (acquireWon i)).length = out.length + 1 := rfl
    simp [hafter, owning, owned?, handed?, Nat.add_assoc, Nat.add_comm 1]
  | hand => simp [outAfter, made?, owning, owned?, handed?]
  | @push _ i =>
    have hafter : (outAfter out (releaseWon i)).length + 1 = out.length :=
      List.length_erase_add_one (hout i rfl)
    simp [← hafter, owning, owned?, handed?, Nat.add_assoc, Nat.add_comm 1]
  | settle => simp [outAfter, made?, owning, owned?, handed?]

end Turn

end Call

/-! ### How many threads are where -/

section Census

variable {ι : Type}

/-- How many threads are at such a point of their calls. -/
noncomputable def census (call : ι → Call) (P : Call → Bool) : ℕ := {t | P (call t)}.ncard

theorem census_eq_zero {call : ι → Call} {P : Call → Bool} (h : ∀ t, P (call t) = false) :
    census call P = 0 := by
  simp [census, h]

variable {call : ι → Call} {P Q : Call → Bool}

theorem census_mono (hfin : {t | Q (call t)}.Finite) (h : ∀ t, P (call t) → Q (call t)) :
    census call P ≤ census call Q :=
  Set.ncard_le_ncard h hfin

theorem census_pos (hfin : {t | P (call t)}.Finite) {t : ι} (h : P (call t)) :
    0 < census call P :=
  (Set.ncard_pos hfin).2 ⟨t, h⟩

variable [DecidableEq ι]

/-- When one call changes, only what is asked of that call matters. -/
theorem census_update (hfin : {t | P (call t)}.Finite) (t : ι) (x : Call) :
    census (Function.update call t x) P + (P (call t)).toNat = census call P + (P x).toNat := by
  have hmem : ∀ u, P (Function.update call t x u) ↔ if u = t then P x else P (call u) := by
    intro u
    rcases eq_or_ne u t with rfl | hne
    · simp
    · simp [hne]
  unfold census
  cases hx : P x with
  | true =>
    have hset : {u | P (Function.update call t x u)} = insert t {u | P (call u)} := by
      ext u
      rw [Set.mem_ofPred_eq, hmem, Set.mem_insert_iff, Set.mem_ofPred_eq]
      split_ifs <;> simp_all
    rw [hset]
    cases ht : P (call t) with
    | true =>
      rw [Set.insert_eq_of_mem (show t ∈ {u | P (call u)} from ht)]
    | false =>
      rw [Set.ncard_insert_of_notMem (by simp [ht]) hfin]
      rfl
  | false =>
    have hset : {u | P (Function.update call t x u)} = {u | P (call u)} \ {t} := by
      ext u
      rw [Set.mem_ofPred_eq, hmem, Set.mem_sdiff, Set.mem_singleton_iff, Set.mem_ofPred_eq]
      split_ifs <;> simp_all
    rw [hset]
    cases ht : P (call t) with
    | true =>
      exact Set.ncard_sdiff_singleton_add_one (show t ∈ {u | P (call u)} from ht) hfin
    | false =>
      rw [Set.sdiff_singleton_eq_self (by simp [ht])]

/-- A change of one call leaves all but finitely many calls ended. -/
theorem finite_update (h : {t | ¬ (call t).isDone}.Finite) (t : ι) (x : Call) :
    {u | ¬ (Function.update call t x u).isDone}.Finite := by
  refine (h.insert t).subset fun u hu => ?_
  rcases eq_or_ne u t with rfl | hne
  · exact Set.mem_insert _ _
  · refine Set.mem_insert_of_mem _ ?_
    rwa [Set.mem_ofPred_eq, Function.update_of_ne hne] at hu

end Census

namespace Crew

variable {ι : Type}

/-- The counter that an event raises. -/
def marks (c : Crew ι) : Event ι → Option Counter
  | .go t _ => (c.call t).marks
  | _ => none

/-- The event makes no counter go round. -/
def Room (c : Crew ι) (e : Event ι) : Prop :=
  ∀ k, c.marks e = some k → (c.shared.counters.count k).toNat + 1 < UInt64.size

variable [DecidableEq ι]

/-- No event of the run makes a counter go round: whatever is counted stays below `2 ^ 64`. -/
def Roomy (g : Slots) : Crew ι → List (Event ι) → Prop
  | _, [] => True
  | c, e :: es => c.Room e ∧ Roomy g (c.step g e) es

/-- An event raises the counter that it is to raise by one, and no other. -/
theorem count_step (g : Slots) (c : Crew ι) (e : Event ι) (k : Counter) :
    (c.step g e).shared.counters.count k =
      c.shared.counters.count k + if c.marks e = some k then 1 else 0 := by
  cases e with
  | go t spurious => exact Call.count_step g spurious c.shared (c.call t) k
  | take _ | give _ _ | write _ _ _ | elsewhere _ _ =>
    rw [step]
    split <;> simp [marks]

theorem toNat_count_step {g : Slots} {c : Crew ι} {e : Event ι} (h : c.Room e) (k : Counter) :
    ((c.step g e).shared.counters.count k).toNat =
      (c.shared.counters.count k).toNat + if c.marks e = some k then 1 else 0 := by
  rw [count_step]
  split_ifs with hk
  · rw [UInt64.toNat_add]
    exact Nat.mod_eq_of_lt (h k hk)
  · rw [UInt64.add_zero, Nat.add_zero]

/-- A counter that does not go round never goes back. -/
theorem count_le_step {g : Slots} {c : Crew ι} {e : Event ι} (h : c.Room e) (k : Counter) :
    c.shared.counters.count k ≤ (c.step g e).shared.counters.count k := by
  show (c.shared.counters.count k).toNat ≤ ((c.step g e).shared.counters.count k).toNat
  rw [toNat_count_step h]
  exact Nat.le_add_right _ _

/-- In a run of fewer than `2 ^ 64` events the counters of a new pool do not go round. -/
theorem roomy_of_lt {g : Slots} {c : Crew ι} {es : List (Event ι)} {n : ℕ}
    (hc : ∀ k, (c.shared.counters.count k).toNat ≤ n) (hlt : n + es.length < UInt64.size) :
    Roomy g c es := by
  induction es generalizing c n with
  | nil => trivial
  | cons e es ih =>
    rw [List.length_cons] at hlt
    have hroom : c.Room e := fun k _ => by
      have := hc k
      omega
    refine ⟨hroom, ih (n := n + 1) (fun k => ?_) (by omega)⟩
    have := hc k
    rw [toNat_count_step hroom]
    split_ifs <;> omega

/-- Only finitely many calls are under way. -/
def Few (c : Crew ι) : Prop := {t | ¬ (c.call t).isDone}.Finite

omit [DecidableEq ι] in
theorem few_start (s : Shared) : (start s : Crew ι).Few := by
  have hnone : {t | ¬ ((start s : Crew ι).call t).isDone} = ∅ :=
    Set.eq_empty_of_forall_notMem fun t ht => ht rfl
  rw [Few, hnone]
  exact Set.finite_empty

theorem Few.step {g : Slots} {c : Crew ι} (h : c.Few) (e : Event ι) : (c.step g e).Few := by
  cases e with
  | go t spurious => exact finite_update h t _
  | take t | give t _ =>
    rw [Crew.step]
    split
    · exact finite_update h t _
    · exact h
  | write _ _ _ | elsewhere _ _ =>
    rw [Crew.step]
    split <;> exact h

/-! ### The books -/

/-- What the counters of slots have to do with the slots that are out. -/
structure Books (c : Crew ι) : Prop where
  finite : {t | ¬ (c.call t).isDone}.Finite
  /-- The slots handed out, counted or not yet counted, are those given back and those out. -/
  balance : c.shared.counters.acquired.toNat + census c.call Call.popped =
    c.shared.counters.released.toNat + census c.call Call.pushed + c.out.length
  /-- A slot is out as often as it is held or in the hands of a call. -/
  hands : ∀ i, c.out.count i = c.held.count i + census c.call (Call.owns i)
  length : c.out.length = c.held.length + census c.call Call.owning

namespace Books

variable {g : Slots} {c c' : Crew ι} {e : Event ι} {t : ι} {x : Call}

omit [DecidableEq ι] in
/-- Only finitely many threads are at a point at which no call has ended. -/
theorem finite_of (h : Books c) {P : Call → Bool} (hP : ∀ x, P x → ¬ x.isDone) :
    {t | P (c.call t)}.Finite :=
  h.finite.subset fun _ ht => hP _ ht

omit [DecidableEq ι] in
/-- A slot in the hands of a call is out. -/
theorem mem_out (h : Books c) {i : UInt32} (hi : (c.call t).owned? = some i) : i ∈ c.out := by
  have hpos : 0 < census c.call (Call.owns i) :=
    census_pos (h.finite_of fun x hx hd => by simp [Call.owns, Inv.owned_of_isDone hd] at hx)
      (t := t) (by simp [Call.owns, hi])
  refine List.count_pos_iff.1 ?_
  rw [h.hands]
  omega

/-- What has to be seen when the call of a thread changes, and with it a counter, who holds a slot
or which slots are out: all sums are changed alike on their two sides. -/
theorem update (h : Books c) (hcall : c'.call = Function.update c.call t x)
    (hbalance : c'.shared.counters.acquired.toNat + x.popped.toNat +
        (c.shared.counters.released.toNat + (c.call t).pushed.toNat + c.out.length) =
      c.shared.counters.acquired.toNat + (c.call t).popped.toNat +
        (c'.shared.counters.released.toNat + x.pushed.toNat + c'.out.length))
    (hhands : ∀ i, c'.out.count i + (c.held.count i + ((c.call t).owns i).toNat) =
      c.out.count i + (c'.held.count i + (x.owns i).toNat))
    (hlength : c'.out.length + (c.held.length + (c.call t).owning.toNat) =
      c.out.length + (c'.held.length + x.owning.toNat)) : Books c' := by
  have howned : ∀ y : Call, y.isDone → y.owned? = none := fun y => Inv.owned_of_isDone
  have hpopped := census_update (h.finite_of (P := Call.popped) fun y hy hd => by
    simp [Call.popped_eq_false (Call.made?_of_isDone hd)] at hy) t x
  have hpushed := census_update (h.finite_of (P := Call.pushed) fun y hy hd => by
    simp [Call.pushed_eq_false (Call.made?_of_isDone hd)] at hy) t x
  have howning := census_update (h.finite_of (P := Call.owning) fun y hy hd => by
    simp [Call.owning, howned y hd] at hy) t x
  constructor
  · rw [hcall]
    exact finite_update h.finite t x
  · have := h.balance
    rw [hcall]
    omega
  · intro i
    have howns := census_update (h.finite_of (P := Call.owns i) fun y hy hd => by
      simp [Call.owns, howned y hd] at hy) t x
    have h1 := h.hands i
    have h2 := hhands i
    rw [hcall]
    omega
  · have := h.length
    rw [hcall]
    omega

/-- The call of a thread goes one step further. -/
theorem go (h : Books c) {spurious : Bool} (hroom : c.Room (.go t spurious)) :
    Books (c.go g t spurious) := by
  have hturn := Call.turn_step g spurious c.shared (c.call t)
  have hacquired := toNat_count_step (g := g) hroom .acquired
  have hreleased := toNat_count_step (g := g) hroom .released
  have hout : (c.go g t spurious).out =
      Call.outAfter c.out ((c.call t).step g spurious c.shared).2 := by
    rw [out, Crew.go, exchanges_advance, outstanding, List.foldl_append]
    rfl
  have hmem := fun i => h.mem_out (t := t) (i := i)
  have hbalance := hturn.balance hmem
  refine h.update (x := ((c.call t).step g spurious c.shared).2) rfl ?_ ?_ ?_
  · rw [hout]
    change (Crew.go g c t spurious).shared.counters.acquired.toNat = _ +
      if (c.call t).marks = some .acquired then 1 else 0 at hacquired
    change (Crew.go g c t spurious).shared.counters.released.toNat = _ +
      if (c.call t).marks = some .released then 1 else 0 at hreleased
    rw [hacquired, hreleased]
    simp only [Counters.count]
    omega
  · intro i
    rw [hout]
    exact hturn.count hmem c.held i
  · rw [hout]
    exact hturn.length hmem c.held

/-- A thread begins to take a slot. -/
theorem take (h : Books c) (ht : (c.call t).isDone) :
    Books { c with call := Function.update c.call t .acquire } := by
  have hmade := Call.made?_of_isDone ht
  have howned := Inv.owned_of_isDone ht
  refine h.update (x := .acquire) rfl ?_ (fun i => ?_) ?_
  · rw [Call.popped_eq_false hmade, Call.pushed_eq_false hmade]
    rfl
  · rw [Call.owns, howned]
    rfl
  · rw [Call.owning, howned]
    rfl

/-- A thread begins to give a held slot back. -/
theorem give (h : Books c) {slot : UInt32} (ht : (c.call t).isDone) (hslot : slot ∈ c.held) :
    Books { c with
      call := Function.update c.call t (.release slot)
      held := c.held.erase slot } := by
  have hmade := Call.made?_of_isDone ht
  have howned := Inv.owned_of_isDone ht
  refine h.update (x := .release slot) rfl ?_ (fun i => ?_) ?_
  · rw [Call.popped_eq_false hmade, Call.pushed_eq_false hmade]
    rfl
  · -- the slot that was held is now in the hands of the call
    have hpos := List.count_pos_iff.2 hslot
    show c.out.count i + (c.held.count i + _) = c.out.count i + ((c.held.erase slot).count i + _)
    rw [Call.owns, howned, Call.owns, Call.owned?]
    by_cases hi : slot = i
    · subst hi
      rw [List.count_erase_self]
      simp only [reduceCtorEq, decide_false, decide_true, Bool.toNat_false, Bool.toNat_true]
      omega
    · rw [List.count_erase_of_ne (Ne.symm hi)]
      simp [hi]
  · have := List.length_erase_add_one hslot
    show c.out.length + (c.held.length + _) = c.out.length + ((c.held.erase slot).length + _)
    rw [Call.owning, howned, Call.owning, Call.owned?, ← this]
    rfl

/-- **Every event that makes no counter go round preserves the books.** -/
theorem step (h : Books c) (hroom : c.Room e) : Books (c.step g e) := by
  cases e with
  | take t =>
    rw [Crew.step]
    split_ifs with hd
    · exact h.take hd
    · exact h
  | give t slot =>
    rw [Crew.step]
    split_ifs with hd
    · exact h.give hd.1 hd.2
    · exact h
  | go t spurious => exact h.go hroom
  | write _ _ _ | elsewhere _ _ =>
    rw [Crew.step]
    split_ifs
    · exact ⟨h.finite, h.balance, h.hands, h.length⟩
    · exact h

omit [DecidableEq ι] in
/-- The books of a new pool are blank. -/
theorem start {s : Shared} (hs : s.counters = {}) : Books (Crew.start s : Crew ι) where
  finite := few_start s
  balance := by
    show s.counters.acquired.toNat + census _ _ = s.counters.released.toNat + census _ _ + 0
    rw [hs, census_eq_zero (fun _ => rfl), census_eq_zero (fun _ => rfl)]
  hands i := by
    rw [census_eq_zero (fun _ => by simp [Crew.start, Call.owns, Call.owned?])]
    rfl
  length := by
    rw [census_eq_zero (fun _ => rfl)]
    rfl

omit [DecidableEq ι] in
/-- No more slots are given back than were handed out, whatever has not been counted yet. -/
theorem released_le (h : Books c) :
    c.shared.counters.released ≤ c.shared.counters.acquired := by
  have hfin := h.finite_of (P := Call.owning) fun y hy hd => by
    simp [Call.owning, Inv.owned_of_isDone hd] at hy
  -- a slot that has been taken and not yet counted is in the hands of a call
  have hpopped : census c.call Call.popped ≤ census c.call Call.owning :=
    census_mono hfin fun t ht => by
      cases hc : c.call t <;> simp_all [Call.popped, Call.owning, Call.owned?]
  have hbalance := h.balance
  have hlength := h.length
  show c.shared.counters.released.toNat ≤ c.shared.counters.acquired.toNat
  omega

omit [DecidableEq ι] in
/-- While no call is under way, the slots handed out and not given back are the held ones. -/
theorem settled (h : Books c) (hdone : ∀ t, (c.call t).isDone) :
    c.shared.counters.acquired.toNat = c.shared.counters.released.toNat + c.held.length := by
  have hmade := fun t => Call.made?_of_isDone (hdone t)
  have hbalance := h.balance
  have hlength := h.length
  rw [census_eq_zero fun t => Call.popped_eq_false (hmade t),
    census_eq_zero fun t => Call.pushed_eq_false (hmade t)] at hbalance
  rw [census_eq_zero fun t => by rw [Call.owning, Inv.owned_of_isDone (hdone t)]; rfl] at hlength
  omega

end Books

end Crew
end Slab.Pool
