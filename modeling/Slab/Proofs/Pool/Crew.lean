import Mathlib.Logic.Function.Basic
import Slab.Proofs.Pool.Construction

/-!
# Threads that share a pool

Any number of threads take slots from one pool and give slots back. A call is made of steps, each of
which touches what is shared once, and the steps of all threads interleave in any order. Between a
call that took a slot and the call that gives it back the slot is *held*: whoever holds it may write
any of its bytes at any moment, and any thread may give it back.

* `Exchange`: a successful exchange of the head, which takes a slot off the free list (`pop`) or
  puts one on it (`push`);
* `replay`, `outstanding`: the stack that exchanges leave behind, and the slots that they popped
  and did not push back;
* `Crew ι`: what the threads `ι` share, what each of them is doing, the held slots;
* `Crew.step`, `Crew.run`: one event, and a list of them; an event that cannot happen is skipped;
* `Crew.Timely`: no call attempts an exchange when `2 ^ 32` others or more have succeeded since it
  saw the head.

`Crew.log` and `Crew.seen` record the past. No step reads them.
-/

namespace Slab.Pool

/-- A successful exchange of the head. -/
inductive Exchange
  /-- The slot was the first free one and is taken. -/
  | pop (slot : UInt32)
  /-- The slot is given back and becomes the first free one. -/
  | push (slot : UInt32)
  deriving DecidableEq, Repr

namespace Exchange

/-- The exchange on a stack, the top first. Only the top is popped. -/
def apply : Exchange → List UInt32 → Option (List UInt32)
  | pop _, [] => none
  | pop i, j :: l => if i = j then some l else none
  | push i, l => some (i :: l)

/-- The slots that were popped and not pushed back, when this exchange follows. -/
def settle : List UInt32 → Exchange → List UInt32
  | out, pop i => i :: out
  | out, push i => out.erase i

end Exchange

/-- Exchanges one after another on a stack; `none` if one of them pops what is not on top. -/
def replay (stack : List UInt32) (xs : List Exchange) : Option (List UInt32) :=
  xs.foldlM (fun l x => x.apply l) stack

/-- The slots that were popped and not pushed back. -/
def outstanding (xs : List Exchange) : List UInt32 := xs.foldl Exchange.settle []

@[simp] theorem replay_nil (stack : List UInt32) : replay stack [] = some stack := rfl

theorem replay_concat (stack : List UInt32) (xs : List Exchange) (x : Exchange) :
    replay stack (xs ++ [x]) = (replay stack xs).bind x.apply := by
  unfold replay
  rw [List.foldlM_append]
  cases xs.foldlM (fun l x => Exchange.apply x l) stack <;> simp

@[simp] theorem outstanding_nil : outstanding [] = [] := rfl

theorem outstanding_concat (xs : List Exchange) (x : Exchange) :
    outstanding (xs ++ [x]) = Exchange.settle (outstanding xs) x := by
  simp [outstanding, List.foldl_append]

namespace Call

/-- Whether the next step attempts to exchange the head. -/
def attempts : Call → Bool
  | acquireLinked _ _ | releaseLinked _ _ => true
  | _ => false

/-- Whether the next step is shown the head, by reading it or by an exchange. -/
def looks : Call → Bool
  | acquire | release _ => true
  | c => c.attempts

/-- The exchange that the step to this point has made. -/
def made? : Call → Option Exchange
  | acquireWon i => some (.pop i)
  | releaseWon i => some (.push i)
  | _ => none

/-- The slot that the next step hands to the caller. -/
def handed? : Call → Option UInt32
  | acquireWon i => some i
  | _ => none

/-- The slot that is out and in the hands of the call: popped and not yet handed to the caller, or
to be given back and not yet pushed. -/
def owned? : Call → Option UInt32
  | acquireWon i | release i | releaseSeen i _ | releaseLinked i _ | releaseLost i _ => some i
  | _ => none

end Call

/-- Threads that share a pool. -/
structure Crew (ι : Type) where
  shared : Shared
  /-- The present call of a thread, or its last one when that has ended. -/
  call : ι → Call
  /-- The slots that are out and in the hands of callers. -/
  held : List UInt32
  /-- The successful exchanges so far, the earliest first, each with its thread. -/
  log : List (ι × Exchange)
  /-- How many exchanges had succeeded when the thread was last shown the head. -/
  seen : ι → ℕ

namespace Crew

/-- What can happen. -/
inductive Event (ι : Type)
  /-- A thread asks for a slot. -/
  | take (t : ι)
  /-- A thread gives a held slot back. -/
  | give (t : ι) (slot : UInt32)
  /-- The call of a thread goes one step further; `spurious` says that an exchange that could
  succeed fails nevertheless. -/
  | go (t : ι) (spurious : Bool)
  /-- The holder of a slot writes one of its bytes. -/
  | write (slot : UInt32) (k : ℕ) (v : UInt8)
  /-- Somebody writes a byte that belongs to no slot of the pool. -/
  | elsewhere (a : ℕ) (v : UInt8)
  deriving DecidableEq, Repr

variable {ι : Type}

/-- The exchanges so far, the earliest first. -/
def exchanges (c : Crew ι) : List Exchange := c.log.map Prod.snd

/-- The slots that are popped and not yet pushed back. -/
def out (c : Crew ι) : List UInt32 := outstanding c.exchanges

/-- Nobody has asked for anything yet. -/
def start (s : Shared) : Crew ι :=
  { shared := s, call := fun _ => .released, held := [], log := [], seen := fun _ => 0 }

variable [DecidableEq ι]

/-- The call of a thread has gone one step further, to `next`, and left `s` behind. -/
def advance (c : Crew ι) (t : ι) (s : Shared) (next : Call) : Crew ι :=
  { shared := s
    call := Function.update c.call t next
    held := (c.call t).handed?.toList ++ c.held
    log := c.log ++ (next.made?.map fun x => (t, x)).toList
    seen := if (c.call t).looks then Function.update c.seen t c.log.length else c.seen }

/-- One step of a thread's call. -/
def go (g : Slots) (c : Crew ι) (t : ι) (spurious : Bool) : Crew ι :=
  let r := (c.call t).step g spurious c.shared
  c.advance t r.1 r.2

/-- One event. A thread begins a call only when its last one has ended, and only held slots are
given back or written. -/
def step (g : Slots) (c : Crew ι) : Event ι → Crew ι
  | .take t =>
    if (c.call t).isDone then { c with call := Function.update c.call t .acquire } else c
  | .give t slot =>
    if (c.call t).isDone ∧ slot ∈ c.held then
      { c with call := Function.update c.call t (.release slot), held := c.held.erase slot }
    else c
  | .go t spurious => c.go g t spurious
  | .write slot k v =>
    if slot ∈ c.held ∧ k < g.slotSize then
      { c with shared.memory := c.shared.memory.store (g.place slot + k) v }
    else c
  | .elsewhere a v =>
    if a < g.base ∨ g.base + g.capacity * g.slotSize ≤ a then
      { c with shared.memory := c.shared.memory.store a v }
    else c

/-- Events one after another. -/
def run (g : Slots) (c : Crew ι) (es : List (Event ι)) : Crew ι := es.foldl (step g) c

@[simp] theorem run_nil (g : Slots) (c : Crew ι) : run g c [] = c := rfl

@[simp] theorem run_cons (g : Slots) (c : Crew ι) (e : Event ι) (es : List (Event ι)) :
    run g c (e :: es) = run g (c.step g e) es := rfl

theorem exchanges_advance (c : Crew ι) (t : ι) (s : Shared) (next : Call) :
    (c.advance t s next).exchanges = c.exchanges ++ next.made?.toList := by
  unfold exchanges advance
  rw [List.map_append]
  cases next.made? <;> rfl

@[simp] theorem call_advance_self (c : Crew ι) (t : ι) (s : Shared) (next : Call) :
    (c.advance t s next).call t = next := Function.update_self _ _ _

theorem call_advance_of_ne (c : Crew ι) {t u : ι} (h : u ≠ t) (s : Shared) (next : Call) :
    (c.advance t s next).call u = c.call u := Function.update_of_ne h _ _

theorem seen_advance_of_ne (c : Crew ι) {t u : ι} (h : u ≠ t) (s : Shared) (next : Call) :
    (c.advance t s next).seen u = c.seen u := by
  unfold advance
  dsimp only
  split
  · exact Function.update_of_ne h _ _
  · rfl

theorem held_advance (c : Crew ι) {t : ι} (h : (c.call t).handed? = none) (s : Shared)
    (next : Call) : (c.advance t s next).held = c.held := by
  unfold advance
  rw [h]
  rfl

theorem length_log_advance (c : Crew ι) (t : ι) (s : Shared) {next : Call} {x : Exchange}
    (h : next.made? = some x) : (c.advance t s next).log.length = c.log.length + 1 := by
  unfold advance
  rw [h, List.length_append]
  rfl

theorem out_advance (c : Crew ι) (t : ι) (s : Shared) {next : Call} {x : Exchange}
    (h : next.made? = some x) : (c.advance t s next).out = Exchange.settle c.out x := by
  rw [out, exchanges_advance, h]
  exact outstanding_concat c.exchanges x

theorem run_concat (g : Slots) (c : Crew ι) (es : List (Event ι)) (e : Event ι) :
    run g c (es ++ [e]) = (run g c es).step g e := by
  simp [run, List.foldl_append]

theorem run_append (g : Slots) (c : Crew ι) (es es' : List (Event ι)) :
    run g c (es ++ es') = run g (run g c es) es' := by
  simp [run, List.foldl_append]

/-- If the event attempts an exchange, fewer than `2 ^ 32` exchanges have succeeded since the thread
was shown the head. -/
def Prompt (c : Crew ι) : Event ι → Prop
  | .go t _ => (c.call t).attempts → c.log.length < c.seen t + UInt32.size
  | _ => True

/-- No event of the run comes too late to notice that the head has been exchanged. -/
def Timely (g : Slots) : Crew ι → List (Event ι) → Prop
  | _, [] => True
  | c, e :: es => c.Prompt e ∧ Timely g (c.step g e) es

theorem Timely.take {g : Slots} {c : Crew ι} {es : List (Event ι)} (h : Timely g c es) (n : ℕ) :
    Timely g c (es.take n) := by
  induction es generalizing c n with
  | nil => simpa using h
  | cons e es ih =>
    cases n with
    | zero => trivial
    | succ n => exact ⟨h.1, ih h.2 n⟩

theorem timely_append {g : Slots} {c : Crew ι} {es es' : List (Event ι)} :
    Timely g c (es ++ es') ↔ Timely g c es ∧ Timely g (run g c es) es' := by
  induction es generalizing c with
  | nil => simp [Timely]
  | cons e es ih =>
    rw [List.cons_append, Timely, Timely, ih, run_cons]
    exact and_assoc.symm

theorem length_log_step (g : Slots) (c : Crew ι) (e : Event ι) :
    (c.step g e).log.length ≤ c.log.length + 1 := by
  cases e with
  | go t spurious =>
    show (c.log ++ _).length ≤ _
    rw [List.length_append]
    refine Nat.add_le_add_left ?_ _
    cases Option.map (fun x => (t, x)) (Call.made? (Call.step g spurious c.shared (c.call t)).2) <;>
      simp
  | take _ | give _ _ | write _ _ _ | elsewhere _ _ =>
    rw [step]
    split <;> exact Nat.le_succ _

/-- A run of fewer than `2 ^ 32` events is timely. -/
theorem timely_of_lt {g : Slots} {c : Crew ι} {es : List (Event ι)}
    (h : c.log.length + es.length < UInt32.size) : Timely g c es := by
  induction es generalizing c with
  | nil => trivial
  | cons e es ih =>
    rw [List.length_cons] at h
    refine ⟨?_, ih ?_⟩
    · cases e with
      | go t spurious => exact fun _ => by omega
      | take _ | give _ _ | write _ _ _ | elsewhere _ _ => trivial
    · have := length_log_step g c e
      omega

/-- What every prompt event preserves holds after a timely run. -/
theorem Timely.invariant {g : Slots} {motive : Crew ι → Prop}
    (step : ∀ c e, motive c → c.Prompt e → motive (c.step g e)) {c : Crew ι} {es : List (Event ι)}
    (h : Timely g c es) (h0 : motive c) : motive (run g c es) := by
  induction es generalizing c with
  | nil => exact h0
  | cons e es ih => exact ih h.2 (step c e h0 h.1)

/-- Two threads at a new pool of two slots. -/
def pair : Crew Bool := start (twoSlots.shared (linkSlots twoSlots.slots .zero))

end Crew
end Slab.Pool
