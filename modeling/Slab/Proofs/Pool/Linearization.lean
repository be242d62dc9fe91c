import Slab.Proofs.Pool.Conservation

/-!
# The free list is a stack

Threads that share a pool cannot tell the free list from a stack whose operations happen at once.
The exchanges of the head, in the order in which they succeed, are pops and pushes of a stack that
holds all slots at first, slot 0 on top. Each of them happens while the call that makes it is under
way, and a call that finds no slot was under way while the stack was empty.

* `Crew.after`: the state after so many events of a run;
* `Crew.exchangesOf t`: the exchanges that the calls of a thread have made;
* `Crew.Empty`: the stack is empty, that is, all slots are out;
* `Crew.Begins`, `Crew.Spans`: the event that begins a call, and the moments between which a call is
  under way;
* `Explained`: what a call answers is what its exchanges did;
* `Stage`: how far a call is, with its exchanges; `Stage.step` and `stage_of_spans` carry it along a
  run.
-/

namespace Slab.Pool

/-- What a call that began as `first` answers at its end is explained by its exchanges. -/
def Explained (empty : Prop) (xs : List Exchange) (first last : Call) : Prop :=
  match first, last with
  | .acquire, .acquired i => xs = [.pop i]
  | .acquire, .exhausted => xs = [] ∧ empty
  | .release i, .released => xs = [.push i]
  | _, _ => False

/-- How far a call is, with the exchanges that it has made. A head without a slot is shown to it
only if the stack was empty. -/
inductive Stage (empty : Prop) : Call → Call → List Exchange → Prop
  | acquire : Stage empty .acquire .acquire []
  | acquireSeen {h : Head} (hnil : h.index = nil → empty) :
      Stage empty .acquire (.acquireSeen h) []
  | acquireLinked {h : Head} {next : UInt32} : Stage empty .acquire (.acquireLinked h next) []
  | acquireLost {h : Head} (hnil : h.index = nil → empty) :
      Stage empty .acquire (.acquireLost h) []
  | acquireWon {i : UInt32} : Stage empty .acquire (.acquireWon i) [.pop i]
  | acquired {i : UInt32} : Stage empty .acquire (.acquired i) [.pop i]
  | exhausted (h : empty) : Stage empty .acquire .exhausted []
  | release {i : UInt32} : Stage empty (.release i) (.release i) []
  | releaseSeen {i : UInt32} {h : Head} : Stage empty (.release i) (.releaseSeen i h) []
  | releaseLinked {i : UInt32} {h : Head} : Stage empty (.release i) (.releaseLinked i h) []
  | releaseLost {i : UInt32} {h : Head} : Stage empty (.release i) (.releaseLost i h) []
  | releaseWon {i : UInt32} : Stage empty (.release i) (.releaseWon i) [.push i]
  | released {i : UInt32} : Stage empty (.release i) .released [.push i]

namespace Stage

variable {empty empty' : Prop} {first x : Call} {xs : List Exchange}

theorem mono (h : Stage empty first x xs) (hempty : empty → empty') :
    Stage empty' first x xs := by
  cases h with
  | acquire => exact .acquire
  | acquireSeen hnil => exact .acquireSeen fun he => hempty (hnil he)
  | acquireLinked => exact .acquireLinked
  | acquireLost hnil => exact .acquireLost fun he => hempty (hnil he)
  | acquireWon => exact .acquireWon
  | acquired => exact .acquired
  | exhausted h => exact .exhausted (hempty h)
  | release => exact .release
  | releaseSeen => exact .releaseSeen
  | releaseLinked => exact .releaseLinked
  | releaseLost => exact .releaseLost
  | releaseWon => exact .releaseWon
  | released => exact .released

/-- A step takes a call that has not ended from one stage to the next, adding the exchange that it
makes. -/
theorem step (h : Stage empty first x xs) (hx : ¬ x.isDone) {g : Slots} {s : Shared}
    (hnow : s.head.index = nil → empty) (spurious : Bool) :
    Stage empty first (x.step g spurious s).2 (xs ++ (x.step g spurious s).2.made?.toList) := by
  cases h with
  | acquire => exact .acquireSeen hnow
  | @acquireSeen h hnil =>
    by_cases hn : h.index = nil
    · simp only [Call.step, if_pos hn]
      exact .exhausted (hnil hn)
    · simp only [Call.step, if_neg hn]
      exact .acquireLinked
  | @acquireLinked h next =>
    by_cases hs : s.head = h ∧ spurious = false
    · simp only [Call.step, if_pos hs]
      exact .acquireWon
    · simp only [Call.step, if_neg hs]
      exact .acquireLost hnow
  | acquireLost hnil => exact .acquireSeen hnil
  | acquireWon => exact .acquired
  | acquired => exact absurd rfl hx
  | exhausted _ => exact absurd rfl hx
  | release => exact .releaseSeen
  | releaseSeen => exact .releaseLinked
  | @releaseLinked i h =>
    by_cases hs : s.head = h ∧ spurious = false
    · simp only [Call.step, if_pos hs]
      exact .releaseWon
    · simp only [Call.step, if_neg hs]
      exact .releaseLost
  | releaseLost => exact .releaseSeen
  | releaseWon => exact .released
  | released => exact absurd rfl hx

/-- At the end of a call its stage explains what it answers. -/
theorem explained (h : Stage empty first x xs) (hx : x.isDone) : Explained empty xs first x := by
  cases h with
  | acquired => rfl
  | exhausted h => exact ⟨rfl, h⟩
  | released => rfl
  | acquire | acquireSeen _ | acquireLinked | acquireLost _ | acquireWon => cases hx
  | release | releaseSeen | releaseLinked | releaseLost | releaseWon => cases hx

end Stage

namespace Crew

variable {ι : Type} {g : Slots} {c : Crew ι} {es : List (Event ι)} {t : ι} {first : Call} {a b : ℕ}

/-- No slot is free: all of them are popped and not yet pushed back. -/
def Empty (g : Slots) (c : Crew ι) : Prop :=
  c.shared.freeSlots g = [] ∧ c.out.Perm (numbers g.capacity)

/-- The event begins a call of a thread. -/
inductive Begins (c : Crew ι) (t : ι) : Event ι → Call → Prop
  | take (h : (c.call t).isDone) : Begins c t (.take t) .acquire
  | give {i : UInt32} (h : (c.call t).isDone) (hi : i ∈ c.held) :
      Begins c t (.give t i) (.release i)

theorem Begins.stage {e : Event ι} (h : Begins c t e first) (empty : Prop) :
    Stage empty first first [] := by
  cases h with
  | take _ => exact .acquire
  | give _ _ => exact .release

/-- A head without a slot means that the stack is empty. -/
theorem Inv.empty {free : List UInt32} (h : Inv g c free) (hn : c.shared.head.index = nil) :
    Empty g c := by
  have hfree : free = [] := h.linked.eq_nil_of_nil hn
  have hslots := h.slots
  rw [hfree, List.nil_append] at hslots
  exact ⟨h.freeSlots_eq.trans hfree, hslots⟩

variable [DecidableEq ι]

/-- The state after the first `n` events of a run. -/
def after (g : Slots) (c : Crew ι) (es : List (Event ι)) (n : ℕ) : Crew ι := run g c (es.take n)

/-- The exchanges that the calls of a thread have made, the earliest first. -/
def exchangesOf (t : ι) (c : Crew ι) : List Exchange :=
  (c.log.filter fun x => x.1 = t).map Prod.snd

/-- Event `a` of the run begins a call of thread `t`, which is under way until `b` events have
happened and has ended then. -/
structure Spans (g : Slots) (c : Crew ι) (es : List (Event ι)) (t : ι) (first : Call)
    (a b : ℕ) : Prop where
  begins : ∃ e, es[a]? = some e ∧ Begins (after g c es a) t e first
  lt : a < b
  le : b ≤ es.length
  pending : ∀ n, a < n → n < b → ¬ ((after g c es n).call t).isDone
  ended : ((after g c es b).call t).isDone

/-- Threads that share a pool see a stack. -/
structure Linearizable (g : Slots) (c : Crew ι) (es : List (Event ι)) : Prop where
  /-- At every moment the exchanges so far, in the order in which they happened, make a stack of
  all slots in ascending order the free list. -/
  legal : ∀ n, replay (numbers g.capacity) (after g c es n).exchanges =
    some ((after g c es n).shared.freeSlots g)
  /-- The exchanges that a thread makes while a call is under way explain what the call answers. -/
  explained : ∀ t first a b, Spans g c es t first a b →
    ∃ xs, exchangesOf t (after g c es b) = exchangesOf t (after g c es a) ++ xs ∧
      Explained (∃ n, a < n ∧ n < b ∧ Empty g (after g c es n)) xs first
        ((after g c es b).call t)

/-! ### What one event does to a call -/

theorem exchangesOf_advance (c : Crew ι) (t u : ι) (s : Shared) (next : Call) :
    exchangesOf t (c.advance u s next) =
      exchangesOf t c ++ if u = t then next.made?.toList else [] := by
  unfold exchangesOf advance
  rw [List.filter_append, List.map_append]
  refine congrArg (_ ++ ·) ?_
  by_cases hut : u = t <;> cases next.made? <;> simp [hut]

/-- A step of a call. -/
theorem step_of_go (spurious : Bool) :
    (c.step g (.go t spurious)).call t = ((c.call t).step g spurious c.shared).2 ∧
      exchangesOf t (c.step g (.go t spurious)) =
        exchangesOf t c ++ ((c.call t).step g spurious c.shared).2.made?.toList := by
  refine ⟨call_advance_self _ _ _ _, ?_⟩
  rw [step, go, exchangesOf_advance, if_pos rfl]

/-- An event that is no step of a call leaves the call and its exchanges alone while it is under
way. -/
theorem step_of_other {e : Event ι} (hpending : ¬ (c.call t).isDone)
    (he : ∀ spurious, e ≠ .go t spurious) :
    (c.step g e).call t = c.call t ∧ exchangesOf t (c.step g e) = exchangesOf t c := by
  have other : ∀ u, (c.call u).isDone → t ≠ u := by
    rintro u hu rfl
    exact hpending hu
  cases e with
  | take u =>
    rw [step]
    split_ifs with hu
    · exact ⟨Function.update_of_ne (other u hu) _ _, rfl⟩
    · exact ⟨rfl, rfl⟩
  | give u slot =>
    rw [step]
    split_ifs with hu
    · exact ⟨Function.update_of_ne (other u hu.1) _ _, rfl⟩
    · exact ⟨rfl, rfl⟩
  | go u spurious =>
    have hut : u ≠ t := by
      rintro rfl
      exact he spurious rfl
    refine ⟨call_advance_of_ne c hut.symm _ _, ?_⟩
    rw [step, go, exchangesOf_advance, if_neg hut, List.append_nil]
  | write slot k v =>
    rw [step]
    split_ifs <;> exact ⟨rfl, rfl⟩
  | elsewhere a v =>
    rw [step]
    split_ifs <;> exact ⟨rfl, rfl⟩

/-- The event that begins a call makes no exchange. -/
theorem Begins.step {e : Event ι} (h : Begins c t e first) :
    (c.step g e).call t = first ∧ exchangesOf t (c.step g e) = exchangesOf t c := by
  cases h with
  | take h =>
    rw [Crew.step, if_pos h]
    exact ⟨Function.update_self _ _ _, rfl⟩
  | give h hi =>
    rw [Crew.step, if_pos ⟨h, hi⟩]
    exact ⟨Function.update_self _ _ _, rfl⟩

/-! ### Along a run -/

theorem after_succ {n : ℕ} {e : Event ι} (he : es[n]? = some e) :
    after g c es (n + 1) = (after g c es n).step g e := by
  unfold after
  rw [List.take_add_one, he]
  exact run_concat g c (es.take n) e

/-- **A call under way is at one of its stages**, and its thread has made the exchanges of that
stage since the call began. -/
theorem stage_of_spans (hinv : ∀ n, ∃ free, Inv g (after g c es n) free)
    {e : Event ι} (he : es[a]? = some e) (hb : Begins (after g c es a) t e first)
    (hab : a < b) (hlen : b ≤ es.length)
    (hpending : ∀ n, a < n → n < b → ¬ ((after g c es n).call t).isDone) :
    ∃ xs, exchangesOf t (after g c es b) = exchangesOf t (after g c es a) ++ xs ∧
      Stage (∃ n, a < n ∧ n < b ∧ Empty g (after g c es n)) first
        ((after g c es b).call t) xs := by
  -- by induction on the number of events, from the one that begins the call
  induction hab with
  | refl =>
    obtain ⟨hcall, hx⟩ := hb.step (g := g)
    refine ⟨[], ?_, ?_⟩
    · rw [after_succ he, hx, List.append_nil]
    · rw [after_succ he, hcall]
      exact hb.stage _
  | @step b hab ih =>
    obtain ⟨xs, hxs, hstage⟩ := ih (by omega) fun n h1 h2 => hpending n h1 (by omega)
    have hnot := hpending b hab (Nat.lt_succ_self b)
    obtain ⟨f, hf⟩ : ∃ f, es[b]? = some f := ⟨_, List.getElem?_eq_getElem (by omega)⟩
    rw [after_succ hf]
    have hlater : (∃ n, a < n ∧ n < b ∧ Empty g (after g c es n)) →
        ∃ n, a < n ∧ n < b + 1 ∧ Empty g (after g c es n) :=
      fun ⟨n, h1, h2, h3⟩ => ⟨n, h1, by omega, h3⟩
    replace hstage := hstage.mono hlater
    by_cases hgo : ∃ spurious, f = .go t spurious
    · obtain ⟨spurious, rfl⟩ := hgo
      obtain ⟨free, hfree⟩ := hinv b
      have hnow : (after g c es b).shared.head.index = nil →
          ∃ n, a < n ∧ n < b + 1 ∧ Empty g (after g c es n) :=
        fun hn => ⟨b, hab, Nat.lt_succ_self b, hfree.empty hn⟩
      obtain ⟨hcall, hx⟩ := step_of_go (g := g) (c := after g c es b) (t := t) spurious
      refine ⟨_, ?_, hcall.symm ▸ hstage.step hnot hnow spurious⟩
      rw [hx, hxs, List.append_assoc, hcall]
    · obtain ⟨hcall, hx⟩ := step_of_other (g := g) hnot fun spurious hs => hgo ⟨spurious, hs⟩
      exact ⟨xs, hx.trans hxs, hcall.symm ▸ hstage⟩

/-- **The free list is a stack**: whatever any number of threads do with a new pool, in whatever
order their steps come, the exchanges of the head are a history of a stack, and the calls answer
what a stack would have answered at a moment at which they were under way. -/
theorem linearizable_run {p : Pool} {m : Memory} (h : New p m) {es : List (Event ι)}
    (ht : Timely p.slots (start (p.shared m)) es) :
    Linearizable p.slots (start (p.shared m)) es := by
  have hinv : ∀ n, ∃ free, Inv p.slots (after p.slots (start (p.shared m)) es n) free :=
    fun n => inv_run h (ht.take n)
  refine ⟨fun n => ?_, fun t first a b hs => ?_⟩
  · obtain ⟨free, hfree⟩ := hinv n
    rw [hfree.freeSlots_eq]
    exact hfree.replayed
  · obtain ⟨e, he, hb⟩ := hs.begins
    obtain ⟨xs, hxs, hstage⟩ := stage_of_spans hinv he hb hs.lt hs.le hs.pending
    exact ⟨xs, hxs, hstage.explained hs.ended⟩

/-- Two threads at a pool of two slots. The first one is overtaken and has to try again, which
leaves the pool empty. The second one asks again and sees the empty pool, and learns of it only
after the first one has given back the slot that the second one took. -/
def emptied : List (Event Bool) :=
  [.take false, .go false false, .go false false,
    .take true, .go true false, .go true false, .go true false, .go true false,
    .go false false, .go false false, .go false false, .go false false, .go false false,
    .take true, .go true false,
    .give false 0, .go false false, .go false false, .go false false, .go false false,
    .go true false]

theorem spans_emptied : Spans twoSlots.slots pair emptied true .acquire 13 21 where
  begins := ⟨.take true, rfl, .take (by decide)⟩
  lt := by decide
  le := by decide
  pending n h1 h2 :=
    (by decide : ∀ n < 21, 13 < n → ¬ ((after twoSlots.slots pair emptied n).call true).isDone)
      n h2 h1
  ended := by decide

theorem linearizable_emptied :
    New twoSlots (linkSlots twoSlots.slots .zero) ∧ Timely twoSlots.slots pair emptied ∧
      Spans twoSlots.slots pair emptied true .acquire 13 21 ∧
      (after twoSlots.slots pair emptied 21).call true = .exhausted ∧
      Linearizable twoSlots.slots pair emptied :=
  ⟨new_twoSlots, timely_of_lt (by decide), spans_emptied, by decide,
    linearizable_run new_twoSlots (timely_of_lt (by decide))⟩

end Crew
end Slab.Pool
