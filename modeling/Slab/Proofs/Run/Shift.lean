import Mathlib.Algebra.BigOperators.Fin
import Slab.Run.Basic

/-!
# Workers at the same time

The workers of a run go through their cycles at the same time, so their steps interleave in any
order. However they do, the counters of the pool count what the workers have done.

* `Shift n`: what `n` workers share and where each of them is;
* `Shift.step`, `Shift.run`: one step of one of them, and a schedule of steps;
* `Worker.Sound`: a cycle that is over has run or was dropped;
* `Worker.Outcome`, `Worker.step_outcome`: what one step of a worker can do;
* `Worker.took`, `Worker.gave`, `Worker.missed`: how often a worker has made a counter count;
* `Shift.Tallied`: a counter is the sum of what the workers have done, with `Tallied.step`;
* `Shift.Books`, `Shift.Books.run`: **every schedule keeps the books**.
-/

namespace Slab

/-- Whether the call is one to take a slot. -/
def Pool.Call.isTaking : Pool.Call → Bool
  | acquire | acquireSeen _ | acquireLinked _ _ | acquireLost _ | acquireWon _ | acquired _
  | exhausted => true
  | _ => false

theorem Pool.Call.isTaking_step (g : Pool.Slots) (spurious : Bool) (s : Pool.Shared)
    (call : Pool.Call) : (call.step g spurious s).2.isTaking = call.isTaking := by
  cases call with
  | acquireSeen h =>
    simp only [step]
    split <;> rfl
  | acquireLinked h next =>
    simp only [step]
    split <;> rfl
  | releaseLinked i h =>
    simp only [step]
    split <;> rfl
  | _ => rfl

/-- What one step of a call to take a slot counts. -/
theorem Pool.Call.counters_of_taking (call : Pool.Call) (htaking : call.isTaking = true)
    (hpending : call.isDone = false) (g : Pool.Slots) (spurious : Bool) (s : Pool.Shared) :
    (call.step g spurious s).1.counters.acquired = s.counters.acquired +
        UInt64.ofNat (if (call.step g spurious s).2.slot?.isSome then 1 else 0) ∧
      (call.step g spurious s).1.counters.released = s.counters.released ∧
      (call.step g spurious s).1.counters.exhausted = s.counters.exhausted +
        UInt64.ofNat (if (call.step g spurious s).2 = .exhausted then 1 else 0) := by
  cases call with
  | acquireSeen h => by_cases hn : h.index = nil <;> simp [step, slot?, hn]
  | acquireLinked h next =>
    by_cases hs : s.head = h ∧ spurious = false <;> simp [step, slot?, hs]
  | acquire | acquireLost _ | acquireWon _ => simp [step, slot?]
  | acquired _ | exhausted | released => cases hpending
  | release _ | releaseSeen _ _ | releaseLinked _ _ | releaseLost _ _ | releaseWon _ =>
    cases htaking

/-- What one step of a call to give a slot back counts. -/
theorem Pool.Call.counters_of_giving (call : Pool.Call) (hgiving : call.isTaking = false)
    (hpending : call.isDone = false) (g : Pool.Slots) (spurious : Bool) (s : Pool.Shared) :
    (call.step g spurious s).1.counters.acquired = s.counters.acquired ∧
      (call.step g spurious s).1.counters.released = s.counters.released +
        UInt64.ofNat (if (call.step g spurious s).2 = .released then 1 else 0) ∧
      (call.step g spurious s).1.counters.exhausted = s.counters.exhausted := by
  cases call with
  | releaseLinked i h => by_cases hs : s.head = h ∧ spurious = false <;> simp [step, hs]
  | release _ | releaseSeen _ _ | releaseLost _ _ | releaseWon _ => simp [step]
  | acquired _ | exhausted | released => cases hpending
  | acquire | acquireSeen _ | acquireLinked _ _ | acquireLost _ | acquireWon _ => cases hgiving

theorem Pool.Call.slot?_of_pending (call : Pool.Call) (hpending : call.isDone = false) :
    call.slot? = none := by
  cases call <;> first | rfl | cases hpending

namespace Run

/-! ### One worker -/

namespace Worker

variable {g : Pool.Slots} {iterations : ℕ} {c : Chance} {f f' : Floor} {w w' : Worker}

/-- The cycles so far are accounted for, and the worker makes no call but those of its phase. -/
structure Sound (iterations : ℕ) (w : Worker) : Prop where
  total : w.cycles + w.dropped = w.seq + if w.phase = .ending then 1 else 0
  seq_le : w.seq ≤ iterations
  busy : w.phase ≠ .ready → w.seq < iterations
  taking : ∀ call, w.phase = .taking call → call.isTaking = true
  giving : ∀ call, w.phase = .giving call → call.isTaking = false

theorem sound_new (iterations index : ℕ) : Sound iterations { index } :=
  ⟨rfl, Nat.zero_le _, fun h => absurd rfl h, by simp, by simp⟩

/-- The bytes of the order that the worker writes in its cycle. -/
def payload (w : Worker) : List UInt8 := Element.order.encode (.order (orderOf w.index w.seq))

/-- What one step of a worker can do. -/
inductive Outcome (g : Pool.Slots) (iterations : ℕ) (c : Chance) (f : Floor) (w : Worker) :
    Floor → Worker → Prop
  /-- No cycle is left. -/
  | rest (hphase : w.phase = .ready) (hle : iterations ≤ w.seq) : Outcome g iterations c f w f w
  | start (hphase : w.phase = .ready) (hlt : w.seq < iterations) :
      Outcome g iterations c f w f { w with phase := .taking .acquire }
  | take {call : Pool.Call} (hphase : w.phase = .taking call) (hpending : call.isDone = false) :
      Outcome g iterations c f w { f with shared := (call.step g c.spurious f.shared).1 }
        { w with phase := .taking (call.step g c.spurious f.shared).2 }
  | hold {slot : UInt32} (hphase : w.phase = .taking (.acquired slot)) :
      Outcome g iterations c f w f { w with phase := .holding slot }
  | drop (hphase : w.phase = .taking .exhausted) :
      Outcome g iterations c f w f
        { w with seq := w.seq + 1, dropped := w.dropped + 1, phase := .ready }
  | fill {slot : UInt32} (hphase : w.phase = .holding slot) :
      Outcome g iterations c f w
        { f with shared.memory := f.shared.memory.write (g.place slot) w.payload }
        { w with phase := .giving (.release slot) }
  | give {call : Pool.Call} (hphase : w.phase = .giving call) (hpending : call.isDone = false) :
      Outcome g iterations c f w { f with shared := (call.step g c.spurious f.shared).1 }
        { w with phase := .giving (call.step g c.spurious f.shared).2 }
  | gave (hphase : w.phase = .giving .released) :
      Outcome g iterations c f w f { w with cycles := w.cycles + 1, phase := .ending }
  | finish {times : Metrics.Histogram} (hphase : w.phase = .ending)
      (htimes : times.count = f.recorder.cycles.count +
        if w.seq % sampleEvery = 0 then 1 else 0) :
      Outcome g iterations c f w { f with recorder.cycles := times }
        { w with seq := w.seq + 1, phase := .ready }

/-- **Every step of a worker has one of these outcomes.** -/
theorem step_outcome (h : w.Sound iterations) (c : Chance) (f : Floor) :
    Outcome g iterations c f w (w.step g iterations c f).1 (w.step g iterations c f).2 := by
  unfold step
  cases hphase : w.phase with
  | ready =>
    by_cases hlt : w.seq < iterations
    · simp only [if_pos hlt]
      exact .start hphase hlt
    · simp only [if_neg hlt]
      exact .rest hphase (Nat.le_of_not_lt hlt)
  | taking call =>
    have htaking := h.taking call hphase
    cases call with
    | acquired slot => exact .hold hphase
    | exhausted => exact .drop hphase
    | acquire | acquireSeen _ | acquireLinked _ _ | acquireLost _ | acquireWon _ =>
      exact .take hphase rfl
    | release _ | releaseSeen _ _ | releaseLinked _ _ | releaseLost _ _ | releaseWon _ | released =>
      cases htaking
  | holding slot => exact .fill hphase
  | giving call =>
    have hgiving := h.giving call hphase
    cases call with
    | released => exact .gave hphase
    | release _ | releaseSeen _ _ | releaseLinked _ _ | releaseLost _ _ | releaseWon _ =>
      exact .give hphase rfl
    | acquire | acquireSeen _ | acquireLinked _ _ | acquireLost _ | acquireWon _ | acquired _
    | exhausted => cases hgiving
  | ending =>
    by_cases hmod : w.seq % sampleEvery = 0
    · simp only [if_pos hmod]
      exact .finish hphase (by rw [if_pos hmod]; rfl)
    · simp only [if_neg hmod]
      refine @Outcome.finish g iterations c f w f.recorder.cycles hphase ?_
      rw [if_neg hmod, UInt64.add_zero]

theorem Sound.step (h : w.Sound iterations) (ho : Outcome g iterations c f w f' w') :
    w'.Sound iterations := by
  have htotal := h.total
  have hle := h.seq_le
  have hbusy := h.busy
  cases ho with
  | rest => exact h
  | start hphase hlt =>
    refine ⟨?_, hle, fun _ => hlt, ?_, by simp⟩
    · simpa [hphase] using htotal
    · rintro call ⟨⟩
      rfl
  | take hphase hpending =>
    have hlt := hbusy (by simp [hphase])
    refine ⟨?_, hle, fun _ => hlt, ?_, by simp⟩
    · simpa [hphase] using htotal
    · rintro call ⟨⟩
      rw [Pool.Call.isTaking_step]
      exact h.taking _ hphase
  | hold hphase =>
    have hlt := hbusy (by simp [hphase])
    refine ⟨?_, hle, fun _ => hlt, by simp, by simp⟩
    simpa [hphase] using htotal
  | drop hphase =>
    have hlt := hbusy (by simp [hphase])
    refine ⟨?_, hlt, fun hn => absurd rfl hn, by simp, by simp⟩
    simp only [hphase, reduceCtorEq, if_false, Nat.add_zero] at htotal ⊢
    omega
  | fill hphase =>
    have hlt := hbusy (by simp [hphase])
    refine ⟨?_, hle, fun _ => hlt, by simp, ?_⟩
    · simpa [hphase] using htotal
    · rintro call ⟨⟩
      rfl
  | give hphase hpending =>
    have hlt := hbusy (by simp [hphase])
    refine ⟨?_, hle, fun _ => hlt, by simp, ?_⟩
    · simpa [hphase] using htotal
    · rintro call ⟨⟩
      rw [Pool.Call.isTaking_step]
      exact h.giving _ hphase
  | gave hphase =>
    have hlt := hbusy (by simp [hphase])
    refine ⟨?_, hle, fun _ => hlt, by simp, by simp⟩
    simp only [hphase, reduceCtorEq, if_false, if_true, Nat.add_zero] at htotal ⊢
    omega
  | finish hphase htimes =>
    have hlt := hbusy (by simp [hphase])
    refine ⟨?_, hlt, fun hn => absurd rfl hn, by simp, by simp⟩
    simpa [hphase] using htotal

/-! ### What a worker makes the counters count -/

/-- Slots that the worker has taken and the pool has counted. -/
def took (w : Worker) : ℕ :=
  w.cycles + match w.phase with
    | .taking call => if call.slot?.isSome then 1 else 0
    | .holding _ | .giving _ => 1
    | _ => 0

/-- Slots that the worker has given back and the pool has counted. -/
def gave (w : Worker) : ℕ :=
  w.cycles + match w.phase with
    | .giving call => if call = .released then 1 else 0
    | _ => 0

/-- Requests of the worker that found no free slot. -/
def missed (w : Worker) : ℕ :=
  w.dropped + match w.phase with
    | .taking call => if call = .exhausted then 1 else 0
    | _ => 0

/-- Cycles of the worker that are over and whose turn it was to be timed. -/
def samples (w : Worker) : ℕ := (w.seq + (sampleEvery - 1)) / sampleEvery

/-- A word counts what workers do: a step adds the same to both. -/
def Adds (word : Floor → UInt64) (count : Worker → ℕ) (f : Floor) (w : Worker) (f' : Floor)
    (w' : Worker) : Prop :=
  ∃ k, count w' = count w + k ∧ word f' = word f + UInt64.ofNat k

theorem adds_zero {word : Floor → UInt64} {count : Worker → ℕ} (hcount : count w' = count w)
    (hword : word f' = word f) : Adds word count f w f' w' :=
  ⟨0, hcount, by rw [hword]; exact (UInt64.add_zero _).symm⟩

/-- The pool counts a slot as taken when a worker has taken it. -/
theorem adds_took (h : w.Sound iterations) (ho : Outcome g iterations c f w f' w') :
    Adds (fun f => f.shared.counters.acquired) took f w f' w' := by
  cases ho with
  | @take call hphase hpending =>
    obtain ⟨hcounted, -, -⟩ :=
      call.counters_of_taking (h.taking call hphase) hpending g c.spurious f.shared
    refine ⟨_, ?_, hcounted⟩
    simp [took, hphase, call.slot?_of_pending hpending]
  | @give call hphase hpending =>
    obtain ⟨hcounted, -, -⟩ :=
      call.counters_of_giving (h.giving call hphase) hpending g c.spurious f.shared
    exact adds_zero (by simp [took, hphase]) hcounted
  | rest | start hphase | hold hphase | drop hphase | fill hphase | gave hphase | finish hphase =>
    exact adds_zero (by simp [took, *, Pool.Call.slot?]) rfl

/-- The pool counts a slot as given back when a worker has given it back. -/
theorem adds_gave (h : w.Sound iterations) (ho : Outcome g iterations c f w f' w') :
    Adds (fun f => f.shared.counters.released) gave f w f' w' := by
  cases ho with
  | @take call hphase hpending =>
    obtain ⟨-, hcounted, -⟩ :=
      call.counters_of_taking (h.taking call hphase) hpending g c.spurious f.shared
    exact adds_zero (by simp [gave, hphase]) hcounted
  | @give call hphase hpending =>
    obtain ⟨-, hcounted, -⟩ :=
      call.counters_of_giving (h.giving call hphase) hpending g c.spurious f.shared
    refine ⟨_, ?_, hcounted⟩
    have hne : call ≠ .released := by
      rintro rfl
      cases hpending
    simp [gave, hphase, hne]
  | rest | start hphase | hold hphase | drop hphase | fill hphase | gave hphase | finish hphase =>
    exact adds_zero (by simp [gave, *]) rfl

/-- The pool counts a request that found no free slot when a worker has learned of it. -/
theorem adds_missed (h : w.Sound iterations) (ho : Outcome g iterations c f w f' w') :
    Adds (fun f => f.shared.counters.exhausted) missed f w f' w' := by
  cases ho with
  | @take call hphase hpending =>
    obtain ⟨-, -, hcounted⟩ :=
      call.counters_of_taking (h.taking call hphase) hpending g c.spurious f.shared
    refine ⟨_, ?_, hcounted⟩
    have hne : call ≠ .exhausted := by
      rintro rfl
      cases hpending
    simp [missed, hphase, hne]
  | @give call hphase hpending =>
    obtain ⟨-, -, hcounted⟩ :=
      call.counters_of_giving (h.giving call hphase) hpending g c.spurious f.shared
    exact adds_zero (by simp [missed, hphase]) hcounted
  | rest | start hphase | hold hphase | drop hphase | fill hphase | gave hphase | finish hphase =>
    exact adds_zero (by simp [missed, *]) rfl

/-- The times are counted that a worker records, if none of its cycles is dropped. -/
theorem adds_samples (hserved : w.phase ≠ .taking .exhausted)
    (ho : Outcome g iterations c f w f' w') :
    Adds (fun f => f.recorder.cycles.count) samples f w f' w' := by
  cases ho with
  | drop hphase => exact absurd hphase hserved
  | finish hphase htimes =>
    refine ⟨if w.seq % sampleEvery = 0 then 1 else 0, ?_, htimes.trans (congrArg _ ?_)⟩
    · by_cases hmod : w.seq % sampleEvery = 0
      · rw [if_pos hmod]
        simp only [samples, sampleEvery] at hmod ⊢
        omega
      · rw [if_neg hmod]
        simp only [samples, sampleEvery] at hmod ⊢
        omega
    · split <;> rfl
  | rest | start | take | hold | fill | give | gave => exact adds_zero rfl rfl

/-- A step records nothing but times. -/
theorem recorder_of_outcome (ho : Outcome g iterations c f w f' w') (times : Metrics.Histogram) :
    { f'.recorder with cycles := times } = { f.recorder with cycles := times } := by
  cases ho <;> rfl

end Worker

/-! ### All workers -/

/-- What `n` workers share, and where each of them is. -/
structure Shift (n : ℕ) where
  floor : Floor
  worker : Fin n → Worker

namespace Shift

variable {n : ℕ}

/-- Nobody has begun yet. -/
def opening (n : ℕ) (f : Floor) : Shift n := ⟨f, fun i => { index := i }⟩

/-- One step of one of the workers, with what chance decides about it. -/
def step (g : Pool.Slots) (iterations : ℕ) (s : Shift n) (e : Fin n × Chance) : Shift n :=
  let (floor, w) := (s.worker e.1).step g iterations e.2 s.floor
  ⟨floor, Function.update s.worker e.1 w⟩

theorem floor_step (g : Pool.Slots) (iterations : ℕ) (s : Shift n) (e : Fin n × Chance) :
    (s.step g iterations e).floor = ((s.worker e.1).step g iterations e.2 s.floor).1 := rfl

theorem worker_step (g : Pool.Slots) (iterations : ℕ) (s : Shift n) (e : Fin n × Chance) :
    (s.step g iterations e).worker =
      Function.update s.worker e.1 ((s.worker e.1).step g iterations e.2 s.floor).2 := rfl

theorem worker_step_self (g : Pool.Slots) (iterations : ℕ) (s : Shift n) (e : Fin n × Chance) :
    (s.step g iterations e).worker e.1 = ((s.worker e.1).step g iterations e.2 s.floor).2 :=
  Function.update_self _ _ _

theorem worker_step_of_ne (g : Pool.Slots) (iterations : ℕ) (s : Shift n) {e : Fin n × Chance}
    {i : Fin n} (h : i ≠ e.1) : (s.step g iterations e).worker i = s.worker i :=
  Function.update_of_ne h _ _

/-- What holds of every worker still does, if it holds of the one that has made the step. -/
theorem forall_worker_step {motive : Worker → Prop} {g : Pool.Slots} {iterations : ℕ} {s : Shift n}
    {e : Fin n × Chance} (h : ∀ i, motive (s.worker i))
    (he : motive ((s.worker e.1).step g iterations e.2 s.floor).2) (i : Fin n) :
    motive ((s.step g iterations e).worker i) := by
  by_cases hi : i = e.1
  · rw [hi, worker_step_self]
    exact he
  · rw [worker_step_of_ne g iterations s hi]
    exact h i

/-- A schedule of steps. -/
def run (g : Pool.Slots) (iterations : ℕ) (s : Shift n) (es : List (Fin n × Chance)) : Shift n :=
  es.foldl (step g iterations) s

@[simp] theorem run_nil (g : Pool.Slots) (iterations : ℕ) (s : Shift n) :
    run g iterations s [] = s := rfl

@[simp] theorem run_cons (g : Pool.Slots) (iterations : ℕ) (s : Shift n) (e : Fin n × Chance)
    (es : List (Fin n × Chance)) :
    run g iterations s (e :: es) = run g iterations (s.step g iterations e) es := rfl

/-- All workers are through with their cycles. -/
def Complete (iterations : ℕ) (s : Shift n) : Prop := ∀ i, (s.worker i).isDone iterations

instance (iterations : ℕ) (s : Shift n) : Decidable (s.Complete iterations) :=
  inferInstanceAs (Decidable (∀ i, (s.worker i).isDone iterations))

/-- A word is the sum of what the workers have done. -/
def Tallied (word : Floor → UInt64) (count : Worker → ℕ) (s : Shift n) : Prop :=
  word s.floor = UInt64.ofNat (∑ i, count (s.worker i))

theorem sum_update {α : Type} {count : α → ℕ} {v : Fin n → α} {i : Fin n} {x : α} {k : ℕ}
    (h : count x = count (v i) + k) :
    ∑ j, count (Function.update v i x j) = (∑ j, count (v j)) + k := by
  have hterm : ∀ j, count (Function.update v i x j) = count (v j) + if j = i then k else 0 := by
    intro j
    by_cases hj : j = i
    · subst hj
      rw [Function.update_self, if_pos rfl, h]
    · rw [Function.update_of_ne hj, if_neg hj, Nat.add_zero]
  simp [hterm, Finset.sum_add_distrib]

theorem Tallied.step {word : Floor → UInt64} {count : Worker → ℕ} {s : Shift n}
    (h : s.Tallied word count) {g : Pool.Slots} {iterations : ℕ} {e : Fin n × Chance}
    (hadds : Worker.Adds word count s.floor (s.worker e.1)
      ((s.worker e.1).step g iterations e.2 s.floor).1
      ((s.worker e.1).step g iterations e.2 s.floor).2) :
    (s.step g iterations e).Tallied word count := by
  obtain ⟨k, hcount, hword⟩ := hadds
  rw [Tallied, floor_step, worker_step, sum_update hcount, UInt64.ofNat_add, hword, h]

/-- What holds of every shift with a new pool and the recorder `r`: the counters count what the
workers have done, and nothing but times has been recorded. -/
structure Books (iterations : ℕ) (r : Metrics.Recorder) (s : Shift n) : Prop where
  sound : ∀ i, (s.worker i).Sound iterations
  acquired : s.Tallied (fun f => f.shared.counters.acquired) Worker.took
  released : s.Tallied (fun f => f.shared.counters.released) Worker.gave
  exhausted : s.Tallied (fun f => f.shared.counters.exhausted) Worker.missed
  recorder : { s.floor.recorder with cycles := r.cycles } = r

theorem books_opening {f : Floor} (hnew : f.shared.counters = {}) (iterations : ℕ) :
    (opening n f).Books iterations f.recorder where
  sound i := Worker.sound_new iterations i
  acquired := by simp [Tallied, opening, Worker.took, hnew]
  released := by simp [Tallied, opening, Worker.gave, hnew]
  exhausted := by simp [Tallied, opening, Worker.missed, hnew]
  recorder := rfl

theorem Books.step {iterations : ℕ} {r : Metrics.Recorder} {s : Shift n} (h : s.Books iterations r)
    (g : Pool.Slots) (e : Fin n × Chance) : (s.step g iterations e).Books iterations r := by
  have hsound := h.sound e.1
  have ho := Worker.step_outcome (g := g) hsound e.2 s.floor
  exact
    { sound := forall_worker_step h.sound (hsound.step ho)
      acquired := h.acquired.step (Worker.adds_took hsound ho)
      released := h.released.step (Worker.adds_gave hsound ho)
      exhausted := h.exhausted.step (Worker.adds_missed hsound ho)
      recorder := (Worker.recorder_of_outcome ho r.cycles).trans h.recorder }

/-- **Every schedule keeps the books.** -/
theorem Books.run {iterations : ℕ} {r : Metrics.Recorder} {s : Shift n} (h : s.Books iterations r)
    (g : Pool.Slots) (es : List (Fin n × Chance)) :
    (s.run g iterations es).Books iterations r := by
  induction es generalizing s with
  | nil => exact h
  | cons e es ih => exact ih (h.step g e)

end Shift
end Run
end Slab
