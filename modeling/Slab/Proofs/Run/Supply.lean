import Slab.Proofs.Pool.Conservation
import Slab.Proofs.Run.Shift

/-!
# Enough slots for everybody

A worker has at most one slot at a time. So a pool with no fewer slots than there are workers has a
free slot whenever a worker looks for one, and no cycle is ever dropped.

* `Worker.asks`, `Shift.asks`: what the pool sees of a step and of a schedule;
* `Phase.kept?`: the slot that a worker holds;
* `Tracks`: a shift as the pool sees it, with `Tracks.step`;
* `Tracks.head_ne_nil`: there is a free slot for a worker that has none;
* `Worker.Served`: a worker that has never found the pool empty;
* `Supplied`, `Supplied.run`: **nobody ever finds the pool empty**.
-/

namespace Slab

/-! ### Calls -/

/-- A call has a slot for its caller from the step on that hands it over. -/
theorem Pool.Call.slot?_step (call : Pool.Call) (hpending : call.isDone = false) (g : Pool.Slots)
    (spurious : Bool) (s : Pool.Shared) : (call.step g spurious s).2.slot? = call.handed? := by
  cases call with
  | acquireSeen h =>
    simp only [step]
    split <;> rfl
  | acquireLinked h next =>
    simp only [step]
    split <;> rfl
  | releaseLinked i h =>
    simp only [step]
    split <;> rfl
  | acquired _ | exhausted | released => cases hpending
  | _ => rfl

theorem Pool.Call.owned?_of_handed {call : Pool.Call} {i : UInt32} (h : call.handed? = some i) :
    call.owned? = some i := by
  cases call <;> first | exact h | cases h

/-- The call has not been shown an empty free list. -/
def Pool.Call.Hopeful : Pool.Call → Prop
  | acquireSeen h | acquireLost h => h.index ≠ nil
  | exhausted => False
  | _ => True

/-- A call stays so if the free list is not empty when it looks at the head. -/
theorem Pool.Call.Hopeful.step {call : Pool.Call} (h : call.Hopeful) {s : Pool.Shared}
    (hhead : call.looks = true → s.head.index ≠ nil) (g : Pool.Slots) (spurious : Bool) :
    (call.step g spurious s).2.Hopeful := by
  cases call with
  | acquire => exact hhead rfl
  | acquireSeen hd =>
    simp only [Call.step, if_neg (show hd.index ≠ nil from h)]
    trivial
  | acquireLinked hd next =>
    have hne := hhead rfl
    by_cases hs : s.head = hd ∧ spurious = false
    · simp only [Call.step, if_pos hs]
      trivial
    · simp only [Call.step, if_neg hs]
      exact hne
  | releaseLinked i hd =>
    simp only [Call.step]
    split <;> trivial
  | acquireLost hd => exact h
  | exhausted => cases h
  | acquireWon _ | acquired _ | release _ | releaseSeen _ _ | releaseLost _ _ | releaseWon _
  | released => trivial

namespace Run

open Pool (Crew)

variable {n : ℕ} {g : Pool.Slots} {iterations : ℕ}

/-! ### What the pool sees -/

/-- Bytes that are written into a slot, the first of them as byte `k`. -/
def fill {ι : Type} (slot : UInt32) : ℕ → List UInt8 → List (Crew.Event ι)
  | _, [] => []
  | k, v :: vs => .write slot k v :: fill slot (k + 1) vs

/-- What the pool sees of a step of a worker, who is its thread `t`. -/
def Worker.asks {ι : Type} (iterations : ℕ) (c : Chance) (t : ι) (w : Worker) :
    List (Crew.Event ι) :=
  match w.phase with
  | .ready => if w.seq < iterations then [.take t] else []
  | .taking call | .giving call => if call.isDone then [] else [.go t c.spurious]
  | .holding slot => fill slot 0 w.payload ++ [.give t slot]
  | .ending => []

/-- What the pool sees of a schedule. -/
def Shift.asks (g : Pool.Slots) (iterations : ℕ) :
    Shift n → List (Fin n × Chance) → List (Crew.Event (Fin n))
  | _, [] => []
  | s, e :: es =>
    (s.worker e.1).asks iterations e.2 e.1 ++ asks g iterations (s.step g iterations e) es

/-- Writing bytes into a held slot is writing them into memory. -/
theorem run_fill {ι : Type} [DecidableEq ι] {c : Crew ι} {slot : UInt32} (hslot : slot ∈ c.held)
    {k : ℕ} {vs : List UInt8} (hlen : k + vs.length ≤ g.slotSize) :
    c.run g (fill slot k vs) =
      { c with shared.memory := c.shared.memory.write (g.place slot + k) vs } := by
  induction vs generalizing k c with
  | nil => rfl
  | cons v vs ih =>
    rw [List.length_cons] at hlen
    rw [fill, Crew.run_cons, Crew.step, if_pos ⟨hslot, by omega⟩]
    exact ih (c := { c with shared.memory := c.shared.memory.store (g.place slot + k) v }) hslot
      (by omega)

theorem length_payload (w : Worker) : w.payload.length = Order.size :=
  Element.length_encode _ _

/-! ### A shift as the pool sees it -/

/-- The slot that a worker holds. -/
def Phase.kept? : Phase → Option UInt32
  | taking call => call.slot?
  | holding slot => some slot
  | _ => none

/-- The call that the pool sees is that of the phase, or has ended. -/
def Phase.Agrees : Phase → Pool.Call → Prop
  | taking call, x | giving call, x => x = call
  | _, x => x.isDone = true

/-- A shift as the pool sees it: the threads make the calls of the workers, and the slots that are
out and in the hands of callers are those that the workers hold. -/
structure Tracks (s : Shift n) (c : Crew (Fin n)) : Prop where
  shared : c.shared = s.floor.shared
  calls : ∀ i, (s.worker i).phase.Agrees (c.call i)
  owners : Pool.Owners [] (fun i => (s.worker i).phase.kept?) c.held

namespace Tracks

variable {s : Shift n} {c c' : Crew (Fin n)}

/-- One worker has gone on, and the others have not. -/
theorem next (h : Tracks s c) {t : Fin n} {f : Floor} {w : Worker} {x : Pool.Call}
    (hshared : c'.shared = f.shared) (hcall : c'.call = Function.update c.call t x)
    (hagrees : w.phase.Agrees x)
    (howners : Pool.Owners []
      (Function.update (fun i => (s.worker i).phase.kept?) t w.phase.kept?) c'.held) :
    Tracks ⟨f, Function.update s.worker t w⟩ c' where
  shared := hshared
  calls i := by
    rw [hcall]
    show (Function.update s.worker t w i).phase.Agrees _
    rcases eq_or_ne i t with rfl | hne
    · rw [Function.update_self, Function.update_self]
      exact hagrees
    · rw [Function.update_of_ne hne, Function.update_of_ne hne]
      exact h.calls i
  owners := by
    have he : (fun i => (Function.update s.worker t w i).phase.kept?) =
        Function.update (fun i => (s.worker i).phase.kept?) t w.phase.kept? := by
      funext i
      rcases eq_or_ne i t with rfl | hne
      · rw [Function.update_self, Function.update_self]
      · rw [Function.update_of_ne hne, Function.update_of_ne hne]
    show Pool.Owners [] (fun i => (Function.update s.worker t w i).phase.kept?) _
    rw [he]
    exact howners

/-- A worker goes on with the same slot in its hands, or with none as before. -/
theorem keep (h : Tracks s c) {t : Fin n} {f : Floor} {w : Worker} {x : Pool.Call}
    (hshared : c'.shared = f.shared) (hcall : c'.call = Function.update c.call t x)
    (hagrees : w.phase.Agrees x) (hheld : c'.held = c.held)
    (hkept : w.phase.kept? = (s.worker t).phase.kept?) :
    Tracks ⟨f, Function.update s.worker t w⟩ c' := by
  refine h.next hshared hcall hagrees ?_
  rw [hheld, hkept, Function.update_eq_self]
  exact h.owners

/-- The pool sees nothing of what a worker does. -/
theorem unseen (h : Tracks s c) {t : Fin n} {f : Floor} {w : Worker}
    (hshared : f.shared = s.floor.shared) (hagrees : w.phase.Agrees (c.call t))
    (hkept : w.phase.kept? = (s.worker t).phase.kept?) :
    Tracks ⟨f, Function.update s.worker t w⟩ c :=
  h.keep (h.shared.trans hshared.symm) (Function.update_eq_self t c.call).symm hagrees rfl hkept

/-- A worker goes one step further in taking a slot. -/
theorem take (h : Tracks s c) {free : List UInt32} (hinv : Crew.Inv g c free) {t : Fin n}
    {spurious : Bool} {call : Pool.Call} (hphase : (s.worker t).phase = .taking call)
    (hpending : call.isDone = false) :
    Tracks ⟨{ s.floor with shared := (call.step g spurious s.floor.shared).1 },
        Function.update s.worker t
          { s.worker t with phase := .taking (call.step g spurious s.floor.shared).2 }⟩
      (c.go g t spurious) := by
  have hcall := h.calls t
  simp only [hphase, Phase.Agrees] at hcall
  have hnone : (s.worker t).phase.kept? = none := by
    rw [hphase]
    exact call.slot?_of_pending hpending
  rw [Crew.go, hcall, h.shared]
  refine h.next rfl rfl rfl ?_
  show Pool.Owners [] (Function.update _ t (call.step g spurious s.floor.shared).2.slot?)
    ((c.call t).handed?.toList ++ c.held)
  rw [call.slot?_step hpending, hcall]
  cases hh : call.handed? with
  | none =>
    have hsame := Function.update_eq_self t fun i => (s.worker i).phase.kept?
    simp only [hnone] at hsame
    rw [hsame]
    exact h.owners
  | some i =>
    -- the slot was in the hands of the call, so nobody held it
    have howned : (c.call t).owned? = some i := by
      rw [hcall]
      exact Pool.Call.owned?_of_handed hh
    exact h.owners.pop hnone (hinv.owners.not_held t i howned)

/-- A worker goes one step further in giving a slot back. -/
theorem give (h : Tracks s c) {t : Fin n} {spurious : Bool} {call : Pool.Call}
    (hphase : (s.worker t).phase = .giving call) (hgiving : call.isTaking = false) :
    Tracks ⟨{ s.floor with shared := (call.step g spurious s.floor.shared).1 },
        Function.update s.worker t
          { s.worker t with phase := .giving (call.step g spurious s.floor.shared).2 }⟩
      (c.go g t spurious) := by
  have hcall := h.calls t
  simp only [hphase, Phase.Agrees] at hcall
  have hhand : (c.call t).handed? = none := by
    rw [hcall]
    cases call <;> first | rfl | cases hgiving
  rw [Crew.go, hcall, h.shared]
  exact h.keep rfl rfl rfl (Crew.held_advance c hhand _ _) (by rw [hphase]; rfl)

/-- A worker fills its slot and begins to give it back. -/
theorem fill (h : Tracks s c) {free : List UInt32} (hinv : Crew.Inv g c free)
    (hsize : Order.size ≤ g.slotSize) {t : Fin n} {slot : UInt32}
    (hphase : (s.worker t).phase = .holding slot) :
    Tracks ⟨{ s.floor with shared.memory :=
          s.floor.shared.memory.write (g.place slot) (s.worker t).payload },
        Function.update s.worker t { s.worker t with phase := .giving (.release slot) }⟩
      (c.run g (Run.fill slot 0 (s.worker t).payload ++ [.give t slot])) := by
  have hcall := h.calls t
  simp only [hphase, Phase.Agrees] at hcall
  have hkept : (s.worker t).phase.kept? = some slot := by rw [hphase]; rfl
  have hslot : slot ∈ c.held := h.owners.mem_of_owned hkept
  have hlen : 0 + (s.worker t).payload.length ≤ g.slotSize := by
    rw [length_payload]
    omega
  rw [Crew.run_append, run_fill hslot hlen, Crew.run_cons, Crew.run_nil, Crew.step,
    if_pos ⟨hcall, hslot⟩, h.shared]
  exact h.next rfl rfl rfl (h.owners.push hinv.owners.held_nodup hkept)

/-- **A step of a worker is what the pool sees of it.** -/
theorem step (h : Tracks s c) {free : List UInt32} (hinv : Crew.Inv g c free)
    (hsize : Order.size ≤ g.slotSize) {e : Fin n × Chance}
    (hsound : (s.worker e.1).Sound iterations) :
    Tracks (s.step g iterations e) (c.run g ((s.worker e.1).asks iterations e.2 e.1)) := by
  have ho := Worker.step_outcome (g := g) hsound e.2 s.floor
  have hcall := h.calls e.1
  show Tracks ⟨((s.worker e.1).step g iterations e.2 s.floor).1,
    Function.update s.worker e.1 ((s.worker e.1).step g iterations e.2 s.floor).2⟩ _
  generalize ((s.worker e.1).step g iterations e.2 s.floor).1 = f at ho ⊢
  generalize ((s.worker e.1).step g iterations e.2 s.floor).2 = w at ho ⊢
  unfold Worker.asks
  cases ho with
  | rest hphase hle =>
    simp only [hphase, if_neg (Nat.not_lt.2 hle)]
    exact h.unseen rfl hcall rfl
  | start hphase hlt =>
    simp only [hphase, Phase.Agrees] at hcall
    simp only [hphase, if_pos hlt, Crew.run_cons, Crew.step, hcall, if_true]
    exact h.keep h.shared rfl rfl rfl (by rw [hphase]; rfl)
  | take hphase hpending =>
    simp only [hphase, hpending]
    exact h.take hinv hphase hpending
  | give hphase hpending =>
    simp only [hphase, hpending]
    exact h.give hphase (hsound.giving _ hphase)
  | fill hphase =>
    simp only [hphase]
    exact h.fill hinv hsize hphase
  | hold hphase | drop hphase | gave hphase =>
    simp only [hphase, Phase.Agrees] at hcall
    simp only [hphase]
    have hended : (c.call e.1).isDone = true := by rw [hcall]; rfl
    exact h.unseen rfl hended (by rw [hphase]; rfl)
  | finish hphase =>
    simp only [hphase, Phase.Agrees] at hcall
    simp only [hphase]
    exact h.unseen rfl hcall (by rw [hphase]; rfl)

/-! ### Enough slots -/

/-- The slot that a worker has in its hands or in those of its call. -/
def hand (s : Shift n) (c : Crew (Fin n)) (i : Fin n) : Option UInt32 :=
  ((s.worker i).phase.kept?).or (c.call i).owned?

/-- Every slot that is out is in the hands of a worker. -/
theorem exists_hand (h : Tracks s c) {free : List UInt32} (hinv : Crew.Inv g c free) {slot : UInt32}
    (hout : slot ∈ c.out) : ∃ i, hand s c i = some slot := by
  rcases (hinv.owners.mem_out slot).1 hout with hheld | ⟨i, hi⟩
  · rcases (h.owners.mem_out slot).1 hheld with hnil | ⟨i, hi⟩
    · cases hnil
    · exact ⟨i, by rw [hand, hi, Option.some_or]⟩
  · -- a worker whose call has a slot holds no other
    have hnone : (s.worker i).phase.kept? = none := by
      have hcall := h.calls i
      cases hphase : (s.worker i).phase with
      | taking call =>
        rw [hphase] at hcall
        cases hcall
        cases hc : c.call i <;> rw [hc] at hi <;> first | rfl | cases hi
      | holding slot =>
        rw [hphase] at hcall
        rw [Crew.Inv.owned_of_isDone hcall] at hi
        cases hi
      | ready | giving _ | ending => rfl
    exact ⟨i, by rw [hand, hnone, Option.none_or, hi]⟩

/-- **There is a free slot for a worker that has none**, if there are as many slots as workers. -/
theorem head_ne_nil (h : Tracks s c) {free : List UInt32} (hinv : Crew.Inv g c free)
    (hg : g.Sound) (hn : n ≤ g.capacity) {t : Fin n} (hnone : hand s c t = none) :
    c.shared.head.index ≠ Pool.nil := by
  intro hnil
  obtain rfl : free = [] := by
    cases free with
    | nil => rfl
    | cons i l =>
      obtain ⟨hi, hne, -⟩ := hinv.linked
      exact absurd (hi.symm.trans hnil) hne
  -- then every slot is in the hands of another worker, one of them in those of two
  have hlen := hinv.slots.length_eq
  rw [List.nil_append, Pool.length_numbers] at hlen
  have hcard : c.out.toFinset.card = g.capacity := by
    rw [List.toFinset_card_of_nodup (hinv.nodup hg).of_append_right, hlen]
  have hsub : c.out.toFinset.image some ⊆ (Finset.univ.erase t).image (hand s c) := by
    intro x hx
    obtain ⟨slot, hslot, rfl⟩ := Finset.mem_image.1 hx
    obtain ⟨i, hi⟩ := h.exists_hand hinv (List.mem_toFinset.1 hslot)
    refine Finset.mem_image.2 ⟨i, Finset.mem_erase.2 ⟨?_, Finset.mem_univ i⟩, hi⟩
    rintro rfl
    rw [hnone] at hi
    cases hi
  have hle := (Finset.card_le_card hsub).trans Finset.card_image_le
  rw [Finset.card_image_of_injective _ (Option.some_injective _), hcard,
    Finset.card_erase_of_mem (Finset.mem_univ t), Finset.card_univ, Fintype.card_fin] at hle
  have hpos := hg.capacity_pos
  omega

end Tracks

/-! ### Nobody is turned away -/

/-- A worker that has never found the pool empty. -/
structure Worker.Served (w : Worker) : Prop where
  dropped : w.dropped = 0
  hopeful : ∀ call, w.phase = .taking call → call.Hopeful

/-- A worker stays so if the free list is not empty when its call looks at the head. -/
theorem Worker.Served.step {w w' : Worker} {f f' : Floor} {c : Chance} (h : w.Served)
    (hhead : ∀ call, w.phase = .taking call → call.looks = true →
      f.shared.head.index ≠ Pool.nil)
    (ho : Worker.Outcome g iterations c f w f' w') : w'.Served := by
  cases ho with
  | rest => exact h
  | start =>
    refine ⟨h.dropped, ?_⟩
    rintro call ⟨⟩
    trivial
  | @take call hphase =>
    refine ⟨h.dropped, ?_⟩
    rintro call' ⟨⟩
    exact (h.hopeful call hphase).step (hhead call hphase) g c.spurious
  | drop hphase => exact (h.hopeful _ hphase).elim
  | hold | fill | give | gave | finish => exact ⟨h.dropped, by simp⟩

/-- What holds of a shift with as many slots as workers, as the pool sees it. -/
structure Supplied (g : Pool.Slots) (iterations : ℕ) (s : Shift n) (c : Crew (Fin n)) : Prop where
  tracks : Tracks s c
  inv : ∃ free, Crew.Inv g c free
  sound : ∀ i, (s.worker i).Sound iterations
  served : ∀ i, (s.worker i).Served
  samples : s.Tallied (fun f => f.recorder.cycles.count) Worker.samples

namespace Supplied

variable {s : Shift n} {c : Crew (Fin n)}

/-- A worker whose call looks at the head finds a free slot. -/
theorem head_ne_nil (h : Supplied g iterations s c) (hg : g.Sound) (hn : n ≤ g.capacity) {t : Fin n}
    {call : Pool.Call} (hphase : (s.worker t).phase = .taking call) (hlooks : call.looks = true) :
    s.floor.shared.head.index ≠ Pool.nil := by
  obtain ⟨free, hinv⟩ := h.inv
  have hcall := h.tracks.calls t
  simp only [hphase, Phase.Agrees] at hcall
  have htaking := (h.sound t).taking call hphase
  rw [← h.tracks.shared]
  refine h.tracks.head_ne_nil hinv hg hn (t := t) ?_
  rw [Tracks.hand, hphase, hcall]
  cases call with
  | acquire | acquireLinked _ _ => rfl
  | release _ | releaseLinked _ _ => cases htaking
  | _ => cases hlooks

theorem step (h : Supplied g iterations s c) (hg : g.Sound) (hsize : Order.size ≤ g.slotSize)
    (hn : n ≤ g.capacity) {e : Fin n × Chance}
    (ht : Crew.Timely g c ((s.worker e.1).asks iterations e.2 e.1)) :
    Supplied g iterations (s.step g iterations e)
      (c.run g ((s.worker e.1).asks iterations e.2 e.1)) := by
  obtain ⟨free, hinv⟩ := h.inv
  have hsound := h.sound e.1
  have hserved := h.served e.1
  have ho := Worker.step_outcome (g := g) hsound e.2 s.floor
  exact
    { tracks := h.tracks.step hinv hsize hsound
      inv := by
        refine ht.invariant (motive := fun c => ∃ free, Crew.Inv g c free) ?_ h.inv
        rintro c e ⟨free, hinv⟩ hp
        exact hinv.step hg hp
      sound := Shift.forall_worker_step h.sound (hsound.step ho)
      served := Shift.forall_worker_step h.served
        (hserved.step (fun call => h.head_ne_nil hg hn) ho)
      samples := h.samples.step
        (Worker.adds_samples (fun hphase => hserved.hopeful _ hphase) ho) }

/-- **Nobody ever finds the pool empty**, if there are as many slots as workers. -/
theorem run (h : Supplied g iterations s c) (hg : g.Sound) (hsize : Order.size ≤ g.slotSize)
    (hn : n ≤ g.capacity) {es : List (Fin n × Chance)}
    (ht : Crew.Timely g c (s.asks g iterations es)) :
    Supplied g iterations (s.run g iterations es) (c.run g (s.asks g iterations es)) := by
  induction es generalizing s c with
  | nil => exact h
  | cons e es ih =>
    rw [Shift.asks, Crew.timely_append] at ht
    rw [Shift.run_cons, Shift.asks, Crew.run_append]
    exact ih (h.step hg hsize hn ht.1) ht.2

end Supplied

/-- Nobody has found a new pool empty yet. -/
theorem supplied_opening {p : Pool} {m : Memory} (hp : Pool.New p m) {r : Metrics.Recorder}
    (hr : r.cycles.count = 0) (n iterations : ℕ) :
    Supplied p.slots iterations (Shift.opening n ⟨p.shared m, r⟩) (Crew.start (p.shared m)) where
  tracks := ⟨rfl, fun _ => rfl, Pool.Owners.none⟩
  inv := ⟨_, Crew.inv_start hp⟩
  sound i := Worker.sound_new iterations i
  served i := ⟨rfl, by simp [Shift.opening]⟩
  samples := by simp [Shift.Tallied, Shift.opening, Worker.samples, sampleEvery, hr]

end Run
end Slab
