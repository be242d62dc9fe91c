import Slab.Proofs.Pool.Solo
import Slab.Proofs.Run.Supply

/-!
# One worker after another

Workers that nobody interferes with finish all their cycles. So a run in which one worker goes
after another is one of the schedules of the workers, all of them are done at its end, and no call
comes too late to notice that the head has been exchanged.

* `Worker.left`, `Worker.isDone_finish`: the steps that a worker still has to make, and that it
  makes them;
* `Shift.solo`, `Shift.relay`: the steps of one worker, and of one worker after another;
* `Shift.workAll_eq`, `Shift.isDone_relay`, `Shift.timely_relay`: **one worker after another is a
  complete and timely schedule**.
-/

namespace Slab

namespace Run

open Pool (Crew)

variable {n : ℕ} {g : Pool.Slots} {iterations : ℕ} {time : ℕ → ℕ → UInt64}

/-! ### One worker -/

/-- The head is the one that the call of the phase was shown. -/
def Phase.Current (s : Pool.Shared) : Phase → Prop
  | taking call | giving call => call.Current s
  | _ => True

/-- How many steps of the cycle are behind. -/
def Phase.passed : Phase → ℕ
  | ready => 0
  | taking call => 1 + call.passed
  | holding _ => 6
  | giving call => 7 + call.passed
  | ending => 12

/-- Steps that suffice for the rest of the cycles. -/
def Worker.left (iterations : ℕ) (w : Worker) : ℕ := 13 * (iterations - w.seq) - w.phase.passed

namespace Worker

variable {c : Chance} {f f' : Floor} {w w' : Worker}

/-- A worker that nobody interferes with gets on. -/
theorem left_lt (h : w.Sound iterations) (hcurrent : w.phase.Current f.shared)
    (hdone : w.isDone iterations = false) (hc : c.spurious = false)
    (ho : Outcome g iterations c f w f' w') :
    w'.phase.Current f'.shared ∧ w'.left iterations < w.left iterations := by
  have hbusy := h.busy
  cases ho with
  | rest hphase hle => simp [isDone, hphase, hle] at hdone
  | start hphase hlt =>
    refine ⟨trivial, ?_⟩
    simp only [left, hphase, Phase.passed, Pool.Call.passed]
    omega
  | @take call hphase hpending | @give call hphase hpending =>
    have hlt := hbusy (by simp [hphase])
    rw [hphase] at hcurrent
    obtain ⟨hcur, hpassed⟩ := Pool.Call.Current.step (g := g) hcurrent hpending
    rw [hc]
    refine ⟨hcur, ?_⟩
    have hle := (call.step g false f.shared).2.passed_le
    simp only [left, hphase, Phase.passed]
    omega
  | hold hphase | drop hphase | fill hphase | gave hphase | finish hphase =>
    have hlt := hbusy (by simp [hphase])
    refine ⟨trivial, ?_⟩
    simp only [left, hphase, Phase.passed, Pool.Call.passed]
    omega

/-- **A worker that nobody interferes with finishes its cycles.** -/
theorem isDone_finish (h : w.Sound iterations) (hcurrent : w.phase.Current f.shared) {fuel : ℕ}
    (hfuel : w.left iterations ≤ fuel) :
    (finish g iterations time fuel f w).2.isDone iterations = true := by
  induction fuel generalizing f w with
  | zero =>
    -- a worker that is not done could still get on
    by_contra hdone
    rw [Bool.not_eq_true] at hdone
    have hlt := (left_lt h hcurrent hdone (c := {}) rfl (step_outcome (g := g) h {} f)).2
    omega
  | succ fuel ih =>
    rw [finish]
    by_cases hdone : w.isDone iterations = true
    · rw [if_pos hdone]
      exact hdone
    · rw [if_neg hdone]
      rw [Bool.not_eq_true] at hdone
      have ho := step_outcome (g := g) h { ns := time w.index w.seq } f
      obtain ⟨hcur, hlt⟩ := left_lt h hcurrent hdone rfl ho
      exact ih (h.step ho) hcur (Nat.le_of_lt_succ (hlt.trans_le hfuel))

end Worker

theorem isBy_of_mem_fill {ι : Type} {t : ι} {slot : UInt32} {k : ℕ} {vs : List UInt8}
    {x : Crew.Event ι} (hx : x ∈ fill slot k vs) : x.IsBy t := by
  induction vs generalizing k with
  | nil => cases hx
  | cons v vs ih =>
    rcases List.mem_cons.1 hx with rfl | hx
    · trivial
    · exact ih hx

/-- Whatever a worker asks for, it asks for itself. -/
theorem Worker.isBy_of_mem_asks {ι : Type} {c : Chance} {t : ι} {w : Worker} {x : Crew.Event ι}
    (hx : x ∈ w.asks iterations c t) : x.IsBy t := by
  cases hphase : w.phase with
  | ready =>
    simp only [Worker.asks, hphase] at hx
    split at hx
    · obtain rfl := List.mem_singleton.1 hx
      rfl
    · cases hx
  | taking call | giving call =>
    simp only [Worker.asks, hphase] at hx
    split at hx
    · cases hx
    · obtain rfl := List.mem_singleton.1 hx
      rfl
  | holding slot =>
    simp only [Worker.asks, hphase] at hx
    rcases List.mem_append.1 hx with hfill | hgive
    · exact isBy_of_mem_fill hfill
    · obtain rfl := List.mem_singleton.1 hgive
      rfl
  | ending =>
    simp only [Worker.asks, hphase] at hx
    cases hx

/-! ### One worker after another -/

namespace Shift

variable {s : Shift n}

/-- The steps of one worker until it is done, while nobody else makes any. -/
def solo (g : Pool.Slots) (iterations : ℕ) (time : ℕ → ℕ → UInt64) (t : Fin n) :
    ℕ → Shift n → List (Fin n × Chance)
  | 0, _ => []
  | fuel + 1, s =>
    if (s.worker t).isDone iterations then []
    else
      let e : Fin n × Chance := (t, { ns := time (s.worker t).index (s.worker t).seq })
      e :: solo g iterations time t fuel (s.step g iterations e)

/-- The steps of one worker after another, each until it is done. -/
def relay (g : Pool.Slots) (iterations : ℕ) (time : ℕ → ℕ → UInt64) :
    List (Fin n) → Shift n → List (Fin n × Chance)
  | [], _ => []
  | t :: ts, s =>
    let es := solo g iterations time t (Worker.enough iterations) s
    es ++ relay g iterations time ts (s.run g iterations es)

theorem run_append (s : Shift n) (es es' : List (Fin n × Chance)) :
    s.run g iterations (es ++ es') = (s.run g iterations es).run g iterations es' := by
  simp [run, List.foldl_append]

theorem asks_append (s : Shift n) (es es' : List (Fin n × Chance)) :
    s.asks g iterations (es ++ es') =
      s.asks g iterations es ++ (s.run g iterations es).asks g iterations es' := by
  induction es generalizing s with
  | nil => rfl
  | cons e es ih => rw [List.cons_append, asks, asks, ih, run_cons, List.append_assoc]

theorem run_solo (t : Fin n) (fuel : ℕ) (s : Shift n) :
    s.run g iterations (solo g iterations time t fuel s) =
      ⟨(Worker.finish g iterations time fuel s.floor (s.worker t)).1,
        Function.update s.worker t
          (Worker.finish g iterations time fuel s.floor (s.worker t)).2⟩ := by
  induction fuel generalizing s with
  | zero =>
    rw [solo, Worker.finish, Function.update_eq_self]
    rfl
  | succ fuel ih =>
    rw [solo, Worker.finish]
    by_cases hdone : (s.worker t).isDone iterations = true
    · rw [if_pos hdone, if_pos hdone, Function.update_eq_self]
      rfl
    · rw [if_neg hdone, if_neg hdone, run_cons, ih, worker_step_self, worker_step, floor_step,
        Function.update_idem]

theorem floor_solo (t : Fin n) (fuel : ℕ) (s : Shift n) :
    (s.run g iterations (solo g iterations time t fuel s)).floor =
      (Worker.finish g iterations time fuel s.floor (s.worker t)).1 := by
  rw [run_solo]

theorem worker_solo_self (t : Fin n) (fuel : ℕ) (s : Shift n) :
    (s.run g iterations (solo g iterations time t fuel s)).worker t =
      (Worker.finish g iterations time fuel s.floor (s.worker t)).2 := by
  rw [run_solo]
  exact Function.update_self _ _ _

theorem fst_of_mem_solo {t : Fin n} {fuel : ℕ} {e : Fin n × Chance}
    (he : e ∈ solo g iterations time t fuel s) : e.1 = t := by
  induction fuel generalizing s with
  | zero => cases he
  | succ fuel ih =>
    rw [solo] at he
    split at he
    · cases he
    · rcases List.mem_cons.1 he with rfl | he
      · rfl
      · exact ih he

theorem fst_of_mem_relay {ts : List (Fin n)} {e : Fin n × Chance}
    (he : e ∈ relay g iterations time ts s) : e.1 ∈ ts := by
  induction ts generalizing s with
  | nil => cases he
  | cons t ts ih =>
    rw [relay] at he
    rcases List.mem_append.1 he with he | he
    · rw [fst_of_mem_solo he]
      exact List.mem_cons_self
    · exact List.mem_cons_of_mem t (ih he)

/-- A worker that makes no step stays as it is. -/
theorem worker_run_of_forall_ne {es : List (Fin n × Chance)} {i : Fin n}
    (h : ∀ e ∈ es, i ≠ e.1) : (s.run g iterations es).worker i = s.worker i := by
  induction es generalizing s with
  | nil => rfl
  | cons e es ih =>
    rw [run_cons, ih fun e' he' => h e' (List.mem_cons_of_mem e he'),
      worker_step_of_ne g iterations s (h e List.mem_cons_self)]

theorem worker_solo_of_ne {t i : Fin n} (h : i ≠ t) {fuel : ℕ} :
    (s.run g iterations (solo g iterations time t fuel s)).worker i = s.worker i :=
  worker_run_of_forall_ne fun _ he => fst_of_mem_solo he ▸ h

theorem worker_relay_of_not_mem {ts : List (Fin n)} {i : Fin n} (h : i ∉ ts) :
    (s.run g iterations (relay g iterations time ts s)).worker i = s.worker i := by
  refine worker_run_of_forall_ne fun e he => ?_
  rintro rfl
  exact h (fst_of_mem_relay he)

theorem workAll_cons (i : ℕ) (is : List ℕ) (f : Floor) :
    workAll g iterations time (i :: is) f =
      let r := Worker.finish g iterations time (Worker.enough iterations) f { index := i }
      ((workAll g iterations time is r.1).1,
        report r.2 :: (workAll g iterations time is r.1).2) := rfl

/-- **One worker after another is a schedule of the workers.** -/
theorem workAll_eq {ts : List (Fin n)} (hts : ts.Nodup)
    (h : ∀ t ∈ ts, s.worker t = { index := t }) :
    workAll g iterations time (ts.map Fin.val) s.floor =
      ((s.run g iterations (relay g iterations time ts s)).floor,
        ts.map fun t => report
          ((s.run g iterations (relay g iterations time ts s)).worker t)) := by
  induction ts generalizing s with
  | nil => rfl
  | cons t ts ih =>
    obtain ⟨hnot, hnodup⟩ := List.nodup_cons.1 hts
    have ht := h t List.mem_cons_self
    have hrest := ih (s := s.run g iterations
      (solo g iterations time t (Worker.enough iterations) s)) hnodup fun u hu => by
        rw [worker_solo_of_ne (ne_of_mem_of_not_mem hu hnot)]
        exact h u (List.mem_cons_of_mem t hu)
    rw [floor_solo] at hrest
    rw [List.map_cons, workAll_cons, ← ht, relay, run_append, List.map_cons]
    dsimp only
    rw [hrest, worker_relay_of_not_mem hnot, worker_solo_self]

/-- **Workers that have gone one after another are done.** -/
theorem isDone_relay {ts : List (Fin n)} (hts : ts.Nodup)
    (h : ∀ t ∈ ts, s.worker t = { index := t }) {t : Fin n} (ht : t ∈ ts) :
    ((s.run g iterations (relay g iterations time ts s)).worker t).isDone iterations = true := by
  induction ts generalizing s with
  | nil => cases ht
  | cons u ts ih =>
    obtain ⟨hnot, hnodup⟩ := List.nodup_cons.1 hts
    rw [relay, run_append]
    rcases List.mem_cons.1 ht with rfl | ht
    · rw [worker_relay_of_not_mem hnot, worker_solo_self, h t List.mem_cons_self]
      exact Worker.isDone_finish (Worker.sound_new iterations t) trivial (Nat.le_refl _)
    · refine ih hnodup (fun v hv => ?_) ht
      rw [worker_solo_of_ne (ne_of_mem_of_not_mem hv hnot)]
      exact h v (List.mem_cons_of_mem u hv)

theorem isBy_of_mem_asks {t : Fin n} {es : List (Fin n × Chance)} (hes : ∀ e ∈ es, e.1 = t)
    {x : Crew.Event (Fin n)} (hx : x ∈ s.asks g iterations es) : x.IsBy t := by
  induction es generalizing s with
  | nil => cases hx
  | cons e es ih =>
    rw [asks] at hx
    rcases List.mem_append.1 hx with hx | hx
    · exact hes e List.mem_cons_self ▸ Worker.isBy_of_mem_asks hx
    · exact ih (fun e' he' => hes e' (List.mem_cons_of_mem e he')) hx

/-- **Workers that go one after another are never too late.** -/
theorem timely_relay {c : Crew (Fin n)} {ts : List (Fin n)} (hts : ts.Nodup)
    (h : ∀ t ∈ ts, (c.call t).isDone = true) :
    Crew.Timely g c (s.asks g iterations (relay g iterations time ts s)) := by
  induction ts generalizing s c with
  | nil => trivial
  | cons t ts ih =>
    obtain ⟨hnot, hnodup⟩ := List.nodup_cons.1 hts
    have hmine : ∀ x ∈ s.asks g iterations
        (solo g iterations time t (Worker.enough iterations) s), x.IsBy t :=
      fun x hx => isBy_of_mem_asks (fun e he => fst_of_mem_solo he) hx
    rw [relay, asks_append, Crew.timely_append]
    refine ⟨(Crew.fresh_of_isDone (h t List.mem_cons_self)).timely hmine, ih hnodup fun u hu => ?_⟩
    rw [Crew.call_run_of_isBy hmine (ne_of_mem_of_not_mem hu hnot)]
    exact h u (List.mem_cons_of_mem t hu)

end Shift
end Run
end Slab
