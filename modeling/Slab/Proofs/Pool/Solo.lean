import Slab.Proofs.Pool.Crew

/-!
# Threads that nobody interferes with

A thread that runs alone finds the head as it left it.

* `Call.relies`: whether a call relies on the head that it was shown;
* `Crew.Event.IsBy`: no other thread has a part in what happens;
* `Crew.Fresh`: nobody else has exchanged the head since a thread looked at it, with
  `Fresh.timely`;
* `Call.Current`, `Call.passed`: the head is the one that a call was shown, and how far the call is,
  with `Current.step`.
-/

namespace Slab.Pool

variable {ι : Type} {g : Slots} {t u : ι}

/-- Whether the call relies on the head that it was shown. -/
def Call.relies : Call → Bool
  | acquireSeen _ | acquireLinked _ _ | acquireLost _ | releaseSeen _ _ | releaseLinked _ _
  | releaseLost _ _ => true
  | _ => false

/-- A call that relies on the head has just looked at it or did so before, and has not exchanged it.
-/
theorem Call.relies_step {g : Slots} {spurious : Bool} {s : Shared} {call : Call}
    (h : (call.step g spurious s).2.relies = true) :
    (call.step g spurious s).2.made? = none ∧ (call.looks = true ∨ call.relies = true) := by
  cases call with
  | acquire | release _ => exact ⟨rfl, Or.inl rfl⟩
  | acquireSeen hd =>
    refine ⟨?_, Or.inr rfl⟩
    simp only [step]
    split <;> rfl
  | acquireLinked hd next | releaseLinked i hd =>
    refine ⟨?_, Or.inl rfl⟩
    by_cases hs : s.head = hd ∧ spurious = false
    · simp only [step, if_pos hs] at h
      cases h
    · simp only [step, if_neg hs]
      rfl
  | acquireLost _ | releaseSeen _ _ | releaseLost _ _ => exact ⟨rfl, Or.inr rfl⟩
  | acquireWon _ | acquired _ | exhausted | releaseWon _ | released => cases h

namespace Crew

variable {c : Crew ι} {e : Event ι} {es : List (Event ι)}

/-- No other thread has a part in what happens. -/
def Event.IsBy (t : ι) : Event ι → Prop
  | take u | give u _ | go u _ => u = t
  | write _ _ _ | elsewhere _ _ => True

/-- Nobody has exchanged the head since the thread looked at it. -/
def Fresh (c : Crew ι) (t : ι) : Prop := (c.call t).relies = true → c.seen t = c.log.length

theorem fresh_of_isDone (h : (c.call t).isDone = true) : c.Fresh t := by
  intro hrelies
  cases hc : c.call t <;> rw [hc] at h hrelies <;> first | cases h; done | cases hrelies

theorem Fresh.prompt (h : c.Fresh t) (he : e.IsBy t) : c.Prompt e := by
  cases e with
  | go u spurious =>
    cases he
    intro hattempts
    have hrelies : (c.call t).relies = true := by
      cases hc : c.call t <;> rw [hc] at hattempts <;> first | rfl | cases hattempts
    have hsize : 0 < UInt32.size := by decide
    rw [h hrelies]
    omega
  | take _ | give _ _ | write _ _ _ | elsewhere _ _ => trivial

variable [DecidableEq ι]

theorem Fresh.step (h : c.Fresh t) (he : e.IsBy t) : (c.step g e).Fresh t := by
  cases e with
  | take u | give u slot =>
    cases he
    rw [Crew.step]
    split
    · simp [Fresh, Call.relies]
    · exact h
  | go u spurious =>
    cases he
    intro hrelies
    rw [Crew.step, Crew.go, call_advance_self] at hrelies
    obtain ⟨hmade, hlooks⟩ := Call.relies_step hrelies
    have hlog : (c.step g (.go t spurious)).log = c.log := by
      rw [Crew.step, Crew.go, advance, hmade]
      exact List.append_nil _
    rw [hlog, Crew.step, Crew.go, advance]
    dsimp only
    by_cases hl : (c.call t).looks = true
    · rw [if_pos hl, Function.update_self]
    · rw [if_neg hl]
      exact h (hlooks.resolve_left hl)
  | write _ _ _ | elsewhere _ _ =>
    rw [Crew.step]
    split <;> exact h

/-- A thread that nobody interferes with is never too late. -/
theorem Fresh.timely (h : c.Fresh t) (hes : ∀ e ∈ es, e.IsBy t) : Timely g c es := by
  induction es generalizing c with
  | nil => trivial
  | cons e es ih =>
    have he := hes e List.mem_cons_self
    exact ⟨h.prompt he, ih (h.step he) fun e' he' => hes e' (List.mem_cons_of_mem e he')⟩

/-- What a thread does leaves the calls of the others alone. -/
theorem call_step_of_isBy (he : e.IsBy t) (hne : u ≠ t) : (c.step g e).call u = c.call u := by
  cases e with
  | go v spurious =>
    cases he
    exact call_advance_of_ne c hne _ _
  | take v | give v slot =>
    cases he
    rw [Crew.step]
    split
    · exact Function.update_of_ne hne _ _
    · rfl
  | write _ _ _ | elsewhere _ _ =>
    rw [Crew.step]
    split <;> rfl

theorem call_run_of_isBy (hes : ∀ e ∈ es, e.IsBy t) (hne : u ≠ t) :
    (c.run g es).call u = c.call u := by
  induction es generalizing c with
  | nil => rfl
  | cons e es ih =>
    rw [run_cons, ih fun e' he' => hes e' (List.mem_cons_of_mem e he'),
      call_step_of_isBy (hes e List.mem_cons_self) hne]

end Crew

/-! ### One call -/

namespace Call

/-- The head is the one that the call was shown. -/
def Current (s : Shared) : Call → Prop
  | acquireSeen h | acquireLinked h _ | releaseSeen _ h | releaseLinked _ h => s.head = h
  | acquireLost _ | releaseLost _ _ => False
  | _ => True

/-- How many steps of the call are behind it. -/
def passed : Call → ℕ
  | acquire | acquireLost _ | release _ | releaseLost _ _ => 0
  | acquireSeen _ | releaseSeen _ _ => 1
  | acquireLinked _ _ | releaseLinked _ _ => 2
  | acquireWon _ | releaseWon _ => 3
  | acquired _ | exhausted | released => 4

theorem passed_le (call : Call) : call.passed ≤ 4 := by
  cases call <;> simp [passed]

/-- A call that nobody interferes with gets on. -/
theorem Current.step {s : Shared} {call : Call} (h : call.Current s)
    (hpending : call.isDone = false) :
    (call.step g false s).2.Current (call.step g false s).1 ∧
      call.passed < (call.step g false s).2.passed := by
  cases call with
  | acquireSeen hd => by_cases hn : hd.index = nil <;> simp_all [Call.step, Current, passed]
  | acquireLinked hd next | releaseLinked i hd => simp_all [Call.step, Current, passed]
  | acquireLost _ | releaseLost _ _ => cases h
  | acquired _ | exhausted | released => cases hpending
  | acquire | acquireWon _ | release _ | releaseSeen _ _ | releaseWon _ =>
    simp_all [Call.step, Current, passed]

end Call

end Slab.Pool
