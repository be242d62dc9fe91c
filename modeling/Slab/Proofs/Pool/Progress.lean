import Mathlib.Algebra.Order.BigOperators.Group.Finset
import Slab.Proofs.Pool.Solo
import Slab.Proofs.Pool.Tally

/-!
# Every retry is paid for by someone else

An exchange fails because another thread has exchanged the head since the call was last shown it.
So every failure of a thread is charged to exchanges of the others, no exchange is charged twice to
the same thread, and a thread that is left alone fails once at most.

* `Crew.misses`, `Crew.slips`: the exchanges that fail because the head is another one, and those
  that fail although it is not;
* `Crew.LastLook`: what is known since a thread was last shown the head, with `LastLook.step`;
* `Crew.dues`: the exchanges of the others that a thread has been shown, with `misses_le_dues`;
* `Call.stale`, `Call.left`: whether a call relies on an old head, and how many steps of it are left
  when nobody interferes;
* `Crew.Paid`, `Crew.paid_run`: **what is promised of every state**.
-/

namespace Slab.Pool

/-! ### One step of a call -/

namespace Call

/-- Whether the call relies on a head that has been exchanged. -/
def stale (s : Shared) (c : Call) : Bool := c.shown?.any (· ≠ s.head)

/-- How many steps of the call are left when nobody interferes. -/
def left (s : Shared) (c : Call) : ℕ := 4 - c.passed + 3 * (c.stale s).toNat

variable {g : Slots} {spurious : Bool} {s : Shared} {c : Call}

theorem exists_shown_of_attempts (h : c.attempts = true) : ∃ hd, c.shown? = some hd := by
  cases c <;> first | exact ⟨_, rfl⟩ | cases h

theorem looks_of_attempts (h : c.attempts = true) : c.looks = true := by
  cases c <;> first | rfl | cases h

theorem pending_of_attempts (h : c.attempts = true) : c.isDone = false := by
  cases c <;> first | rfl | cases h

/-- Only an attempt to exchange the head fails. -/
theorem attempts_of_brings (h : c.brings g spurious s = some .contended) : c.attempts = true := by
  cases c with
  | acquireLinked _ _ | releaseLinked _ _ => rfl
  | acquireSeen hd =>
    rw [brings_of_pending rfl] at h
    by_cases hn : hd.index = nil
    · simp only [step, if_pos hn] at h
      cases h
    · simp only [step, if_neg hn] at h
      cases h
  | acquire | acquireLost _ | acquireWon _ | acquired _ | exhausted | release _ | releaseSeen _ _
  | releaseLost _ _ | releaseWon _ | released => cases h

theorem stale_eq_false (h : c.shown? = some s.head) : c.stale s = false := by
  simp [stale, h]

theorem stale_congr {s' : Shared} {c' : Call} (hshown : c'.shown? = c.shown?)
    (hhead : s'.head = s.head) : c'.stale s' = c.stale s := by
  rw [stale, stale, hshown, hhead]

theorem stale_of_isDone (h : c.isDone) : c.stale s = false := by
  cases c <;> first | rfl | cases h

/-- A step of a call that nobody interferes with gets on, or it fails because the call relied on an
old head, and then shows it the present one. -/
theorem lone_step (g : Slots) (s : Shared) (h : c.isDone = false) :
    (c.brings g false s ≠ some .contended ∧ c.passed < (c.step g false s).2.passed ∧
        ((c.step g false s).2.stale (c.step g false s).1).toNat ≤ (c.stale s).toNat) ∨
      (c.passed = 2 ∧ c.stale s = true ∧
        (c.step g false s).2.stale (c.step g false s).1 = false) := by
  have hnone : (none : Option Counter) ≠ some .contended := by decide
  cases c with
  | acquire | release _ =>
    exact Or.inl ⟨hnone, Nat.one_pos, (congrArg Bool.toNat (stale_eq_false rfl)).le⟩
  | acquireSeen hd =>
    rw [brings_of_pending rfl]
    by_cases hn : hd.index = nil
    · simp only [step, if_pos hn]
      exact Or.inl ⟨(by decide : some Counter.exhausted ≠ some .contended), (by decide : 1 < 4),
        Nat.zero_le _⟩
    · simp only [step, if_neg hn]
      exact Or.inl ⟨hnone, Nat.one_lt_two, Nat.le_refl _⟩
  | acquireLinked hd _ | releaseLinked _ hd =>
    rw [brings_of_pending rfl]
    by_cases hs : s.head = hd
    · simp only [step, hs, and_self, if_true]
      exact Or.inl ⟨hnone, (by decide : 2 < 3), Nat.zero_le _⟩
    · simp only [step, hs, false_and, if_false]
      exact Or.inr ⟨rfl, decide_eq_true (Ne.symm hs), stale_eq_false rfl⟩
  | releaseSeen i hd =>
    have hhead : ((releaseSeen i hd).step g false s).1.head = s.head := head_step rfl
    exact Or.inl ⟨hnone, Nat.one_lt_two, (congrArg Bool.toNat (stale_congr rfl hhead)).le⟩
  | acquireLost _ | releaseLost _ _ => exact Or.inl ⟨hnone, Nat.one_pos, Nat.le_refl _⟩
  | acquireWon _ =>
    exact Or.inl ⟨(by decide : some Counter.acquired ≠ some .contended), (by decide : 3 < 4),
      Nat.le_refl 0⟩
  | releaseWon _ =>
    exact Or.inl ⟨(by decide : some Counter.released ≠ some .contended), (by decide : 3 < 4),
      Nat.le_refl 0⟩
  | acquired _ | exhausted | released => cases h

/-- Every step of a call that nobody interferes with leaves fewer to be made. -/
theorem left_step (g : Slots) (s : Shared) (h : c.isDone = false) :
    (c.step g false s).2.left (c.step g false s).1 < c.left s := by
  have hle := passed_le (c.step g false s).2
  unfold left
  rcases lone_step g s h with ⟨-, hpassed, hstale⟩ | ⟨hpassed, hold, hnow⟩
  · omega
  · rw [hold, hnow, hpassed, Bool.toNat_true, Bool.toNat_false]
    omega

/-- A call fails, if not spuriously, only where it relied on an old head, and does so no longer. -/
theorem brings_add_stale (g : Slots) (s : Shared) (c : Call) :
    (decide (c.brings g false s = some .contended)).toNat +
        ((c.step g false s).2.stale (c.step g false s).1).toNat ≤ (c.stale s).toNat := by
  cases hdone : c.isDone with
  | true =>
    cases c <;> first | cases hdone; done | exact Nat.le_refl 0
  | false =>
    rcases lone_step g s hdone with ⟨hbrings, -, hstale⟩ | ⟨-, hold, hnow⟩
    · simpa [hbrings] using hstale
    · rw [hold, hnow]
      exact Bool.toNat_le _

theorem left_le (s : Shared) (c : Call) : c.left s ≤ 7 := by
  have hstale := Bool.toNat_le (c.stale s)
  unfold left
  omega

theorem isDone_of_left (h : c.left s = 0) : c.isDone = true := by
  have hpassed : 4 ≤ c.passed := by
    unfold left at h
    omega
  cases c <;> first | rfl | exact absurd hpassed (of_decide_eq_false rfl)

end Call

namespace Crew

variable {ι : Type} {c : Crew ι} {e : Event ι} {es : List (Event ι)} {t : ι}

/-! ### The last look of a thread -/

/-- What is known since a thread was last shown the head. -/
structure LastLook (c : Crew ι) (t : ι) : Prop where
  le : c.seen t ≤ c.log.length
  /-- The exchanges that have happened since are those of other threads, -/
  others : ∀ h, (c.call t).shown? = some h → ∀ x ∈ c.log.drop (c.seen t), x.1 ≠ t
  /-- and if there was none, the head is still the same. -/
  current : ∀ h, (c.call t).shown? = some h → c.seen t = c.log.length → c.shared.head = h

theorem lastLook_start (s : Shared) (t : ι) : LastLook (start s) t where
  le := Nat.le_refl 0
  others _ hs := by cases hs
  current _ hs := by cases hs

variable [DecidableEq ι] {g : Slots}

theorem seen_go (c : Crew ι) (u t : ι) (spurious : Bool) : (c.go g u spurious).seen t =
    if u = t ∧ (c.call u).looks then c.log.length else c.seen t := by
  rw [go, advance]
  dsimp only
  by_cases hlooks : (c.call u).looks = true
  · simp only [hlooks, if_true, and_true, Function.update_apply, eq_comm]
  · simp only [hlooks, and_false, if_false, Bool.false_eq_true]

theorem log_go (c : Crew ι) (u : ι) (spurious : Bool) : (c.go g u spurious).log = c.log ++
    (((c.call u).step g spurious c.shared).2.made?.map fun x => (u, x)).toList := rfl

namespace LastLook

/-- The call of the thread itself goes one step further. -/
theorem own (h : LastLook c t) (spurious : Bool) : LastLook (c.go g t spurious) t := by
  have hseen : (c.go g t spurious).seen t =
      if (c.call t).looks then c.log.length else c.seen t := by
    simp only [seen_go, true_and]
  have hcall : (c.go g t spurious).call t = ((c.call t).step g spurious c.shared).2 :=
    call_advance_self _ _ _ _
  -- a call that relies on a head has not just exchanged it
  have hlog : ∀ hd, ((c.go g t spurious).call t).shown? = some hd →
      (c.go g t spurious).log = c.log := by
    intro hd hs
    rw [hcall] at hs
    rw [log_go, Call.made?_of_shown? hs, Option.map_none, Option.toList_none, List.append_nil]
  refine ⟨?_, ?_, ?_⟩
  · have hle := h.le
    rw [hseen, log_go, List.length_append]
    split <;> omega
  · intro hd hs
    rw [hseen, hlog hd hs]
    rw [hcall] at hs
    have hlook := Call.shown?_step hs
    split at hlook
    · rw [if_pos ‹_›, List.drop_length]
      exact fun x hx => absurd hx List.not_mem_nil
    · rw [if_neg ‹_›]
      exact h.others hd hlook
  · intro hd hs
    rw [hseen, hlog hd hs]
    rw [hcall] at hs
    have hlook := Call.shown?_step hs
    have hhead : (c.go g t spurious).shared.head = c.shared.head :=
      Call.head_step (Call.made?_of_shown? hs)
    rw [hhead]
    split at hlook
    · exact fun _ => hlook
    · rw [if_neg ‹_›]
      exact h.current hd hlook

/-- The call of another thread goes one step further. -/
theorem other (h : LastLook c t) {u : ι} (hne : t ≠ u) (spurious : Bool) :
    LastLook (c.go g u spurious) t := by
  have hseen : (c.go g u spurious).seen t = c.seen t := seen_advance_of_ne c hne _ _
  have hcall : (c.go g u spurious).call t = c.call t := call_advance_of_ne c hne _ _
  refine ⟨?_, ?_, ?_⟩
  · rw [hseen, log_go, List.length_append]
    exact Nat.le_add_right_of_le h.le
  · rw [hseen, hcall, log_go, List.drop_append_of_le_length h.le]
    intro hd hs x hx
    rcases List.mem_append.1 hx with hx | hx
    · exact h.others hd hs x hx
    · obtain ⟨y, -, rfl⟩ := Option.map_eq_some_iff.1 (Option.mem_toList.1 hx)
      exact hne.symm
  · rw [hseen, hcall, log_go, List.length_append]
    intro hd hs hlength
    have hle := h.le
    cases hmade : ((c.call u).step g spurious c.shared).2.made? with
    | none =>
      have hhead : (c.go g u spurious).shared.head = c.shared.head := Call.head_step hmade
      rw [hhead]
      refine h.current hd hs ?_
      rw [hmade] at hlength
      exact hlength
    | some x =>
      rw [hmade] at hlength
      change c.seen t = c.log.length + 1 at hlength
      omega

/-- A call that has just begun relies on nothing yet. -/
theorem begin (h : LastLook c t) {u : ι} {x : Call} (hx : x.shown? = none) (held : List UInt32) :
    LastLook { c with call := Function.update c.call u x, held } t := by
  have hshown : ∀ hd, (Function.update c.call u x t).shown? = some hd →
      (c.call t).shown? = some hd := by
    intro hd hs
    rcases eq_or_ne t u with rfl | hne
    · rw [Function.update_self, hx] at hs
      cases hs
    · rwa [Function.update_of_ne hne] at hs
  exact ⟨h.le, fun hd hs => h.others hd (hshown hd hs), fun hd hs => h.current hd (hshown hd hs)⟩

theorem step (h : LastLook c t) (e : Event ι) : LastLook (c.step g e) t := by
  cases e with
  | go u spurious =>
    rcases eq_or_ne t u with rfl | hne
    · exact h.own spurious
    · exact h.other hne spurious
  | take u | give u slot =>
    rw [Crew.step]
    split
    · exact h.begin rfl _
    · exact h
  | write _ _ _ | elsewhere _ _ =>
    rw [Crew.step]
    split
    · exact ⟨h.le, h.others, h.current⟩
    · exact h

theorem run (h : LastLook c t) (es : List (Event ι)) : LastLook (c.run g es) t := by
  induction es generalizing c with
  | nil => exact h
  | cons e es ih => exact ih (h.step e)

end LastLook

/-! ### Failures and what they are charged to -/

/-- The event is a step of a call that relies on the present head. -/
def finds (c : Crew ι) : Event ι → Bool
  | .go t _ => (c.call t).shown? = some c.shared.head
  | _ => false

/-- An exchange fails because the head is not the one that the call was shown. -/
def misses (g : Slots) (c : Crew ι) (e : Event ι) : Bool := c.isDeed g .contended e && !c.finds e

/-- An exchange fails spuriously: the head is the one that the call was shown. -/
def slips (g : Slots) (c : Crew ι) (e : Event ι) : Bool := c.isDeed g .contended e && c.finds e

/-- An exchange of the thread fails because the head is not the one that its call was shown. -/
def missesOf (g : Slots) (t : ι) (c : Crew ι) : Event ι → Bool
  | .go u spurious => u = t && c.misses g (.go u spurious)
  | _ => false

/-- The exchanges of other threads that a thread has been shown. -/
def dues (c : Crew ι) (t : ι) : ℕ := (c.log.take (c.seen t)).countP fun x => x.1 ≠ t

theorem times_misses_add_slips (c : Crew ι) (es : List (Event ι)) :
    times g (misses g) c es + times g (slips g) c es = times g (isDeed g .contended) c es := by
  induction es generalizing c with
  | nil => rfl
  | cons e es ih =>
    have hrest := ih (c.step g e)
    have hsplit : (c.misses g e).toNat + (c.slips g e).toNat =
        (c.isDeed g .contended e).toNat := by
      rw [misses, slips]
      cases c.isDeed g .contended e <;> cases c.finds e <;> rfl
    rw [times, times, times]
    omega

omit [DecidableEq ι] in
theorem attempts_of_misses {spurious : Bool} (hmiss : c.misses g (.go t spurious) = true) :
    (c.call t).attempts = true :=
  Call.attempts_of_brings (of_decide_eq_true (Bool.and_eq_true_iff.1 hmiss).1)

omit [DecidableEq ι] in
/-- **Whoever misses has been overtaken**: others have exchanged the head since. -/
theorem LastLook.overtaken (h : LastLook c t) {spurious : Bool}
    (hmiss : c.misses g (.go t spurious) = true) :
    c.seen t < c.log.length ∧ ∀ x ∈ c.log.drop (c.seen t), x.1 ≠ t := by
  obtain ⟨hd, hshown⟩ := Call.exists_shown_of_attempts (attempts_of_misses hmiss)
  have hother : ¬ (c.call t).shown? = some c.shared.head := by
    rw [misses, Bool.and_eq_true, Bool.not_eq_true', finds, decide_eq_false_iff_not] at hmiss
    exact hmiss.2
  refine ⟨Nat.lt_of_le_of_ne h.le fun hseen => hother ?_, h.others hd hshown⟩
  rw [hshown, h.current hd hshown hseen]

theorem dues_le (c : Crew ι) (t : ι) : c.dues t ≤ c.log.countP fun x => x.1 ≠ t :=
  (List.take_sublist _ _).countP_le

/-- A thread that misses has not been shown all exchanges of the others. -/
theorem LastLook.dues_lt (h : LastLook c t) {spurious : Bool}
    (hmiss : c.misses g (.go t spurious) = true) :
    c.dues t < c.log.countP fun x => x.1 ≠ t := by
  obtain ⟨hlt, hothers⟩ := h.overtaken hmiss
  have hdrop : (c.log.drop (c.seen t)).countP (fun x => x.1 ≠ t) = c.log.length - c.seen t := by
    rw [List.countP_eq_length.2 fun x hx => decide_eq_true (hothers x hx), List.length_drop]
  have hsplit := congrArg (List.countP fun x => x.1 ≠ t) (List.take_append_drop (c.seen t) c.log)
  rw [List.countP_append, hdrop] at hsplit
  rw [dues]
  omega

/-- A step that is shown the head is shown all exchanges. -/
theorem LastLook.dues_go (h : LastLook c t) (u : ι) (spurious : Bool) :
    (c.go g u spurious).dues t =
      if u = t ∧ (c.call u).looks then c.log.countP fun x => x.1 ≠ t else c.dues t := by
  rw [dues, seen_go, log_go]
  split
  · rw [List.take_left]
  · rw [List.take_append_of_le_length h.le, dues]

/-- **A thread that misses is shown an exchange of another thread** that it has not been shown
before. -/
theorem LastLook.dues_step (h : LastLook c t) (e : Event ι) :
    (missesOf g t c e).toNat + c.dues t ≤ (c.step g e).dues t := by
  cases e with
  | go u spurious =>
    rw [Crew.step, h.dues_go, missesOf]
    by_cases hmiss : u = t ∧ c.misses g (.go u spurious) = true
    · obtain ⟨rfl, hmiss⟩ := hmiss
      have hlooks := Call.looks_of_attempts (attempts_of_misses hmiss)
      have hlt := h.dues_lt hmiss
      rw [if_pos ⟨rfl, hlooks⟩, hmiss, decide_eq_true rfl, Bool.and_self, Bool.toNat_true]
      omega
    · have hnone : (decide (u = t) && c.misses g (.go u spurious)) = false := by
        rw [← Bool.not_eq_true, Bool.and_eq_true, decide_eq_true_iff]
        exact hmiss
      rw [hnone, Bool.toNat_false, Nat.zero_add]
      split
      · exact dues_le c t
      · exact Nat.le_refl _
  | take u | give u slot =>
    rw [Crew.step]
    split <;> exact (Nat.zero_add _).le
  | write _ _ _ | elsewhere _ _ =>
    rw [Crew.step]
    split <;> exact (Nat.zero_add _).le

theorem LastLook.times_missesOf_le (h : LastLook c t) (es : List (Event ι)) :
    times g (missesOf g t) c es + c.dues t ≤ (c.run g es).dues t := by
  induction es generalizing c with
  | nil => exact (Nat.zero_add _).le
  | cons e es ih =>
    have hstep := h.dues_step (g := g) e
    have hrest := ih (h.step (g := g) e)
    rw [run_cons, times]
    omega

/-! ### The sum over all threads -/

section Finite

variable [Fintype ι]

theorem sum_missesOf (c : Crew ι) (e : Event ι) :
    ∑ t, (missesOf g t c e).toNat = (c.misses g e).toNat := by
  cases e with
  | go u spurious =>
    rw [Finset.sum_eq_single u]
    · rw [missesOf, decide_eq_true rfl, Bool.true_and]
    · intro t _ hne
      rw [missesOf, decide_eq_false hne.symm, Bool.false_and, Bool.toNat_false]
    · exact fun hu => absurd (Finset.mem_univ u) hu
  | take _ | give _ _ | write _ _ _ | elsewhere _ _ => simp [missesOf, misses, isDeed, brings]

theorem sum_times_missesOf (c : Crew ι) (es : List (Event ι)) :
    ∑ t, times g (missesOf g t) c es = times g (misses g) c es := by
  induction es generalizing c with
  | nil => exact Finset.sum_const_zero
  | cons e es ih =>
    simp only [times, Finset.sum_add_distrib, sum_missesOf, ih]

/-- Every exchange is one of another thread to all threads but one. -/
theorem sum_countP (log : List (ι × Exchange)) :
    ∑ t, log.countP (fun x => x.1 ≠ t) = (Fintype.card ι - 1) * log.length := by
  induction log with
  | nil => simp
  | cons x log ih =>
    have hothers : ∑ t, (if decide (x.1 ≠ t) = true then 1 else 0) = Fintype.card ι - 1 := by
      simp only [decide_eq_true_iff]
      rw [← Finset.card_filter, Finset.filter_ne, Finset.card_erase_of_mem (Finset.mem_univ _),
        Finset.card_univ]
    simp only [List.countP_cons, Finset.sum_add_distrib]
    rw [ih, hothers, List.length_cons, Nat.mul_succ]

/-- Failures are charged to exchanges of others, or they are spurious. -/
theorem times_fails_le (s : Shared) (es : List (Event ι)) :
    times g (isDeed g .contended) (start s) es ≤
      (Fintype.card ι - 1) * (run g (start s) es).exchanges.length +
        times g (slips g) (start s) es := by
  have hthread : ∀ t, times g (missesOf g t) (start s) es ≤
      (run g (start s) es).log.countP fun x => x.1 ≠ t := by
    intro t
    have hmisses := (lastLook_start s t).times_missesOf_le (g := g) es
    have hdues := dues_le (run g (start s) es) t
    omega
  have hsum := Finset.sum_le_sum fun t (_ : t ∈ Finset.univ) => hthread t
  rw [sum_times_missesOf, sum_countP] at hsum
  rw [← times_misses_add_slips, exchanges, List.length_map]
  exact Nat.add_le_add_right hsum _

end Finite

/-! ### A thread that is left alone -/

/-- No exchange fails spuriously. -/
def Event.IsSure : Event ι → Prop
  | .go _ spurious => spurious = false
  | _ => True

/-- The event is a step of a call of the thread. -/
def Event.isStepOf (t : ι) : Event ι → Bool
  | .go u _ => u = t
  | _ => false

/-- A thread that is left alone fails only where it relied on an old head, and does so no longer. -/
theorem isDeed_add_stale (hby : e.IsBy t) (hsure : e.IsSure) :
    (c.isDeed g .contended e).toNat +
        (((c.step g e).call t).stale (c.step g e).shared).toNat ≤
      ((c.call t).stale c.shared).toNat := by
  cases e with
  | go u spurious =>
    cases hby
    cases hsure
    rw [step, go, call_advance_self]
    exact Call.brings_add_stale g c.shared (c.call t)
  | take u | give u slot =>
    cases hby
    rw [step]
    split
    · -- a call that has just begun relies on no head yet
      show _ + (Call.stale c.shared (Function.update c.call t _ t)).toNat ≤ _
      rw [Function.update_self]
      exact Nat.zero_le _
    · exact (Nat.zero_add _).le
  | write _ _ _ | elsewhere _ _ =>
    rw [step]
    split <;> exact (Nat.zero_add _).le

/-- A thread that is left alone fails once at most, and not at all if it relied on no old head. -/
theorem times_fails_alone (hes : ∀ e ∈ es, e.IsBy t ∧ e.IsSure) :
    times g (isDeed g .contended) c es ≤ ((c.call t).stale c.shared).toNat := by
  induction es generalizing c with
  | nil => exact Nat.zero_le _
  | cons e es ih =>
    obtain ⟨hby, hsure⟩ := hes e List.mem_cons_self
    have hstep := isDeed_add_stale (g := g) (c := c) hby hsure
    have hrest := ih (c := c.step g e) fun e' he' => hes e' (List.mem_cons_of_mem e he')
    rw [times]
    omega

/-- While a call of a thread that is left alone is under way, its steps lead to its end. -/
theorem left_step (hby : e.IsBy t) (hsure : e.IsSure) (hpending : (c.call t).isDone = false) :
    ((c.step g e).call t).left (c.step g e).shared + (e.isStepOf t).toNat ≤
      (c.call t).left c.shared := by
  cases e with
  | go u spurious =>
    cases hby
    cases hsure
    rw [step, go, call_advance_self, Event.isStepOf, decide_eq_true rfl]
    exact Call.left_step g c.shared hpending
  | take u | give u slot =>
    cases hby
    rw [step, hpending]
    exact Nat.le_refl _
  | write _ _ _ | elsewhere _ _ =>
    rw [step]
    split <;> exact Nat.le_refl _

/-- A call of a thread that is left alone ends before its steps are as many as were left. -/
theorem exists_isDone_alone (hes : ∀ e ∈ es, e.IsBy t ∧ e.IsSure)
    (hsteps : (c.call t).left c.shared ≤ es.countP (Event.isStepOf t)) :
    ∃ k ≤ es.length, ((run g c (es.take k)).call t).isDone = true := by
  induction es generalizing c with
  | nil => exact ⟨0, Nat.le_refl 0, Call.isDone_of_left (Nat.le_zero.1 hsteps)⟩
  | cons e es ih =>
    cases hdone : (c.call t).isDone with
    | true => exact ⟨0, Nat.zero_le _, hdone⟩
    | false =>
      obtain ⟨hby, hsure⟩ := hes e List.mem_cons_self
      have hstep := left_step (g := g) hby hsure hdone
      have hcount : (e :: es).countP (Event.isStepOf t) =
          es.countP (Event.isStepOf t) + (e.isStepOf t).toNat := by
        rw [List.countP_cons]
        cases e.isStepOf t <;> rfl
      obtain ⟨k, hk, hend⟩ := ih (c := c.step g e)
        (fun e' he' => hes e' (List.mem_cons_of_mem e he')) (by omega)
      exact ⟨k + 1, Nat.succ_le_succ hk, hend⟩

/-! ### What is promised -/

omit [DecidableEq ι] in
theorem spurious_of_slips {spurious : Bool} (hslip : c.slips g (.go t spurious) = true) :
    spurious = true := by
  rw [slips, Bool.and_eq_true, finds, decide_eq_true_iff] at hslip
  obtain ⟨hfails, hfinds⟩ := hslip
  replace hfails := of_decide_eq_true hfails
  by_contra hsure
  rw [Bool.not_eq_true] at hsure
  subst hsure
  have hpending := Call.pending_of_attempts (Call.attempts_of_brings hfails)
  rcases Call.lone_step g c.shared hpending with ⟨hnone, -, -⟩ | ⟨-, hold, -⟩
  · exact hnone hfails
  · rw [Call.stale_eq_false hfinds] at hold
    cases hold

/-- What is promised of every state of threads that share a pool, when so many exchanges have failed
spuriously before. -/
structure Paid [Fintype ι] (g : Slots) (c : Crew ι) (slipped : ℕ) : Prop where
  /-- Whoever misses has been overtaken: there have been exchanges since his call was last shown the
  head, and all of them are those of other threads. -/
  overtaken : ∀ t spurious, c.misses g (.go t spurious) = true →
    c.seen t < c.log.length ∧ ∀ x ∈ c.log.drop (c.seen t), x.1 ≠ t
  /-- Whoever does not miss and fails nevertheless fails spuriously. -/
  spuriously : ∀ t spurious, c.slips g (.go t spurious) = true → spurious = true
  /-- No more failures are counted than the exchanges and the spurious failures account for. -/
  contended_le : c.shared.counters.contended.toNat ≤
    (Fintype.card ι - 1) * c.exchanges.length + slipped
  /-- A thread that is left alone fails once at most, and not at all in calls that begin then. -/
  once : ∀ t (es : List (Event ι)), (∀ e ∈ es, e.IsBy t ∧ e.IsSure) →
    times g (isDeed g .contended) c es ≤ if (c.call t).isDone then 0 else 1
  /-- Its call ends after seven steps at most. -/
  ends : ∀ t (es : List (Event ι)), (∀ e ∈ es, e.IsBy t ∧ e.IsSure) →
    7 ≤ es.countP (Event.isStepOf t) → ∃ k ≤ es.length, ((run g c (es.take k)).call t).isDone = true

/-- Failures are counted after they have happened. -/
theorem contended_le (s : Shared) (hs : s.counters = {}) (es : List (Event ι)) :
    (run g (start s) es).shared.counters.contended.toNat ≤
      times g (isDeed g .contended) (start s) es := by
  have hcount := toNat_count_run_le (g := g) (start s) es .contended
  have hmarks := times_isMark_add_owed (g := g) (few_start s) es .contended
  have howed : (start s : Crew ι).owed .contended = 0 := owed_eq_zero (fun _ => rfl) _
  have hzero : ((start s : Crew ι).shared.counters.count .contended).toNat = 0 := by
    show (s.counters.count .contended).toNat = 0
    rw [hs]
    rfl
  change (run g (start s) es).shared.counters.contended.toNat ≤ _ at hcount
  omega

/-- **Every retry is paid for by someone else**: whatever any number of threads do with a new pool,
in whatever order their steps come, even if a call comes too late to notice that the head has been
exchanged. -/
theorem paid_run [Fintype ι] {p : Pool} {m : Memory} (h : New p m) (es : List (Event ι)) :
    Paid p.slots (run p.slots (start (p.shared m)) es)
      (times p.slots (slips p.slots) (start (p.shared m)) es) := by
  obtain ⟨shape, m₀, hb⟩ := h.built
  constructor
  · intro t spurious hmiss
    exact ((lastLook_start _ t).run es).overtaken hmiss
  · exact fun _ _ => spurious_of_slips
  · have hcontended := contended_le (g := p.slots) (p.shared m) hb.counters_eq es
    have hfails := times_fails_le (g := p.slots) (p.shared m) es
    omega
  · intro t es' hes
    have hfails := times_fails_alone (g := p.slots)
      (c := run p.slots (start (p.shared m)) es) hes
    split
    · rwa [Call.stale_of_isDone ‹_›] at hfails
    · exact hfails.trans (Bool.toNat_le _)
  · intro t es' hes hsteps
    exact exists_isDone_alone hes ((Call.left_le _ _).trans hsteps)

theorem paid_run_overtaken :
    let g := twoSlots.slots
    let c := run g pair (overtaken.take 19)
    New twoSlots (linkSlots twoSlots.slots .zero) ∧ c.misses g (.go false false) = true ∧
      (c.seen false, c.log.length) = (0, 3) ∧
      Paid g c (times g (slips g) pair (overtaken.take 19)) :=
  ⟨new_twoSlots, by decide +kernel, by decide +kernel, paid_run new_twoSlots _⟩

end Crew
end Slab.Pool
