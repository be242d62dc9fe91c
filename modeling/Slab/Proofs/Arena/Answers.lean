import Slab.Proofs.Arena.Carving

/-!
# What calls for regions answer

A call for a region gets the next bytes of the arena if they fit, and is refused otherwise. Other
threads may carve up the arena while the call is under way, so whether they fit is asked of the
moment at which the call ends; a cursor that the call saw earlier lies at or before that one, so a
refusal is never owed to a stale cursor.

* `Carving.after`, `Carving.Spans`: the state after so many events, and the moments between which a
  call is under way;
* `Reservation.Pending`, `Spans.pending`: what a call for so many bytes is until it ends;
* `Carving.Ending`, `Spans.ending`: how it ends;
* `Carving.Answered`: what is promised of a call;
* `Carving.Lawful`, `Carving.lawful_run`: what is promised of a whole run.
-/

namespace Slab

namespace Reservation

/-- A call for so many bytes that has not ended. -/
def Pending (bytes : ℕ) (x : Reservation) : Prop :=
  bytes ≠ 0 ∧ Size.roundUp cacheLine bytes < Size.limit ∧
    (x = started (Size.roundUp cacheLine bytes) ∨
      ∃ cursor, x = seen (Size.roundUp cacheLine bytes) cursor)

theorem Pending.not_isDone {bytes : ℕ} {x : Reservation} (h : x.Pending bytes) : ¬ x.isDone := by
  obtain ⟨-, -, rfl | ⟨cursor, rfl⟩⟩ := h <;> exact Bool.false_ne_true

/-- A call for no bytes, or for more than a machine word can count, has ended when it begins. -/
theorem start_cases (bytes : ℕ) :
    (start bytes).Pending bytes ∨
      (start bytes = refused ∧ (bytes = 0 ∨ Size.limit ≤ Size.roundUp cacheLine bytes)) := by
  unfold start
  by_cases h0 : bytes = 0
  · right
    rw [if_pos h0]
    exact ⟨rfl, Or.inl h0⟩
  · rw [if_neg h0]
    by_cases hlt : Size.roundUp cacheLine bytes < Size.limit
    · left
      simp [Size.roundUp?, hlt, Pending, h0]
    · right
      simp only [Size.roundUp?, if_neg hlt]
      exact ⟨trivial, Or.inr (Nat.le_of_not_lt hlt)⟩

/-- One step of a pending call leaves it pending, and does nothing, or ends it. -/
theorem Pending.step {bytes : ℕ} {x : Reservation} (h : x.Pending bytes) (spurious : Bool)
    (a : Arena) :
    ((x.step spurious a).2.Pending bytes ∧ (x.step spurious a).1 = a) ∨
      (a.cursor + Size.roundUp cacheLine bytes ≤ a.size ∧
        (x.step spurious a).1 = { a with cursor := a.cursor + Size.roundUp cacheLine bytes } ∧
        (x.step spurious a).2 =
          granted ⟨a.base + a.cursor, a.cursor, Size.roundUp cacheLine bytes⟩) ∨
      ((x.step spurious a).1 = a ∧ (x.step spurious a).2 = refused ∧
        ∃ cursor, x = seen (Size.roundUp cacheLine bytes) cursor ∧
          a.size < cursor + Size.roundUp cacheLine bytes) := by
  have ho := step_outcome spurious a h.not_isDone
  obtain ⟨h0, hlt, hx⟩ := h
  generalize (x.step spurious a).1 = a' at ho ⊢
  generalize (x.step spurious a).2 = y at ho ⊢
  cases ho with
  | @look _ length hl =>
    have hlen : length = Size.roundUp cacheLine bytes := by
      rcases hl with rfl | ⟨k, rfl⟩ <;> rcases hx with hx | ⟨k', hx⟩ <;> cases hx <;> rfl
    left
    exact ⟨⟨h0, hlt, Or.inr ⟨_, by rw [hlen]⟩⟩, rfl⟩
  | grant hfit =>
    rcases hx with hx | ⟨k, hx⟩ <;> cases hx
    right
    left
    exact ⟨hfit, rfl, rfl⟩
  | refuse hfull =>
    rcases hx with hx | ⟨k, hx⟩ <;> cases hx
    right
    right
    exact ⟨rfl, rfl, _, rfl, hfull⟩

end Reservation

namespace Carving

variable {ι : Type} [DecidableEq ι] {c : Carving ι} {es : List (Event ι)} {t : ι} {bytes i j : ℕ}

/-- The state after the first `n` events of a run. -/
def after (c : Carving ι) (es : List (Event ι)) (n : ℕ) : Carving ι := run c (es.take n)

theorem after_succ {n : ℕ} {e : Event ι} (he : es[n]? = some e) :
    after c es (n + 1) = (after c es n).step e := by
  unfold after
  rw [List.take_add_one, he, run_append]
  rfl

/-- Event `i` begins a call of thread `t` for so many bytes, which is under way until `j` events
have happened and has ended then. -/
structure Spans (c : Carving ι) (es : List (Event ι)) (t : ι) (bytes i j : ℕ) : Prop where
  begins : es[i]? = some (.reserve t bytes)
  idle : ((after c es i).call t).isDone
  lt : i < j
  le : j ≤ es.length
  pending : ∀ n, i < n → n < j → ¬ ((after c es n).call t).isDone
  ended : ((after c es j).call t).isDone

/-! ### One event -/

/-- Only a step of a call touches the arena. -/
theorem arena_step_of_ne_go {e : Event ι} (he : ∀ u s, e ≠ .go u s) :
    (c.step e).arena = c.arena := by
  cases e with
  | reserve u bytes =>
    rw [step]
    split_ifs <;> rfl
  | go u s => exact absurd rfl (he u s)
  | split k mid =>
    rw [step, split]
    split <;> rfl

/-- An event that is no step of a call leaves the call alone while it is under way. -/
theorem call_step_of_other {e : Event ι} (ht : ¬ (c.call t).isDone)
    (he : ∀ s, e ≠ .go t s) : (c.step e).call t = c.call t := by
  cases e with
  | reserve u bytes =>
    rw [step]
    split_ifs with hu
    · refine Function.update_of_ne ?_ _ _
      rintro rfl
      exact ht hu
    · rfl
  | go u s =>
    rw [step]
    split_ifs
    · rfl
    · refine Function.update_of_ne ?_ _ _
      rintro rfl
      exact he s rfl
  | split k mid =>
    rw [step, split]
    split <;> rfl

/-- What a call for so many bytes has done with its last step, and what it left behind. -/
inductive Ending (bytes : ℕ) (t : ι) (c c' : Carving ι) : Prop
  /-- The next bytes were carved off, and they are live. -/
  | grant (h0 : bytes ≠ 0) (hfit : c.arena.cursor + Size.roundUp cacheLine bytes ≤ c.arena.size)
      (harena : c'.arena = { c.arena with cursor := c.arena.cursor + Size.roundUp cacheLine bytes })
      (hcall : c'.call t = .granted ⟨c.arena.base + c.arena.cursor, c.arena.cursor,
        Size.roundUp cacheLine bytes⟩)
      (hlive : c'.live = c.live ++ [⟨c.arena.base + c.arena.cursor, c.arena.cursor,
        Size.roundUp cacheLine bytes⟩])
  /-- Nothing has changed, as the bytes do not fit or there are none. -/
  | refuse (hfull : bytes = 0 ∨ c.arena.size < c.arena.cursor + Size.roundUp cacheLine bytes)
      (harena : c'.arena = c.arena) (hcall : c'.call t = .refused) (hlive : c'.live = c.live)

/-- One step of a pending call leaves it pending, and does nothing, or ends it. -/
theorem go_of_pending {a : Arena} (hinv : Inv a c) (h : (c.call t).Pending bytes)
    (spurious : Bool) :
    (((c.step (.go t spurious)).call t).Pending bytes ∧
        (c.step (.go t spurious)).arena = c.arena ∧ (c.step (.go t spurious)).live = c.live) ∨
      Ending bytes t c (c.step (.go t spurious)) := by
  rw [step, if_neg h.not_isDone]
  have hcall : (c.go t spurious).call t = ((c.call t).step spurious c.arena).2 :=
    Function.update_self _ _ _
  have harena : (c.go t spurious).arena = ((c.call t).step spurious c.arena).1 := rfl
  have hlive : (c.go t spurious).live =
      c.live ++ ((c.call t).step spurious c.arena).2.region?.toList := rfl
  rcases h.step spurious c.arena with ⟨hp, ha⟩ | ⟨hfit, ha, hs⟩ | ⟨ha, hs, cursor, hx, hfull⟩
  · refine Or.inl ⟨hcall ▸ hp, harena.trans ha, ?_⟩
    rw [hlive]
    obtain ⟨-, -, hy | ⟨k, hy⟩⟩ := hp <;> simp [hy, Reservation.region?]
  · rw [hs] at hcall hlive
    exact Or.inr (.grant h.1 hfit (harena.trans ha) hcall hlive)
  · rw [hs] at hcall hlive
    -- the cursor has not gone back since the call saw it
    have hv := hinv.calls t
    rw [hx] at hv
    refine Or.inr (.refuse (Or.inr ?_) (harena.trans ha) hcall ?_)
    · have := hv.2
      omega
    · rw [hlive]
      simp [Reservation.region?]

/-! ### Along a run -/

namespace Spans

variable {a : Arena}

/-- The event that begins the call. -/
theorem after_begins (h : Spans c es t bytes i j) :
    (after c es (i + 1)).call t = .start bytes ∧
      (after c es (i + 1)).arena = (after c es i).arena ∧
      (after c es (i + 1)).live = (after c es i).live := by
  rw [after_succ h.begins, step, if_pos h.idle]
  exact ⟨Function.update_self _ _ _, rfl, rfl⟩

theorem event (h : Spans c es t bytes i j) {n : ℕ} (hn : n < j) : ∃ e, es[n]? = some e :=
  ⟨_, List.getElem?_eq_getElem (Nat.lt_of_lt_of_le hn h.le)⟩

/-- **Until it ends the call is pending.** -/
theorem pending_of_lt (h : Spans c es t bytes i j) (hinv : ∀ n, Inv a (after c es n)) {n : ℕ}
    (hin : i < n) (hnj : n < j) : ((after c es n).call t).Pending bytes := by
  -- by induction on the number of events, from the one that begins the call
  induction hin with
  | refl =>
    have hnot := h.pending (i + 1) (Nat.lt_succ_self i) hnj
    rw [h.after_begins.1] at hnot ⊢
    rcases Reservation.start_cases bytes with hp | ⟨hr, -⟩
    · exact hp
    · rw [hr] at hnot
      exact absurd rfl hnot
  | @step n hin ih =>
    have hp := ih (Nat.lt_of_succ_lt hnj)
    have hnot := h.pending (n + 1) (Nat.lt_succ_of_lt hin) hnj
    obtain ⟨e, he⟩ := h.event (Nat.lt_of_succ_lt hnj)
    rw [after_succ he] at hnot ⊢
    by_cases hgo : ∃ s, e = .go t s
    · obtain ⟨s, rfl⟩ := hgo
      rcases go_of_pending (hinv n) hp s with ⟨hp', -, -⟩ | hend
      · exact hp'
      · cases hend with
        | grant _ _ _ hcall _ | refuse _ _ hcall _ =>
          rw [hcall] at hnot
          exact absurd rfl hnot
    · rw [call_step_of_other hp.not_isDone fun s hs => hgo ⟨s, hs⟩]
      exact hp

/-- **How a call ends.** A call that has ended when it begins was for no bytes or for too many. -/
theorem ending (h : Spans c es t bytes i j) (hinv : ∀ n, Inv a (after c es n))
    (hsize : a.size < Size.limit) : Ending bytes t (after c es (j - 1)) (after c es j) := by
  obtain ⟨m, rfl⟩ : ∃ m, j = m + 1 := ⟨j - 1, by have := h.lt; omega⟩
  rw [Nat.add_sub_cancel]
  rcases Nat.lt_or_ge i m with him | hle
  · -- the last event is a step of the call
    have hp := h.pending_of_lt hinv him (Nat.lt_succ_self m)
    have hended := h.ended
    obtain ⟨e, he⟩ := h.event (Nat.lt_succ_self m)
    rw [after_succ he] at hended ⊢
    by_cases hgo : ∃ s, e = .go t s
    · obtain ⟨s, rfl⟩ := hgo
      rcases go_of_pending (hinv m) hp s with ⟨hp', -, -⟩ | hend
      · exact absurd hended hp'.not_isDone
      · exact hend
    · rw [call_step_of_other hp.not_isDone fun s hs => hgo ⟨s, hs⟩] at hended
      exact absurd hended hp.not_isDone
  · -- the event that begins the call ends it too
    obtain rfl : i = m := by have := h.lt; omega
    obtain ⟨hcall, harena, hlive⟩ := h.after_begins
    have hended := h.ended
    rw [hcall] at hended
    rcases Reservation.start_cases bytes with hp | ⟨hr, hbytes⟩
    · exact absurd hended hp.not_isDone
    · refine .refuse (hbytes.imp_right fun hlt => ?_) harena (hcall.trans hr) hlive
      have := (hinv i).size_eq
      omega

/-- Until its last step the call changes nothing, whatever the others do. -/
theorem own_unchanged (h : Spans c es t bytes i j) (hinv : ∀ n, Inv a (after c es n)) {n : ℕ}
    {e : Event ι} (hin : i ≤ n) (hnj : n + 1 < j) (he : es[n]? = some e)
    (ht : e.thread? = some t) :
    (after c es (n + 1)).arena = (after c es n).arena ∧
      (after c es (n + 1)).live = (after c es n).live := by
  rcases Nat.eq_or_lt_of_le hin with rfl | hin
  · exact h.after_begins.2
  · have hp := h.pending_of_lt hinv hin (Nat.lt_of_succ_lt hnj)
    have hp' := h.pending_of_lt hinv (Nat.lt_succ_of_lt hin) hnj
    rw [after_succ he] at hp' ⊢
    cases e with
    | reserve u b =>
      cases ht
      rw [step, if_neg hp.not_isDone]
      exact ⟨rfl, rfl⟩
    | go u s =>
      cases ht
      rcases go_of_pending (hinv n) hp s with ⟨-, harena, hlive⟩ | hend
      · exact ⟨harena, hlive⟩
      · cases hend with
        | grant _ _ _ hcall _ | refuse _ _ hcall _ =>
          rw [hcall] at hp'
          exact absurd rfl hp'.not_isDone
    | split k mid => cases ht

/-- A call that nobody interferes with finds the arena as it was when it began. -/
theorem arena_of_alone (h : Spans c es t bytes i j) (hinv : ∀ n, Inv a (after c es n))
    (halone : ∀ n u s, i < n → n < j → es[n]? = some (.go u s) → u = t) {n : ℕ} (hin : i ≤ n)
    (hnj : n < j) : (after c es n).arena = (after c es i).arena := by
  induction hin with
  | refl => rfl
  | @step n hin ih =>
    obtain ⟨e, he⟩ := h.event (Nat.lt_of_succ_lt hnj)
    refine Eq.trans ?_ (ih (Nat.lt_of_succ_lt hnj))
    by_cases hgo : ∃ u s, e = .go u s
    · obtain ⟨u, s, rfl⟩ := hgo
      rcases Nat.eq_or_lt_of_le hin with rfl | hlt
      · rw [h.begins] at he
        cases he
      · obtain rfl := halone n u s hlt (Nat.lt_of_succ_lt hnj) he
        exact (h.own_unchanged hinv (Nat.le_of_lt hlt) hnj he rfl).1
    · rw [after_succ he]
      exact arena_step_of_ne_go fun u s hs => hgo ⟨u, s, hs⟩

end Spans

/-! ### What is promised -/

/-- What is promised of a call for so many bytes that event `i` begins and that has ended after `j`
events. -/
structure Answered (c : Carving ι) (es : List (Event ι)) (t : ι) (bytes i j : ℕ) : Prop where
  /-- A region that the call gets consists of the bytes asked for, in whole cache lines, from where
  the arena was carved up to at the last step, and is live from then on. -/
  granted : ∀ r, (after c es j).call t = .granted r →
    bytes ≠ 0 ∧ r.length = Size.roundUp cacheLine bytes ∧
      r.offset = (after c es (j - 1)).arena.reserved ∧
      (after c es j).arena.reserved = r.offset + r.length ∧
      (after c es j).live = (after c es (j - 1)).live ++ [r]
  /-- A refused call asked for nothing, or for more than is left when it ends. -/
  refused : (after c es j).call t = .refused →
    bytes = 0 ∨ (after c es j).arena.remaining < Size.roundUp cacheLine bytes
  /-- No step of a refused call has changed anything. -/
  unchanged : (after c es j).call t = .refused → ∀ n e, i ≤ n → n < j → es[n]? = some e →
    e.thread? = some t → (after c es (n + 1)).arena = (after c es n).arena ∧
      (after c es (n + 1)).live = (after c es n).live
  /-- A call in which no other call makes a step gets a region exactly if it asks for some bytes and
  these fit, and then from where the arena was carved up to when the call began. -/
  alone : (∀ n u s, i < n → n < j → es[n]? = some (.go u s) → u = t) →
    ((∃ r, (after c es j).call t = .granted r) ↔
      bytes ≠ 0 ∧ Size.roundUp cacheLine bytes ≤ (after c es i).arena.remaining) ∧
    ∀ r, (after c es j).call t = .granted r → r.offset = (after c es i).arena.reserved

theorem Spans.answered {a : Arena} (h : Spans c es t bytes i j)
    (hinv : ∀ n, Inv a (after c es n)) (hsize : a.size < Size.limit) :
    Answered c es t bytes i j := by
  have hend := h.ending hinv hsize
  have hle := (hinv (j - 1)).cursor_le
  have hpred : i ≤ j - 1 ∧ j - 1 < j := by have := h.lt; omega
  have halone : (∀ n u s, i < n → n < j → es[n]? = some (.go u s) → u = t) →
      (after c es i).arena = (after c es (j - 1)).arena :=
    fun hal => (h.arena_of_alone hinv hal hpred.1 hpred.2).symm
  cases hend with
  | grant h0 hfit harena hcall hlive =>
    rw [← Nat.le_sub_iff_add_le' hle] at hfit
    constructor
    · intro r hr
      rw [hcall] at hr
      cases hr
      exact ⟨h0, rfl, rfl, by rw [harena]; rfl, hlive⟩
    · intro hr
      rw [hcall] at hr
      cases hr
    · intro hr
      rw [hcall] at hr
      cases hr
    · intro hal
      rw [halone hal]
      refine ⟨⟨fun _ => ⟨h0, hfit⟩, fun _ => ⟨_, hcall⟩⟩, fun r hr => ?_⟩
      rw [hcall] at hr
      cases hr
      rfl
  | refuse hfull harena hcall hlive =>
    have hfull' : bytes = 0 ∨
        (after c es (j - 1)).arena.remaining < Size.roundUp cacheLine bytes :=
      hfull.imp_right fun hlt => by
        unfold Arena.remaining Arena.reserved
        omega
    constructor
    · intro r hr
      rw [hcall] at hr
      cases hr
    · intro _
      rw [harena]
      exact hfull'
    · intro _ n e hin hnj he ht
      rcases Nat.lt_or_ge (n + 1) j with hlt | hge
      · exact h.own_unchanged hinv hin hlt he ht
      · obtain rfl : j = n + 1 := by omega
        exact ⟨harena, hlive⟩
    · intro hal
      rw [halone hal]
      refine ⟨⟨?_, ?_⟩, fun r hr => ?_⟩
      · rintro ⟨r, hr⟩
        rw [hcall] at hr
        cases hr
      · rintro ⟨h0, hfit⟩
        rcases hfull' with hz | hlt
        · exact absurd hz h0
        · omega
      · rw [hcall] at hr
        cases hr

/-- A step event makes one step of the call, which does nothing when the call has ended. -/
theorem step_go (c : Carving ι) (t : ι) (spurious : Bool) :
    (c.step (.go t spurious)).arena = ((c.call t).step spurious c.arena).1 ∧
      (c.step (.go t spurious)).call t = ((c.call t).step spurious c.arena).2 := by
  rw [step]
  split_ifs with hd
  · cases hx : c.call t with
    | started _ | seen _ _ =>
      rw [hx] at hd
      exact absurd hd Bool.false_ne_true
    | granted _ | refused => exact ⟨rfl, rfl⟩
  · exact ⟨rfl, Function.update_self _ _ _⟩

/-- A step that does not fail for no reason ends a call, or shows it the present cursor. -/
theorem isDone_or_seen (c : Carving ι) (t : ι) :
    ((c.step (.go t false)).call t).isDone ∨
      ∃ length,
        (c.step (.go t false)).call t = .seen length (c.step (.go t false)).arena.cursor := by
  by_cases hd : (c.call t).isDone
  · rw [step, if_pos hd]
    exact Or.inl hd
  · have ho := Reservation.step_outcome false c.arena hd
    obtain ⟨harena, hcall⟩ := step_go c t false
    rw [harena, hcall]
    generalize ((c.call t).step false c.arena).1 = a at ho ⊢
    generalize ((c.call t).step false c.arena).2 = x at ho ⊢
    generalize c.call t = y at ho
    cases ho with
    | look _ => exact Or.inr ⟨_, rfl⟩
    | grant _ => exact Or.inl rfl
    | refuse _ => exact Or.inl rfl

/-- Two steps that nobody disturbs end a call. -/
theorem isDone_of_two_steps (c : Carving ι) (t : ι) :
    ((run c [.go t false, .go t false]).call t).isDone := by
  simp only [run_cons, run_nil]
  generalize hd : c.step (.go t false) = d
  have hone := isDone_or_seen c t
  rw [hd] at hone
  rcases hone with hdone | ⟨length, hseen⟩
  · rw [step, if_pos hdone]
    exact hdone
  · -- the cursor is still the one that the call was shown
    simp only [step, hseen, Reservation.isDone, go, Reservation.step]
    split_ifs <;> simp_all

/-- A call that nobody disturbs is one with `Arena.reserve`. -/
theorem reserve_eq_run {c : Carving ι} {t : ι} (ht : (c.call t).isDone) (bytes : ℕ) :
    c.arena.reserve bytes =
      ((run c [.reserve t bytes, .go t false, .go t false]).arena,
        ((run c [.reserve t bytes, .go t false, .go t false]).call t).region?) := by
  have hbegun : c.step (.reserve t bytes) =
      { c with call := Function.update c.call t (.start bytes) } := by
    rw [step, if_pos ht]
  simp only [run_cons, run_nil]
  generalize hd : c.step (.reserve t bytes) = d
  obtain ⟨harena, hcall⟩ := step_go (d.step (.go t false)) t false
  obtain ⟨harena₁, hcall₁⟩ := step_go d t false
  have hcall₀ : d.call t = .start bytes := by
    rw [← hd, hbegun]
    exact Function.update_self _ _ _
  have harena₀ : d.arena = c.arena := by
    rw [← hd, hbegun]
  rw [harena, hcall, harena₁, hcall₁, harena₀, hcall₀]
  rfl

/-- What is promised of threads that carve up the arena `a`. -/
structure Lawful (a : Arena) (es : List (Event ι)) : Prop where
  /-- At every moment the live regions tile what has been carved off. -/
  filled : ∀ n, Filled a (after (start a) es n)
  /-- Every call that has ended was answered rightly. -/
  answered : ∀ t bytes i j, Spans (start a) es t bytes i j → Answered (start a) es t bytes i j
  /-- Every call ends when nobody disturbs it for two steps. -/
  ends : ∀ n t, ((run (after (start a) es n) [.go t false, .go t false]).call t).isDone
  /-- A call that nobody disturbs at all is one with `Arena.reserve`. -/
  single : ∀ n t bytes, ((after (start a) es n).call t).isDone →
    (after (start a) es n).arena.reserve bytes =
      ((run (after (start a) es n) [.reserve t bytes, .go t false, .go t false]).arena,
        ((run (after (start a) es n) [.reserve t bytes, .go t false, .go t false]).call t).region?)

/-- **Threads that carve up an arena share it out**: whatever regions any number of threads ask for
and split, in whatever order their steps come, the live regions tile what has been carved off, and
a call is refused only if what it asks for does not fit. -/
theorem lawful_run {host : Host} {o : Arena.Options} {a : Arena} (h : Arena.build host o = .ok a)
    (es : List (Event ι)) : Lawful a es := by
  have hinv : ∀ n, Inv a (after (start a) es n) := fun n => inv_run (inv_start h) _
  exact
    { filled := fun n => (hinv n).filled
      answered := fun t bytes i j hs => hs.answered hinv (Arena.size_lt_of_build h)
      ends := fun n t => isDone_of_two_steps _ t
      single := fun n t bytes ht => reserve_eq_run ht bytes }

/-- An arena of one page on the reference machine. -/
def page : Arena where
  base := 0x7F0000000000
  size := 4096
  domain := 0
  hugePages := true
  bound := true
  cursor := 0
  memory := .zero

theorem build_page : Arena.build Host.reference { sizeBytes := 4096 } = .ok page := rfl

/-- Two threads at an arena of one page. The second one carves off a cache line, after an exchange
that failed for no reason, while the first one is about to do so, and is refused the whole page
while the first one gets two cache lines. The region of the first one is split at its end. -/
def contested : List (Event Bool) :=
  [.reserve false 100, .go false false,
    .reserve true 1, .go true false, .go true true, .go true false,
    .go false false,
    .reserve true 4096, .go true false,
    .go false false, .split 1 65,
    .go true false]

theorem spans_contested : Spans (start page) contested true 4096 7 12 where
  begins := rfl
  idle := by decide
  lt := by decide
  le := by decide
  pending n h1 h2 :=
    (by decide : ∀ n < 12, 7 < n → ¬ ((after (start page) contested n).call true).isDone) n h2 h1
  ended := by decide

theorem lawful_contested :
    Arena.build Host.reference { sizeBytes := 4096 } = .ok page ∧
      (after (start page) contested 12).live =
        [⟨0x7F0000000000, 0, 64⟩, ⟨0x7F0000000040, 64, 128⟩, ⟨0x7F00000000C0, 192, 0⟩] ∧
      Spans (start page) contested true 4096 7 12 ∧
      (after (start page) contested 12).call true = .refused ∧
      Lawful page contested :=
  ⟨build_page, by decide, spans_contested, by decide, lawful_run build_page contested⟩

end Carving
end Slab
