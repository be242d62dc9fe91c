import Mathlib.Algebra.BigOperators.Fin
import Slab.Proofs.Arena.Construction
import Slab.Proofs.Workspace.Ground

/-!
# Threads that carve up an arena

Any number of threads carve regions off one arena, and whoever has a region may split it. The steps
of the calls interleave in any order. A region is *live* from the exchange of the cursor that
carves it off until it is split, when its two parts take its place.

* `Region.Tiles a b l`: the regions of `l` lie one after the other and fill the bytes from `a` up to
  `b`;
* `Carving ι`: the arena, what each of the threads `ι` is doing, the live regions;
* `Carving.step`, `Carving.run`: one event, and a list of them; an event that cannot happen is
  skipped;
* `Carving.Inv`: the invariant, with `Inv.step` and `inv_run`;
* `Carving.Filled`: what is promised of every state.

The live regions are kept in the order in which they lie in the arena. That they tile the part that
has been carved off says everything else about them (`Tiles.pairwise_apart`, `Tiles.sum_length`,
`Tiles.exists_mem_iff`).
-/

namespace Slab

/-! ### Regions one after the other -/

namespace Region

/-- The regions lie one after the other and fill the bytes from the first number up to the
second. -/
inductive Tiles : ℕ → ℕ → List Region → Prop
  | nil (a : ℕ) : Tiles a a []
  | cons {r : Region} {b : ℕ} {l : List Region} (h : Tiles (r.offset + r.length) b l) :
      Tiles r.offset b (r :: l)

namespace Tiles

variable {a b c : ℕ} {r r₁ r₂ : Region} {l l' : List Region}

theorem le (h : Tiles a b l) : a ≤ b := by
  induction h with
  | nil a => exact Nat.le_refl a
  | cons _ ih => omega

theorem append (h : Tiles a b l) (h' : Tiles b c l') : Tiles a c (l ++ l') := by
  induction h with
  | nil a => exact h'
  | cons _ ih => exact .cons (ih h')

theorem exists_append (h : Tiles a c (l ++ l')) : ∃ b, Tiles a b l ∧ Tiles b c l' := by
  induction l generalizing a with
  | nil => exact ⟨a, .nil a, h⟩
  | cons r l ih =>
    cases h with
    | cons h =>
      obtain ⟨b, h₁, h₂⟩ := ih h
      exact ⟨b, .cons h₁, h₂⟩

/-- A further region may follow. -/
theorem concat (h : Tiles a b l) (hr : r.offset = b) : Tiles a (b + r.length) (l ++ [r]) := by
  subst hr
  exact h.append (.cons (.nil _))

/-- Two regions may take the place of one whose bytes they share out between them. -/
theorem replace (h : Tiles a b (l ++ r :: l')) (h₁ : r₁.offset = r.offset)
    (h₂ : r₂.offset = r.offset + r₁.length) (hlen : r₁.length + r₂.length = r.length) :
    Tiles a b (l ++ r₁ :: r₂ :: l') := by
  obtain ⟨m, hl, hr⟩ := h.exists_append
  cases hr with
  | cons hr =>
    refine hl.append (h₁ ▸ .cons ?_)
    rw [h₁, ← h₂]
    refine .cons ?_
    rwa [h₂, Nat.add_assoc, hlen]

theorem bounds (h : Tiles a b l) (hr : r ∈ l) : a ≤ r.offset ∧ r.offset + r.length ≤ b := by
  induction h with
  | nil a => cases hr
  | cons h ih =>
    have hle := h.le
    rcases List.mem_cons.1 hr with rfl | hr
    · exact ⟨Nat.le_refl _, hle⟩
    · have := ih hr
      omega

/-- No two of the regions share a byte. -/
theorem pairwise_apart (h : Tiles a b l) : l.Pairwise Region.Apart := by
  induction h with
  | nil a => exact List.Pairwise.nil
  | cons h ih => exact List.pairwise_cons.2 ⟨fun s hs => Or.inl (h.bounds hs).1, ih⟩

theorem sum_length (h : Tiles a b l) : a + (l.map Region.length).sum = b := by
  induction h with
  | nil a => simp
  | cons _ ih =>
    rw [List.map_cons, List.sum_cons]
    omega

/-- The bytes of the regions are those in between. -/
theorem exists_mem_iff (h : Tiles a b l) (x : ℕ) :
    (∃ r ∈ l, r.offset ≤ x ∧ x < r.offset + r.length) ↔ a ≤ x ∧ x < b := by
  constructor
  · rintro ⟨r, hr, h1, h2⟩
    have := h.bounds hr
    omega
  · rintro ⟨h1, h2⟩
    induction h with
    | nil a => omega
    | @cons r b l h ih =>
      by_cases hx : x < r.offset + r.length
      · exact ⟨r, List.mem_cons_self, h1, hx⟩
      · obtain ⟨s, hs, hb⟩ := ih (Nat.le_of_not_lt hx) h2
        exact ⟨s, List.mem_cons_of_mem r hs, hb⟩

end Tiles
end Region

/-! ### Calls -/

namespace Reservation

/-- Whether a call has ended. -/
def isDone : Reservation → Bool
  | granted _ | refused => true
  | _ => false

/-- What a call knows: it asks for whole cache lines, and the cursor that it saw lies at or before
the present one. -/
def Valid (a : Arena) : Reservation → Prop
  | started length => cacheLine ∣ length
  | seen length cursor => cacheLine ∣ length ∧ cursor ≤ a.cursor
  | _ => True

theorem valid_start (a : Arena) (bytes : ℕ) : (start bytes).Valid a := by
  unfold start
  split_ifs
  · trivial
  · split
    · trivial
    · rename_i length h
      obtain ⟨rfl, -⟩ := Size.roundUp?_eq_some_iff.1 h
      exact Size.dvd_roundUp _ _

/-- Carving up the arena further leaves what a call knows true. -/
theorem Valid.mono {a a' : Arena} {x : Reservation} (h : x.Valid a) (hle : a.cursor ≤ a'.cursor) :
    x.Valid a' := by
  cases x with
  | seen length cursor => exact ⟨h.1, Nat.le_trans h.2 hle⟩
  | started _ => exact h
  | granted _ | refused => trivial

/-- What one step of a call that has not ended does. -/
inductive Outcome (a : Arena) : Reservation → Arena → Reservation → Prop
  /-- The call is shown the cursor. -/
  | look {x : Reservation} {length : ℕ} (hx : x = started length ∨ ∃ k, x = seen length k) :
      Outcome a x a (seen length a.cursor)
  /-- The next bytes are carved off. -/
  | grant {length : ℕ} (hfit : a.cursor + length ≤ a.size) :
      Outcome a (seen length a.cursor) { a with cursor := a.cursor + length }
        (granted ⟨a.base + a.cursor, a.cursor, length⟩)
  /-- The bytes do not fit behind the cursor that was seen. -/
  | refuse {length cursor : ℕ} (hfull : a.size < cursor + length) :
      Outcome a (seen length cursor) a refused

/-- **Every step of a call has one of these outcomes.** -/
theorem step_outcome (spurious : Bool) (a : Arena) {x : Reservation} (hx : ¬ x.isDone) :
    Outcome a x (x.step spurious a).1 (x.step spurious a).2 := by
  cases x with
  | started length => exact .look (Or.inl rfl)
  | seen length cursor =>
    simp only [step]
    split_ifs with hfit hc
    · obtain ⟨rfl, -⟩ := hc
      exact .grant hfit
    · exact .look (Or.inr ⟨cursor, rfl⟩)
    · exact .refuse (Nat.lt_of_not_le hfit)
  | granted _ | refused => exact absurd rfl hx

end Reservation

/-! ### Threads -/

/-- Threads that carve regions off one arena. -/
structure Carving (ι : Type) where
  arena : Arena
  /-- The present call of a thread, or its last one when that has ended. -/
  call : ι → Reservation
  /-- The live regions, in the order in which they lie in the arena. -/
  live : List Region

namespace Carving

/-- What can happen. -/
inductive Event (ι : Type)
  /-- A thread asks for a region of so many bytes. -/
  | reserve (t : ι) (bytes : ℕ)
  /-- The call of a thread goes one step further; `spurious` says that an exchange that could
  succeed fails nevertheless. -/
  | go (t : ι) (spurious : Bool)
  /-- Whoever has the live region with this number splits it. -/
  | split (i mid : ℕ)
  deriving DecidableEq, Repr

/-- The thread whose call an event begins or goes on with. -/
def Event.thread? {ι : Type} : Event ι → Option ι
  | reserve t _ | go t _ => some t
  | split _ _ => none

variable {ι : Type}

/-- Nobody has asked for anything yet. -/
def start (a : Arena) : Carving ι := { arena := a, call := fun _ => .refused, live := [] }

/-- A live region gives way to its two parts, unless the point lies outside it. -/
def split (c : Carving ι) (i mid : ℕ) : Carving ι :=
  match (c.live[i]?).bind fun r => r.split mid with
  | some (head, tail) => { c with live := c.live.take i ++ head :: tail :: c.live.drop (i + 1) }
  | none => c

variable [DecidableEq ι]

/-- One step of a thread's call. A region that it gets is live. -/
def go (c : Carving ι) (t : ι) (spurious : Bool) : Carving ι :=
  let r := (c.call t).step spurious c.arena
  { arena := r.1
    call := Function.update c.call t r.2
    live := c.live ++ r.2.region?.toList }

/-- One event. A thread begins a call only when its last one has ended. -/
def step (c : Carving ι) : Event ι → Carving ι
  | .reserve t bytes =>
    if (c.call t).isDone then { c with call := Function.update c.call t (.start bytes) } else c
  | .go t spurious => if (c.call t).isDone then c else c.go t spurious
  | .split i mid => c.split i mid

/-- Events one after another. -/
def run (c : Carving ι) (es : List (Event ι)) : Carving ι := es.foldl step c

@[simp] theorem run_nil (c : Carving ι) : run c [] = c := rfl

@[simp] theorem run_cons (c : Carving ι) (e : Event ι) (es : List (Event ι)) :
    run c (e :: es) = run (c.step e) es := rfl

theorem run_append (c : Carving ι) (es es' : List (Event ι)) :
    run c (es ++ es') = run (run c es) es' := by
  simp [run, List.foldl_append]

/-! ### The invariant -/

/-- What holds at every moment of threads that carve up the arena `a`. -/
structure Inv (a : Arena) (c : Carving ι) : Prop where
  base_eq : c.arena.base = a.base
  size_eq : c.arena.size = a.size
  cursor_le : c.arena.cursor ≤ c.arena.size
  cursor_dvd : cacheLine ∣ c.arena.cursor
  tiles : Region.Tiles 0 c.arena.cursor c.live
  lines : ∀ r ∈ c.live, cacheLine ∣ r.offset ∧ cacheLine ∣ r.length
  address_eq : ∀ r ∈ c.live, r.address = a.base + r.offset
  calls : ∀ t, (c.call t).Valid c.arena

namespace Inv

variable {a : Arena} {c : Carving ι}

/-- The calls after one of them has changed, when the others keep what they know. -/
theorem calls_update {a : Arena} {call : ι → Reservation} {t : ι} {x : Reservation}
    (hx : x.Valid a) (hothers : ∀ u, u ≠ t → (call u).Valid a) (u : ι) :
    (Function.update call t x u).Valid a := by
  rcases eq_or_ne u t with rfl | hne
  · rw [Function.update_self]
    exact hx
  · rw [Function.update_of_ne hne]
    exact hothers u hne

/-- A call goes on, and nothing is carved off. -/
theorem update (h : Inv a c) {t : ι} {x : Reservation} (hx : x.Valid c.arena) :
    Inv a { c with call := Function.update c.call t x } :=
  { h with calls := calls_update hx fun u _ => h.calls u }

/-- The next bytes are carved off. -/
theorem grant (h : Inv a c) {t : ι} {length : ℕ} (hdvd : cacheLine ∣ length)
    (hfit : c.arena.cursor + length ≤ c.arena.size) :
    Inv a
      { arena := { c.arena with cursor := c.arena.cursor + length }
        call := Function.update c.call t
          (.granted ⟨c.arena.base + c.arena.cursor, c.arena.cursor, length⟩)
        live := c.live ++ [⟨c.arena.base + c.arena.cursor, c.arena.cursor, length⟩] } where
  base_eq := h.base_eq
  size_eq := h.size_eq
  cursor_le := hfit
  cursor_dvd := (Nat.dvd_add_right h.cursor_dvd).2 hdvd
  tiles := h.tiles.concat (r := ⟨_, c.arena.cursor, length⟩) rfl
  lines r hr := by
    rcases List.mem_append.1 hr with hr | hr
    · exact h.lines r hr
    · rw [List.mem_singleton.1 hr]
      exact ⟨h.cursor_dvd, hdvd⟩
  address_eq r hr := by
    rcases List.mem_append.1 hr with hr | hr
    · exact h.address_eq r hr
    · rw [List.mem_singleton.1 hr, h.base_eq]
  calls := calls_update trivial fun u _ => (h.calls u).mono (Nat.le_add_right _ _)

/-- One step of a call preserves the invariant. -/
theorem go (h : Inv a c) {t : ι} (ht : ¬ (c.call t).isDone) (spurious : Bool) :
    Inv a (c.go t spurious) := by
  have hv := h.calls t
  have ho := Reservation.step_outcome spurious c.arena ht
  unfold Carving.go
  generalize (c.call t).step spurious c.arena = r at ho ⊢
  obtain ⟨a', x⟩ := r
  generalize c.call t = y at ho hv
  cases ho with
  | @look _ length hy =>
    simp only [Reservation.region?, Option.toList, List.append_nil]
    refine h.update ⟨?_, Nat.le_refl _⟩
    rcases hy with rfl | ⟨k, rfl⟩
    · exact hv
    · exact hv.1
  | grant hfit => exact h.grant hv.1 hfit
  | refuse _ =>
    simp only [Reservation.region?, Option.toList, List.append_nil]
    exact h.update trivial

omit [DecidableEq ι] in
/-- Splitting a region preserves the invariant. -/
theorem split (h : Inv a c) (i mid : ℕ) : Inv a (c.split i mid) := by
  unfold Carving.split
  split
  · rename_i head tail hs
    obtain ⟨r, hr, hs⟩ := Option.bind_eq_some_iff.1 hs
    obtain ⟨k, hk, hle, rfl, rfl⟩ := Region.split_eq_some hs
    obtain ⟨hi, rfl⟩ := List.getElem?_eq_some_iff.1 hr
    have hmem := List.getElem_mem hi
    have hlive : c.live = c.live.take i ++ c.live[i] :: c.live.drop (i + 1) := by
      rw [← List.drop_eq_getElem_cons hi, List.take_append_drop]
    obtain ⟨hoffset, hlength⟩ := h.lines _ hmem
    have haddress := h.address_eq _ hmem
    -- a region is one of the two parts or was live before
    have hcases : ∀ {s : Region} {head tail : Region},
        s ∈ c.live.take i ++ head :: tail :: c.live.drop (i + 1) →
          s ∈ c.live ∨ s = head ∨ s = tail := by
      intro s head tail hs
      rcases List.mem_append.1 hs with hs | hs
      · exact Or.inl (List.mem_of_mem_take hs)
      · rcases List.mem_cons.1 hs with hs | hs
        · exact Or.inr (Or.inl hs)
        · rcases List.mem_cons.1 hs with hs | hs
          · exact Or.inr (Or.inr hs)
          · exact Or.inl (List.mem_of_mem_drop hs)
    have htiles := h.tiles
    rw [hlive] at htiles
    refine { h with tiles := htiles.replace rfl rfl ?_, lines := ?_, address_eq := ?_ }
    · show k + (c.live[i].length - k) = c.live[i].length
      omega
    · intro s hs
      rcases hcases hs with hs | rfl | rfl
      · exact h.lines s hs
      · exact ⟨hoffset, hk⟩
      · exact ⟨(Nat.dvd_add_right hoffset).2 hk, Nat.dvd_sub hlength hk⟩
    · intro s hs
      rcases hcases hs with hs | rfl | rfl
      · exact h.address_eq s hs
      · exact haddress
      · simp only [haddress, Nat.add_assoc]
  · exact h

/-- **Every event preserves the invariant.** -/
theorem step (h : Inv a c) (e : Event ι) : Inv a (c.step e) := by
  cases e with
  | reserve t bytes =>
    rw [Carving.step]
    split_ifs
    · exact h.update (Reservation.valid_start _ _)
    · exact h
  | go t spurious =>
    rw [Carving.step]
    split_ifs with ht
    · exact h
    · exact h.go ht spurious
  | split i mid => exact h.split i mid

end Inv

/-- **Every run preserves the invariant.** -/
theorem inv_run {a : Arena} {c : Carving ι} (h : Inv a c) (es : List (Event ι)) :
    Inv a (run c es) := by
  induction es generalizing c with
  | nil => exact h
  | cons e es ih => exact ih (h.step e)

omit [DecidableEq ι] in
/-- The invariant holds when nobody has asked for anything yet. -/
theorem inv_start {host : Host} {o : Arena.Options} {a : Arena} (h : Arena.build host o = .ok a) :
    Inv a (start a : Carving ι) := by
  obtain ⟨-, -, hcursor⟩ := Arena.build_eq_ok h
  refine ⟨rfl, rfl, ?_, ?_, ?_, ?_, ?_, fun _ => trivial⟩
  · show a.cursor ≤ a.size
    rw [hcursor]
    exact Nat.zero_le _
  · show cacheLine ∣ a.cursor
    rw [hcursor]
    exact Nat.dvd_zero _
  · show Region.Tiles 0 a.cursor []
    rw [hcursor]
    exact .nil 0
  · simp [start]
  · simp [start]

/-- What is promised of every state of threads that carve up the arena `a`. -/
structure Filled (a : Arena) (c : Carving ι) : Prop where
  base_eq : c.arena.base = a.base
  size_eq : c.arena.size = a.size
  /-- No two live regions share a byte. -/
  apart : c.live.Pairwise Region.Apart
  lines : ∀ r ∈ c.live, cacheLine ∣ r.offset ∧ cacheLine ∣ r.length
  address_eq : ∀ r ∈ c.live, r.address = a.base + r.offset
  sum_eq : (c.live.map Region.length).sum = c.arena.reserved
  /-- The bytes of the live regions are those that have been carved off. -/
  covers : ∀ x, (∃ r ∈ c.live, r.offset ≤ x ∧ x < r.offset + r.length) ↔ x < c.arena.reserved
  whole : c.arena.reserved + c.arena.remaining = c.arena.size

omit [DecidableEq ι] in
theorem Inv.filled {a : Arena} {c : Carving ι} (h : Inv a c) : Filled a c where
  base_eq := h.base_eq
  size_eq := h.size_eq
  apart := h.tiles.pairwise_apart
  lines := h.lines
  address_eq := h.address_eq
  sum_eq := by
    have := h.tiles.sum_length
    rwa [Nat.zero_add] at this
  covers x := by
    rw [h.tiles.exists_mem_iff]
    exact ⟨And.right, fun hx => ⟨Nat.zero_le x, hx⟩⟩
  whole := Nat.add_sub_of_le h.cursor_le

end Carving
end Slab
