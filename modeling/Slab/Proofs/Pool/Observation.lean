import Slab.Proofs.Pool.Census
import Slab.Proofs.Pool.Generation

/-!
# What observers see of the counters

While threads take slots and give them back, observers read the counters, one load after another,
and the threads go on between two loads. So what an observer is told need not be true of any one
moment. It never says, however, that more slots were given back than handed out, and of two
snapshots of one observer the later one shows no counter lower.

* `Reading.loaded`, `Reading.shows`: the counters as a reading shows them;
* `Reading.Sound`: what holds of a reading at every moment, with a lemma for each kind of event;
* `Watch κ ι`: threads `ι` that share a pool, with observers `κ`;
* `Watch.step`, `Watch.run`: one event, and a list of them;
* `Watch.Accounted`: what is promised of every state, with `accounted_run`.

All rests on the order of the loads: what was given back is loaded before what was handed out
(`Reading.released_first`). The counters do not rest on the free list, so they stay right when a
stale link gets into it: `seen_lapped` is a run after which they say that no slot is free while the
free list holds two.
-/

namespace Slab.Pool

/-- What a snapshot says of a counter. -/
def Snapshot.count (s : Snapshot) : Counter → UInt64
  | .acquired => s.acquired
  | .released => s.released
  | .exhausted => s.exhausted
  | .contended => s.contended

/-! ### One reading -/

namespace Reading

/-- What a reading has loaded of a counter. -/
def loaded : Reading → Counter → Option UInt64
  | inUseReleased released, .released | snapshotReleased released, .released => some released
  | snapshotAcquired released _, .released | snapshotExhausted released _ _, .released =>
    some released
  | snapshotAcquired _ acquired, .acquired | snapshotExhausted _ acquired _, .acquired =>
    some acquired
  | snapshotExhausted _ _ exhausted, .exhausted => some exhausted
  | taken s, k => some (s.count k)
  | _, _ => none

/-- What a reading shows of a counter: what it has loaded, or what is still to be loaded. -/
def shows (n : Counters) (x : Reading) (k : Counter) : UInt64 := (x.loaded k).getD (n.count k)

/-- **The slots given back are loaded first.** -/
theorem released_first {x : Reading} (h : x.loaded .released = none) :
    x.loaded .acquired = none := by
  cases x <;> first | rfl | cases h

/-- A load shows what was shown already, or else the reading ends and shows the counters as they
are. -/
theorem shows_step (n : Counters) (x : Reading) :
    (∀ k, (x.step n).shows n k = x.shows n k) ∨ (∀ k, (x.step n).shows n k = n.count k) := by
  cases x with
  | inUseReleased released => exact Or.inr fun k => rfl
  | inUse | counted _ | snapshot | snapshotReleased _ | snapshotAcquired _ _
  | snapshotExhausted _ _ _ | taken _ => exact Or.inl fun k => by cases k <;> rfl

/-- What holds of a reading and of the snapshots that its observer has taken before. -/
structure Sound (n : Counters) (x : Reading) (past : List Snapshot) : Prop where
  now : ∀ k, x.shows n k ≤ n.count k
  later : ∀ s ∈ past, ∀ k, s.count k ≤ x.shows n k
  released_le : x.shows n .released ≤ x.shows n .acquired
  ascending : past.Pairwise fun s s' => ∀ k, s.count k ≤ s'.count k
  exact : ∀ s ∈ past, s.released ≤ s.acquired ∧ s.inUse = satSub s.acquired s.released

namespace Sound

variable {n n' : Counters} {x : Reading} {past : List Snapshot}

/-- An observer who has read nothing yet. -/
theorem start (hle : n.released ≤ n.acquired) : Sound n (.counted 0) [] where
  now _ := UInt64.le_rfl
  later _ hs := absurd hs List.not_mem_nil
  released_le := hle
  ascending := List.Pairwise.nil
  exact _ hs := absurd hs List.not_mem_nil

/-- The counters go on while the reading waits. -/
theorem grow (h : Sound n x past) (hn : ∀ k, n.count k ≤ n'.count k)
    (hle : n'.released ≤ n'.acquired) : Sound n' x past where
  now k := by
    have hk := h.now k
    unfold shows at hk ⊢
    cases hl : x.loaded k with
    | none => exact UInt64.le_rfl
    | some v =>
      rw [hl] at hk
      exact UInt64.le_trans hk (hn k)
  later s hs k := by
    refine UInt64.le_trans (h.later s hs k) ?_
    unfold shows
    cases x.loaded k with
    | none => exact hn k
    | some v => exact UInt64.le_rfl
  released_le := by
    have hreleased := h.released_le
    unfold shows at hreleased ⊢
    cases hl : x.loaded .released with
    | none =>
      rw [released_first hl]
      exact hle
    | some r =>
      rw [hl] at hreleased
      cases ha : x.loaded .acquired with
      | none =>
        -- what was given back has been loaded, what was handed out may still grow
        rw [ha] at hreleased
        exact UInt64.le_trans hreleased (hn .acquired)
      | some a =>
        rw [ha] at hreleased
        exact hreleased
  ascending := h.ascending
  exact := h.exact

/-- A reading that has loaded nothing yet takes the place of another one. -/
theorem begin (h : Sound n x past) {y : Reading} (hy : ∀ k, y.loaded k = none)
    (hle : n.released ≤ n.acquired) : Sound n y past := by
  have hshows : ∀ k, y.shows n k = n.count k := fun k => by rw [shows, hy]; rfl
  exact
    { now := fun k => by rw [hshows]; exact UInt64.le_rfl
      later := fun s hs k => by
        rw [hshows]
        exact UInt64.le_trans (h.later s hs k) (h.now k)
      released_le := by
        rw [hshows, hshows]
        exact hle
      ascending := h.ascending
      exact := h.exact }

/-- A snapshot that is complete shows what its reading shows. -/
theorem shows_taken {s : Snapshot} (hs : (x.step n).snapshot? = some s) (k : Counter) :
    s.count k = (x.step n).shows n k := by
  cases hx : x.step n <;> rw [hx] at hs <;> cases hs
  rfl

/-- One load. -/
theorem load (h : Sound n x past) (hx : x.isDone = false) (hle : n.released ≤ n.acquired) :
    Sound n (x.step n) (past ++ (x.step n).snapshot?.toList) := by
  have hnow : ∀ k, (x.step n).shows n k ≤ n.count k := by
    rcases shows_step n x with hs | hs
    · exact fun k => hs k ▸ h.now k
    · exact fun k => hs k ▸ UInt64.le_rfl
  have hlater : ∀ s ∈ past, ∀ k, s.count k ≤ (x.step n).shows n k := by
    intro s hs k
    rcases shows_step n x with he | he
    · exact he k ▸ h.later s hs k
    · exact he k ▸ UInt64.le_trans (h.later s hs k) (h.now k)
  have hreleased : (x.step n).shows n .released ≤ (x.step n).shows n .acquired := by
    rcases shows_step n x with hs | hs
    · rw [hs, hs]
      exact h.released_le
    · rw [hs, hs]
      exact hle
  have hnew := @shows_taken n x
  refine ⟨hnow, ?_, hreleased, ?_, ?_⟩
  · intro s hs k
    rcases List.mem_append.1 hs with hs | hs
    · exact hlater s hs k
    · rw [hnew (Option.mem_toList.1 hs)]
      exact UInt64.le_rfl
  · refine List.pairwise_append.2 ⟨h.ascending, ?_, ?_⟩
    · cases (x.step n).snapshot? <;> simp
    · intro s hs s' hs' k
      rw [hnew (Option.mem_toList.1 hs')]
      exact hlater s hs k
  · intro s hs
    rcases List.mem_append.1 hs with hs | hs
    · exact h.exact s hs
    · replace hs := Option.mem_toList.1 hs
      refine ⟨?_, ?_⟩
      · rw [← hnew hs, ← hnew hs] at hreleased
        exact hreleased
      · cases x with
        | snapshotExhausted _ _ _ =>
          cases hs
          rfl
        | counted _ | taken _ => cases hx
        | inUse | inUseReleased _ | snapshot | snapshotReleased _ | snapshotAcquired _ _ =>
          cases hs

end Sound
end Reading

/-! ### Threads and observers -/

/-- Threads that share a pool, with observers who read its counters. -/
structure Watch (κ ι : Type) where
  crew : Crew ι
  /-- The present reading of an observer, or his last one when that has ended. -/
  reading : κ → Reading
  /-- The snapshots that an observer has taken, the earliest first. -/
  taken : κ → List Snapshot

namespace Watch

/-- What can happen. -/
inductive Event (κ ι : Type)
  /-- Something happens to the pool. -/
  | crew (e : Crew.Event ι)
  /-- An observer asks how many slots are out. -/
  | ask (k : κ)
  /-- An observer asks for a snapshot. -/
  | snap (k : κ)
  /-- The reading of an observer goes one load further. -/
  | load (k : κ)
  deriving DecidableEq, Repr

variable {κ ι : Type}

/-- Nobody has asked for anything yet. -/
def start (s : Shared) : Watch κ ι :=
  { crew := .start s, reading := fun _ => .counted 0, taken := fun _ => [] }

/-- What happens to the pool. -/
def crewEvents (es : List (Event κ ι)) : List (Crew.Event ι) :=
  es.filterMap fun
    | .crew e => some e
    | _ => none

variable [DecidableEq κ] [DecidableEq ι]

/-- An observer begins a reading when his last one has ended. -/
def begin (w : Watch κ ι) (k : κ) (x : Reading) : Watch κ ι :=
  if (w.reading k).isDone then { w with reading := Function.update w.reading k x } else w

/-- One event. -/
def step (g : Slots) (w : Watch κ ι) : Event κ ι → Watch κ ι
  | .crew e => { w with crew := w.crew.step g e }
  | .ask k => w.begin k .inUse
  | .snap k => w.begin k .snapshot
  | .load k =>
    if (w.reading k).isDone then w
    else
      let x := (w.reading k).step w.crew.shared.counters
      { w with
        reading := Function.update w.reading k x
        taken := Function.update w.taken k (w.taken k ++ x.snapshot?.toList) }

/-- Events one after another. -/
def run (g : Slots) (w : Watch κ ι) (es : List (Event κ ι)) : Watch κ ι := es.foldl (step g) w

variable {g : Slots} {w : Watch κ ι}

omit [DecidableEq κ] [DecidableEq ι] in
theorem crewEvents_map (es : List (Crew.Event ι)) :
    crewEvents (es.map (.crew : Crew.Event ι → Event κ ι)) = es := by
  rw [crewEvents, List.filterMap_map]
  exact List.filterMap_some

omit [DecidableEq ι] in
theorem crew_begin (w : Watch κ ι) (k : κ) (x : Reading) : (w.begin k x).crew = w.crew := by
  unfold begin
  split <;> rfl

theorem crew_load (g : Slots) (w : Watch κ ι) (k : κ) : (w.step g (.load k)).crew = w.crew := by
  rw [step]
  split <;> rfl

/-- The observers leave the pool alone. -/
theorem crew_run (g : Slots) (w : Watch κ ι) (es : List (Event κ ι)) :
    (run g w es).crew = w.crew.run g (crewEvents es) := by
  induction es generalizing w with
  | nil => rfl
  | cons e es ih =>
    cases e with
    | crew e => exact ih _
    | ask k | snap k => exact (ih _).trans (congrArg (Crew.run g · _) (crew_begin w k _))
    | load k => exact (ih _).trans (congrArg (Crew.run g · _) (crew_load g w k))

/-- What holds at every moment. -/
structure Inv (w : Watch κ ι) : Prop where
  books : w.crew.Books
  readings : ∀ k, (w.reading k).Sound w.crew.shared.counters (w.taken k)

namespace Inv

omit [DecidableEq κ] [DecidableEq ι] in
/-- Nobody has done anything with a new pool yet. -/
theorem start {p : Pool} {m : Memory} (h : New p m) : Inv (.start (p.shared m) : Watch κ ι) := by
  obtain ⟨_, _, hb⟩ := h.built
  exact ⟨.start hb.counters_eq, fun _ => .start (Crew.Books.start hb.counters_eq).released_le⟩

/-- Something happens to the pool that makes no counter go round. -/
theorem crew (h : Inv w) {e : Crew.Event ι} (he : w.crew.Room e) : Inv (w.step g (.crew e)) :=
  have hbooks := h.books.step (g := g) he
  ⟨hbooks, fun k => (h.readings k).grow (Crew.count_le_step he) hbooks.released_le⟩

omit [DecidableEq ι] in
/-- An observer begins a reading. -/
theorem begin (h : Inv w) (k : κ) {x : Reading} (hx : ∀ c, x.loaded c = none) :
    Inv (w.begin k x) := by
  unfold Watch.begin
  split
  · refine ⟨h.books, fun l => ?_⟩
    show Reading.Sound _ (Function.update w.reading k x l) _
    rcases eq_or_ne l k with rfl | hne
    · rw [Function.update_self]
      exact (h.readings l).begin hx h.books.released_le
    · rw [Function.update_of_ne hne]
      exact h.readings l
  · exact h

/-- The reading of an observer goes one load further. -/
theorem load (h : Inv w) (k : κ) : Inv (w.step g (.load k)) := by
  rw [Watch.step]
  split_ifs with hd
  · exact h
  · refine ⟨h.books, fun l => ?_⟩
    show Reading.Sound _ (Function.update w.reading k _ l) (Function.update w.taken k _ l)
    rcases eq_or_ne l k with rfl | hne
    · rw [Function.update_self, Function.update_self]
      exact (h.readings l).load (Bool.not_eq_true _ ▸ hd) h.books.released_le
    · rw [Function.update_of_ne hne, Function.update_of_ne hne]
      exact h.readings l

/-- **The invariant holds after every run in which no counter goes round.** -/
theorem run (h : Inv w) {es : List (Event κ ι)} (hes : w.crew.Roomy g (crewEvents es)) :
    Inv (w.run g es) := by
  induction es generalizing w with
  | nil => exact h
  | cons e es ih =>
    cases e with
    | crew e => exact ih (h.crew hes.1) hes.2
    | ask k | snap k =>
      refine ih (h.begin k fun c => ?_) ?_
      · cases c <;> rfl
      · show Crew.Roomy g (w.begin k _).crew _
        rw [crew_begin]
        exact hes
    | load k =>
      refine ih (h.load k) ?_
      rw [crew_load]
      exact hes

end Inv

/-- What the observers can rely on, and what the counters say, at every moment. -/
structure Accounted (p : Pool) (w : Watch κ ι) : Prop where
  /-- Only finitely many calls have exchanged the head and not yet counted that. -/
  finite : {t | (w.crew.call t).popped}.Finite ∧ {t | (w.crew.call t).pushed}.Finite
  /-- The counters differ by the slots that are popped and not yet pushed back, but for the calls
  that have popped or pushed one and not yet counted that. -/
  balance : (w.crew.shared.counters.acquired.toNat : ℤ) - w.crew.shared.counters.released.toNat =
    w.crew.out.length - census w.crew.call Call.popped + census w.crew.call Call.pushed
  released_le : w.crew.shared.counters.released ≤ w.crew.shared.counters.acquired
  /-- Whoever asks how many slots are out is told the exact difference of what he has loaded. -/
  inUse_exact : ∀ k released, w.reading k = .inUseReleased released →
    ∃ n, (w.step p.slots (.load k)).reading k = .counted n ∧
      n.toNat + released.toNat = w.crew.shared.counters.acquired.toNat
  /-- Every snapshot shows the exact difference of its two counters. -/
  snapshot_exact : ∀ k, ∀ s ∈ w.taken k, s.inUse.toNat + s.released.toNat = s.acquired.toNat
  /-- From one snapshot of an observer to a later one no counter goes back. -/
  ascending : ∀ k, (w.taken k).Pairwise fun s s' => ∀ c, s.count c ≤ s'.count c
  /-- While no call is under way the occupancy is the number of held slots. -/
  occupancy : (∀ t, (w.crew.call t).isDone) →
    (p.update w.crew.shared).inUse = w.crew.held.length

/-- While no call is under way, all ways to count the free slots agree. -/
structure FreeAgree (p : Pool) (w : Watch κ ι) : Prop where
  freeCount : (p.update w.crew.shared).freeCount + (p.update w.crew.shared).inUse = p.capacity
  countFree : (p.update w.crew.shared).countFree w.crew.shared.memory =
    (p.update w.crew.shared).freeCount

theorem Inv.accounted (h : Inv w) (p : Pool) : Accounted p w where
  finite :=
    ⟨h.books.finite_of fun _ hx hd => by
        simp [Call.popped_eq_false (Call.made?_of_isDone hd)] at hx,
      h.books.finite_of fun _ hx hd => by
        simp [Call.pushed_eq_false (Call.made?_of_isDone hd)] at hx⟩
  balance := by
    have hbalance := h.books.balance
    omega
  released_le := h.books.released_le
  inUse_exact k released hk := by
    have hle := (h.readings k).released_le
    rw [hk] at hle
    refine ⟨satSub w.crew.shared.counters.acquired released, ?_, ?_⟩
    · rw [step, hk]
      exact Function.update_self _ _ _
    · rw [toNat_satSub]
      exact Nat.sub_add_cancel hle
  snapshot_exact k s hs := by
    obtain ⟨hle, hexact⟩ := (h.readings k).exact s hs
    rw [hexact, toNat_satSub]
    exact Nat.sub_add_cancel hle
  ascending k := (h.readings k).ascending
  occupancy hdone := by
    have hsettled := h.books.settled hdone
    show (satSub _ _).toNat = _
    rw [toNat_satSub]
    show w.crew.shared.counters.acquired.toNat - w.crew.shared.counters.released.toNat = _
    omega

/-- Where the free list is whole, its length is what the counters say. -/
theorem Inv.freeAgree (h : Inv w) {p : Pool} (hconserved : w.crew.Conserved p.slots)
    (hdone : ∀ t, (w.crew.call t).isDone) : FreeAgree p w := by
  have hquiescent := hconserved.quiescent hdone
  have hoccupancy := (h.accounted p).occupancy hdone
  have hfree : (p.update w.crew.shared).freeCount =
      p.capacity - (p.update w.crew.shared).inUse := rfl
  have hcount : (p.update w.crew.shared).countFree w.crew.shared.memory =
      (w.crew.shared.freeSlots p.slots).length := rfl
  change _ = p.capacity at hquiescent
  constructor <;> omega

/-- **The counters are never read wrongly**: whatever any number of threads do with a new pool while
any number of observers read its counters, in whatever order their steps and loads come, no
difference of what was handed out and given back is cut off at zero, and no snapshot is behind an
earlier one of its observer. While no call is under way the counters tell how many slots are held,
and if no call ever came too late to notice that the head had been exchanged, they tell how many are
on the free list. -/
theorem accounted_run {p : Pool} {m : Memory} (h : New p m) {es : List (Event κ ι)}
    (hes : Crew.Roomy p.slots (.start (p.shared m)) (crewEvents es)) :
    Accounted p (run p.slots (start (p.shared m)) es) ∧
      (Crew.Timely p.slots (.start (p.shared m)) (crewEvents es) →
        (∀ t, ((run p.slots (start (p.shared m)) es).crew.call t).isDone) →
          FreeAgree p (run p.slots (start (p.shared m)) es)) := by
  obtain ⟨shape, m₀, hb⟩ := h.built
  have hinv := (Inv.start h : Inv (start (p.shared m) : Watch κ ι)).run hes
  refine ⟨hinv.accounted p, fun ht hdone => hinv.freeAgree ?_ hdone⟩
  obtain ⟨free, hcrew⟩ := Crew.inv_run h ht
  rw [crew_run]
  exact hcrew.conserved hb.sound

/-- Two threads and an observer at a pool of two slots. The observer asks for a snapshot, and
between his first load and his second one the slot that was out is given back and taken again, so
that the snapshot shows two slots out. A second snapshot follows when both calls have ended. -/
def interrupted : List (Event Unit Bool) :=
  [.crew (.take true), .crew (.go true false), .crew (.go true false), .crew (.go true false),
    .crew (.go true false), .snap (), .load (),
    .crew (.give true 0), .crew (.go true false), .crew (.go true false), .crew (.go true false),
    .crew (.go true false),
    .crew (.take false), .crew (.go false false), .crew (.go false false), .crew (.go false false),
    .crew (.go false false),
    .load (), .load (), .load (), .snap (), .load (), .load (), .load (), .load ()]

theorem accounted_interrupted :
    let w := run twoSlots.slots (start (twoSlots.shared (linkSlots twoSlots.slots .zero)))
      interrupted
    New twoSlots (linkSlots twoSlots.slots .zero) ∧
      Crew.Roomy twoSlots.slots Crew.pair (crewEvents interrupted) ∧
      Crew.Timely twoSlots.slots Crew.pair (crewEvents interrupted) ∧
      w.taken () = [⟨2, 0, 0, 0, 2⟩, ⟨2, 1, 0, 0, 1⟩] ∧
      Accounted twoSlots w ∧ FreeAgree twoSlots w := by
  have hroomy : Crew.Roomy twoSlots.slots Crew.pair (crewEvents interrupted) :=
    Crew.roomy_of_lt (n := 0) (fun k => by cases k <;> decide) (by decide)
  have htimely : Crew.Timely twoSlots.slots Crew.pair (crewEvents interrupted) :=
    Crew.timely_of_lt (by decide)
  obtain ⟨haccounted, hfree⟩ := accounted_run new_twoSlots hroomy
  exact ⟨new_twoSlots, hroomy, htimely, by decide, haccounted,
    hfree htimely (by decide)⟩

/-- After a run that brings the generation round within one attempt the counters still tell how many
slots are held, but not how many are on the free list. -/
theorem seen_lapped {n : ℕ} (hround : 4 + UInt32.ofNat (2 * n) = 0)
    (hlt : 10 * n + 25 < UInt64.size) :
    let s := threeSlots.shared (linkSlots threeSlots.slots .zero)
    let es : List (Event Unit Bool) := (Crew.lapped n).map .crew
    let w := run threeSlots.slots (start s) es
    Crew.Roomy threeSlots.slots (.start s) (crewEvents es) ∧ (∀ t, (w.crew.call t).isDone) ∧
      (threeSlots.update w.crew.shared).inUse = 3 ∧
      (threeSlots.update w.crew.shared).freeCount = 0 ∧
      (threeSlots.update w.crew.shared).countFree w.crew.shared.memory = 2 := by
  intro s es w
  have hcrew : w.crew = Crew.trio.run threeSlots.slots (Crew.lapped n) := by
    rw [crew_run, crewEvents_map]
    rfl
  have hlength : (Crew.lapped n).length = 10 * n + 25 := by
    simp only [Crew.lapped, Crew.ahead, Crew.takes, Crew.gives, List.length_append,
      List.length_cons, List.length_replicate, List.length_nil, Crew.length_cycles]
    omega
  have hes : Crew.Roomy threeSlots.slots (.start s) (crewEvents es) := by
    rw [crewEvents_map]
    refine Crew.roomy_of_lt (n := 0) (fun k => by cases k <;> decide) ?_
    rwa [Nat.zero_add, hlength]
  have hinv : Inv w := (Inv.start new_threeSlots).run hes
  obtain ⟨hdone, hheld, hfree⟩ := Crew.run_lapped_trio hround
  rw [← hcrew] at hdone hheld hfree
  have hinUse : (threeSlots.update w.crew.shared).inUse = 3 := by
    rw [(hinv.accounted threeSlots).occupancy hdone, hheld]
    rfl
  refine ⟨hes, hdone, hinUse, ?_, ?_⟩
  · rw [freeCount, hinUse]
    rfl
  · exact congrArg List.length hfree

/-- The counts of the free slots differ when `2 ^ 32` exchanges succeed while a thread waits. -/
theorem freeAgree_lapped :
    let s := threeSlots.shared (linkSlots threeSlots.slots .zero)
    let es : List (Event Unit Bool) := (Crew.lapped 2147483646).map .crew
    let w := run threeSlots.slots (start s) es
    New threeSlots (linkSlots threeSlots.slots .zero) ∧
      Crew.Roomy threeSlots.slots (.start s) (crewEvents es) ∧ (∀ t, (w.crew.call t).isDone) ∧
      (threeSlots.update w.crew.shared).inUse = 3 ∧
      (threeSlots.update w.crew.shared).freeCount = 0 ∧
      (threeSlots.update w.crew.shared).countFree w.crew.shared.memory = 2 ∧
      ¬ FreeAgree threeSlots w := by
  obtain ⟨hes, hdone, hinUse, hcount, hwalked⟩ :=
    seen_lapped (n := 2147483646) (by decide +kernel) (by decide)
  refine ⟨new_threeSlots, hes, hdone, hinUse, hcount, hwalked, fun hagree => ?_⟩
  have hequal : 2 = 0 := hwalked.symm.trans (hagree.countFree.trans hcount)
  cases hequal

end Watch
end Slab.Pool
