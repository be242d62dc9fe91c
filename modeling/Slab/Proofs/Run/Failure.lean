import Slab.Proofs.Pool.Verdict
import Slab.Proofs.Run.Totals

/-!
# Runs that fail

A run that fails has begun nothing that it does not finish: no worker has started, and nothing is
recorded but the size of an arena that was there. Why it fails is told by the machine and by what
the settings say of the arena and of the pool, whatever stands in their other parts.

* `Failure host s e`: why a run fails;
* `left s r e`: what is recorded when it does;
* `Stage n`, `Stage.step`, `Stage.run`: how far a run has come, one step of the main thread or of a
  worker, and any course of such steps;
* `Reached`, `Reached.step`, `Reached.run`: what holds wherever a course has come;
* `Failing`: what is seen of a run that fails;
* `Clean`, `failing_run`: **a run that fails leaves only what it has established**.
-/

namespace Slab.Run

variable {n : ℕ} {host : Host} {s : Settings} {o : Overrides} {r : Metrics.Recorder} {a : Arena}
  {e : RunError}

/-! ### Why a run fails -/

/-- Why a run fails: the arena is not built, or it is, and on a fresh arena of that size the pool is
not built. -/
inductive Failure (host : Host) (s : Settings) : RunError → Prop
  | arena {e : ArenaError} (h : Arena.build host s.arenaOptions = .error e) :
      Failure host s (.arena e)
  | pool {e : PoolError} {a : Arena} (ha : Arena.build host s.arenaOptions = .ok a)
      (h : ∀ a' : Arena, a'.size = a.size → a'.reserved = 0 → buildPool s a' = .error e) :
      Failure host s (.pool e)

/-- What is recorded when a run fails: nothing new, or the size of the arena. -/
def left (s : Settings) (r : Metrics.Recorder) : RunError → Metrics.Recorder
  | .arena _ => r
  | .pool _ => { r with arenaBytes := .ofNat (Size.roundUp pageSize s.arena.sizeBytes.toNat) }

/-- The size of the arena, in whole pages. -/
theorem size_of_build (ha : Arena.build host s.arenaOptions = .ok a) :
    a.size = Size.roundUp pageSize s.arena.sizeBytes.toNat :=
  (Arena.new_of_run ha).rounded.least.unique (Arena.isLeast_roundUp _)

/-- The verdict on the pool depends on nothing but how large a fresh arena is. -/
theorem buildPool_eq_error_iff {f : PoolError} (hlt : a.size < Size.limit)
    (hfresh : a.reserved = 0) :
    buildPool s a = .error f ↔ Pool.Refused Element.order.shape s.pool.capacity.toNat
      ((s.pool.slotSize.map UInt64.toNat).getD Order.size) a.size f := by
  have hbounded : a.Bounded := ⟨hfresh.trans_le (Nat.zero_le _), hlt⟩
  have hremaining : a.remaining = a.size := by rw [Arena.remaining, hfresh, Nat.sub_zero]
  rw [buildPool_eq, (Pool.decided _ _ _ hbounded).verdict, hremaining]

/-- A pool that is not built on the new arena is built on no fresh arena of that size. -/
theorem Failure.of_buildPool {f : PoolError} (ha : Arena.build host s.arenaOptions = .ok a)
    (h : buildPool s a = .error f) : Failure host s (.pool f) := by
  have hlt := Arena.size_lt_of_build ha
  have hrefused := (buildPool_eq_error_iff hlt (Arena.new_of_run ha).reserved_eq).1 h
  refine .pool ha fun a' hsize hfresh => ?_
  rw [buildPool_eq_error_iff (hsize.trans_lt hlt) hfresh, hsize]
  exact hrefused

theorem failure_pool_iff {f : PoolError} :
    Failure host s (.pool f) ↔ (∃ a, Arena.build host s.arenaOptions = .ok a) ∧
      Pool.Refused Element.order.shape s.pool.capacity.toNat
        ((s.pool.slotSize.map UInt64.toNat).getD Order.size)
        (Size.roundUp pageSize s.arena.sizeBytes.toNat) f := by
  constructor
  · rintro (_ | ⟨ha, h⟩)
    have hrefused := (buildPool_eq_error_iff (Arena.size_lt_of_build ha)
      (Arena.new_of_run ha).reserved_eq).1 (h _ rfl (Arena.new_of_run ha).reserved_eq)
    rw [size_of_build ha] at hrefused
    exact ⟨⟨_, ha⟩, hrefused⟩
  · rintro ⟨⟨a, ha⟩, hrefused⟩
    rw [← size_of_build ha] at hrefused
    exact .of_buildPool ha ((buildPool_eq_error_iff (Arena.size_lt_of_build ha)
      (Arena.new_of_run ha).reserved_eq).2 hrefused)

/-- A run that fails is not set up. -/
theorem Failure.setUp_eq (h : Failure host s e) (r : Metrics.Recorder) :
    setUp host s r = (left s r e, .error e) := by
  cases h with
  | arena h =>
    rw [setUp, h]
    rfl
  | @pool f a ha h =>
    rw [setUp, ha]
    dsimp only
    rw [h a rfl (Arena.new_of_run ha).reserved_eq, size_of_build ha]
    rfl

theorem Failure.unique {e' : RunError} (h : Failure host s e) (h' : Failure host s e') :
    e = e' := by
  have hsame := (h.setUp_eq {}).symm.trans (h'.setUp_eq {})
  exact Except.error.inj (Prod.mk.inj hsame).2

/-- Any other run is set up. -/
theorem setUp_of_no_failure (h : ∀ e, ¬ Failure host s e) (r : Metrics.Recorder) :
    ∃ a p a', Arena.build host s.arenaOptions = .ok a ∧ buildPool s a = .ok (p, a') ∧
      setUp host s r = (r.setArenaBytes (.ofNat a.size), .ok ⟨p, a'⟩) := by
  cases ha : Arena.build host s.arenaOptions with
  | error f => exact absurd (.arena ha) (h _)
  | ok a =>
    cases hp : buildPool s a with
    | error f => exact absurd (.of_buildPool ha hp) (h _)
    | ok x =>
      refine ⟨a, x.1, x.2, rfl, hp, ?_⟩
      rw [setUp, ha]
      dsimp only
      rw [hp]

/-! ### The course of a run -/

/-- How far a run has come. -/
inductive Stage (n : ℕ)
  /-- Nothing is there yet. -/
  | opening (recorder : Metrics.Recorder)
  /-- The arena is there, and its size is recorded. -/
  | founded (recorder : Metrics.Recorder) (arena : Arena)
  /-- The workers have started on the pool. -/
  | working (pool : Pool) (shift : Shift n)
  | ended (recorder : Metrics.Recorder) (result : Except RunError (List Report))

namespace Stage

/-- One step of the main thread, which waits for the workers before it ends the run. -/
def proceed (host : Host) (s : Settings) (o : Overrides) : Stage n → Stage n
  | opening r =>
    match Arena.build host s.arenaOptions with
    | .error e => ended r (.error (.arena e))
    | .ok a => founded (r.setArenaBytes (.ofNat a.size)) a
  | founded r a =>
    match buildPool s a with
    | .error e => ended r (.error (.pool e))
    | .ok (p, a) => working p (.opening n ⟨p.shared a.memory, r⟩)
  | working p z =>
    if z.Complete (iterationCount s o) then ended (z.closing p).1 (.ok (z.closing p).2)
    else working p z
  | ended r result => ended r result

/-- One step of the main thread, or of a worker if there are any. -/
def step (host : Host) (s : Settings) (o : Overrides) (z : Stage n) :
    Option (Fin n × Chance) → Stage n
  | none => z.proceed host s o
  | some x =>
    match z with
    | working p z => working p (z.step p.slots (iterationCount s o) x)
    | z => z

/-- A course of steps. -/
def run (host : Host) (s : Settings) (o : Overrides) (z : Stage n)
    (es : List (Option (Fin n × Chance))) : Stage n :=
  es.foldl (step host s o) z

theorem run_append (z : Stage n) (es es' : List (Option (Fin n × Chance))) :
    z.run host s o (es ++ es') = (z.run host s o es).run host s o es' :=
  List.foldl_append

/-- While the main thread waits, a course is a schedule of the workers. -/
theorem run_working (p : Pool) (z : Shift n) (es : List (Fin n × Chance)) :
    (working p z).run host s o (es.map some) =
      working p (z.run p.slots (iterationCount s o) es) := by
  induction es generalizing z with
  | nil => rfl
  | cons x es ih => exact ih _

end Stage

/-- What holds wherever the course of a run has come. -/
inductive Reached (host : Host) (s : Settings) (r : Metrics.Recorder) : Stage n → Prop
  | opening : Reached host s r (.opening r)
  | founded {a : Arena} (ha : Arena.build host s.arenaOptions = .ok a) :
      Reached host s r (.founded (r.setArenaBytes (.ofNat a.size)) a)
  | working {p : Pool} {z : Shift n} (h : ∀ e, ¬ Failure host s e) :
      Reached host s r (.working p z)
  | failed {e : RunError} (h : Failure host s e) : Reached host s r (.ended (left s r e) (.error e))
  | through {r' : Metrics.Recorder} {reports : List Report} (h : ∀ e, ¬ Failure host s e) :
      Reached host s r (.ended r' (.ok reports))

theorem Reached.proceed {z : Stage n} (h : Reached host s r z) :
    Reached host s r (z.proceed host s o) := by
  cases h with
  | opening =>
    dsimp only [Stage.proceed]
    cases ha : Arena.build host s.arenaOptions with
    | error f => exact .failed (.arena ha)
    | ok a => exact .founded ha
  | @founded a ha =>
    dsimp only [Stage.proceed]
    cases hp : buildPool s a with
    | error f =>
      rw [size_of_build ha]
      exact .failed (.of_buildPool ha hp)
    | ok x =>
      refine .working fun e he => ?_
      have hsetUp := he.setUp_eq {}
      rw [setUp, ha] at hsetUp
      dsimp only at hsetUp
      rw [hp] at hsetUp
      cases (Prod.mk.inj hsetUp).2
  | working h =>
    dsimp only [Stage.proceed]
    split_ifs
    · exact .through h
    · exact .working h
  | failed h => exact .failed h
  | through h => exact .through h

theorem Reached.step {z : Stage n} (h : Reached host s r z) (x : Option (Fin n × Chance)) :
    Reached host s r (z.step host s o x) := by
  cases x with
  | none => exact h.proceed
  | some x =>
    cases h with
    | opening => exact .opening
    | founded ha => exact .founded ha
    | working h => exact .working h
    | failed h => exact .failed h
    | through h => exact .through h

/-- **It holds along every course.** -/
theorem Reached.run {z : Stage n} (h : Reached host s r z) (es : List (Option (Fin n × Chance))) :
    Reached host s r (z.run host s o es) := by
  induction es generalizing z with
  | nil => exact h
  | cons x es ih => exact ih (h.step x)

/-! ### What is seen of a run that fails -/

/-- What is seen of a run that fails with an error: no worker, and no recorded value but what it
will have left behind. -/
inductive Failing (s : Settings) (r : Metrics.Recorder) : RunError → Stage n → Prop
  | opening {e : RunError} : Failing s r e (.opening r)
  | founded {e : PoolError} {a : Arena} : Failing s r (.pool e) (.founded (left s r (.pool e)) a)
  | ended {e : RunError} : Failing s r e (.ended (left s r e) (.error e))

theorem Failure.failing {z : Stage n} (h : Failure host s e) (hz : Reached host s r z) :
    Failing s r e z := by
  cases hz with
  | opening => exact .opening
  | founded ha =>
    cases h with
    | arena hnone =>
      rw [ha] at hnone
      cases hnone
    | pool _ _ =>
      rw [size_of_build ha]
      exact .founded
  | working hnone => exact absurd h (hnone e)  -- workers start only on a pool that has been built
  | failed h' =>
    cases h.unique h'
    exact .ended
  | through hnone => exact absurd h (hnone e)

/-- The most steps that the main thread makes before the workers start. -/
def Stage.ahead : Stage n → ℕ
  | opening _ => 2
  | founded _ _ => 1
  | working _ _ | ended _ _ => 0

theorem Stage.ahead_step (host : Host) (s : Settings) (o : Overrides) (z : Stage n)
    (x : Option (Fin n × Chance)) :
    (z.step host s o x).ahead ≤ z.ahead - if x = none then 1 else 0 := by
  cases x with
  | some x => cases z <;> exact Nat.le_refl _
  | none =>
    simp only [step, if_true]
    cases z with
    | opening r =>
      dsimp only [proceed]
      cases Arena.build host s.arenaOptions <;> simp [ahead]
    | founded r a =>
      dsimp only [proceed]
      rcases buildPool s a with f | x <;> simp [ahead]
    | working p z =>
      dsimp only [proceed]
      split_ifs <;> exact Nat.le_refl _
    | ended r result => exact Nat.le_refl _

theorem Stage.ahead_run (host : Host) (s : Settings) (o : Overrides) (z : Stage n)
    (es : List (Option (Fin n × Chance))) :
    (z.run host s o es).ahead ≤ z.ahead - es.count none := by
  induction es generalizing z with
  | nil => exact Nat.le_refl _
  | cons x es ih =>
    have hstep := ahead_step host s o z x
    have hrun := ih (z.step host s o x)
    rw [List.count_cons]
    simp only [beq_iff_eq]
    show ((z.step host s o x).run host s o es).ahead ≤ _
    omega

/-! ### The verdict on a run -/

theorem Failure.run_eq (h : Failure host s e) (o : Overrides) (r : Metrics.Recorder) :
    Slab.run host s o r = (left s r e, .error e) := by
  rw [Slab.run, h.setUp_eq]

theorem run_eq_error_iff : (Slab.run host s o r).2 = .error e ↔ Failure host s e := by
  refine Pool.eq_error_iff (fun e he => by rw [he.run_eq]) fun h => ?_
  obtain ⟨a, p, a', -, -, hready⟩ := setUp_of_no_failure h r
  exact ⟨_, by rw [run_eq_of_setUp hready]⟩

/-- The machine and the settings of the arena and of the pool tell why a run fails. -/
theorem Failure.congr {s' : Settings} (harena : s'.arena = s.arena) (hpool : s'.pool = s.pool)
    (h : Failure host s e) : Failure host s' e := by
  have hoptions : s'.arenaOptions = s.arenaOptions := by
    unfold Settings.arenaOptions
    rw [harena]
  have hbuild (a : Arena) : buildPool s' a = buildPool s a := by
    unfold buildPool
    rw [hpool]
  cases h with
  | arena h => exact .arena (hoptions ▸ h)
  | pool ha h => exact .pool (hoptions ▸ ha) fun a' hsize hfresh => hbuild a' ▸ h a' hsize hfresh

theorem Failing.eq_ended {z : Stage n} (h : Failing s r e z) (hz : z.ahead = 0) :
    z = .ended (left s r e) (.error e) := by
  cases h with
  | opening | founded => cases hz
  | ended => rfl

/-- A course of a run with the workers that it is to have, from the start. -/
def course (host : Host) (s : Settings) (o : Overrides) (r : Metrics.Recorder)
    (es : List (Option (Fin (workerCount s o) × Chance))) : Stage (workerCount s o) :=
  (Stage.opening r).run host s o es

theorem reached_course (host : Host) (s : Settings) (o : Overrides) (r : Metrics.Recorder)
    (es : List (Option (Fin (workerCount s o) × Chance))) :
    Reached host s r (course host s o r es) :=
  Reached.opening.run es

/-- The course of a run that fails is over after two steps of the main thread. -/
theorem course_of_failure {es : List (Option (Fin (workerCount s o) × Chance))}
    (h : Failure host s e) (hcount : 2 ≤ es.count none) :
    course host s o r es = .ended (left s r e) (.error e) := by
  have hahead : (course host s o r es).ahead ≤ 2 - es.count none :=
    Stage.ahead_run host s o (.opening r) es
  have hzero : (course host s o r es).ahead = 0 := by omega
  exact (h.failing (reached_course host s o r es)).eq_ended hzero

/-- The course in which one worker goes after another. -/
theorem exists_course_of_no_failure (o : Overrides) (r : Metrics.Recorder)
    (h : ∀ e, ¬ Failure host s e) :
    ∃ es, course host s o r es = .ended (run host s o r).1 (run host s o r).2 := by
  obtain ⟨a, p, a', ha, hp, hready⟩ := setUp_of_no_failure h r
  let start : Shift (workerCount s o) :=
    .opening _ ⟨p.shared a'.memory, r.setArenaBytes (.ofNat a.size)⟩
  obtain ⟨es, hcomplete, hrun⟩ : ∃ es,
      (start.run p.slots (iterationCount s o) es).Complete (iterationCount s o) ∧
      run host s o r =
        (((start.run p.slots (iterationCount s o) es).closing p).1,
          .ok ((start.run p.slots (iterationCount s o) es).closing p).2) :=
    ⟨_, run_eq_closing hready⟩
  have hbegin : course host s o r [none, none] = .working p start := by
    show ((Stage.opening r).proceed host s o).proceed host s o = _
    rw [Stage.proceed, ha]
    dsimp only [Stage.proceed]
    rw [hp]
  refine ⟨[none, none] ++ es.map some ++ [none], ?_⟩
  rw [course, Stage.run_append, Stage.run_append, ← course, hbegin, Stage.run_working, hrun]
  exact if_pos hcomplete

/-- What is promised of a run that may fail. -/
structure Clean (host : Host) (s : Settings) (o : Overrides) (r : Metrics.Recorder) : Prop where
  error_iff : ∀ e, (run host s o r).2 = .error e ↔ Failure host s e
  /-- The pool is refused or not on an arena of which nothing has been carved off. -/
  pool_iff : ∀ f, Failure host s (.pool f) ↔ (∃ a, Arena.build host s.arenaOptions = .ok a) ∧
    Pool.Refused Element.order.shape s.pool.capacity.toNat
      ((s.pool.slotSize.map UInt64.toNat).getD Order.size)
      (Size.roundUp pageSize s.arena.sizeBytes.toNat) f
  /-- Nothing new is recorded but the size of an arena that was there. -/
  left_eq : ∀ e, Failure host s e → run host s o r = (left s r e, .error e)
  arenaBytes_eq : ∀ f, Failure host s (.pool f) →
    (left s r (.pool f)).arenaBytes.toNat = Size.roundUp pageSize s.arena.sizeBytes.toNat
  /-- No worker ever starts. -/
  failing : ∀ e, Failure host s e → ∀ es, Failing s r e (course host s o r es)
  /-- However the steps interleave, two of the main thread end a run that fails. -/
  ended : ∀ e, Failure host s e → ∀ es, 2 ≤ es.count none →
    course host s o r es = .ended (left s r e) (.error e)
  /-- No course fails for another reason. -/
  only : ∀ es r' e, course host s o r es = .ended r' (.error e) →
    Failure host s e ∧ r' = left s r e
  /-- The run in which one worker goes after another is one of the courses. -/
  exists_course : ∃ es, course host s o r es = .ended (run host s o r).1 (run host s o r).2
  /-- Other overrides, other settings of the workers and other values recorded before make no
  difference to the error. -/
  error_congr : ∀ s' o' r' e, s'.arena = s.arena → s'.pool = s.pool →
    ((run host s' o' r').2 = .error e ↔ (run host s o r).2 = .error e)

/-- **A run that fails leaves only what it has established.** -/
theorem failing_run (host : Host) (s : Settings) (o : Overrides) (r : Metrics.Recorder) :
    Clean host s o r where
  error_iff _ := run_eq_error_iff
  pool_iff _ := failure_pool_iff
  left_eq e he := he.run_eq o r
  arenaBytes_eq f hf := by
    obtain ⟨⟨a, ha⟩, -⟩ := failure_pool_iff.1 hf
    have hlt := Arena.size_lt_of_build ha
    rw [size_of_build ha] at hlt
    exact UInt64.toNat_ofNat_of_lt' hlt
  failing e he es := he.failing (reached_course host s o r es)
  ended e he es hcount := course_of_failure he hcount
  only es r' e hes := by
    have hend := reached_course host s o r es
    rw [hes] at hend
    cases hend with
    | failed he => exact ⟨he, rfl⟩
  exists_course := by
    by_cases h : ∃ e, Failure host s e
    · obtain ⟨e, he⟩ := h
      refine ⟨[none, none], ?_⟩
      rw [he.run_eq]
      exact course_of_failure he (by simp)
    · exact exists_course_of_no_failure o r (not_exists.1 h)
  error_congr s' o' r' e harena hpool := by
    rw [run_eq_error_iff, run_eq_error_iff]
    exact ⟨.congr harena.symm hpool.symm, .congr harena hpool⟩

/-- A page has room for 64 slots. Nothing but the size of the arena is recorded when one more is
asked for. -/
example :
    run .reference { arena := { sizeBytes := 4000 }, pool := { capacity := 65 } }
        { threads := some 8 } { released := 3 } =
      ({ released := 3, arenaBytes := 4096 },
        .error (.pool (.capacityExceedsArena 4160 4096))) := rfl

end Slab.Run
