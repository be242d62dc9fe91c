import Mathlib.Order.Bounds.Basic
import Slab.Arena.Construction
import Slab.Proofs.Pool.Construction

/-!
# New arenas

What is known of an arena when it has just been built, and when and why none is built. All of it is
told from the options and from the answers of the system.

* `Arena.Rounded o size`: the size of an arena;
* `Arena.Obstacle o answer e`: what stands in the way of an arena, with the error that is reported;
* `Arena.New o answer a`: what is known of an arena that has just been built;
* `Arena.run_eq_error_iff`, `Arena.new_of_run`: **nothing but an obstacle keeps an arena from being
  built**, and one that is built is new;
* `Arena.build_eq_ok`, `Arena.Refused`, `Arena.build_eq_error`: what follows on a machine.
-/

namespace Slab.Arena

variable {host : Host} {o : Options} {a : Arena} {answer : Request → Answer} {size : ℕ}

/-! ### The steps of a construction -/

/-- Nothing that comes after placement keeps an arena from being built. -/
theorem run_advise (o : Options) (a : Arena) (answer : Request → Answer) :
    (advise o a).run answer = .ok a := by
  have hlock : (lock o a).run answer = .ok a := by
    unfold lock
    cases o.lock <;> rfl
  unfold advise
  split
  · exact hlock
  · exact hlock

/-- The answer to placing a mapping, which is known beforehand for a domain that no set of domains
can name. -/
def placing (o : Options) (answer : Request → Answer) (base size : ℕ) : Answer :=
  if o.domain.toNat < Host.domainLimit then answer (.bind base size o.domain)
  else .error Host.domainOutOfRange

theorem run_unplaced (o : Options) (a : Arena) (fault : Fault) (answer : Request → Answer) :
    (unplaced o a fault).run answer =
      if o.locality = .required then .error (.localityUnavailable o.domain fault) else .ok a := by
  unfold unplaced
  cases o.locality with
  | required => rfl
  | preferred => exact run_advise o a answer

theorem run_place (o : Options) (a : Arena) (answer : Request → Answer) :
    (place o a).run answer =
      match placing o answer a.base a.size with
      | .ok _ => .ok { a with bound := true }
      | .error fault => (unplaced o a fault).run answer := by
  unfold place placing
  split
  · rw [Dialogue.run]
    cases answer (.bind a.base a.size o.domain) with
    | ok n => exact run_advise _ _ _
    | error fault => rfl
  · rfl

theorem run_mapPages (o : Options) (size : ℕ) (placeable : Bool) (answer : Request → Answer) :
    (mapPages o size placeable).run answer =
      match answer (.map size) with
      | .error fault => .error (.outOfMemory size fault)
      | .ok base =>
        if placeable then (place o (ofMapping o base size)).run answer
        else .ok (ofMapping o base size) := by
  rw [mapPages, Dialogue.run]
  cases answer (.map size) with
  | error fault => rfl
  | ok base =>
    cases placeable with
    | true => rfl
    | false => exact run_advise _ _ _

theorem run_probe (o : Options) (size : ℕ) (answer : Request → Answer) :
    (probe o size).run answer =
      match answer .probe with
      | .ok _ => (mapPages o size true).run answer
      | .error fault =>
        if o.locality = .required then .error (.localityUnavailable o.domain fault)
        else (mapPages o size false).run answer := by
  rw [probe, Dialogue.run]
  cases answer .probe with
  | ok n => rfl
  | error fault => cases o.locality <;> rfl

/-! ### The size -/

/-- The size of an arena: the least number of whole pages that holds the bytes asked for. -/
structure Rounded (o : Options) (size : ℕ) : Prop where
  ne_zero : o.sizeBytes ≠ 0
  least : IsLeast {n | pageSize ∣ n ∧ o.sizeBytes ≤ n} size
  lt : size < Size.limit

theorem isLeast_roundUp (n : ℕ) :
    IsLeast {m | pageSize ∣ m ∧ n ≤ m} (Size.roundUp pageSize n) :=
  ⟨⟨Size.dvd_roundUp _ _, Size.le_roundUp (by decide) n⟩, fun _ hm => Size.roundUp_le hm.1 hm.2⟩

theorem rounded_iff :
    Rounded o size ↔ o.sizeBytes ≠ 0 ∧ Size.roundUp? pageSize o.sizeBytes = some size := by
  rw [Size.roundUp?_eq_some_iff]
  constructor
  · rintro ⟨h0, hleast, hlt⟩
    exact ⟨h0, (isLeast_roundUp _).unique hleast, hlt⟩
  · rintro ⟨h0, rfl, hlt⟩
    exact ⟨h0, isLeast_roundUp _, hlt⟩

/-! ### The verdict -/

/-- What stands in the way of an arena, with the error that is reported. -/
inductive Obstacle (o : Options) (answer : Request → Answer) : ArenaError → Prop
  | zeroSize (h : o.sizeBytes = 0) : Obstacle o answer .zeroSize
  /-- No machine word holds the size in whole pages. -/
  | tooLarge (h0 : o.sizeBytes ≠ 0)
      (h : ∀ n, pageSize ∣ n → o.sizeBytes ≤ n → Size.limit ≤ n) :
      Obstacle o answer (.outOfMemory o.sizeBytes ArenaError.tooLarge)
  /-- Placement is required, and there is none. -/
  | locality {size : ℕ} {fault : Fault} (hsize : Rounded o size) (hreq : o.locality = .required)
      (h : answer .probe = .error fault) :
      Obstacle o answer (.localityUnavailable o.domain fault)
  | memory {size : ℕ} {fault : Fault} (hsize : Rounded o size)
      (hprobe : o.locality = .required → ∃ n, answer .probe = .ok n)
      (h : answer (.map size) = .error fault) : Obstacle o answer (.outOfMemory size fault)
  /-- Placement is required, and is refused for this mapping. -/
  | placement {size n base : ℕ} {fault : Fault} (hsize : Rounded o size)
      (hreq : o.locality = .required) (hprobe : answer .probe = .ok n)
      (hmap : answer (.map size) = .ok base) (h : placing o answer base size = .error fault) :
      Obstacle o answer (.localityUnavailable o.domain fault)

/-- What is known of an arena that has just been built. -/
structure New (o : Options) (answer : Request → Answer) (a : Arena) : Prop where
  rounded : Rounded o a.size
  map_eq : answer (.map a.size) = .ok a.base
  bound_iff : a.bound = true ↔
    (∃ n, answer .probe = .ok n) ∧ ∃ n, placing o answer a.base a.size = .ok n
  reserved_eq : a.reserved = 0
  domain_eq : a.domain = o.domain
  hugePages_eq : a.hugePages = o.hugePages
  memory_eq : a.memory = .zero

theorem construct_of_rounded (h : Rounded o size) : construct o = probe o size := by
  obtain ⟨h0, hsize⟩ := rounded_iff.1 h
  rw [construct, if_neg h0, hsize]

/-- An obstacle keeps an arena from being built. -/
theorem run_of_obstacle {e : ArenaError} (h : Obstacle o answer e) :
    (construct o).run answer = .error e := by
  cases h with
  | zeroSize h =>
    rw [construct, if_pos h]
    rfl
  | tooLarge h0 h =>
    have hsize : Size.roundUp? pageSize o.sizeBytes = none := by
      obtain ⟨hdvd, hle⟩ := (isLeast_roundUp o.sizeBytes).1
      rw [Size.roundUp?, if_neg (Nat.not_lt_of_le (h _ hdvd hle))]
    rw [construct, if_neg h0, hsize]
    rfl
  | locality hsize hreq h =>
    rw [construct_of_rounded hsize, run_probe, h]
    exact if_pos hreq
  | @memory size fault hsize hprobe h =>
    have hmap (placeable : Bool) :
        (mapPages o size placeable).run answer = .error (.outOfMemory size fault) := by
      rw [run_mapPages, h]
    rw [construct_of_rounded hsize, run_probe]
    cases ha : answer .probe with
    | ok n => exact hmap true
    | error f =>
      have hpreferred : ¬ o.locality = .required := by
        intro hreq
        obtain ⟨n, hn⟩ := hprobe hreq
        rw [ha] at hn
        cases hn
      exact (if_neg hpreferred).trans (hmap false)
  | placement hsize hreq hprobe hmap h =>
    rw [construct_of_rounded hsize, run_probe, hprobe]
    dsimp only
    rw [run_mapPages, hmap]
    dsimp only
    rw [if_pos rfl, run_place, ofMapping, h]
    dsimp only
    rw [run_unplaced, if_pos hreq]

theorem new_ofMapping {base : ℕ} (bound : Bool) (hsize : Rounded o size)
    (hmap : answer (.map size) = .ok base)
    (hbound : bound = true ↔
      (∃ n, answer .probe = .ok n) ∧ ∃ n, placing o answer base size = .ok n) :
    New o answer { ofMapping o base size with bound } :=
  ⟨hsize, hmap, hbound, rfl, rfl, rfl, rfl⟩

/-- An arena is built unless there is an obstacle. -/
theorem exists_new (o : Options) (answer : Request → Answer) :
    (∃ e, Obstacle o answer e) ∨ ∃ a, New o answer a ∧ (construct o).run answer = .ok a := by
  by_cases h0 : o.sizeBytes = 0
  · exact .inl ⟨_, .zeroSize h0⟩
  cases hround : Size.roundUp? pageSize o.sizeBytes with
  | none =>
    have hlimit : Size.limit ≤ Size.roundUp pageSize o.sizeBytes := by
      unfold Size.roundUp? at hround
      split_ifs at hround with hlt
      exact Nat.le_of_not_lt hlt
    refine .inl ⟨_, .tooLarge h0 fun n hdvd hle => ?_⟩
    exact Nat.le_trans hlimit (Size.roundUp_le hdvd hle)
  | some size =>
    have hsize : Rounded o size := rounded_iff.2 ⟨h0, hround⟩
    rw [construct_of_rounded hsize, run_probe]
    cases hprobe : answer .probe with
    | error fault =>
      by_cases hl : o.locality = .required
      · exact .inl ⟨_, .locality hsize hl hprobe⟩
      dsimp only
      rw [if_neg hl, run_mapPages]
      cases hmap : answer (.map size) with
      | error f => exact .inl ⟨_, .memory hsize (absurd · hl) hmap⟩
      | ok base =>
        have hbound : ¬ ∃ n, answer .probe = .ok n := by simp [hprobe]
        exact .inr ⟨_, new_ofMapping false hsize hmap (by simp [hbound]), rfl⟩
    | ok n =>
      dsimp only
      rw [run_mapPages]
      cases hmap : answer (.map size) with
      | error f => exact .inl ⟨_, .memory hsize (fun _ => ⟨n, hprobe⟩) hmap⟩
      | ok base =>
        dsimp only
        rw [if_pos rfl, run_place]
        cases hplace : placing o answer base size with
        | ok m =>
          have hbound : (∃ n, answer .probe = .ok n) ∧ ∃ n, placing o answer base size = .ok n :=
            ⟨⟨n, hprobe⟩, m, hplace⟩
          refine .inr ⟨_, new_ofMapping true hsize hmap (iff_of_true rfl hbound), ?_⟩
          rw [ofMapping, hplace]
        | error f =>
          by_cases hl : o.locality = .required
          · exact .inl ⟨_, .placement hsize hl hprobe hmap hplace⟩
          · have hbound : ¬ ∃ n, placing o answer base size = .ok n := by simp [hplace]
            refine .inr ⟨_, new_ofMapping false hsize hmap (by simp [hbound]), ?_⟩
            rw [ofMapping, hplace]
            dsimp only
            rw [run_unplaced, if_neg hl]

/-- What an arena that is built is known to be. -/
theorem new_of_run (h : (construct o).run answer = .ok a) : New o answer a := by
  rcases exists_new o answer with ⟨e, he⟩ | ⟨a', hnew, ha'⟩
  · rw [run_of_obstacle he] at h
    cases h
  · rw [ha'] at h
    cases h
    exact hnew

/-- **Nothing but an obstacle keeps an arena from being built.** -/
theorem run_eq_error_iff {e : ArenaError} :
    (construct o).run answer = .error e ↔ Obstacle o answer e := by
  refine Pool.eq_error_iff (fun e he => run_of_obstacle he) fun h => ?_
  obtain ⟨a, -, ha⟩ := (exists_new o answer).resolve_left (not_exists.2 h)
  exact ⟨a, ha⟩

/-! ### On a machine -/

theorem build_eq_ok (h : build host o = .ok a) :
    Size.roundUp? pageSize o.sizeBytes = some a.size ∧ host.map a.size = .ok a.base ∧
      a.cursor = 0 :=
  have hnew := new_of_run h
  ⟨(rounded_iff.1 hnew.rounded).2, hnew.map_eq, hnew.reserved_eq⟩

/-- A machine word holds the size of an arena. -/
theorem size_lt_of_build (h : build host o = .ok a) : a.size < Size.limit :=
  (new_of_run h).rounded.lt

/-- Whole pages never make up the largest size. -/
theorem size_lt_largest_of_build (h : build host o = .ok a) : a.size < Size.largest := by
  have hpages := (new_of_run h).rounded.least.1.1
  refine Nat.lt_of_le_of_ne (Nat.le_sub_one_of_lt (size_lt_of_build h)) fun he => ?_
  rw [he] at hpages
  exact absurd hpages (by decide)

/-- The machine refuses placement, or has no memory of that size. -/
inductive Refused (o : Options) : ArenaError → Prop
  | placement (fault : Fault) : Refused o (.localityUnavailable o.domain fault)
  | memory (bytes : ℕ) (fault : Fault) : Refused o (.outOfMemory bytes fault)

end Slab.Arena
