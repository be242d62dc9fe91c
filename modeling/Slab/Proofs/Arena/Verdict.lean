import Slab.Proofs.Arena.Construction

/-!
# The verdict on an arena

Which answers of the system decide whether an arena is built, and what an arena is when it is built.

* `Arena.Request.Decisive`: the requests whose answers matter;
* `Arena.New.unique`, `Arena.run_congr`: what is known of a new arena tells it from all others, so
  that no other answer matters;
* `Arena.AsAsked o a`: an arena as its options ask for it;
* `Arena.Judged`, `Arena.build_by_answers`: **an arena is built unless there is an obstacle**, the
  obstacle is the error that is reported, and what is built is as asked.
-/

namespace Slab.Arena

variable {o : Options} {a : Arena} {answer : Request → Answer}

/-! ### Tolerance -/

/-- Whether an arena is built, and which one, goes by the answer to the request. A refusal of any
other request is tolerated. -/
def Request.Decisive : Request → Prop
  | .probe | .map _ | .bind _ _ _ => True
  | .advise _ _ | .lockAll | .lockRegion _ _ | .unmap _ _ => False

theorem placing_congr {answer' : Request → Answer}
    (h : ∀ r : Request, r.Decisive → answer' r = answer r) (o : Options) (base size : ℕ) :
    placing o answer' base size = placing o answer base size := by
  unfold placing
  rw [h (.bind base size o.domain) trivial]

theorem Obstacle.congr {answer' : Request → Answer} {e : ArenaError}
    (h : ∀ r : Request, r.Decisive → answer' r = answer r) (he : Obstacle o answer e) :
    Obstacle o answer' e := by
  have hprobe' := h .probe trivial
  cases he with
  | zeroSize hzero => exact .zeroSize hzero
  | tooLarge h0 hlarge => exact .tooLarge h0 hlarge
  | locality hsize hreq hprobe => exact .locality hsize hreq (hprobe'.trans hprobe)
  | memory hsize hprobe hmap =>
    exact .memory hsize (by simpa only [hprobe'] using hprobe) ((h (.map _) trivial).trans hmap)
  | placement hsize hreq hprobe hmap hplace =>
    exact .placement hsize hreq (hprobe'.trans hprobe) ((h (.map _) trivial).trans hmap)
      ((placing_congr h _ _ _).trans hplace)

theorem New.congr {answer' : Request → Answer}
    (h : ∀ r : Request, r.Decisive → answer' r = answer r) (ha : New o answer a) :
    New o answer' a where
  rounded := ha.rounded
  map_eq := (h (.map _) trivial).trans ha.map_eq
  bound_iff := by
    rw [h .probe trivial, placing_congr h]
    exact ha.bound_iff
  reserved_eq := ha.reserved_eq
  domain_eq := ha.domain_eq
  hugePages_eq := ha.hugePages_eq
  memory_eq := ha.memory_eq

/-- What is known of a new arena tells it from all others. -/
theorem New.unique {a' : Arena} (h : New o answer a) (h' : New o answer a') : a = a' := by
  have hsize : a.size = a'.size := h.rounded.least.unique h'.rounded.least
  have hmap := h.map_eq
  rw [hsize, h'.map_eq] at hmap
  have hbase : a'.base = a.base := Except.ok.inj hmap
  have hbound := h.bound_iff
  rw [hsize, ← hbase, ← h'.bound_iff, ← Bool.eq_iff_iff] at hbound
  have hreserved : a.cursor = a'.cursor := h.reserved_eq.trans h'.reserved_eq.symm
  have hdomain := h.domain_eq.trans h'.domain_eq.symm
  have hhuge := h.hugePages_eq.trans h'.hugePages_eq.symm
  have hmemory := h.memory_eq.trans h'.memory_eq.symm
  obtain ⟨base, size, domain, hugePages, bound, cursor, memory⟩ := a
  obtain ⟨base', size', domain', hugePages', bound', cursor', memory'⟩ := a'
  dsimp only at hsize hbase hbound hreserved hdomain hhuge hmemory
  subst hsize hbase hbound hreserved hdomain hhuge hmemory
  rfl

/-- Only the answers to decisive requests matter. -/
theorem run_congr {answer' : Request → Answer}
    (h : ∀ r : Request, r.Decisive → answer' r = answer r) :
    (construct o).run answer' = (construct o).run answer := by
  rcases exists_new o answer with ⟨e, he⟩ | ⟨a, hnew, ha⟩
  · rw [run_of_obstacle he, run_of_obstacle (he.congr h)]
  · have h' : ∀ r : Request, r.Decisive → answer r = answer' r := fun r hr => (h r hr).symm
    rcases exists_new o answer' with ⟨e, he⟩ | ⟨a', hnew', ha'⟩
    · rw [run_of_obstacle (he.congr h')] at ha
      cases ha
    · rw [ha, ha', hnew.unique (hnew'.congr h')]

/-! ### The verdict -/

/-- An arena as its options ask for it: the least number of whole pages that holds the bytes, on the
domain, and nothing of it reserved. -/
structure AsAsked (o : Options) (a : Arena) : Prop where
  size : IsLeast {n | pageSize ∣ n ∧ o.sizeBytes ≤ n} a.size
  reserved : a.reserved = 0
  remaining : a.remaining = a.size
  domain : a.domain = o.domain
  hugePages : a.hugePages = o.hugePages

theorem New.asAsked (h : New o answer a) : AsAsked o a where
  size := h.rounded.least
  reserved := h.reserved_eq
  remaining := by rw [remaining, h.reserved_eq, Nat.sub_zero]
  domain := h.domain_eq
  hugePages := h.hugePages_eq

/-- A domain is never reported where placement is only preferred. -/
theorem Obstacle.ne_localityUnavailable {e : ArenaError} (he : Obstacle o answer e)
    (hl : o.locality = .preferred) (domain : UInt32) (fault : Fault) :
    e ≠ .localityUnavailable domain fault := by
  cases he with
  | zeroSize | tooLarge | memory => exact nofun
  | locality _ hreq | placement _ hreq =>
    rw [hl] at hreq
    cases hreq

/-- What is promised of a construction with a system that answers in a given way. -/
structure Judged (o : Options) (answer : Request → Answer) : Prop where
  error_iff : ∀ e, (construct o).run answer = .error e ↔ Obstacle o answer e
  ok_of_clear : (∀ e, ¬ Obstacle o answer e) → ∃ a, (construct o).run answer = .ok a
  asAsked : ∀ a, (construct o).run answer = .ok a → AsAsked o a
  /-- A domain that is only preferred is never reported. -/
  ne_localityUnavailable : o.locality = .preferred → ∀ domain fault,
    (construct o).run answer ≠ .error (.localityUnavailable domain fault)
  /-- Whatever the system answers to the other requests, the result is the same. -/
  congr : ∀ answer' : Request → Answer, (∀ r : Request, r.Decisive → answer' r = answer r) →
    (construct o).run answer' = (construct o).run answer

/-- **An arena is built unless there is an obstacle.** This holds of all systems, and the machines
are some of them. -/
theorem build_by_answers (o : Options) :
    (∀ answer, Judged o answer) ∧ ∀ host, build host o = (construct o).run host.answer := by
  refine ⟨fun answer => ?_, fun _ => rfl⟩
  exact
    { error_iff := fun _ => run_eq_error_iff
      ok_of_clear := fun h => by
        obtain ⟨a, -, ha⟩ := (exists_new o answer).resolve_left (not_exists.2 h)
        exact ⟨a, ha⟩
      asAsked := fun _ ha => (new_of_run ha).asAsked
      ne_localityUnavailable := fun hl domain fault he =>
        (run_eq_error_iff.1 he).ne_localityUnavailable hl domain fault rfl
      congr := fun _ h => run_congr h }

/-- This machine has no domain 1, which matters only where placement is required. -/
example : build .reference { sizeBytes := 4097, domain := 1 } =
    .error (.localityUnavailable 1 Host.invalidArgument) := rfl

example : (build .reference { sizeBytes := 4097, domain := 1, locality := .preferred }).toOption.map
    size = some 8192 := rfl

end Slab.Arena
