import Mathlib.Data.Int.Notation
import Slab.Proofs.Dict
import Slab.Proofs.Pool.Chain
import Slab.Workspace.Site

/-!
# A pool as its user sees it

What a pool does, said without memory: the free slots are a stack of numbers, each held slot has the
value that was last written to it, and three numbers count what has happened.

* `Tenure`: how a slot is held, with the value that was last written to it;
* `Ledger`: the stack, the held slots and the counts;
* `Ledger.take`, `Ledger.giveBack`: taking the slot on top, putting one on top;
* `Ledger.step`, `Ledger.run`: one operation on a pool, with the answer that is due, and a list of
  them;
* `Ledger.Sound`: each slot is free or held, and no slot is both.
-/

namespace Slab

/-- How a slot is held, and the value that its holder has written last. -/
inductive Tenure
  /-- By its address; the value, if one was written. -/
  | raw (value : Option Value)
  /-- By a guard. -/
  | guarded (value : Value)
  deriving DecidableEq, Repr

namespace Tenure

/-- How the slot is held. -/
def lease : Tenure → Lease
  | raw value => .raw value.isSome
  | guarded _ => .guarded

/-- The value that was written last, if any. -/
def value? : Tenure → Option Value
  | raw value => value
  | guarded value => some value

end Tenure

/-- A pool as its user sees it. -/
structure Ledger where
  /-- The free slots, the next one to be taken first. -/
  free : List UInt32
  held : Dict ℕ Tenure := []
  /-- Slots taken so far. -/
  acquired : ℕ := 0
  /-- Slots given back so far. -/
  released : ℕ := 0
  /-- Requests so far that found no free slot. -/
  exhausted : ℕ := 0
  deriving DecidableEq, Repr

namespace Ledger

/-- All of `n` slots are free, slot 0 on top. -/
def new (n : ℕ) : Ledger := { free := Pool.numbers n }

/-- The counters of a pool for which no exchange has failed. -/
def counters (l : Ledger) : Pool.Counters where
  acquired := UInt64.ofNat l.acquired
  released := UInt64.ofNat l.released
  exhausted := UInt64.ofNat l.exhausted
  contended := 0

/-- Takes the slot on top, which is then held in the given way. -/
def take (l : Ledger) (t : Tenure) : Ledger × Option UInt32 :=
  match l.free with
  | [] => ({ l with exhausted := l.exhausted + 1 }, none)
  | i :: rest =>
    ({ l with free := rest, held := l.held.insert i.toNat t, acquired := l.acquired + 1 }, some i)

theorem take_of_nil {l : Ledger} (h : l.free = []) (t : Tenure) :
    l.take t = ({ l with exhausted := l.exhausted + 1 }, none) := by
  rw [take, h]

theorem take_of_cons {l : Ledger} {i : UInt32} {rest : List UInt32} (h : l.free = i :: rest)
    (t : Tenure) :
    l.take t =
      ({ l with free := rest, held := l.held.insert i.toNat t, acquired := l.acquired + 1 },
        some i) := by
  rw [take, h]

/-- Puts a held slot on top. -/
def giveBack (l : Ledger) (slot : ℕ) : Ledger :=
  { l with
    free := UInt32.ofNat slot :: l.free
    held := l.held.erase slot
    released := l.released + 1 }

/-- The slot is held in another way or holds another value. -/
def put (l : Ledger) (slot : ℕ) (t : Tenure) : Ledger := { l with held := l.held.insert slot t }

/-- Takes so many slots one after another. -/
def takeMany : ℕ → Ledger → Ledger × List (Option ℕ)
  | 0, l => (l, [])
  | n + 1, l =>
    let (l, slot) := l.take (.raw none)
    let (l, rest) := takeMany n l
    (l, slot.map UInt32.toNat :: rest)

/-- Gives slots back one after another. -/
def giveBackAll (slots : List ℕ) (l : Ledger) : Ledger := slots.foldl giveBack l

theorem find?_giveBackAll (l : Ledger) (slots : List ℕ) (k : ℕ) :
    (l.giveBackAll slots).held.find? k = if k ∈ slots then none else l.held.find? k := by
  induction slots generalizing l with
  | nil => simp [giveBackAll]
  | cons j slots ih =>
    show ((l.giveBack j).giveBackAll slots).held.find? k = _
    rw [ih, show (l.giveBack j).held = l.held.erase j from rfl, Dict.find?_erase]
    by_cases hj : k = j <;> simp [hj]

/-- So many rounds of taking a slot, giving all of them back whenever `hold` are out, and the rest
at the end. -/
def hammerAlone (hold : ℕ) : ℕ → List ℕ → Ledger → Ledger
  | 0, out, l => l.giveBackAll out
  | n + 1, out, l =>
    match l.take (.raw none) with
    | (l, none) => hammerAlone hold n out l
    | (l, some slot) =>
      let out := out ++ [slot.toNat]
      if hold ≤ out.length then hammerAlone hold n [] (l.giveBackAll out)
      else hammerAlone hold n out l

/-- One thread after another at such rounds. -/
def hammer (rounds hold : ℕ) : ℕ → Ledger → Ledger
  | 0, l => l
  | threads + 1, l => hammer rounds hold threads (l.hammerAlone hold rounds [])

/-- One operation with its answer. Of the site only the elements and the layout matter, which do not
change. -/
def step (s : Site) (base : ℕ) (l : Ledger) : PoolOp → Ledger × PoolAnswer
  | .acquire =>
    match l.take (.raw none) with
    | (l, none) => (l, .exhausted)
    | (l, some slot) => (l, .placed (s.placeOf base slot))
  | .acquireWith v =>
    match l.take (.guarded v) with
    | (l, none) => (l, .exhausted)
    | (l, some slot) => (l, .placed (s.placeOf base slot))
  | .acquireMany n =>
    let (l, slots) := l.takeMany n
    (l, .slots slots)
  | .release slot =>
    match l.held.find? slot with
    | none => (l, .notHeld)
    | some (.raw _) => (l.giveBack slot, .released slot)
    | some (.guarded _) => (l.giveBack slot, .dropped slot)
  | .releaseAll descending =>
    let out := if descending then l.held.keys.reverse else l.held.keys
    (l.giveBackAll out, .releasedAll out)
  | .write slot v =>
    match l.held.find? slot with
    | none => (l, .notHeld)
    | some (.raw _) => (l.put slot (.raw (some v)), .written slot)
    | some (.guarded _) => (l.put slot (.guarded v), .written slot)
  | .read slot =>
    match l.held.find? slot with
    | none => (l, .notHeld)
    | some t =>
      match t.value? with
      | none => (l, .uninitialized)
      | some v => (l, .value (s.element.decode (s.element.encode v)))
  | .display slot =>
    match l.held.find? slot with
    | some (.guarded v) =>
      (l, .text ("PooledSlot(" ++ (s.element.decode (s.element.encode v)).describe ++ ")"))
    | _ => (l, .notHeld)
  | .intoRaw slot =>
    match l.held.find? slot with
    | some (.guarded v) =>
      (l.put slot (.raw (some v)), .placed (s.placeOf base (UInt32.ofNat slot)))
    | _ => (l, .notHeld)
  | .contains offset =>
    (l, .found (s.pool.slotIndex (((base : ℤ) + offset) % Size.limit).toNat))
  | .info => (l, .info s.pool.capacity s.pool.slotSize s.pool.footprintBytes)
  | .countFree => (l, .count l.free.length)
  | .snapshot => (l, .snapshot l.counters.snapshot)
  | .describe => (l, .text { s.pool with counters := l.counters }.describe)
  | .hammer threads rounds hold =>
    let l := l.hammer rounds hold threads
    (l, .count l.free.length)

/-- Operations one after another, with their answers. -/
def run (s : Site) (base : ℕ) : Ledger → List PoolOp → Ledger × List PoolAnswer
  | l, [] => (l, [])
  | l, op :: ops =>
    let (l, a) := l.step s base op
    let (l, as) := run s base l ops
    (l, a :: as)

/-! ### Every slot is free or held -/

/-- Of `n` slots each is free or held, and none is both. -/
structure Sound (n : ℕ) (l : Ledger) : Prop where
  sorted : l.held.Sorted
  whole : (l.free.map UInt32.toNat ++ l.held.keys).Perm (List.range n)
  balance : l.acquired = l.released + l.held.length

namespace Sound

variable {n : ℕ} {l : Ledger}

theorem nodup (h : l.Sound n) : (l.free.map UInt32.toNat ++ l.held.keys).Nodup :=
  h.whole.nodup_iff.2 List.nodup_range

theorem lt_of_free (h : l.Sound n) {i : UInt32} (hi : i ∈ l.free) : i.toNat < n := by
  refine List.mem_range.1 (h.whole.mem_iff.1 (List.mem_append_left _ ?_))
  exact List.mem_map_of_mem hi

theorem lt_of_held (h : l.Sound n) {k : ℕ} (hk : k ∈ l.held.keys) : k < n :=
  List.mem_range.1 (h.whole.mem_iff.1 (List.mem_append_right _ hk))

theorem not_held (h : l.Sound n) {i : UInt32} (hi : i ∈ l.free) : i.toNat ∉ l.held.keys :=
  fun hk => List.disjoint_of_nodup_append h.nodup (List.mem_map_of_mem hi) hk

/-- The free slots and the held ones are as many as the slots. -/
theorem length_add (h : l.Sound n) : l.free.length + l.held.length = n := by
  have hlen := h.whole.length_eq
  rw [List.length_append, List.length_map, List.length_range, Dict.keys, List.length_map] at hlen
  exact hlen

theorem new {n : ℕ} (hn : n ≤ Pool.nil.toNat) : (Ledger.new n).Sound n where
  sorted := List.Pairwise.nil
  whole := by
    have hmap : (Pool.numbers n).map UInt32.toNat = List.range n := by
      rw [Pool.numbers, List.map_map]
      exact (List.map_congr_left fun i hi =>
        Pool.toNat_ofNat_of_le hn (List.mem_range.1 hi)).trans (List.map_id _)
    show ((Pool.numbers n).map UInt32.toNat ++ []).Perm _
    rw [hmap, List.append_nil]
  balance := rfl

theorem take (h : l.Sound n) (t : Tenure) : (l.take t).1.Sound n := by
  cases hfree : l.free with
  | nil =>
    rw [take_of_nil hfree]
    exact ⟨h.sorted, h.whole, h.balance⟩
  | cons i rest =>
    rw [take_of_cons hfree]
    have hkeys := Dict.keys_insert (h.not_held (hfree ▸ List.mem_cons_self)) t
    have hlen := hkeys.length_eq
    have hwhole := h.whole
    rw [hfree] at hwhole
    -- the slot moves from the top of the stack to the held ones
    refine ⟨h.sorted.insert _ _, ?_, ?_⟩
    · exact ((List.Perm.append_left _ hkeys).trans List.perm_middle).trans hwhole
    · have hb := h.balance
      simp only [Dict.keys, List.length_map, List.length_cons] at hlen
      show l.acquired + 1 = l.released + (l.held.insert i.toNat t).length
      omega

theorem giveBack (h : l.Sound n) (hn : n ≤ Pool.nil.toNat) {k : ℕ} (hk : k ∈ l.held.keys) :
    (l.giveBack k).Sound n := by
  have hkeys := Dict.keys_perm_erase h.sorted hk
  have hlen := hkeys.length_eq
  refine ⟨h.sorted.erase k, ?_, ?_⟩
  · show ((UInt32.ofNat k).toNat :: (l.free.map UInt32.toNat) ++ (l.held.erase k).keys).Perm _
    rw [Pool.toNat_ofNat_of_le hn (h.lt_of_held hk)]
    exact (List.perm_middle.symm.trans (List.Perm.append_left _ hkeys.symm)).trans h.whole
  · have hb := h.balance
    simp only [Dict.keys, List.length_map, List.length_cons] at hlen
    show l.acquired = l.released + 1 + (l.held.erase k).length
    omega

theorem put (h : l.Sound n) {k : ℕ} (hk : k ∈ l.held.keys) (t : Tenure) :
    (l.put k t).Sound n := by
  have hkeys := Dict.keys_insert_of_mem h.sorted hk t
  have hlen := congrArg List.length hkeys
  simp only [Dict.keys, List.length_map] at hlen
  refine ⟨h.sorted.insert k t, ?_, h.balance.trans (congrArg (l.released + ·) hlen.symm)⟩
  show (l.free.map UInt32.toNat ++ (l.held.insert k t).keys).Perm _
  rw [hkeys]
  exact h.whole

/-- After one of several held slots has been given back the others are still held. -/
theorem held_giveBack {l : Ledger} {j : ℕ} {ks : List ℕ} (hnodup : (j :: ks).Nodup)
    (hheld : ∀ k ∈ j :: ks, k ∈ l.held.keys) : ∀ k ∈ ks, k ∈ (l.giveBack j).held.keys := by
  intro k hk
  show k ∈ (l.held.erase j).keys
  rw [Dict.keys_erase, List.mem_filter]
  refine ⟨hheld k (List.mem_cons_of_mem j hk), ?_⟩
  have hne : k ≠ j := by
    rintro rfl
    exact (List.nodup_cons.1 hnodup).1 hk
  simpa using hne

theorem giveBackAll (h : l.Sound n) (hn : n ≤ Pool.nil.toNat) {ks : List ℕ} (hnodup : ks.Nodup)
    (hheld : ∀ k ∈ ks, k ∈ l.held.keys) : (l.giveBackAll ks).Sound n := by
  induction ks generalizing l with
  | nil => exact h
  | cons j ks ih =>
    have hj := h.giveBack hn (hheld j List.mem_cons_self)
    exact ih hj (List.nodup_cons.1 hnodup).2 (held_giveBack hnodup hheld)

/-- A slot that was just taken joins the held ones of which a thread keeps a list. -/
theorem out_concat (h : l.Sound n) {i : UInt32} {rest : List UInt32} (hfree : l.free = i :: rest)
    {t : Tenure} {out : List ℕ} (hnodup : out.Nodup) (hheld : ∀ k ∈ out, k ∈ l.held.keys) :
    (out ++ [i.toNat]).Nodup ∧
      ∀ k ∈ out ++ [i.toNat], k ∈ (l.held.insert i.toNat t).keys := by
  have hi := h.not_held (i := i) (hfree ▸ List.mem_cons_self)
  constructor
  · refine List.Nodup.append hnodup (List.nodup_singleton _) ?_
    rw [List.disjoint_singleton]
    exact fun hmem => hi (hheld _ hmem)
  · intro k hk
    rw [Dict.mem_keys_insert]
    rcases List.mem_append.1 hk with hk | hk
    · exact Or.inr (hheld k hk)
    · exact Or.inl (List.mem_singleton.1 hk)

end Sound

/-- After its rounds a thread has given back what it took, and nobody else notices anything. -/
theorem Sound.hammerAlone {n : ℕ} (hn : n ≤ Pool.nil.toNat) (hold rounds : ℕ) {out : List ℕ}
    {l : Ledger} (h : l.Sound n) (hnodup : out.Nodup) (hheld : ∀ k ∈ out, k ∈ l.held.keys) :
    (l.hammerAlone hold rounds out).Sound n ∧
      ∀ k, (l.hammerAlone hold rounds out).held.find? k =
        if k ∈ out then none else l.held.find? k := by
  induction rounds generalizing out l with
  | zero => exact ⟨h.giveBackAll hn hnodup hheld, find?_giveBackAll l out⟩
  | succ rounds ih =>
    have hsound := h.take (.raw none)
    cases hfree : l.free with
    | nil =>
      rw [take_of_nil hfree] at hsound
      simp only [Ledger.hammerAlone, take_of_nil hfree]
      exact ih hsound hnodup hheld
    | cons i rest =>
      obtain ⟨hnodup', hheld'⟩ := h.out_concat (t := .raw none) hfree hnodup hheld
      have hi := Dict.find?_eq_none_iff.2 (h.not_held (i := i) (hfree ▸ List.mem_cons_self))
      have htaken : ∀ k, (if k ∈ out ++ [i.toNat] then none
          else (l.held.insert i.toNat (.raw none)).find? k) =
            if k ∈ out then none else l.held.find? k := by
        intro k
        rw [Dict.find?_insert]
        by_cases hk : k = i.toNat
        · simp [hk, hi]
        · simp [hk]
      rw [take_of_cons hfree] at hsound
      simp only [Ledger.hammerAlone, take_of_cons hfree]
      split_ifs with hfull
      · -- as many slots are out as the thread may have, and it gives all of them back
        obtain ⟨hs, hf⟩ := ih (hsound.giveBackAll hn hnodup' hheld') List.nodup_nil
          (fun k hk => absurd hk List.not_mem_nil)
        refine ⟨hs, fun k => ?_⟩
        rw [hf k, if_neg List.not_mem_nil, find?_giveBackAll, htaken]
      · obtain ⟨hs, hf⟩ := ih hsound hnodup' hheld'
        exact ⟨hs, fun k => (hf k).trans (htaken k)⟩

theorem Sound.hammer {n : ℕ} (hn : n ≤ Pool.nil.toNat) (rounds hold threads : ℕ) {l : Ledger}
    (h : l.Sound n) :
    (l.hammer rounds hold threads).Sound n ∧
      ∀ k, (l.hammer rounds hold threads).held.find? k = l.held.find? k := by
  induction threads generalizing l with
  | zero => exact ⟨h, fun _ => rfl⟩
  | succ threads ih =>
    obtain ⟨hs, hf⟩ := h.hammerAlone hn hold rounds List.nodup_nil
      (fun k hk => absurd hk List.not_mem_nil)
    obtain ⟨hs', hf'⟩ := ih hs
    refine ⟨hs', fun k => ?_⟩
    show (Ledger.hammer rounds hold threads (l.hammerAlone hold rounds [])).held.find? k = _
    rw [hf' k, hf k, if_neg List.not_mem_nil]

end Ledger
end Slab
