import Slab.Proofs.Metrics.History
import Slab.Proofs.Metrics.Registration
import Slab.Proofs.Metrics.Scraping
import Slab.Proofs.Number.Rounding

/-!
# What the text of a recorder tells

A recorder that was told some entries can be written, and what is read from its text are the numbers
that it remembers.

* `lastSet`, `Told`: the word that a gauge was last set to, and the totals that were told;
* `times`, `within`: the times of cycles that were told, and how many of them a bound covers;
* `covered_run`, `count_run`: every bound counts them, although a recorder compares rounded numbers;
* `integerText_eq`, `naturalText_eq`: up to `2 ^ 53` numbers are written in full;
* `value?_families`, `value?_alone`, `value?_cycles`: where a value is found;
* `Shows l fs`: what families must tell after the entries `l`;
* `exposition_shows`: **the text of a recorder tells just that**.
-/

namespace Slab.Metrics

/-! ### Gauges and totals -/

/-- The word that a gauge was last set to, or 0. -/
def lastSet (l : List Entry) (g : Gauge) : UInt64 := (l.filterMap (Entry.set? g)).getLast?.getD 0

/-- The values of a total that were told, and the 0 that it starts from. -/
def Told (l : List Entry) (c : Total) : Set ℕ :=
  insert 0 {n | ∃ seen ∈ l.filterMap (Entry.seen? c), n = seen.toNat}

/-- What a gauge shows is what it was last set to. -/
theorem gauge_run (l : List Entry) (g : Gauge) :
    gauge ((Recorder.run {} l).word g) = signed (lastSet l g) := by
  rw [gauge_eq_signed, word_run, lastSet]

/-- Where no total is told beyond a bound, none is remembered beyond it. -/
theorem total_run_le {l : List Entry} {c : Total} {b : ℕ} (h : ∀ n ∈ Told l c, n ≤ b) :
    ((Recorder.run {} l).total c).toNat ≤ b :=
  h _ (isGreatest_total l c).1

/-! ### Times of cycles -/

/-- The times of the cycles that were told. -/
def times (l : List Entry) : List UInt64 := l.filterMap Entry.time?

/-- How many of them are no longer than a bound. -/
def within (l : List Entry) (b : ℕ) : ℕ := (times l).countP fun t => t.toNat ≤ b

section

variable (l : List Entry)

theorem times_concat (e : Entry) : times (l ++ [e]) = times l ++ e.time?.toList := by
  rw [times, List.filterMap_append]
  cases h : e.time? <;> simp [times, h]

theorem within_concat (e : Entry) (b : ℕ) :
    within (l ++ [e]) b = within l b + e.time?.toList.countP fun t => t.toNat ≤ b := by
  rw [within, times_concat, List.countP_append]
  rfl

theorem within_le (b : ℕ) : within l b ≤ (times l).length := List.countP_le_length

theorem within_mono {a b : ℕ} (h : a ≤ b) : within l a ≤ within l b := by
  refine List.countP_mono_left fun t _ ht => ?_
  simp only [decide_eq_true_eq] at ht ⊢
  exact Nat.le_trans ht h

theorem lt_of_mem_cycleBounds : ∀ b ∈ cycleBounds, b < 2 ^ 53 := by decide

/-- A bound counts the times that are no longer, as whole numbers. -/
theorem covered_run : (Recorder.run {} l).cycles.covered =
    cycleBounds.map fun b => (b, UInt64.ofNat (within l b)) := by
  induction l using List.reverseRecOn with
  | nil => rfl
  | append_singleton l e ih =>
    rw [Recorder.run_concat, Recorder.cycles_record]
    simp only [within_concat]
    cases e.time? with
    | none => simpa using ih
    | some t =>
      simp only [Histogram.observe, ih, List.map_map]
      refine List.map_congr_left fun b hb => ?_
      have hle := Binary64.le_ofNat_iff t.toNat_lt (lt_of_mem_cycleBounds b hb)
      by_cases ht : t.toNat ≤ b
      · simp [hle.2 ht, ht, UInt64.ofNat_add]
      · simp [mt hle.1 ht, ht]

/-- As many cycles are counted as were told. -/
theorem count_run : (Recorder.run {} l).cycles.count = UInt64.ofNat (times l).length := by
  induction l using List.reverseRecOn with
  | nil => rfl
  | append_singleton l e ih =>
    rw [Recorder.run_concat, Recorder.cycles_record, times_concat]
    cases e.time? with
    | none => simpa using ih
    | some t => simp [Histogram.observe, ih, UInt64.ofNat_add]

end

/-! ### Numbers -/

/-- Natural numbers up to `2 ^ 53` are written in full. -/
theorem naturalText_eq {n : ℕ} (h : n ≤ 2 ^ 53) : naturalText n = Numeral.decimal n :=
  (Binary64.plainText_ofRatio false h).trans (String.empty_append)

/-- Integers up to `2 ^ 53` in magnitude are written in full. -/
theorem integerText_eq {i : ℤ} (h : i.natAbs ≤ 2 ^ 53) :
    integerText i = Numeral.signedDecimal i := by
  have htext : integerText i = Binary64.signText (i < 0) ++ Numeral.decimal i.natAbs :=
    Binary64.plainText_ofRatio _ h
  rw [htext, Numeral.signedDecimal]
  split_ifs with hi
  · rw [decide_eq_true hi]
    rfl
  · have habs : i.natAbs = i.toNat := by omega
    rw [decide_eq_false hi, habs]
    exact String.empty_append

theorem signed?_integerText {i : ℤ} (h : i.natAbs ≤ 2 ^ 53) :
    Numeral.signed? (integerText i).toList = some i := by
  rw [integerText_eq h]
  exact Numeral.signed?_signedDecimal (Nat.lt_of_le_of_lt h (by decide))

theorem signed?_naturalText {n : ℕ} (h : n ≤ 2 ^ 53) :
    Numeral.signed? (naturalText n).toList = some (n : ℤ) := by
  rw [naturalText_eq h]
  exact Numeral.signed?_signedDecimal (i := n) (Nat.lt_of_le_of_lt h (by decide))

/-! ### Values under their names -/

/-- Where a value is found: among the samples of the family with the name. -/
theorem value?_families (r : Recorder) (m : Metric) (name : String) (bound : Option String) :
    Scrape.value? (r.families.map Family.reading) m.name name bound =
      (((r.values m).samples m.name).find? fun s => s.name == name && s.bound == bound).map
        Sample.value := by
  have hfind : ∀ m ∈ Metric.all, Metric.all.find? (fun m' => m'.name == m.name) = some m := by
    decide
  have hfamily : (r.families.map Family.reading).find? (fun f => f.name == m.name) =
      some (r.family m).reading := by
    rw [Recorder.families, List.map_map, List.find?_map]
    exact congrArg (Option.map (Family.reading ∘ r.family)) (hfind m (mem_all m))
  rw [Scrape.value?, hfamily]
  rfl

/-- The only sample of a family is found under the name of the family. -/
theorem value?_alone {r : Recorder} {m : Metric} {v : String}
    (h : (r.values m).samples m.name = [⟨m.name, none, v⟩]) :
    Scrape.value? (r.families.map Family.reading) m.name m.name none = some v := by
  rw [value?_families, h, List.find?_cons_of_pos]
  · rfl
  · rw [beq_self_eq_true, beq_self_eq_true, Bool.and_self]

/-- The name of the samples that a bound covers. -/
def bucketsName : String := cyclesName ++ "_bucket"

/-- The name of the number of samples. -/
def countName : String := cyclesName ++ "_count"

/-- The values that bounds cover are found under these bounds. -/
theorem find?_bucket {bounds : List ℕ} (hbounds : ∀ b ∈ bounds, b ≤ 2 ^ 53) {b : ℕ}
    (hb : b ∈ bounds) (name : String) (v : ℕ → String) (l : List Sample) :
    ((bounds.map fun a => (⟨name, some (naturalText a), v a⟩ : Sample)) ++ l).find?
      (fun s => s.name == name && s.bound == some (Numeral.decimal b)) =
      some ⟨name, some (naturalText b), v b⟩ := by
  induction bounds with
  | nil => cases hb
  | cons a bounds ih =>
    rw [List.forall_mem_cons] at hbounds
    have ha := naturalText_eq hbounds.1
    rw [List.map_cons, List.cons_append]
    by_cases hab : a = b
    · subst hab
      rw [List.find?_cons_of_pos]
      simp [ha]
    · rw [List.find?_cons_of_neg]
      · exact ih hbounds.2 ((List.mem_cons.1 hb).resolve_left (Ne.symm hab))
      · simpa [ha] using fun he => hab (Numeral.decimal_injective he)

/-- What bounds cover is passed over by who looks for something else. -/
theorem find?_not_bucket {bounds : List ℕ} (name : String) (v : ℕ → String) (l : List Sample)
    {p : Sample → Bool} (hp : ∀ a ∈ bounds, p ⟨name, some (naturalText a), v a⟩ = false) :
    ((bounds.map fun a => (⟨name, some (naturalText a), v a⟩ : Sample)) ++ l).find? p =
      l.find? p := by
  rw [List.find?_append, List.find?_eq_none.2, Option.none_or]
  intro s hs
  obtain ⟨a, ha, rfl⟩ := List.mem_map.1 hs
  simp [hp a ha]

/-- A text of digits is not the one that stands for no bound. -/
theorem decimal_ne_infinity (n : ℕ) : Numeral.decimal n ≠ "+Inf" := by
  intro h
  have hmem : '+' ∈ (Numeral.decimal n).toList := by
    rw [h]
    decide
  exact absurd (Numeral.isDigit_of_mem_decimal hmem) (by decide)

section

variable (l : List Entry)

/-- What is read of the times of cycles. -/
theorem samples_run : ((Recorder.run {} l).values .cycles).samples cyclesName =
    (cycleBounds.map fun b =>
      ⟨bucketsName, some (naturalText b), naturalText (within l b % UInt64.size)⟩) ++
    [⟨bucketsName, some "+Inf", naturalText ((times l).length % UInt64.size)⟩,
      ⟨cyclesName ++ "_sum", none, (Recorder.run {} l).cycles.sum.plainText⟩,
      ⟨countName, none, naturalText ((times l).length % UInt64.size)⟩] := by
  have hword (n : ℕ) : (UInt64.ofNat n).toNat = n % UInt64.size := UInt64.toNat_ofNat
  simp only [Recorder.values, Values.samples, covered_run, count_run, List.map_map,
    Function.comp_def, hword]
  rfl

/-- Where a value is found among what is read of the times of cycles. -/
theorem value?_cycles (name : String) (bound : Option String) :
    Scrape.value? ((Recorder.run {} l).families.map Family.reading) cyclesName name bound =
      ((((Recorder.run {} l).values .cycles).samples cyclesName).find? fun s =>
        s.name == name && s.bound == bound).map Sample.value :=
  value?_families _ .cycles name bound

end

/-! ### The whole text -/

/-- A number of cycles is shown under a name: as every number is, and in full up to `2 ^ 53`. -/
structure Tells (fs : List Reading) (name : String) (bound : Option String) (n : ℕ) : Prop where
  text : Scrape.value? fs cyclesName name bound = some (naturalText (n % UInt64.size))
  number : n ≤ 2 ^ 53 → Scrape.number? fs cyclesName name bound = some (n : ℤ)

theorem tells_of_text {fs : List Reading} {name : String} {bound : Option String} {n : ℕ}
    (h : Scrape.value? fs cyclesName name bound = some (naturalText (n % UInt64.size))) :
    Tells fs name bound n where
  text := h
  number hn := by
    rw [Nat.mod_eq_of_lt (Nat.lt_of_le_of_lt hn (by decide))] at h
    rw [Scrape.number?, h]
    exact signed?_naturalText hn

/-- What families must tell about a recorder that was told some entries. -/
structure Shows (l : List Entry) (fs : List Reading) : Prop where
  /-- There are eight families, -/
  names : fs.map Reading.name =
    ["hotpool_arena_bytes", "hotpool_cycle_latency_ns", "hotpool_pool_acquired_total",
      "hotpool_pool_capacity", "hotpool_pool_contended_total", "hotpool_pool_exhausted_total",
      "hotpool_pool_in_use", "hotpool_pool_released_total"]
  /-- in the order of their names. -/
  ascending : (fs.map Reading.name).Pairwise (· < ·)
  /-- A gauge shows the last value that it was set to, -/
  gauge : ∀ g, Scrape.number? fs g.name g.name none = some (signed (lastSet l g))
  /-- and a total the largest one that was told. -/
  total : ∀ c, ∃ n, IsGreatest (Told l c) n ∧
    Scrape.number? fs c.name c.name none = some (n : ℤ)
  /-- Every bound covers the times that are no longer, and no bound all of them. -/
  bucket : ∀ b ∈ cycleBounds, Tells fs bucketsName (some (Numeral.decimal b)) (within l b)
  all : Tells fs bucketsName (some "+Inf") (times l).length
  count : Tells fs countName none (times l).length
  /-- From bound to bound the numbers never fall. -/
  rises : (times l).length ≤ 2 ^ 53 → ∃ v : List ℤ, v.Pairwise (· ≤ ·) ∧
    ((cycleBounds.map Numeral.decimal ++ ["+Inf"]).map fun bound =>
      Scrape.number? fs cyclesName bucketsName (some bound)) = v.map some

section

variable {l : List Entry}

theorem readable_family (r : Recorder) : ∀ f ∈ r.families, Readable f := by
  have hname : ∀ m ∈ Metric.all, Plain m.name := by decide
  have hhelp : ∀ m ∈ Metric.all, '\n' ∉ m.help.toList := by decide
  intro f hf
  obtain ⟨m, hm, rfl⟩ := List.mem_map.1 hf
  exact ⟨hname m hm, hhelp m hm⟩

theorem number?_gauge {r : Recorder} (g : Gauge) (h : (gauge (r.word g)).natAbs ≤ 2 ^ 53) :
    Scrape.number? (r.families.map Family.reading) g.name g.name none =
      some (gauge (r.word g)) := by
  have hvalue : Scrape.value? (r.families.map Family.reading) g.name g.name none =
      some (integerText (gauge (r.word g))) := value?_alone (m := .gauge g) rfl
  rw [Scrape.number?, hvalue]
  exact signed?_integerText h

theorem number?_total {r : Recorder} (c : Total) (h : (r.total c).toNat ≤ 2 ^ 53) :
    Scrape.number? (r.families.map Family.reading) c.name c.name none =
      some ((r.total c).toNat : ℤ) := by
  have hvalue : Scrape.value? (r.families.map Family.reading) c.name c.name none =
      some (naturalText (r.total c).toNat) := value?_alone (m := .total c) rfl
  rw [Scrape.number?, hvalue]
  exact signed?_naturalText h

theorem le_of_mem_cycleBounds : ∀ b ∈ cycleBounds, b ≤ 2 ^ 53 :=
  fun b hb => Nat.le_of_lt (lt_of_mem_cycleBounds b hb)

theorem tells_bucket {b : ℕ} (hb : b ∈ cycleBounds) :
    Tells ((Recorder.run {} l).families.map Family.reading) bucketsName (some (Numeral.decimal b))
      (within l b) := by
  apply tells_of_text
  rw [value?_cycles, samples_run, find?_bucket le_of_mem_cycleBounds hb]
  rfl

theorem tells_all :
    Tells ((Recorder.run {} l).families.map Family.reading) bucketsName (some "+Inf")
      (times l).length := by
  apply tells_of_text
  rw [value?_cycles, samples_run, find?_not_bucket]
  · simp
  · intro a ha
    simp [naturalText_eq (le_of_mem_cycleBounds a ha), decimal_ne_infinity]

theorem tells_count :
    Tells ((Recorder.run {} l).families.map Family.reading) countName none (times l).length := by
  have hbuckets : (bucketsName == countName) = false := by decide
  have hsum : (cyclesName ++ "_sum" == countName) = false := by decide
  apply tells_of_text
  rw [value?_cycles, samples_run, find?_not_bucket]
  · simp [hbuckets, hsum]
  · intro a _
    simp [hbuckets]

/-- The numbers of covered times and of all times, in the order of the bounds. -/
theorem pairwise_within (l : List Entry) :
    ((cycleBounds.map (within l)) ++ [(times l).length]).Pairwise (· ≤ ·) := by
  rw [List.pairwise_append, List.pairwise_map]
  refine ⟨?_, List.pairwise_singleton _ _, ?_⟩
  · have hbounds : cycleBounds.Pairwise (· ≤ ·) := by decide
    exact hbounds.imp fun h => within_mono l h
  · intro a ha b hb
    obtain ⟨c, -, rfl⟩ := List.mem_map.1 ha
    rw [List.mem_singleton.1 hb]
    exact within_le l c

/-- What is read from bound to bound. -/
theorem numbers_of_bounds (h : (times l).length ≤ 2 ^ 53) :
    ((cycleBounds.map Numeral.decimal ++ ["+Inf"]).map fun bound =>
      Scrape.number? ((Recorder.run {} l).families.map Family.reading) cyclesName bucketsName
        (some bound)) =
      (((cycleBounds.map (within l)) ++ [(times l).length]).map Nat.cast).map some := by
  have hbucket (b) (hb : b ∈ cycleBounds) :=
    (tells_bucket (l := l) hb).number (Nat.le_trans (within_le l b) h)
  have hall := (tells_all (l := l)).number h
  simp only [List.map_append, List.map_map, List.map_cons, List.map_nil, hall]
  exact congrArg (· ++ _) (List.map_congr_left hbucket)

/-- **A recorder can be written whatever it was told, and its text tells what it was told.** -/
theorem exposition_shows (l : List Entry) (hgauge : ∀ g, (signed (lastSet l g)).natAbs ≤ 2 ^ 53)
    (htotal : ∀ c, ∀ n ∈ Told l c, n ≤ 2 ^ 53) :
    ∃ text fs, (Recorder.run {} l).gather = .ok text ∧ Scrape.read? text = some fs ∧
      Shows l fs := by
  have hbounds : isAscending ((Recorder.run {} l).cycles.covered.map Prod.fst) = true := by
    have hfst : ((Recorder.run {} l).cycles.covered.map Prod.fst) = cycleBounds := by
      rw [covered_run, List.map_map]
      exact List.map_id _
    rw [hfst]
    decide
  refine ⟨_, (Recorder.run {} l).families.map Family.reading, Recorder.gather_eq hbounds,
    Scrape.read?_textOf (readable_family _), ?_⟩
  exact
    { names := rfl
      ascending := by
        rw [List.map_map]
        exact ascending_names
      gauge := fun g => by
        rw [← gauge_run]
        exact number?_gauge g (gauge_run l g ▸ hgauge g)
      total := fun c => ⟨_, isGreatest_total l c, number?_total c (total_run_le (htotal c))⟩
      bucket := fun b hb => tells_bucket hb
      all := tells_all
      count := tells_count
      rises := fun hlength =>
        ⟨_, List.pairwise_map.2 ((pairwise_within l).imp Int.ofNat_le.2),
          numbers_of_bounds hlength⟩ }

end

/-- A pool is built anew, and its totals fall, after they reached the limit; the shortest and the
longest time that there can be. -/
def rebuilt : List Entry :=
  [.arena 65536, .cycle 0,
    .pool { capacity := 64, inUse := 3, acquired := 9007199254740992, released := 7 },
    .cycle 18446744073709551615, .pool { capacity := 64, inUse := 2, acquired := 5 }]

theorem exposition_shows_rebuilt :
    (∀ g, (signed (lastSet rebuilt g)).natAbs ≤ 2 ^ 53) ∧
      (∀ c, ∀ n ∈ Told rebuilt c, n ≤ 2 ^ 53) ∧
      (Recorder.run {} rebuilt).total .acquired = 9007199254740992 ∧
      cycleBounds.map (within rebuilt) = [1, 1, 1, 1, 1, 1] ∧ (times rebuilt).length = 2 ∧
      ∃ text fs, (Recorder.run {} rebuilt).gather = .ok text ∧ Scrape.read? text = some fs ∧
        Shows rebuilt fs := by
  have hgauge : ∀ g, (signed (lastSet rebuilt g)).natAbs ≤ 2 ^ 53 := by
    intro g
    cases g <;> decide +kernel
  have htotal : ∀ c, ∀ n ∈ Told rebuilt c, n ≤ 2 ^ 53 := by
    intro c n hn
    have hseen : (rebuilt.filterMap (Entry.seen? c)).all (fun seen => seen.toNat ≤ 2 ^ 53) := by
      cases c <;> decide +kernel
    rcases hn with rfl | ⟨seen, hmem, rfl⟩
    · exact Nat.zero_le _
    · exact of_decide_eq_true (List.all_eq_true.1 hseen seen hmem)
  exact ⟨hgauge, htotal, by decide +kernel, by decide, rfl, exposition_shows rebuilt hgauge htotal⟩

end Slab.Metrics
