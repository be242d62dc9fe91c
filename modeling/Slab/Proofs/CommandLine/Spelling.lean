import Mathlib.Data.List.Perm.Basic
import Slab.CommandLine.Reader
import Slab.Proofs.Numeral

/-!
# Spellings of a request

A request can be written in many ways: its options in any order, each by its name or by its letter,
with the value in the same argument or in the next one, and the file of settings before the command
or after it. All of them are read as the request.

* `Item`, `Item.Text`: an option with its value, and the texts of the value;
* `Names`, `Written`, `Spelled`: the arguments by which an option is named, those that write it with
  its value, and those that write several options;
* `Spells r args`: the arguments that write the request, of which there are some;
* `values`: the values that options give, whatever their order, with `values_assign`;
* `Passes`, `passes_spelled`: arguments that are read one after another, and that those which write
  options are;
* `read_by_spelling`: **every spelling of a request is read as the request**, and of no other.
-/

namespace Slab.CommandLine

/-! ### Spellings -/

/-- An option with its value. -/
inductive Item
  | config (path : String)
  | threads (n : UInt64)
  | iterations (n : UInt64)
  deriving DecidableEq, Repr

namespace Item

/-- The option itself. -/
def opt : Item → Opt
  | config _ => .config
  | threads _ => .threads
  | iterations _ => .iterations

/-- A path is its own text. A number has any decimal numeral for it, zeros in front or not. -/
def Text : Item → String → Prop
  | config path, v => v = path
  | threads n, v | iterations n, v =>
    Numeral.Digits v.toList ∧ Nat.ofDigitChars 10 v.toList 0 = n.toNat

/-- The path, if the option is the one for the file of settings. -/
def path? : Item → Option String
  | config path => some path
  | _ => none

/-- The number of workers, if the option is the one for it. -/
def threads? : Item → Option UInt64
  | threads n => some n
  | _ => none

/-- The number of cycles, if the option is the one for it. -/
def iterations? : Item → Option UInt64
  | iterations n => some n
  | _ => none

end Item

/-- The arguments by which an option is named, with its value in the same argument or without. -/
inductive Names (o : Opt) : Option String → String → Prop
  | letter : Names o none ("-" ++ String.singleton o.letter)
  | long : Names o none ("--" ++ o.long)
  | letterWith (v : String) : Names o (some v) ("-" ++ String.singleton o.letter ++ "=" ++ v)
  | longWith (v : String) : Names o (some v) ("--" ++ o.long ++ "=" ++ v)

/-- The arguments that write an option with a value. -/
inductive Written (o : Opt) (v : String) : List String → Prop
  | apart {arg : String} (h : Names o none arg) : Written o v [arg, v]
  | joined {arg : String} (h : Names o (some v) arg) : Written o v [arg]

/-- The arguments that write several options one after another. -/
inductive Spelled : List Item → List String → Prop
  | nil : Spelled [] []
  | cons {i : Item} {is : List Item} {v : String} {args rest : List String} (hv : i.Text v)
      (hargs : Written i.opt v args) (hrest : Spelled is rest) : Spelled (i :: is) (args ++ rest)

end CommandLine

/-- The name of a command. -/
def Command.name : Command → String
  | run _ => "run"
  | topology => "topology"
  | check => "check"

/-- The options of a command with their values. -/
def Command.items : Command → List CommandLine.Item
  | run o => (o.threads.map .threads).toList ++ (o.iterations.map .iterations).toList
  | topology | check => []

/-- The options of a request with their values. -/
def Request.items (r : Request) : List CommandLine.Item :=
  (r.config.map .config).toList ++ r.command.items

/-- A path that is not empty and does not look like an option. -/
structure CommandLine.Named (path : String) : Prop where
  ne_empty : path ≠ ""
  head?_ne : path.toList.head? ≠ some '-'

/-- The file of settings, if one is named, can be named in every way. -/
def Request.Nameable (r : Request) : Prop := ∀ path ∈ r.config, CommandLine.Named path

namespace CommandLine

variable {l : Level} {p p' q : Progress} {o : Opt} {i : Item} {is js : List Item} {v : String}
  {args rest : List String}

/-- The arguments that write a request: the name of the command, and the options in any order, those
of the command after the name. -/
def Spells (r : Request) (args : List String) : Prop :=
  ∃ is js front back, Spelled is front ∧ Spelled js back ∧ (is ++ js).Perm r.items ∧
    (∀ i ∈ is, i.opt = .config) ∧ args = front ++ r.command.name :: back

theorem exists_text (i : Item) : ∃ v, i.Text v := by
  cases i with
  | config path => exact ⟨path, rfl⟩
  | threads n | iterations n =>
    exact ⟨_, Numeral.digits_decimal n.toNat, Numeral.ofDigitChars_decimal n.toNat⟩

theorem exists_spelled (is : List Item) : ∃ args, Spelled is args := by
  induction is with
  | nil => exact ⟨[], .nil⟩
  | cons i is ih =>
    obtain ⟨v, hv⟩ := exists_text i
    obtain ⟨args, hargs⟩ := ih
    exact ⟨_, .cons hv (.apart .long) hargs⟩

/-- Every request can be written. -/
theorem exists_spells (r : Request) : ∃ args, Spells r args := by
  obtain ⟨args, hargs⟩ := exists_spelled r.items
  exact ⟨_, [], r.items, [], args, .nil, hargs, .refl _, by simp, rfl⟩

/-- The text of a value does not look like an option. -/
theorem Item.Text.head?_ne (h : i.Text v) (hpath : ∀ path ∈ i.path?, Named path) :
    v.toList.head? ≠ some '-' := by
  cases i with
  | config path =>
    cases h
    exact (hpath v rfl).head?_ne
  | threads n | iterations n =>
    intro hdash
    have hdigit := h.1.isDigit '-' (List.mem_of_mem_head? hdash)
    exact absurd hdigit (by decide)

/-! ### The values of options -/

/-- The values that options give, of one that stands twice the first. -/
def values (is : List Item) : Progress where
  config := (is.filterMap Item.path?).head?
  threads := (is.filterMap Item.threads?).head?
  iterations := (is.filterMap Item.iterations?).head?

theorem Item.path?_eq_none (h : i.opt ≠ .config) : i.path? = none := by
  cases i <;> first | rfl | exact absurd rfl h

theorem Item.threads?_eq_none (h : i.opt ≠ .threads) : i.threads? = none := by
  cases i <;> first | rfl | exact absurd rfl h

theorem Item.iterations?_eq_none (h : i.opt ≠ .iterations) : i.iterations? = none := by
  cases i <;> first | rfl | exact absurd rfl h

theorem number_of_digits {n : UInt64} (h : Numeral.Digits v.toList)
    (hn : Nat.ofDigitChars 10 v.toList 0 = n.toNat) : Progress.number o v = .ok n := by
  have hread : Numeral.unsigned? UInt64.size v.toList = some n.toNat :=
    Numeral.unsigned?_eq_some_iff.2 ⟨[], _, rfl, .inl rfl, h, hn, n.toNat_lt⟩
  rw [Progress.number, hread]
  exact congrArg _ (UInt64.ofNat_toNat)

/-- An option that has not stood before gives its value. -/
theorem values_assign (hnew : ∀ j ∈ is, j.opt ≠ i.opt) (hv : i.Text v)
    (hpath : ∀ path ∈ i.path?, Named path) :
    (values is).assign i.opt v = .ok (values (is ++ [i])) := by
  cases i with
  | config path =>
    cases hv
    have hnone : is.filterMap Item.path? = [] :=
      List.filterMap_eq_nil_iff.2 fun j hj => Item.path?_eq_none (hnew j hj)
    have hne := (hpath v rfl).ne_empty
    simp [Progress.assign, Progress.has, values, Item.opt, Item.path?, Item.threads?,
      Item.iterations?, hnone, hne]
  | threads n =>
    have hnone : is.filterMap Item.threads? = [] :=
      List.filterMap_eq_nil_iff.2 fun j hj => Item.threads?_eq_none (hnew j hj)
    have hnumber := number_of_digits (o := .threads) hv.1 hv.2
    simp [Progress.assign, Progress.has, values, Item.opt, Item.path?, Item.threads?,
      Item.iterations?, hnone, hnumber, Except.map]
  | iterations n =>
    have hnone : is.filterMap Item.iterations? = [] :=
      List.filterMap_eq_nil_iff.2 fun j hj => Item.iterations?_eq_none (hnew j hj)
    have hnumber := number_of_digits (o := .iterations) hv.1 hv.2
    simp [Progress.assign, Progress.has, values, Item.opt, Item.path?, Item.threads?,
      Item.iterations?, hnone, hnumber, Except.map]

/-! ### One option -/

theorem find?_of_injective {α β : Type} [DecidableEq β] {f : α → β} (hf : f.Injective) {x : α}
    {xs : List α} (h : x ∈ xs) : (xs.find? fun y => f y == f x) = some x := by
  induction xs with
  | nil => cases h
  | cons y ys ih =>
    by_cases hy : y = x
    · rw [List.find?_cons_of_pos (by simp [hy]), hy]
    · rw [List.find?_cons_of_neg (by simpa using fun he => hy (hf he))]
      exact ih ((List.mem_cons.1 h).resolve_left (Ne.symm hy))

theorem long_injective : Function.Injective Opt.long := by
  intro o o' h
  cases o <;> cases o' <;> first | rfl | exact absurd h (by decide)

theorem letter_injective : Function.Injective Opt.letter := by
  intro o o' h
  cases o <;> cases o' <;> first | rfl | exact absurd h (by decide)

theorem equals_not_mem_long (o : Opt) : '=' ∉ o.long.toList := by
  cases o <;> decide

/-- The rest of an argument after the name of an option. -/
def ending : Option String → List Char
  | none => []
  | some v => '=' :: v.toList

theorem readLong_long (ho : o ∈ l.options) (p : Progress) (attached : Option String) :
    readLong l p (o.long.toList ++ ending attached) = p.option o attached := by
  cases attached with
  | none =>
    have hcut := Text.cutFirst_eq_none_iff.2 (equals_not_mem_long o)
    simp only [readLong, ending, List.append_nil, hcut, String.ofList_toList,
      find?_of_injective long_injective ho]
  | some v =>
    have hcut := Text.cutFirst_append (equals_not_mem_long o) v.toList
    simp only [readLong, ending, hcut, String.ofList_toList,
      find?_of_injective long_injective ho]

theorem readShort_letter (ho : o ∈ l.options) (p : Progress) (attached : Option String) :
    readShort l p o.letter (ending attached) = p.option o attached := by
  cases attached <;>
    simp only [readShort, ending, find?_of_injective letter_injective ho, String.ofList_toList]

theorem Names.toList_eq {attached : Option String} {arg : String} (h : Names o attached arg) :
    arg.toList = '-' :: o.letter :: ending attached ∨
      arg.toList = '-' :: '-' :: (o.long.toList ++ ending attached) := by
  cases h with
  | letter | letterWith v => exact .inl (by simp [ending])
  | long | longWith v => exact .inr (by simp [ending])

/-- An argument that names an option does not end the options. -/
theorem Names.ne_endOfOptions {attached : Option String} {arg : String}
    (h : Names o attached arg) : arg ≠ endOfOptions := by
  intro harg
  have hlist : arg.toList = ['-', '-'] := by rw [harg]; rfl
  rcases h.toList_eq with he | he
  · rw [hlist] at he
    cases o <;> exact absurd (List.cons.inj (List.cons.inj he).2).1 (by decide)
  · rw [hlist] at he
    have hnil := (List.append_eq_nil_iff.1 (List.cons.inj (List.cons.inj he).2).2.symm).1
    cases o <;> exact absurd hnil (by decide)

/-- An argument that begins like an option is not the name of a command. -/
theorem topic?_of_dash {arg : String} (h : arg.toList.head? = some '-') : topic? arg = none := by
  have hnames : ∀ x ∈ commandNames, x.1.toList.head? ≠ some '-' := by decide
  rw [topic?, Option.map_eq_none_iff, List.find?_eq_none]
  intro x hx he
  exact hnames x hx (beq_iff_eq.1 he ▸ h)

theorem Names.topic?_eq {attached : Option String} {arg : String} (h : Names o attached arg) :
    topic? arg = none := by
  refine topic?_of_dash ?_
  rcases h.toList_eq with he | he <;> rw [he] <;> rfl

theorem Names.readWord_eq {attached : Option String} {arg : String} (h : Names o attached arg)
    (ho : o ∈ l.options) (p : Progress) :
    readWord l p arg = (p.option o attached).map some := by
  rcases h.toList_eq with he | he
  · have hread := readShort_letter ho p attached
    unfold readWord
    rw [he]
    cases o <;> exact congrArg (Except.map some) hread
  · simp only [readWord, he, readLong_long ho]

/-- An option that waits takes any argument for its value that does not look like an option. -/
theorem readWord_of_waiting (hv : v.toList.head? ≠ some '-') (hp : p.pending = some (o, none)) :
    readWord l p v = .ok (some { p with pending := some (o, some v) }) := by
  unfold readWord
  split
  · rename_i he
    rw [he] at hv
    exact absurd rfl hv
  · rename_i he
    rw [he] at hv
    exact absurd rfl hv
  · rw [hp]

/-! ### One argument after another -/

/-- Arguments that are read one after another, from one progress to another. -/
inductive Passes (l : Level) : Progress → List String → Progress → Prop
  | nil {p : Progress} : Passes l p [] p
  | cons {p p' q : Progress} {arg : String} {args : List String} (hend : arg ≠ endOfOptions)
      (hname : p.isWaiting = true ∨ topic? arg = none) (hword : readWord l p arg = .ok (some p'))
      (h : Passes l p' args q) : Passes l p (arg :: args) q

theorem Passes.append (h : Passes l p args p') (h' : Passes l p' rest q) :
    Passes l p (args ++ rest) q := by
  induction h with
  | nil => exact h'
  | cons hend hname hword _ ih => exact .cons hend hname hword (ih h')

theorem Passes.readCommand_eq (h : Passes l p args p') (rest : List String) :
    readCommand l p (args ++ rest) = readCommand l p' rest := by
  induction h with
  | nil => rfl
  | cons hend _ hword _ ih =>
    rw [List.cons_append, readCommand.eq_def]
    dsimp only
    rw [if_neg hend, hword]
    exact ih

theorem Passes.readProgram_eq (h : Passes programLevel p args p') (rest : List String) :
    readProgram p (args ++ rest) = readProgram p' rest := by
  induction h with
  | nil => rfl
  | @cons p _ _ arg _ hend hname hword _ ih =>
    have hnone : (if p.isWaiting then none else topic? arg) = none := by
      rcases hname with hwaiting | hname
      · exact if_pos hwaiting
      · rw [hname, ite_self]
    rw [List.cons_append, readProgram.eq_def]
    dsimp only
    rw [hnone]
    dsimp only
    rw [if_neg hend, hword]
    exact ih

/-- One option with its value. -/
theorem passes_written (hp : p.settle = .ok (values is)) (ho : i.opt ∈ l.options)
    (hnew : ∀ j ∈ is, j.opt ≠ i.opt) (hv : i.Text v) (hpath : ∀ path ∈ i.path?, Named path)
    (hargs : Written i.opt v args) :
    ∃ p', Passes l p args p' ∧ p'.settle = .ok (values (is ++ [i])) := by
  have hassign := values_assign hnew hv hpath
  cases hargs with
  | @apart arg h =>
    -- the value stays unchecked until the next option or the end, so only `settle` sees it
    let waiting : Progress := { values is with pending := some (i.opt, none) }
    have hdash := hv.head?_ne hpath
    have hend : v ≠ endOfOptions := by
      rintro rfl
      exact hdash rfl
    have hoption : readWord l p arg = .ok (some waiting) := by
      rw [h.readWord_eq ho, Progress.option, hp]
      rfl
    have hvalue := readWord_of_waiting (l := l) (p := waiting) hdash rfl
    exact ⟨_, .cons h.ne_endOfOptions (.inr h.topic?_eq) hoption
      (.cons hend (.inl rfl) hvalue .nil), hassign⟩
  | @joined arg h =>
    have hoption : readWord l p arg = .ok (some (values (is ++ [i]))) := by
      rw [h.readWord_eq ho, Progress.option, hp]
      dsimp only
      rw [hassign]
      rfl
    exact ⟨_, .cons h.ne_endOfOptions (.inr h.topic?_eq) hoption .nil, rfl⟩

/-- Several options, if none stands twice. -/
theorem passes_append (h : Spelled js args) (hp : p.settle = .ok (values is))
    (ho : ∀ j ∈ js, j.opt ∈ l.options) (hnodup : ((is ++ js).map Item.opt).Nodup)
    (hpath : ∀ j ∈ js, ∀ path ∈ j.path?, Named path) :
    ∃ p', Passes l p args p' ∧ p'.settle = .ok (values (is ++ js)) := by
  induction h generalizing p is with
  | nil => exact ⟨p, .nil, by rwa [List.append_nil]⟩
  | @cons i js v args rest hv hargs _ ih =>
    have hnew : ∀ j ∈ is, j.opt ≠ i.opt := by
      rw [List.map_append, List.nodup_append] at hnodup
      exact fun j hj => hnodup.2.2 _ (List.mem_map_of_mem hj) _ List.mem_cons_self
    obtain ⟨p', hpass, hp'⟩ := passes_written hp (ho i List.mem_cons_self) hnew hv
      (hpath i List.mem_cons_self) hargs
    have hsplit : is ++ i :: js = is ++ [i] ++ js := by simp
    rw [hsplit] at hnodup ⊢
    obtain ⟨q, hrest, hq⟩ := ih hp' (fun j hj => ho j (List.mem_cons_of_mem i hj)) hnodup
      (fun j hj => hpath j (List.mem_cons_of_mem i hj))
    exact ⟨q, hpass.append hrest, hq⟩

/-- **Arguments that write options are read**, if no option stands twice. -/
theorem passes_spelled (l : Level) (h : Spelled is args) (ho : ∀ i ∈ is, i.opt ∈ l.options)
    (hnodup : (is.map Item.opt).Nodup) (hpath : ∀ i ∈ is, ∀ path ∈ i.path?, Named path) :
    ∃ p, Passes l {} args p ∧ p.settle = .ok (values is) := by
  have hstart : ({} : Progress).settle = .ok (values []) := rfl
  exact passes_append h hstart ho hnodup hpath

/-! ### The request -/

/-- The command as there is help on it. -/
def topicOf : Command → Topic
  | .run _ => .run
  | .topology => .topology
  | .check => .check

theorem topic?_name (c : Command) : topic? c.name = some (topicOf c) := by
  cases c <;> rfl

theorem topicOf_ne_help (c : Command) : topicOf c ≠ .help := by
  cases c <;> exact nofun

variable {r : Request}

/-- A command knows the options of its requests. -/
theorem opt_mem_options (hi : i ∈ r.items) :
    i.opt ∈ (commandLevel (topicOf r.command)).options := by
  obtain ⟨config, command⟩ := r
  cases command with
  | run o => cases i <;> simp [commandLevel, topicOf, Item.opt]
  | topology | check =>
    cases config with
    | none => cases hi
    | some path =>
      cases List.mem_singleton.1 hi
      exact List.mem_singleton.2 rfl

/-- No option of a request stands twice. -/
theorem nodup_items (r : Request) : (r.items.map Item.opt).Nodup := by
  obtain ⟨config, command⟩ := r
  cases command with
  | run o =>
    obtain ⟨threads, iterations⟩ := o
    cases config <;> cases threads <;> cases iterations <;>
      simp [Request.items, Command.items, Item.opt]
  | topology | check => cases config <;> simp [Request.items, Command.items, Item.opt]

/-- The number of workers that a command is given. -/
def threadsOf : Command → Option UInt64
  | .run o => o.threads
  | .topology | .check => none

/-- The number of cycles that a command is given. -/
def iterationsOf : Command → Option UInt64
  | .run o => o.iterations
  | .topology | .check => none

/-- What the options of a request give. -/
theorem filterMap_items (r : Request) :
    r.items.filterMap Item.path? = r.config.toList ∧
      r.items.filterMap Item.threads? = (threadsOf r.command).toList ∧
      r.items.filterMap Item.iterations? = (iterationsOf r.command).toList := by
  obtain ⟨config, command⟩ := r
  cases command with
  | run o =>
    obtain ⟨threads, iterations⟩ := o
    cases config <;> cases threads <;> cases iterations <;> exact ⟨rfl, rfl, rfl⟩
  | topology | check => cases config <;> exact ⟨rfl, rfl, rfl⟩

theorem named_of_mem_items (hr : r.Nameable) (hi : i ∈ r.items) :
    ∀ path ∈ i.path?, Named path := by
  intro path hpath
  have hmem : path ∈ r.items.filterMap Item.path? := List.mem_filterMap.2 ⟨i, hi, hpath⟩
  rw [(filterMap_items r).1, Option.mem_toList] at hmem
  exact hr path hmem

theorem head?_of_perm {α : Type} {xs : List α} {x : Option α} (h : xs.Perm x.toList) :
    xs.head? = x := by
  cases x with
  | none => rw [List.perm_nil.1 h]; rfl
  | some x => rw [List.perm_singleton.1 h]; rfl

/-- The values before the command and those after it make up the request. -/
theorem request_values (hperm : (is ++ js).Perm r.items) (his : ∀ i ∈ is, i.opt = .config) :
    request (values is) (values js) (topicOf r.command) = .ok r := by
  obtain ⟨hpath, hthreads, hiterations⟩ := filterMap_items r
  have hconfig : (values js).config.or (values is).config = r.config := by
    have h := (List.perm_append_comm.trans hperm).filterMap Item.path?
    rw [hpath, List.filterMap_append] at h
    exact List.head?_append.symm.trans (head?_of_perm h)
  have hthreads' : (values js).threads = threadsOf r.command := by
    have hnone : is.filterMap Item.threads? = [] :=
      List.filterMap_eq_nil_iff.2 fun i hi => Item.threads?_eq_none (by simp [his i hi])
    have h := hperm.filterMap Item.threads?
    rw [hthreads, List.filterMap_append, hnone] at h
    exact head?_of_perm h
  have hiterations' : (values js).iterations = iterationsOf r.command := by
    have hnone : is.filterMap Item.iterations? = [] :=
      List.filterMap_eq_nil_iff.2 fun i hi => Item.iterations?_eq_none (by simp [his i hi])
    have h := hperm.filterMap Item.iterations?
    rw [hiterations, List.filterMap_append, hnone] at h
    exact head?_of_perm h
  obtain ⟨config, command⟩ := r
  cases command with
  | run o =>
    simp only [request, topicOf, hconfig, hthreads', hiterations', threadsOf, iterationsOf]
  | topology | check => simp only [request, topicOf, hconfig]

theorem isWaiting_of_settle (h : p.settle = .ok q) : p.isWaiting = false := by
  unfold Progress.settle at h
  unfold Progress.isWaiting
  split at h
  · rename_i hp
    rw [hp]
  · cases h
  · rename_i hp
    rw [hp]

/-- What writes a request is read as the request. -/
theorem read_eq_of_spells (hr : r.Nameable) (h : Spells r args) : read args = .ok r := by
  obtain ⟨is, js, front, back, hfront, hback, hperm, his, rfl⟩ := h
  have hmem {i : Item} (hi : i ∈ is ++ js) : i ∈ r.items := hperm.mem_iff.1 hi
  have hnodup : ((is ++ js).map Item.opt).Nodup := (hperm.map Item.opt).nodup_iff.2 (nodup_items r)
  have hparts := List.nodup_append.1 (List.map_append ▸ hnodup)
  -- what stands before the command is read into one progress, what stands after it into another
  obtain ⟨p, hpass, hp⟩ := passes_spelled programLevel hfront
    (fun i hi => by rw [his i hi]; exact List.mem_singleton.2 rfl) hparts.1
    fun i hi => named_of_mem_items hr (hmem (List.mem_append_left js hi))
  obtain ⟨q, hpass', hq⟩ := passes_spelled (commandLevel (topicOf r.command)) hback
    (fun i hi => opt_mem_options (hmem (List.mem_append_right is hi))) hparts.2.1
    fun i hi => named_of_mem_items hr (hmem (List.mem_append_right is hi))
  have hcommand : readCommand (commandLevel (topicOf r.command)) {} back = .ok (values js) := by
    have hrest := hpass'.readCommand_eq []
    rw [List.append_nil] at hrest
    exact hrest.trans hq
  rw [read, hpass.readProgram_eq, readProgram.eq_def]
  dsimp only
  rw [isWaiting_of_settle hp, topic?_name, if_neg Bool.false_ne_true]
  dsimp only
  rw [readFrom, if_neg (topicOf_ne_help _), hcommand]
  dsimp only
  rw [hp]
  exact request_values hperm his

/-- **Every spelling of a request is read as the request.** So all of them have the same result, and
none is a spelling of another request. -/
theorem read_by_spelling (hr : r.Nameable) (h : Spells r args) :
    read args = .ok r ∧ (∀ args', Spells r args' → read args' = read args) ∧
      ∀ r' : Request, r'.Nameable → Spells r' args → r' = r := by
  have hread := read_eq_of_spells hr h
  refine ⟨hread, fun args' h' => ?_, fun r' hr' h' => ?_⟩
  · rw [hread, read_eq_of_spells hr h']
  · have hread' := read_eq_of_spells hr' h'
    rw [hread] at hread'
    exact (Except.ok.inj hread').symm

/-- A run for which the file of settings is named like the command. -/
def confusing : Request := ⟨some "run", .run ⟨some 2, some 50⟩⟩

theorem read_by_spelling_confusing :
    read ["-c", "run", "run", "--iterations=50", "-t", "02"] = .ok confusing ∧
      read ["run", "-t=2", "--config=run", "-i", "50"] = .ok confusing := by
  have hnameable : confusing.Nameable := by
    rintro path ⟨⟩
    exact ⟨by decide, by decide⟩
  have hpath : (Item.config "run").Text "run" := rfl
  have h50 : (Item.iterations 50).Text "50" := Numeral.natural?_eq_some_iff.1 rfl
  have h02 : (Item.threads 2).Text "02" := Numeral.natural?_eq_some_iff.1 rfl
  have h2 : (Item.threads 2).Text "2" := Numeral.natural?_eq_some_iff.1 rfl
  have hbefore : Spells confusing ["-c", "run", "run", "--iterations=50", "-t", "02"] :=
    ⟨[.config "run"], [.iterations 50, .threads 2], _, _, .cons hpath (.apart .letter) .nil,
      .cons h50 (.joined (.longWith "50")) (.cons h02 (.apart .letter) .nil), by decide,
      by decide, rfl⟩
  have hafter : Spells confusing ["run", "-t=2", "--config=run", "-i", "50"] :=
    ⟨[], [.threads 2, .config "run", .iterations 50], _, _, .nil,
      .cons h2 (.joined (.letterWith "2")) (.cons hpath (.joined (.longWith "run"))
        (.cons h50 (.apart .letter) .nil)), by decide, by decide, rfl⟩
  obtain ⟨hread, hsame, -⟩ := read_by_spelling hnameable hbefore
  exact ⟨hread, (hsame _ hafter).trans hread⟩

end CommandLine
end Slab
