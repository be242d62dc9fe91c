import Slab.Markup.Document
import Slab.Proofs.Settings.Layers
import Slab.Settings.Variables

/-!
# Layers come in order

The readers of documents and of variables put what they read into dictionaries key by key, so the
trees that they give are ordered, whatever the text.

* `Reader.Yields x p`: whatever `x` reads has the property `p`;
* `Document.ordered_of_read?`: what a document says is an ordered dictionary;
* `VariableValue.ordered_read`, `Variables.ordered_tree`: so is what the variables say.
-/

namespace Slab

/-! ### Documents -/

namespace Markup.Scalar

variable {tag s : List Char} {t : Tree}

theorem integer?_isMap (h : integer? s = some t) : t.isMap = false := by
  unfold integer? at h
  split at h <;> obtain ⟨n, -, hn⟩ := Option.bind_eq_some_iff.1 h <;> split_ifs at hn <;>
    cases hn <;> rfl

theorem meaning_isMap (s : List Char) : (meaning s).isMap = false := by
  unfold meaning
  split
  · rfl
  · split
    · rfl
    · split
      · exact integer?_isMap ‹_›
      · split <;> rfl

theorem tagged?_isMap (h : tagged? tag s = some t) : t.isMap = false := by
  unfold tagged? at h
  split_ifs at h
  · obtain ⟨b, -, rfl⟩ := Option.map_eq_some_iff.1 h
    rfl
  · exact integer?_isMap h
  · obtain ⟨x, -, rfl⟩ := Option.map_eq_some_iff.1 h
    rfl
  · cases h
    rfl
  · cases h
    rfl

end Markup.Scalar

namespace Markup.Document

/-- Whatever a reader reads has a property. -/
def Reader.Yields {α : Type} (x : Reader α) (p : α → Prop) : Prop :=
  ∀ left a left', x left = some (a, left') → p a

section Yields

variable {α β : Type} {p : α → Prop} {q : β → Prop}

theorem Reader.yields_pure {a : α} (h : p a) : Reader.Yields (pure a) p := by
  intro left b left' hb
  cases hb
  exact h

theorem Reader.yields_fail : Reader.Yields (Reader.fail : Reader α) p := by
  intro left b left' hb
  cases hb

theorem Reader.Yields.bind {x : Reader α} {f : α → Reader β} (hx : Reader.Yields x p)
    (hf : ∀ a, p a → Reader.Yields (f a) q) : Reader.Yields (x >>= f) q := by
  intro left b left' hb
  obtain ⟨⟨a, mid⟩, ha, hb⟩ := Option.bind_eq_some_iff.1 hb
  exact hf a (hx _ _ _ ha) _ _ _ hb

theorem Reader.yields_bind {x : Reader α} {f : α → Reader β}
    (hf : ∀ a, Reader.Yields (f a) q) : Reader.Yields (x >>= f) q :=
  Reader.Yields.bind (p := fun _ => True) (fun _ _ _ _ => trivial) fun a _ => hf a

end Yields

variable {targets : Dict Nat Node}

theorem yields_readEntries {read : Node → Reader Tree} (hread : ∀ n, (read n).Yields Tree.Ordered)
    (entries : List (Node × Node)) {d : Dict String Tree} (hd : (Tree.map d).Ordered) :
    (readEntries targets read d entries).Yields fun d => (Tree.map d).Ordered := by
  induction entries generalizing d with
  | nil => exact Reader.yields_pure hd
  | cons e entries ih =>
    obtain ⟨k, v⟩ := e
    rw [readEntries]
    exact Reader.yields_bind fun key => (hread v).bind fun t ht => ih (hd.insert ht key)

theorem yields_tagged (tag s : List Char) :
    Reader.Yields (fun left => (Scalar.tagged? tag s).map fun t => (t, left)) Tree.Ordered := by
  intro left t left' h
  obtain ⟨t', ht, he⟩ := Option.map_eq_some_iff.1 h
  cases he
  exact Tree.ordered_leaf (Scalar.tagged?_isMap ht)

/-- What a node describes is ordered. -/
theorem yields_read (depth : ℕ) (n : Node) : (read targets depth n).Yields Tree.Ordered := by
  induction depth generalizing n with
  | zero =>
    rw [read]
    refine Reader.yields_bind fun n => ?_
    split
    · exact Reader.yields_pure (Tree.ordered_leaf (Scalar.meaning_isMap _))
    · exact Reader.yields_pure (Tree.ordered_leaf rfl)
    · exact yields_tagged _ _
    · exact Reader.yields_fail
  | succ depth ih =>
    rw [read]
    refine Reader.yields_bind fun n => ?_
    split
    · exact Reader.yields_pure (Tree.ordered_leaf (Scalar.meaning_isMap _))
    · exact Reader.yields_pure (Tree.ordered_leaf rfl)
    · exact yields_tagged _ _
    · split_ifs
      · exact Reader.yields_bind fun l => Reader.yields_pure (Tree.ordered_leaf rfl)
      · exact Reader.yields_fail
    · split_ifs
      · exact (yields_readEntries ih _ Tree.ordered_nil).bind fun d hd => Reader.yields_pure hd
      · exact Reader.yields_fail
    · exact Reader.yields_fail

/-- **What a document says is an ordered dictionary.** -/
theorem ordered_of_read? {text : String} {t : Tree} (h : read? text = some t) :
    t.Ordered ∧ ∃ d, t = .map d := by
  unfold read? at h
  obtain ⟨tokens, -, h⟩ := Option.bind_eq_some_iff.1 h
  obtain ⟨node, -, h⟩ := Option.bind_eq_some_iff.1 h
  split at h
  · cases h
    exact ⟨Tree.ordered_nil, [], rfl⟩
  · unfold ofNode? at h
    split at h
    · obtain ⟨⟨d, left⟩, hd, rfl⟩ := Option.map_eq_some_iff.1 h
      exact ⟨yields_readEntries (yields_read _) _ Tree.ordered_nil _ _ _ hd, d, rfl⟩
    · cases h
      exact ⟨Tree.ordered_nil, [], rfl⟩
    · cases h

end Markup.Document

/-! ### Variables -/

namespace VariableValue

theorem bare_isMap (s : List Char) : (bare s).isMap = false := by
  unfold bare
  dsimp only
  split
  · rfl
  · split
    · rfl
    · split <;> rfl

/-- What the readers of values and of entries give is ordered, whatever bounds their depth. -/
theorem ordered_readers (fuel : ℕ) :
    (∀ s t rest, value? fuel s = some (t, rest) → t.Ordered) ∧
    (∀ s t rest, bareValue? fuel s = some (t, rest) → t.Ordered) ∧
    (∀ d s e rest, (Tree.map d).Ordered → entries? fuel d s = some (e, rest) →
      (Tree.map e).Ordered) := by
  induction fuel with
  | zero =>
    refine ⟨?_, ?_, ?_⟩
    · intro s t rest h
      rw [value?] at h
      cases h
    · intro s t rest h
      rw [bareValue?] at h
      cases h
    · intro d s e rest _ h
      rw [entries?] at h
      cases h
  | succ fuel ih =>
    obtain ⟨hvalue, hbare, hentries⟩ := ih
    refine ⟨?_, ?_, ?_⟩
    · intro s t rest h
      rw [value?] at h
      obtain ⟨⟨t', rest'⟩, hb, he⟩ := Option.map_eq_some_iff.1 h
      cases he
      exact hbare _ _ _ hb
    · intro s t rest h
      unfold bareValue? at h
      split at h
      · cases h
        exact Tree.ordered_leaf rfl
      split at h
      · cases h
        exact Tree.ordered_leaf rfl
      split at h
      · obtain ⟨⟨d, rest'⟩, hd, he⟩ := Option.map_eq_some_iff.1 h
        cases he
        exact hentries _ _ _ _ Tree.ordered_nil hd
      · obtain ⟨⟨l, rest'⟩, -, he⟩ := Option.map_eq_some_iff.1 h
        cases he
        exact Tree.ordered_leaf rfl
      · obtain ⟨⟨l, rest'⟩, -, he⟩ := Option.map_eq_some_iff.1 h
        cases he
        exact Tree.ordered_leaf rfl
      · cases h
        exact Tree.ordered_leaf rfl
      · cases h
      · cases h
        exact Tree.ordered_leaf (bare_isMap _)
    · intro d s e rest hd h
      unfold entries? at h
      split at h
      · cases h
        exact hd
      · split at h
        · cases h
        · split at h
          · split at h
            · rename_i hv
              exact hentries _ _ _ _ (hd.insert (hvalue _ _ _ hv) _) h
            · rename_i hv
              cases h
              exact hd.insert (hvalue _ _ _ hv) _
            · cases h
          · cases h

/-- **What a variable says is ordered.** -/
theorem ordered_read (s : String) : (read s).Ordered := by
  unfold read
  dsimp only
  split
  · rename_i h
    exact (ordered_readers _).1 _ _ _ h
  · exact Tree.ordered_leaf rfl

end VariableValue

theorem Tree.ordered_nest {t : Tree} (h : t.Ordered) (path : List String) :
    (Tree.nest path t).Ordered := by
  induction path with
  | nil => exact h
  | cons k path ih =>
    refine .dict (List.pairwise_singleton _ _) fun e he => ?_
    rw [List.mem_singleton.1 he]
    exact ih

namespace Variables

theorem ordered_layer (entry : String × String) : (layer entry).Ordered := by
  unfold layer
  split
  · exact Tree.ordered_nil
  · exact Tree.ordered_nest (VariableValue.ordered_read _) _

theorem tree_eq (environment : List (String × String)) :
    tree environment = (environment.map layer).foldl Tree.merge (.map []) := by
  rw [tree, List.foldl_map]

/-- **What all variables say is ordered.** -/
theorem ordered_tree (environment : List (String × String)) : (tree environment).Ordered := by
  rw [tree_eq]
  refine Tree.ordered_foldl Tree.ordered_nil fun t ht => ?_
  obtain ⟨entry, -, rfl⟩ := List.mem_map.1 ht
  exact ordered_layer entry

end Variables
end Slab
