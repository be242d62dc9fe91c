/-!
# Cutting text at a character

* `cutFirst c s`: the two parts of `s` around its first `c`;
* `pieces c s`: the parts of `s` between its `c`s, at least one;
* `joinWith c`: the text that has the given parts.
-/

namespace Slab.Text

/-- What stands before the first `c` and what stands after it. -/
def cutFirst (c : Char) : List Char → Option (List Char × List Char)
  | [] => none
  | d :: s =>
    if d = c then some ([], s) else (cutFirst c s).map fun p => (d :: p.1, p.2)

/-- The parts between the occurrences of `c`. -/
def pieces (c : Char) : List Char → List (List Char)
  | [] => [[]]
  | d :: s =>
    if d = c then [] :: pieces c s
    else
      match pieces c s with
      | [] => [[d]]
      | p :: ps => (d :: p) :: ps

/-- The parts in order with one `c` between any two. -/
def joinWith (c : Char) : List (List Char) → List Char
  | [] => []
  | [p] => p
  | p :: ps => p ++ c :: joinWith c ps

theorem pieces_ne_nil (c : Char) (s : List Char) : pieces c s ≠ [] := by
  cases s with
  | nil => simp [pieces]
  | cons d s =>
    unfold pieces
    split
    · simp
    · split <;> simp

theorem cutFirst_eq_some {c : Char} {s a b : List Char} (h : cutFirst c s = some (a, b)) :
    s = a ++ c :: b ∧ c ∉ a := by
  induction s generalizing a with
  | nil => simp [cutFirst] at h
  | cons d s ih =>
    unfold cutFirst at h
    split at h
    · rename_i hd
      simp only [Option.some.injEq, Prod.mk.injEq] at h
      obtain ⟨rfl, rfl⟩ := h
      simp [hd]
    · rename_i hd
      simp only [Option.map_eq_some_iff] at h
      obtain ⟨⟨x, y⟩, hxy, hp⟩ := h
      simp only [Prod.mk.injEq] at hp
      obtain ⟨rfl, rfl⟩ := hp
      obtain ⟨h1, h2⟩ := ih hxy
      refine ⟨by simp [h1], ?_⟩
      simp only [List.mem_cons, not_or]
      exact ⟨fun e => hd e.symm, h2⟩

end Slab.Text
