import ClosedForm.Proofs.Noting
import ClosedForm.Proofs.Report

/-!
# The points that a check looks at

A check gives what is wrong, and not where it has looked.  `checkVisiting` is the same check with its
notes kept, and there is one note for every point, so that a fact about the points is a fact about a list.

* `fst_checkVisiting` — writing down changes nothing.
* `Visited` — one point after the other, none of the range left out unless the term limit ends the check.
* `visited_checkVisiting` — **every check looks at such points.**
-/

namespace ClosedForm

/-! ## Writing down -/

section Visiting

variable (e : Expr) (p : Poly) (limit : Int64)

/-- `checkWithin`, with every point that is looked at written down. -/
def checkVisiting (lower upper : Int64) : Outcome × List Int :=
  (Id.run (checking e p limit lower upper : Writer (FreeMonoid Int) Outcome).run).map id
    FreeMonoid.toList

section Forgetting

variable {m n : Type → Type} [Monad m] [Noting Int m] [Monad n] [Noting Int n]
variable {forget : ∀ α, m α → n α} (h : Forgets Int forget)

include h

lemma forget_lookAt {σ : Type} (append : σ → Error → σ) (k : Int) (found : σ) (next : σ → m σ) :
    forget σ (lookAt e p limit append k found next) =
      lookAt e p limit append k found fun found => forget σ (next found) := by
  unfold lookAt
  rw [h.map_bind, h.map_note]
  cases checkAt e p limit k with
  | agrees => rfl
  | wrong err => rfl
  | aborts err => simp only [h.map_pure]

lemma forget_lookFrom (count : ℕ) (k : Int) (found : List Error) :
    forget _ (lookFrom e p limit count k found) = lookFrom e p limit count k found := by
  induction count generalizing k found with
  | zero => exact h.map_pure found
  | succ count ih => simp only [lookFrom, forget_lookAt e p limit h, ih]

/-- A check does the same with and without notes. -/
lemma forget_checking (lower upper : Int64) :
    forget _ (checking e p limit lower upper) = checking e p limit lower upper := by
  cases e with
  | hole => exact h.map_pure _
  | _ => simp only [checking, h.map_bind, h.map_pure, forget_lookFrom _ p limit h]

end Forgetting

/-- **Writing down changes nothing.** -/
lemma fst_checkVisiting (lower upper : Int64) :
    (checkVisiting e p limit lower upper).1 = checkWithin e p lower upper limit :=
  forget_checking e p limit forgets_fst lower upper

/-- The points that the loop looks at. -/
def visits (count : ℕ) (n : Int) (found : List Error) : List Int :=
  (Id.run (lookFrom e p limit count n found : Writer (FreeMonoid Int) (List Error)).run).2.toList

lemma visits_succ (count : ℕ) (n : Int) (found : List Error) :
    visits e p limit (count + 1) n found =
      match checkAt e p limit n with
      | .agrees => n :: visits e p limit count (n + 1) found
      | .wrong err => n :: visits e p limit count (n + 1) (err :: found)
      | .aborts _ => [n] := by
  unfold visits
  rw [lookFrom, lookAt]
  cases checkAt e p limit n <;> rfl

variable {e} in
/-- Nothing is noted after the loop. -/
lemma snd_checkVisiting (he : e ≠ .hole) (lower upper : Int64) :
    (checkVisiting e p limit lower upper).2 =
      visits e p limit (upper.toInt - lower.toInt + 1).toNat lower.toInt [] := by
  cases e with
  | hole => exact absurd rfl he
  | _ => exact List.append_nil _

end Visiting

/-! ## Consecutive points -/

/-- The points are integers from `lower` on, one after the other: as many as there are up to `upper`,
unless the last one of them exceeds the term limit, which no earlier one does. -/
structure Visited (e : Expr) (limit : Int64) (lower upper : Int) (points : List Int) : Prop where
  consecutive : points = (List.range points.length).map fun i : ℕ => lower + (i : ℤ)
  length_le : (points.length : ℤ) ≤ max 0 (upper - lower + 1)
  goes_on : ∀ n ∈ points.dropLast, ¬Exhausts e limit n
  all_or_stopped : (points.length : ℤ) = max 0 (upper - lower + 1) ∨
    ∃ n, points.getLast? = some n ∧ Exhausts e limit n

namespace Visited

variable {e : Expr} {limit : Int64} {lower upper : ℤ} {points : List ℤ}

lemma empty (h : upper < lower) : Visited e limit lower upper [] := by
  have hnone : max 0 (upper - lower + 1) = 0 := max_eq_left (by omega)
  exact ⟨rfl, by simp, by simp, .inl (by simp [hnone])⟩

/-- A first point before further ones. -/
lemma cons (hle : lower ≤ upper) (hgoes : ¬Exhausts e limit lower)
    (h : Visited e limit (lower + 1) upper points) :
    Visited e limit lower upper (lower :: points) := by
  have hcount : ((lower :: points).length : ℤ) = points.length + 1 := by
    rw [List.length_cons, Nat.cast_add_one]
  have hlength := h.length_le
  refine ⟨?_, by omega, fun n hn => ?_, ?_⟩
  · rw [List.length_cons, List.range_succ_eq_map, List.map_cons, List.map_map]
    refine congrArg₂ List.cons (by simp) (h.consecutive.trans ?_)
    exact List.map_congr_left fun i _ => Expr.add_one_add_natCast lower i
  · cases points with
    | nil => cases hn
    | cons m points =>
        rw [List.dropLast_cons_cons, List.mem_cons] at hn
        rcases hn with rfl | hn
        · exact hgoes
        · exact h.goes_on n hn
  · rcases h.all_or_stopped with hall | ⟨n, hn, hexhausts⟩
    · exact .inl (by omega)
    · exact .inr ⟨n, by rw [List.getLast?_cons, hn]; rfl, hexhausts⟩

/-- A first point that ends the check. -/
lemma stop (hle : lower ≤ upper) (h : Exhausts e limit lower) :
    Visited e limit lower upper [lower] := by
  refine ⟨by simp, ?_, by simp, .inr ⟨lower, rfl, h⟩⟩
  rw [List.length_singleton]
  push_cast
  omega

end Visited

/-- **The loop looks at one point after the other,** by induction on the number of points that are
left. -/
lemma visited_visits (e : Expr) (p : Poly) (limit : Int64) {count : ℕ} (lower upper : ℤ)
    (hcount : (upper - lower + 1).toNat = count) (found : List Error) :
    Visited e limit lower upper (visits e p limit count lower found) := by
  induction count generalizing lower found with
  | zero => exact .empty (by omega)
  | succ count ih =>
      have hle : lower ≤ upper := by omega
      have hrest : (upper - (lower + 1) + 1).toNat = count := by omega
      have hgoes (h : ∀ err, checkAt e p limit lower ≠ .aborts err) : ¬Exhausts e limit lower := by
        rw [exhausts_iff (p := p)]
        exact fun ⟨err, herr⟩ => h err herr
      rw [visits_succ]
      cases hat : checkAt e p limit lower with
      | agrees => exact (ih (lower + 1) hrest found).cons hle (hgoes (by simp [hat]))
      | wrong err => exact (ih (lower + 1) hrest (err :: found)).cons hle (hgoes (by simp [hat]))
      | aborts err => exact .stop hle (exhausts_iff.2 ⟨err, hat⟩)

/-- **A check looks at every point of its range,** or at those up to the first one that exceeds the term
limit. -/
lemma visited_checkVisiting {e : Expr} (he : e ≠ .hole) (p : Poly) (limit lower upper : Int64) :
    Visited e limit lower.toInt upper.toInt (checkVisiting e p limit lower upper).2 := by
  rw [snd_checkVisiting p limit he]
  exact visited_visits e p limit lower.toInt upper.toInt rfl []

end ClosedForm
