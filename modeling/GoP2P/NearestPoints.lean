import Mathlib.Tactic
import Mathlib.Data.List.Sort
import Mathlib.Data.List.MinMax

/-!
# Nearest points

What a spatial index is for: it is built from points with distinct identifiers
and answers, for a target, with a point of smallest distance or with the `n`
points of smallest distance.  Distances are compared by their squares, so the
coordinates can be rational.  Scanning all points is the index that shows the
specification can be met.
-/

namespace GoP2P

structure Point (ι : Type*) where
  id : ι
  coords : List ℚ
  value : ι
  deriving DecidableEq, Repr

def squaredDistance (p q : List ℚ) : ℚ :=
  (List.zipWith (fun a b => (a - b) ^ 2) p q).sum

namespace Point

variable {ι : Type*}

/-- The first point is at least as close to the target as the second. -/
def Closer (target : List ℚ) (p q : Point ι) : Prop :=
  squaredDistance p.coords target ≤ squaredDistance q.coords target

instance (target : List ℚ) : DecidableRel (@Closer ι target) :=
  fun p q => inferInstanceAs (Decidable
    (squaredDistance p.coords target ≤ squaredDistance q.coords target))

/-- Points from which an index can be built. -/
structure Indexable (dimension : ℕ) (points : List (Point ι)) : Prop where
  nonempty : points ≠ []
  distinct : (points.map Point.id).Nodup
  dimension : ∀ p ∈ points, p.coords.length = dimension

/-- These are the `n` points closest to the target, or all if there are
fewer. -/
structure Nearest (points : List (Point ι)) (target : List ℚ) (n : ℕ)
    (results : List (Point ι)) : Prop where
  subperm : results.Subperm points
  length : results.length = min n points.length
  closer : ∀ p ∈ results, ∀ q ∈ points, q ∉ results → Closer target p q

end Point

open Point

structure SpatialIndex (ι τ : Type*) where
  build : List (Point ι) → Option τ
  nearest : τ → List ℚ → Option (Point ι)
  kNearest : τ → List ℚ → ℤ → List (Point ι)

variable {ι τ : Type*}

structure SpatialIndex.Exact (index : SpatialIndex ι τ) : Prop where
  builds : ∀ ⦃dimension points⦄, Indexable dimension points →
    ∃ tree, index.build points = some tree
  nearest : ∀ ⦃dimension points tree target⦄, Indexable dimension points →
    index.build points = some tree → target.length = dimension →
      ∃ p ∈ points, index.nearest tree target = some p ∧
        ∀ q ∈ points, Closer target p q
  kNearest : ∀ ⦃dimension points tree target⦄, Indexable dimension points →
    index.build points = some tree → target.length = dimension →
      ∀ n : ℕ, Nearest points target n (index.kNearest tree target n)

/-- All points are looked at for every target. -/
def SpatialIndex.scan (ι : Type*) : SpatialIndex ι (List (Point ι)) where
  build points := if points.isEmpty then none else some points
  nearest points target :=
    points.argmin fun p => squaredDistance p.coords target
  kNearest points target n :=
    (points.insertionSort (Closer target)).take n.toNat

theorem SpatialIndex.scan_build {points tree : List (Point ι)}
    (hbuild : (scan ι).build points = some tree) : tree = points := by
  unfold scan at hbuild
  dsimp only at hbuild
  split at hbuild
  · cases hbuild
  · cases hbuild
    rfl

theorem Point.nearest_take_insertionSort (points : List (Point ι))
    (target : List ℚ) (n : ℕ) :
    Nearest points target n
      ((points.insertionSort (Closer target)).take n) := by
  have hperm := points.perm_insertionSort (Closer target)
  have : IsTrans (Point ι) (Closer target) := ⟨fun _ _ _ => le_trans⟩
  have : Std.Total (@Closer ι target) := ⟨fun _ _ => le_total _ _⟩
  have hsorted := points.pairwise_insertionSort (Closer target)
  constructor
  · exact (List.take_sublist _ _).subperm.trans hperm.subperm
  · rw [List.length_take, hperm.length_eq]
  · intro p hp q hq homitted
    have hsplit := List.take_append_drop n
      (points.insertionSort (Closer target))
    have hdropped : q ∈ (points.insertionSort (Closer target)).drop n := by
      have hmem := hperm.mem_iff.mpr hq
      rw [← hsplit, List.mem_append] at hmem
      exact hmem.resolve_left homitted
    rw [← hsplit, List.pairwise_append] at hsorted
    exact hsorted.2.2 p hp q hdropped

theorem SpatialIndex.scan_exact : (scan ι).Exact where
  builds := by
    intro dimension points hpoints
    refine ⟨points, ?_⟩
    simp [scan, hpoints.nonempty]
  nearest := by
    intro dimension points tree target hpoints hbuild _
    rw [scan_build hbuild]
    cases hmin : points.argmin fun p => squaredDistance p.coords target with
    | none => exact absurd (List.argmin_eq_none.mp hmin) hpoints.nonempty
    | some p =>
        refine ⟨p, List.argmin_mem hmin, hmin, ?_⟩
        intro q hq
        exact List.le_of_mem_argmin hq hmin
  kNearest := by
    intro dimension points tree target _ hbuild _ n
    rw [scan_build hbuild]
    exact nearest_take_insertionSort points target n

end GoP2P
