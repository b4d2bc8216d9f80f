import Mathlib.Combinatorics.SimpleGraph.Metric

/-!
# Searching by hops

What a search in the order of the hops needs of a graph: a vertex has one before it on a
shortest way, and vertices that are closed under going one hop on are all that count.
-/
namespace ShortestHops

variable {V : Type} {G : SimpleGraph V} {s : V}

/-- One hop further is at most one further away. -/
theorem dist_hop {u v : V} (hreach : G.Reachable s v) (hadj : G.Adj v u) : G.dist s u ≤ G.dist s v + 1 := by
  obtain ⟨walk, hlength⟩ := hreach.exists_walk_length_eq_dist
  have hle := SimpleGraph.dist_le (walk.concat hadj)
  rwa [SimpleGraph.Walk.length_concat, hlength] at hle

/-- The last vertex but one of a shortest way. -/
theorem exists_before {u : V} {k : Nat} (hreach : G.Reachable s u) (hdist : G.dist s u = k + 1) :
    ∃ v, G.Adj v u ∧ G.Reachable s v ∧ G.dist s v = k := by
  obtain ⟨walk, hlength⟩ := hreach.symm.exists_walk_length_eq_dist
  rw [SimpleGraph.dist_comm, hdist] at hlength
  cases walk with
  | nil => cases hlength
  | cons hadj rest =>
    rename_i v
    have hrest : G.dist s v ≤ k := by
      rw [SimpleGraph.dist_comm]
      exact (SimpleGraph.dist_le rest).trans (Nat.le_of_succ_le_succ hlength.le)
    have hhop := dist_hop ⟨rest.reverse⟩ hadj.symm
    exact ⟨v, hadj.symm, ⟨rest.reverse⟩, by omega⟩

/-- Vertices of a kind that hangs together, as far as the search went on from all nearer ones. -/
theorem all_reached (kind visited : V → Prop) {k : Nat} (hsource : visited s)
    (hbefore : ∀ u v, kind u → G.Reachable s v → G.dist s u = G.dist s v + 1 → v = s ∨ kind v)
    (hon : ∀ v, visited v → G.dist s v < k → ∀ u, G.Adj v u → G.dist s u = G.dist s v + 1 → kind u → visited u)
    {u : V} (hkind : kind u) (hreach : G.Reachable s u) (hdist : G.dist s u ≤ k) : visited u := by
  generalize hd : G.dist s u = d at hdist
  induction d generalizing u with
  | zero =>
    rw [← hreach.dist_eq_zero_iff.mp hd]
    exact hsource
  | succ d ih =>
    obtain ⟨v, hadj, hv, hvdist⟩ := exists_before hreach hd
    have hvisited : visited v := by
      rcases hbefore u v hkind hv (by rw [hd, hvdist]) with rfl | hvkind
      · exact hsource
      · exact ih hvkind hv hvdist (by omega)
    exact hon v hvisited (by omega) u hadj (by rw [hd, hvdist]) hkind

end ShortestHops
