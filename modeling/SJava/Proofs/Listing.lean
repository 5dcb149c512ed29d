import Mathlib.Data.List.Nodup
import SJava.Listing

namespace SJava.Listing

theorem perm_place (l : Line) (ms : List Line) : (place l ms).Perm (l :: ms) := by
  induction ms with
  | nil => exact .refl _
  | cons m ms ih =>
      rw [place]
      split
      · exact .refl _
      · exact (ih.cons m).trans (.swap l m ms)

theorem sorted_place {l : Line} {ms : List Line} (sorted : ms.Pairwise (·.number < ·.number))
    (fresh : l.number ∉ ms.map Line.number) : (place l ms).Pairwise (·.number < ·.number) := by
  induction ms with
  | nil => simp [place]
  | cons m ms ih =>
      rw [List.pairwise_cons] at sorted
      simp only [List.map_cons, List.mem_cons, not_or] at fresh
      rw [place]
      split
      · rename_i below
        rw [List.pairwise_cons, List.pairwise_cons]
        have less : l.number < m.number := by omega
        refine ⟨?_, sorted⟩
        intro k member
        rcases List.mem_cons.1 member with rfl | later
        · exact less
        · exact Int.lt_trans less (sorted.1 k later)
      · rename_i above
        rw [List.pairwise_cons]
        refine ⟨?_, ih sorted.2 fresh.2⟩
        intro k member
        rcases List.mem_cons.1 ((perm_place l ms).mem_iff.1 member) with rfl | later
        · omega
        · exact sorted.1 k later

theorem perm_foldr_place (lines : List Line) : (lines.foldr place []).Perm lines := by
  induction lines with
  | nil => exact .refl _
  | cons l lines ih => exact (perm_place l _).trans (ih.cons l)

theorem perm_ascending (listing : Listing) : listing.ascending.Perm listing.lines :=
  perm_foldr_place listing.lines

theorem sorted_ascending (listing : Listing) :
    listing.ascending.Pairwise (·.number < ·.number) := by
  have distinct := listing.distinct
  unfold ascending
  generalize listing.lines = lines at distinct
  induction lines with
  | nil => simp
  | cons l lines ih =>
      rw [List.map_cons, List.nodup_cons] at distinct
      refine sorted_place (ih distinct.2) ?_
      intro member
      exact distinct.1 (((perm_foldr_place lines).map Line.number).mem_iff.1 member)

theorem eq_of_sorted {xs ys : List Line} (sorted : xs.Pairwise (·.number < ·.number))
    (sorted' : ys.Pairwise (·.number < ·.number)) (perm : xs.Perm ys) : xs = ys := by
  apply perm.eq_of_pairwise _ sorted sorted'
  intro l k _ _ below above
  omega

theorem head_of_sorted {x : Line} {xs ys : List Line} {n : Int}
    (sorted : (x :: xs).Pairwise (·.number < ·.number))
    (sorted' : ys.Pairwise (·.number < ·.number)) (low : x.number ≤ n)
    (same : ∀ k : Line, k.number ≤ n → (k ∈ x :: xs ↔ k ∈ ys)) :
    ∃ rest, ys = x :: rest ∧ ∀ k : Line, k.number ≤ n → (k ∈ xs ↔ k ∈ rest) := by
  have first := (List.pairwise_cons.1 sorted).1
  cases ys with
  | nil => exact absurd ((same x low).1 (by simp)) (by simp)
  | cons y rest =>
      have first' := (List.pairwise_cons.1 sorted').1
      obtain rfl : y = x := by
        rcases List.mem_cons.1 ((same x low).1 (by simp)) with rfl | later
        · rfl
        · have below := first' x later
          rcases List.mem_cons.1 ((same y (by omega)).2 (by simp)) with rfl | beyond
          · rfl
          · have above := first y beyond
            omega
      refine ⟨rest, rfl, ?_⟩
      intro k most
      have both := same k most
      simp only [List.mem_cons] at both
      have other {zs : List Line} (beyond : ∀ z ∈ zs, y.number < z.number) (member : k ∈ zs) :
          k ≠ y := by
        rintro rfl
        exact absurd (beyond k member) (Int.lt_irrefl _)
      constructor
      · intro member
        exact (both.1 (.inr member)).resolve_left (other first member)
      · intro member
        exact (both.2 (.inr member)).resolve_left (other first' member)

theorem shared_front {before after ys : List Line} {l : Line}
    (sorted : (before ++ l :: after).Pairwise (·.number < ·.number))
    (sorted' : ys.Pairwise (·.number < ·.number))
    (same : ∀ k : Line, k.number ≤ l.number → (k ∈ before ++ l :: after ↔ k ∈ ys)) :
    ∃ rest, ys = before ++ l :: rest := by
  induction before generalizing ys with
  | nil =>
      obtain ⟨rest, rfl, -⟩ := head_of_sorted sorted sorted' (Int.le_refl _) same
      exact ⟨rest, rfl⟩
  | cons b before ih =>
      have below : b.number < l.number := (List.pairwise_cons.1 sorted).1 l (by simp)
      obtain ⟨rest, rfl, others⟩ := head_of_sorted sorted sorted' (Int.le_of_lt below) same
      obtain ⟨last, rfl⟩ := ih (List.pairwise_cons.1 sorted).2 (List.pairwise_cons.1 sorted').2 others
      exact ⟨last, rfl⟩

end SJava.Listing
