/-
  How many sliding windows contain a time.

  * `sliding_starts_exact`: the windows found for a time begin at the multiples of the slide
    within one size below it, and they are the quotient of size and slide in number, rounded
    down or up;
  * `length_starts`: their number as a difference of two quotients.
-/
import Mathlib.Data.Rat.Floor
import StreamSql.Proofs.Grid

namespace StreamSql

namespace Grid

/-! ## Numbers of multiples -/

theorem length_indices (first last : Int) :
    (indices first last).length = (last - first + 1).toNat := by
  simp [indices]

/-- The multiples of `d` in an interval of length `n` are as many as the quotient, up to less
    than one. -/
theorem abs_sub_quotient_lt {n d : Int} (hd : 0 < d) (t : Int) :
    |((t / d - (t - n) / d : Int) : ℚ) - n / d| < 1 := by
  have hlast := Int.mul_ediv_add_emod t d
  have hfirst := Int.mul_ediv_add_emod (t - n) d
  have hmul : d * (t / d - (t - n) / d) - n = (t - n) % d - t % d := by linarith
  have hremainders : |(t - n) % d - t % d| < d :=
    abs_sub_lt_of_nonneg_of_lt (Int.emod_nonneg _ hd.ne') (Int.emod_lt_of_pos _ hd)
      (Int.emod_nonneg _ hd.ne') (Int.emod_lt_of_pos _ hd)
  have hd' : (0 : ℚ) < d := by exact_mod_cast hd
  have heq : ((t / d - (t - n) / d : Int) : ℚ) - n / d = ((t - n) % d - t % d : Int) / d := by
    rw [← hmul]
    push_cast
    field_simp
  rw [heq, abs_div, abs_of_pos hd', div_lt_one hd', ← Int.cast_abs]
  exact_mod_cast hremainders

/-- A number less than one away from a quotient is the quotient rounded down or up. -/
theorem eq_floor_or_eq_ceil {k : Int} {x : ℚ} (h : |(k : ℚ) - x| < 1) : k = ⌊x⌋ ∨ k = ⌈x⌉ := by
  obtain ⟨hlo, hhi⟩ := abs_lt.1 h
  rcases le_total (k : ℚ) x with hle | hle
  · exact .inl (Int.floor_eq_iff.2 ⟨hle, by linarith⟩).symm
  · exact .inr (Int.ceil_eq_iff.2 ⟨by linarith, hle⟩).symm

/-! ## Windows around a time -/

variable {size slide : Span} {time : Int64}

theorem length_starts (h : (sliding size slide).Exact time) :
    (((sliding size slide).starts time).length : Int) =
      time.toInt / slide.millis.toInt - (time.toInt - size.millis.toInt) / slide.millis.toInt := by
  have hback : (size.before time).toInt = time.toInt - size.millis.toInt :=
    Word.toInt_nearest_of_fits h.looksBack (by
      have := Word.toInt_bounds time
      have := size.positive
      omega)
  have hle : (time.toInt - size.millis.toInt) / slide.millis.toInt ≤
      time.toInt / slide.millis.toInt :=
    Int.ediv_le_ediv slide.positive (by have := size.positive; omega)
  rw [starts_eq h, List.length_map, candidates, length_indices, Span.index, Span.index, hback]
  omega

/-- **The sliding windows that contain a time** are found each once and in ascending order.  They
    begin at the multiples of the slide that are at most the time and less than one size below
    it, and they are as many as the slide fits into the size, rounded down or up. -/
theorem sliding_starts_exact (h : (sliding size slide).Exact time) :
    let starts := ((sliding size slide).starts time).map Int64.toInt
    let n := size.millis.toInt
    let d := slide.millis.toInt
    starts.Pairwise (· < ·) ∧
      (∀ s, s ∈ starts ↔ d ∣ s ∧ s ≤ time.toInt ∧ time.toInt < s + n) ∧
      (starts.length = ⌊(n / d : ℚ)⌋ ∨ starts.length = ⌈(n / d : ℚ)⌉) ∧
      (d ≤ n → starts ≠ []) ∧
      (d ∣ n → starts.length = n / d) := by
  intro starts n d
  have hd : 0 < d := slide.positive
  have hd' : (0 : ℚ) < d := by exact_mod_cast hd
  have hlength : |((starts.length : Int) : ℚ) - n / d| < 1 := by
    rw [List.length_map, length_starts h]
    exact abs_sub_quotient_lt hd time.toInt
  refine ⟨?_, fun s => ?_, eq_floor_or_eq_ceil hlength, fun hle => ?_, fun hdvd => ?_⟩
  · exact List.pairwise_map.2 ((starts_sorted h).imp Int64.lt_iff_toInt_lt.1)
  · constructor
    · intro hs
      obtain ⟨start, hstart, rfl⟩ := List.mem_map.1 hs
      exact (mem_starts h start).1 hstart
    · rintro ⟨⟨k, rfl⟩, hs⟩
      rw [mul_comm] at hs ⊢
      obtain ⟨start, hstart, hholds⟩ := (covers_iff_holds h k).1 hs
      exact List.mem_map.2 ⟨start, (mem_starts h start).2 hholds, hstart⟩
  · have hone : (1 : ℚ) ≤ n / d := (one_le_div hd').2 (by exact_mod_cast hle)
    have hpos : (0 : ℚ) < (starts.length : Int) := by linarith [(abs_lt.1 hlength).1]
    exact List.length_pos_iff.1 (by exact_mod_cast hpos)
  · obtain ⟨q, hq⟩ := hdvd
    rw [hq, Int.mul_ediv_cancel_left q hd.ne']
    rw [hq, Int.cast_mul, mul_div_cancel_left₀ _ hd'.ne', ← Int.cast_sub, ← Int.cast_abs] at hlength
    have hzero : |(starts.length : Int) - q| < 1 := by exact_mod_cast hlength
    exact sub_eq_zero.1 (Int.abs_lt_one_iff.1 hzero)

/-- Windows of 25 ms every 10 ms: the time -3 is in those that begin at -20 and -10. -/
theorem sliding_starts_exact_negative :
    let g : Grid := .sliding ⟨25, by decide⟩ ⟨10, by decide⟩
    let starts := (g.starts (-3)).map Int64.toInt
    g.Exact (-3) ∧ -20 ∈ starts ∧ -30 ∉ starts ∧ starts ≠ [] ∧
      (starts.length = ⌊(25 / 10 : ℚ)⌋ ∨ starts.length = ⌈(25 / 10 : ℚ)⌉) := by
  intro g starts
  have hexact : g.Exact (-3) := by
    refine ⟨show Word.least ≤ -3 - 25 by decide, fun k hk => ?_⟩
    obtain ⟨hlo, hhi⟩ : k * 10 ≤ -3 ∧ -3 < k * 10 + 25 := hk
    show Word.least ≤ k * 10 ∧ k * 10 + 25 ≤ Word.greatest
    simp only [Word.least, Word.greatest]
    omega
  obtain ⟨-, hmem, hlength, hne, -⟩ := sliding_starts_exact hexact
  exact ⟨hexact, (hmem _).2 (by decide), fun h => absurd ((hmem _).1 h) (by decide),
    hne (by decide), hlength⟩

end Grid

end StreamSql
