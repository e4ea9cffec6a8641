/-
  The windows of a grid as intervals of integers.

  * `Grid.Holds g start time`: a window begins at `start` and contains `time`;
  * `mem_starts`: the windows that the grid finds for a time are those that contain it;
  * `lt_cutoff_iff`: windows are closed when their end is reached;
  * `lt_cutoff_iff_of_ends`: which windows are closed at any time.

  But for the last one, the operations on words have these meanings where none of them saturates:
  `Grid.Exact` for the windows around a time, and `Grid.Reaches` for a time that windows are
  checked against.
-/
import Mathlib.Tactic.Common
import StreamSql.Window.Aligned

namespace StreamSql

namespace Grid

variable (g : Grid)

/-- The distance between the beginnings of two windows. -/
def slide : Grid → Span
  | tumbling size => size
  | sliding _ slide => slide

/-- The length of a window in milliseconds. -/
def length : Int := g.size.millis.toInt

/-- The distance between the beginnings of two windows in milliseconds. -/
def stride : Int := g.slide.millis.toInt

theorem length_pos : 0 < g.length := g.size.positive

theorem stride_pos : 0 < g.stride := g.slide.positive

/-- The window number `k` contains a time. -/
def Covers (k : Int) (time : Int64) : Prop :=
  k * g.stride ≤ time.toInt ∧ time.toInt < k * g.stride + g.length

/-- A window begins at `start` and contains a time. -/
def Holds (start time : Int64) : Prop :=
  g.stride ∣ start.toInt ∧ start.toInt ≤ time.toInt ∧ time.toInt < start.toInt + g.length

instance (k : Int) (time : Int64) : Decidable (g.Covers k time) :=
  inferInstanceAs (Decidable (_ ∧ _))

instance (start time : Int64) : Decidable (g.Holds start time) :=
  inferInstanceAs (Decidable (_ ∧ _ ∧ _))

/-- The time one window ago, which sliding windows are counted from, is a word. -/
def LooksBack (time : Int64) : Grid → Prop
  | tumbling _ => True
  | sliding size _ => Word.least ≤ time.toInt - size.millis.toInt

/-- No operation saturates on the windows around a time. -/
structure Exact (time : Int64) : Prop where
  looksBack : g.LooksBack time
  bounds : ∀ k, g.Covers k time →
    Word.least ≤ k * g.stride ∧ k * g.stride + g.length ≤ Word.greatest

/-- The time one window before is a word, so that windows can be checked against a time. -/
def Reaches (time : Int64) : Prop :=
  Word.least ≤ time.toInt - g.length

variable {g}

/-! ## Windows around a time -/

theorem covers_iff_holds {time : Int64} (h : g.Exact time) (k : Int) :
    g.Covers k time ↔ ∃ start : Int64, start.toInt = k * g.stride ∧ g.Holds start time := by
  constructor
  · intro hk
    have hfits := h.bounds k hk
    have hlen := g.length_pos
    have hs : (Word.nearest (k * g.stride)).toInt = k * g.stride :=
      Word.toInt_nearest_of_fits hfits.1 (by omega)
    refine ⟨_, hs, ?_⟩
    rw [Holds, hs]
    exact ⟨Int.dvd_mul_left .., hk⟩
  · rintro ⟨start, hs, -, h₁, h₂⟩
    rw [hs] at h₁ h₂
    exact ⟨h₁, h₂⟩

theorem Holds.covers {start time : Int64} (h : g.Holds start time) :
    ∃ k, start.toInt = k * g.stride ∧ g.Covers k time := by
  obtain ⟨⟨k, hk⟩, h₁, h₂⟩ := h
  rw [Int.mul_comm] at hk
  rw [hk] at h₁ h₂
  exact ⟨k, hk, h₁, h₂⟩

theorem toInt_after_eq (g : Grid) (start : Int64) :
    (g.size.after start).toInt = min (start.toInt + g.length) Word.greatest := by
  have hlen := g.length_pos
  have hstart := Word.toInt_bounds start
  rw [Span.after, Word.addSat, Word.toInt_nearest]
  rw [length] at *
  simp only [Word.least, Word.greatest] at *
  omega

/-- The end of a window that contains a time. -/
theorem toInt_after {start time : Int64} (h : g.Exact time) (hs : g.Holds start time) :
    (g.size.after start).toInt = start.toInt + g.length := by
  obtain ⟨k, hk, hc⟩ := hs.covers
  have hfits := (h.bounds k hc).2
  rw [toInt_after_eq, hk, Int.min_eq_left hfits]

theorem toInt_start {time : Int64} (h : g.Exact time) {k : Int} (hk : g.Covers k time) :
    (g.slide.multiple k).toInt = k * g.stride := by
  have hfits := h.bounds k hk
  have hlen := g.length_pos
  exact Word.toInt_nearest_of_fits hfits.1 (by show k * g.stride ≤ _; omega)

theorem holds_start {time : Int64} (h : g.Exact time) {k : Int} (hk : g.Covers k time) :
    g.Holds (g.slide.multiple k) time := by
  rw [Holds, toInt_start h hk]
  exact ⟨Int.dvd_mul_left .., hk⟩

theorem mem_indices {first last k : Int} : k ∈ indices first last ↔ first ≤ k ∧ k ≤ last := by
  unfold indices
  rw [List.mem_map]
  constructor
  · rintro ⟨i, hi, rfl⟩
    rw [List.mem_range] at hi
    omega
  · rintro ⟨h₁, h₂⟩
    exact ⟨(k - first).toNat, by rw [List.mem_range]; omega, by omega⟩

theorem indices_sorted (first last : Int) : (indices first last).Pairwise (· < ·) := by
  unfold indices
  rw [List.pairwise_map]
  exact List.pairwise_lt_range.imp fun h => by omega

/-- The numbers of the windows that a grid looks at for a time. -/
def candidates (time : Int64) : Grid → List Int
  | tumbling size => [size.index time]
  | sliding size slide => indices (slide.index (size.before time) + 1) (slide.index time)

theorem mem_candidates {time : Int64} (h : g.LooksBack time) (k : Int) :
    k ∈ g.candidates time ↔ g.Covers k time := by
  cases g with
  | tumbling size =>
    have hpos := size.positive
    show k ∈ [time.toInt / size.millis.toInt] ↔
      k * size.millis.toInt ≤ time.toInt ∧ time.toInt < k * size.millis.toInt + size.millis.toInt
    rw [List.mem_singleton, ← Int.le_ediv_iff_mul_le hpos,
      show k * size.millis.toInt + size.millis.toInt = (k + 1) * size.millis.toInt by grind,
      ← Int.ediv_lt_iff_lt_mul hpos]
    omega
  | sliding size slide =>
    have hpos := slide.positive
    have hsize := size.positive
    have hback : (size.before time).toInt = time.toInt - size.millis.toInt :=
      Word.toInt_nearest_of_fits h (by have := Word.toInt_bounds time; omega)
    show k ∈ indices ((size.before time).toInt / slide.millis.toInt + 1)
        (time.toInt / slide.millis.toInt) ↔
      k * slide.millis.toInt ≤ time.toInt ∧ time.toInt < k * slide.millis.toInt + size.millis.toInt
    rw [mem_indices, hback, Int.add_one_le_iff, Int.ediv_lt_iff_lt_mul hpos,
      Int.le_ediv_iff_mul_le hpos]
    omega

theorem candidates_sorted (g : Grid) (time : Int64) : (g.candidates time).Pairwise (· < ·) := by
  cases g with
  | tumbling size => exact List.pairwise_singleton ..
  | sliding size slide => exact indices_sorted ..

/-- Nothing is left out by the second look of sliding windows at their ends. -/
theorem starts_eq {time : Int64} (h : g.Exact time) :
    g.starts time = (g.candidates time).map g.slide.multiple := by
  cases hg : g with
  | tumbling size => rfl
  | sliding size slide =>
    refine List.filter_eq_self.2 fun start hs => ?_
    obtain ⟨k, hk, rfl⟩ := List.mem_map.1 hs
    subst hg
    have hc := (mem_candidates h.looksBack k).1 hk
    have hafter := toInt_after h (holds_start h hc)
    rw [toInt_start h hc] at hafter
    rw [decide_eq_true_iff, Int64.lt_iff_toInt_lt]
    exact Int.lt_of_lt_of_le hc.2 (Int.le_of_eq hafter.symm)

/-- **The windows found for a time** are those that contain it. -/
theorem mem_starts {time : Int64} (h : g.Exact time) (start : Int64) :
    start ∈ g.starts time ↔ g.Holds start time := by
  rw [starts_eq h, List.mem_map]
  constructor
  · rintro ⟨k, hk, rfl⟩
    exact holds_start h ((mem_candidates h.looksBack k).1 hk)
  · intro hs
    obtain ⟨k, hk, hc⟩ := hs.covers
    refine ⟨k, (mem_candidates h.looksBack k).2 hc, Int64.toInt_inj.1 ?_⟩
    rw [toInt_start h hc, hk]

theorem starts_sorted {time : Int64} (h : g.Exact time) : (g.starts time).Pairwise (· < ·) := by
  rw [starts_eq h, List.pairwise_map]
  refine (g.candidates_sorted time).imp_of_mem fun {a b} ha hb hlt => ?_
  rw [Int64.lt_iff_toInt_lt, toInt_start h ((mem_candidates h.looksBack a).1 ha),
    toInt_start h ((mem_candidates h.looksBack b).1 hb)]
  exact Int.mul_lt_mul_of_pos_right hlt g.stride_pos

/-! ## Ends of windows -/

theorem toInt_cutoff (g : Grid) (now : Int64) :
    (g.cutoff now).toInt = max Word.least (now.toInt - g.length) + 1 := by
  have hlen := g.length_pos
  have hnow := Word.toInt_bounds now
  rw [cutoff, Word.addSat, Word.toInt_nearest, Span.before, Word.subSat, Word.toInt_nearest,
    show (1 : Int64).toInt = 1 from rfl]
  rw [length] at *
  simp only [Word.least, Word.greatest] at *
  omega

/-- **A window is closed** when its end is reached. -/
theorem lt_cutoff_iff {now start : Int64} (h : g.Reaches now) :
    start < g.cutoff now ↔ start.toInt + g.length ≤ now.toInt := by
  rw [Int64.lt_iff_toInt_lt, toInt_cutoff]
  unfold Reaches at h
  omega

/-- A window is closed if its end is reached, unless the end saturates at the greatest time,
    and if it begins at the least time. -/
theorem lt_cutoff_iff_of_ends {now start : Int64} :
    start < g.cutoff now ↔
      g.size.after start ≤ now ∧
          ¬ (now = Int64.maxValue ∧ Word.greatest < start.toInt + g.length) ∨
        start = Int64.minValue ∧ now < g.size.after start := by
  have hlen := g.length_pos
  have hlen' : g.length ≤ Word.greatest := (Word.toInt_bounds g.size.millis).2
  have hstart := Word.toInt_bounds start
  have hnow := Word.toInt_bounds now
  rw [← Int64.toInt_inj, ← Int64.toInt_inj, Int64.lt_iff_toInt_lt, Int64.lt_iff_toInt_lt,
    Int64.le_iff_toInt_le, toInt_cutoff, toInt_after_eq,
    show Int64.maxValue.toInt = Word.greatest from rfl,
    show Int64.minValue.toInt = Word.least from rfl]
  simp only [Word.least, Word.greatest] at *
  omega

end Grid

end StreamSql
