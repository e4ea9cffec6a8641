/-
  Windows at fixed places on the time line, shared by all groups.

  Tumbling windows follow one another without gap; sliding windows have one size and begin at
  every multiple of the slide.  Both are open from the first record that falls into them
  until the time has passed their end.

  * `Grid.starts g t`: the beginnings of the windows that contain `t`, in ascending order;
  * `OpenStarts`: the open windows by their beginning, in ascending order;
  * `AlignedWindows`: a grid with its open windows.

  All times are words and saturate.
-/
import StreamSql.Window.Assignment

namespace StreamSql

/-! ## Where windows begin -/

/-- The places of windows on the time line. -/
inductive Grid where
  | tumbling (size : Span)
  | sliding (size slide : Span)

namespace Grid

/-- The size of each window. -/
def size : Grid → Span
  | tumbling size => size
  | sliding size _ => size

/-- The whole numbers from `first` to `last`. -/
def indices (first last : Int) : List Int :=
  (List.range (last - first + 1).toNat).map fun (i : Nat) => first + i

/-- The beginnings of the windows that contain a time. -/
def starts (g : Grid) (time : Int64) : List Int64 :=
  match g with
  | tumbling size => [size.multiple (size.index time)]
  | sliding size slide =>
    ((indices (slide.index (size.before time) + 1) (slide.index time)).map slide.multiple).filter
      fun start => time < size.after start

/-- The window that begins at `start`. -/
def bounds (g : Grid) (start : Int64) : Bounds :=
  ⟨start, g.size.after start⟩

/-- The time from which on windows stay open although the time is `now`. -/
def cutoff (g : Grid) (now : Int64) : Int64 :=
  Word.addSat (g.size.before now) 1

end Grid

/-! ## Open windows by their beginning -/

/-- The numbers of the open windows by their beginning, and the number of the next one. -/
structure OpenStarts where
  rows : List (Int64 × Nat) := []
  next : Nat := 0

namespace OpenStarts

/-- The number of the window that begins at `start`. -/
def find? (start : Int64) : List (Int64 × Nat) → Option Nat
  | [] => none
  | (s, id) :: rest => if s = start then some id else find? start rest

/-- A new row at its place in the ascending order. -/
def place (start : Int64) (id : Nat) : List (Int64 × Nat) → List (Int64 × Nat)
  | [] => [(start, id)]
  | (s, i) :: rest =>
    if start < s then (start, id) :: (s, i) :: rest else (s, i) :: place start id rest

/-- The number of the window that begins at `start`, opened if need be. -/
def enter (t : OpenStarts) (start : Int64) : Nat × OpenStarts :=
  match find? start t.rows with
  | some id => (id, t)
  | none => (t.next, ⟨place start t.next t.rows, t.next + 1⟩)

end OpenStarts

/-! ## The windows of a grid -/

/-- A grid with its open windows. -/
structure AlignedWindows where
  grid : Grid
  starts : OpenStarts := {}

namespace AlignedWindows

/-- The window of a row. -/
def window (w : AlignedWindows) (row : Int64 × Nat) : Window :=
  ⟨row.2, w.grid.bounds row.1⟩

/-- The open windows in the order of their beginnings. -/
def opened (w : AlignedWindows) : List Window :=
  w.starts.rows.map w.window

/-- The windows that begin at the given times, opened if need be. -/
def enterAll (w : AlignedWindows) : List Int64 → List Window × AlignedWindows
  | [] => ([], w)
  | start :: rest =>
    let (id, starts) := w.starts.enter start
    let (windows, w) := enterAll { w with starts } rest
    (w.window (start, id) :: windows, w)

/-- The windows that contain a time. -/
def assign (w : AlignedWindows) (time : Int64) : Assignment × AlignedWindows :=
  let (windows, w) := w.enterAll (w.grid.starts time)
  (⟨windows, []⟩, w)

/-- The rows that a test selects leave as closed windows. -/
def closeWhere (w : AlignedWindows) (due : Int64 → Bool) : List Window × AlignedWindows :=
  ((w.starts.rows.filter fun row => due row.1).map w.window,
    { w with starts.rows := w.starts.rows.filter fun row => !due row.1 })

/-- The windows that begin before the cutoff of the time close. -/
def closeDue (w : AlignedWindows) (now : Int64) : List Window × AlignedWindows :=
  w.closeWhere (· < w.grid.cutoff now)

/-- All windows close. -/
def closeAll (w : AlignedWindows) : List Window × AlignedWindows :=
  w.closeWhere fun _ => true

end AlignedWindows

end StreamSql
