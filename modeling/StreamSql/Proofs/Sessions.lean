/-
  Sessions with their arrivals.

  * `Session.Of`: the session of some arrivals; `sessionBounds`: its bounds;
  * `Book.expire`, `Book.join`, `Book.closeWhere`: the sessions of a query, with their arrivals,
    when the time of a record ends one, when a record joins one, and when a test selects some;
  * `Ledger.Sessions`: a ledger of sessions with its book; `settle_sessions`, `fireDue_sessions`,
    `arrive_sessions`: what happens to the ledger happens to the book.
-/
import StreamSql.Proofs.Book

namespace StreamSql

/-! ## Sessions with their arrivals -/

/-- The bounds of a session of these arrivals: from the first up to one gap after the last. -/
def sessionBounds (gap : Span) (as : List Arrival) : Bounds :=
  ⟨(as.head?.map Arrival.time).getD 0, gap.after ((as.getLast?.map Arrival.time).getD 0)⟩

/-- A session that fired. -/
def Firing.ofSession (gap : Span) (v : Session × List Arrival) : Firing :=
  ⟨v.1.window gap, v.2⟩

namespace Session

/-- The session of these arrivals. -/
structure Of (s : Session) (as : List Arrival) : Prop where
  earliest : as.head?.map Arrival.time = some s.earliest
  latest : as.getLast?.map Arrival.time = some s.latest

theorem of_singleton (id : Nat) (a : Arrival) : Of ⟨id, a.time, a.time⟩ [a] :=
  ⟨rfl, rfl⟩

variable {s : Session} {as : List Arrival}

theorem Of.ne_nil (h : s.Of as) : as ≠ [] := fun he => by
  have hearliest := h.earliest
  rw [he] at hearliest
  cases hearliest

theorem Of.latest_eq (h : s.Of as) {x : Arrival} (hx : x ∈ as.getLast?) : x.time = s.latest :=
  Option.some.inj ((congrArg (Option.map Arrival.time) hx).symm.trans h.latest)

theorem Of.bounds (h : s.Of as) (gap : Span) : (s.window gap).bounds = sessionBounds gap as := by
  rw [sessionBounds, h.earliest, h.latest]
  rfl

theorem Of.extend (h : s.Of as) {a : Arrival} (hle : ∀ x ∈ as, x.time.toInt ≤ a.time.toInt) :
    (s.extend a.time).Of (as ++ [a]) := by
  obtain ⟨first, rest, rfl⟩ := List.exists_cons_of_ne_nil h.ne_nil
  have hlast := List.getLast?_eq_some_getLast h.ne_nil
  have hearliest : s.earliest ≤ a.time := by
    rw [← Option.some.inj h.earliest, Int64.le_iff_toInt_le]
    exact hle first List.mem_cons_self
  have hlatest : s.latest ≤ a.time := by
    rw [← h.latest_eq hlast, Int64.le_iff_toInt_le]
    exact hle _ (List.getLast_mem h.ne_nil)
  refine ⟨?_, ?_⟩
  · show some first.time = some (min s.earliest a.time)
    rw [show min s.earliest a.time = s.earliest from if_pos hearliest]
    exact h.earliest
  · rw [List.getLast?_append]
    show some a.time = some (max s.latest a.time)
    rw [show max s.latest a.time = a.time from if_pos hlatest]

end Session

namespace Book

/-- The session of the group ends if the time is past its end. -/
def expire (b : Book Session) (gap : Span) (time : Int64) (key : GroupKey) :
    List (Session × List Arrival) × Book Session :=
  match b.get? key with
  | some v => if v.1.stop gap < time then ([v], b.erase key) else ([], b)
  | none => ([], b)

/-- The arrival joins the session of its group, or opens one. -/
def join (b : Book Session) (next : Nat) (a : Arrival) (key : GroupKey) : Book Session :=
  match b.get? key with
  | some v => b.insert key (v.1.extend a.time, v.2 ++ [a])
  | none => b.insert key (⟨next, a.time, a.time⟩, [a])

/-- The sessions that a test selects end. -/
def closeWhere (b : Book Session) (due : Session → Bool) :
    List (Session × List Arrival) × Book Session :=
  ((b.filter fun row => due row.2.1).map Prod.snd, b.filter fun row => !due row.2.1)

end Book

namespace Ledger

variable {j : Job} {l : Ledger} {w : SessionWindows} {b : Book Session}

/-- The ledger has sessions, which are those of the book. -/
structure Sessions (l : Ledger) (w : SessionWindows) (b : Book Session) : Prop where
  windows : l.windows = .session w
  inOrder : w.opened.InOrder w.order
  opened : w.opened = b.states
  holds : l.Holds Session.id b
  below : ∀ v ∈ b.map Prod.snd, v.1.id < w.next

/-- The time of a record ends the session of its group in the book as in the ledger. -/
theorem Sessions.expire (h : l.Sessions w b) (time : Int64) (key : GroupKey) :
    (w.expire time key).1 = (b.expire w.gap time key).1.map (fun v => v.1.window w.gap) ∧
      (w.expire time key).2.opened = (b.expire w.gap time key).2.states ∧
      (w.expire time key).2.gap = w.gap ∧ (w.expire time key).2.next = w.next ∧
      (b.map Prod.snd).Perm
        ((b.expire w.gap time key).1 ++ (b.expire w.gap time key).2.map Prod.snd) := by
  rw [SessionWindows.expire, h.opened, b.get?_states, Book.expire]
  cases hg : b.get? key with
  | none => exact ⟨rfl, h.opened, rfl, rfl, List.Perm.refl _⟩
  | some v =>
    by_cases hover : v.1.stop w.gap < time
    · simp only [Option.map_some, if_pos hover]
      exact ⟨rfl, b.erase_states key, trivial, trivial, Groups.perm_erase hg⟩
    · simp only [Option.map_some, if_neg hover]
      exact ⟨rfl, h.opened, trivial, trivial, List.Perm.refl _⟩

end Ledger

end StreamSql
