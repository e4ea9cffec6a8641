/-
  The queue of batches.

  * `Pipeline.admitted p batches`: those of the batches that find room in the queue;
  * `pushAll_eq`: what they and the others do to the queue and the counters;
  * `deliver_eq`: batches are given to the sinks in order, and counted.
-/
import Mathlib.Tactic.Common
import StreamSql.Engine

namespace StreamSql

namespace Pipeline

/-- The batches that find room in the queue, when they come one after the other. -/
def admitted (p : Pipeline) : List Batch → List Batch
  | [] => []
  | b :: rest =>
    if p.hasRoom then b :: { p with queue := p.queue ++ [b] }.admitted rest else p.admitted rest

theorem admitted_sublist (p : Pipeline) (batches : List Batch) :
    (p.admitted batches).Sublist batches := by
  induction batches generalizing p with
  | nil => exact .refl _
  | cons b rest ih =>
    unfold admitted
    split
    · exact (ih _).cons_cons b
    · exact (ih p).cons b

/-- Room is a matter of the queue and its capacity alone. -/
theorem admitted_congr {p q : Pipeline} (hqueue : q.queue = p.queue) (hconfig : q.config = p.config)
    (batches : List Batch) : q.admitted batches = p.admitted batches := by
  induction batches generalizing p q with
  | nil => rfl
  | cons b rest ih =>
    have hroom : q.hasRoom = p.hasRoom := by rw [hasRoom, hqueue, hconfig, hasRoom]
    have hpushed : Pipeline.admitted { q with queue := q.queue ++ [b] } rest =
        Pipeline.admitted { p with queue := p.queue ++ [b] } rest :=
      ih (congrArg (· ++ [b]) hqueue) hconfig
    unfold admitted
    rw [hroom, hpushed, ih hqueue hconfig]

/-- **Batches with room** are put into the queue, and the others are counted. -/
theorem pushAll_eq (p : Pipeline) (c : Counters) (batches : List Batch) :
    p.pushAll c batches =
      ({ p with queue := p.queue ++ p.admitted batches },
        { c with
          queued := c.queued + (p.admitted batches).length
          dropped := c.dropped + (batches.length - (p.admitted batches).length) }) := by
  induction batches generalizing p c with
  | nil => simp [pushAll, admitted]
  | cons b rest ih =>
    unfold pushAll push admitted
    cases hroom : p.hasRoom with
    | true => simp [ih, Nat.add_assoc, Nat.add_comm 1]
    | false =>
      have hle : (p.admitted rest).length ≤ rest.length := (p.admitted_sublist rest).length_le
      simp [ih]
      omega

/-- The queue stays within its capacity. -/
theorem length_admitted_le (p : Pipeline) (batches : List Batch)
    (h : p.queue.length ≤ p.config.queueCapacity.toNat) :
    p.queue.length + (p.admitted batches).length ≤ p.config.queueCapacity.toNat := by
  induction batches generalizing p with
  | nil => exact h
  | cons b rest ih =>
    unfold admitted
    split
    · next hroom =>
      have hlt : p.queue.length < p.config.queueCapacity.toNat := of_decide_eq_true hroom
      have := ih { p with queue := p.queue ++ [b] } (by simpa using Nat.succ_le_of_lt hlt)
      simp at this ⊢
      omega
    · exact ih p h

end Pipeline

namespace Engine

/-- **Batches are delivered in order** to every recorded sink, whatever the sinks do. -/
theorem deliver_eq (e : Engine) (batches : List Batch) :
    ∃ panics, e.deliver batches =
      (batches.flatMap (Delivery.toAll e.sinks), { e with
        counters.delivered := e.counters.delivered + batches.length
        counters.sinkPanics := panics }) := by
  induction batches generalizing e with
  | nil => exact ⟨_, rfl⟩
  | cons b rest ih =>
    obtain ⟨panics, h⟩ := ih { e with
      counters.delivered := e.counters.delivered + 1
      counters.sinkPanics :=
        e.counters.sinkPanics + Sink.panickers e.sinks e.counters.delivered b }
    refine ⟨panics, ?_⟩
    unfold deliver
    rw [h]
    simp only [List.flatMap_cons, List.length_cons]
    rw [Nat.add_right_comm]
    rfl

end Engine

end StreamSql
