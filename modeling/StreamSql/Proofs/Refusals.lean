/-
  Commands that fail.

  * `step_of_failed`: a command that fails leaves the engine as it is;
  * `failed_leaves_no_trace`: it can be left out of a history, and an idle engine can still start
    a query.
-/
import StreamSql.Proofs.Effect

namespace StreamSql

theorem insertIdx_length_append {α : Type} (l₁ l₂ : List α) (a : α) :
    (l₁ ++ l₂).insertIdx l₁.length a = l₁ ++ a :: l₂ := by
  induction l₁ with
  | nil => rfl
  | cons b l₁ ih => exact congrArg (b :: ·) ih

namespace Engine

theorem after_append (e : Engine) (past future : List Command) :
    e.after (past ++ future) = (e.after past).after future := by
  induction past generalizing e with
  | nil => rfl
  | cons c past ih => exact ih (e.step c).2

theorem replies_append (e : Engine) (past future : List Command) :
    e.replies (past ++ future) = e.replies past ++ (e.after past).replies future := by
  induction past generalizing e with
  | nil => rfl
  | cons c past ih => exact congrArg ((e.step c).1 :: ·) (ih (e.step c).2)

theorem length_replies (e : Engine) (cs : List Command) :
    (e.replies cs).length = cs.length := by
  induction cs generalizing e with
  | nil => rfl
  | cons c cs ih => exact congrArg (· + 1) (ih (e.step c).2)

/-- **A command that fails** leaves the engine as it is. -/
theorem step_of_failed {e : Engine} {c : Command} {error : QueryError}
    (h : (e.step c).1 = .failed error) : (e.step c).2 = e := by
  have heffect := e.step_effect c
  generalize (e.step c).1 = reply at h heffect
  generalize (e.step c).2 = e' at heffect
  cases heffect with
  | refused | unreadable | absent => rfl
  | addSink => split at h <;> cases h
  | _ => cases h

/-- An idle engine starts every valid query. -/
theorem step_executeQuery {e : Engine} {query : Query} {config : Config} {plan : Plan}
    (hidle : e.phase = .idle)
    (hconfig : e.config.override ⟨e.environment, query.properties⟩ = .ok config)
    (hplan : Plan.build query e.registry = .ok plan) :
    e.step (.executeQuery true query) =
      (.done, { e with phase := .running (.start plan config e.timerClock) }) := by
  show e.reply (executeQuery true query) _ = _
  unfold executeQuery
  rw [reply_expectIdle_bind, hidle]
  simp only
  rw [reply_get_bind, reply_lift_bind, hconfig]
  simp only
  rw [reply_lift_bind, hplan]
  rfl

/-- **A failed command leaves no trace.**  The engine after it is the engine before it, with its
    phase, its counters, its windows and its queue.  What comes later is answered as if the command
    had not been given; an idle engine, above all, can still start every valid query. -/
theorem failed_leaves_no_trace {e : Engine} {past : List Command} {c : Command}
    {error : QueryError} (h : ((e.after past).step c).1 = .failed error) :
    ((e.after past).step c).2 = e.after past ∧
      (∀ future, e.replies (past ++ c :: future) =
          (e.replies (past ++ future)).insertIdx past.length (.failed error) ∧
        e.after (past ++ c :: future) = e.after (past ++ future)) ∧
      ∀ query config plan, (e.after past).phase = .idle →
        (e.after past).config.override ⟨(e.after past).environment, query.properties⟩ = .ok config →
        Plan.build query (e.after past).registry = .ok plan →
        ((e.after (past ++ [c])).step (.executeQuery true query)) = (.done, { e.after past with
          phase := .running (.start plan config (e.after past).timerClock) }) := by
  have hstep := step_of_failed h
  refine ⟨hstep, fun future => ⟨?_, ?_⟩, fun query config plan hidle hconfig hplan => ?_⟩
  · rw [replies_append, replies_append, ← e.length_replies past, insertIdx_length_append]
    show _ ++ ((e.after past).step c).1 :: ((e.after past).step c).2.replies future = _
    rw [h, hstep]
  · rw [after_append, after_append]
    show ((e.after past).step c).2.after future = _
    rw [hstep]
  · rw [after_append]
    show ((e.after past).step c).2.step _ = _
    rw [hstep]
    exact step_executeQuery hidle hconfig hplan

/-- An empty text, given to an idle engine as a query. -/
theorem failed_leaves_no_trace_empty_text :
    let e : Engine := { config := {}, registry := .standard 0 }
    let c : Command := .execute true ""
    ∃ error, (e.step c).1 = .failed error ∧
      ∀ future, e.replies (c :: future) = .failed error :: e.replies future := by
  intro e c
  have hinvalid : (Query.parse "").toOption.isNone := by decide +kernel
  cases hparse : Query.parse "" with
  | ok => rw [hparse] at hinvalid; cases hinvalid
  | error error =>
    have h : (e.step c).1 = .failed error := by
      show (e.reply (execute true "") _).1 = _
      unfold execute
      rw [reply_lift_bind, hparse]
    exact ⟨error, h, fun future => ((@failed_leaves_no_trace e [] c error h).2.1 future).1⟩

end Engine

end StreamSql
