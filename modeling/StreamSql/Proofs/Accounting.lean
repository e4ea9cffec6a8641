/-
  What the counters say about the records.

  The engine has one query in its life.  Every record that it accepts is counted once as received
  and once with its outcome, and the outcomes are those of the kind of the query.

  * `Accounts n qs e`: the counters of `e` after `n` accepted records and the started queries `qs`;
  * `accounts_step`, `accounts_after`: a step, and a history, keep the accounts;
  * `records_accounted`: the accounts of an engine from its beginning.
-/
import StreamSql.Proofs.Effect
import StreamSql.Proofs.Queue

namespace StreamSql

/-! ## The kind of a query at work -/

/-- The outcomes that records can have in a query with, or without, windows. -/
def Outcome.fits (hasWindows : Bool) : Outcome → Bool
  | .filtered => true
  | .windowed => hasWindows
  | .projected | .duplicate | .limitReached => !hasWindows

theorem RowRun.process_fits (r : RowRun) (record : Record) :
    (r.process record).1.outcome.fits false = true := by
  unfold RowRun.process
  split
  · rfl
  · simp only
    split <;> rfl

namespace Run

/-- A record leaves the kind of the query as it is, and its outcome is one of this kind. -/
theorem process_fits {r s : Run} {now : Int64} {record : Record} {processed : Processed}
    (h : r.process now record = .ok (processed, s)) :
    s.isWindowed = r.isWindowed ∧ processed.outcome.fits r.isWindowed = true := by
  unfold process at h
  split at h
  · cases r with
    | rows r =>
      cases h
      exact ⟨rfl, r.process_fits record⟩
    | windowed r =>
      obtain ⟨made, -, h⟩ := bind_eq_ok.1 h
      cases h
      exact ⟨rfl, rfl⟩
  · cases h
    exact ⟨rfl, rfl⟩

@[simp] theorem isWindowed_poll (r : Run) (now : Int64) :
    (r.poll now).2.isWindowed = r.isWindowed := by
  cases r <;> rfl

@[simp] theorem isWindowed_trigger (r : Run) : r.trigger.2.isWindowed = r.isWindowed := by
  cases r <;> rfl

@[simp] theorem isWindowed_discard (r : Run) : r.discard.2.isWindowed = r.isWindowed := by
  cases r <;> rfl

@[simp] theorem isSome_stats? (r : Run) : r.stats?.isSome = r.isWindowed := by
  cases r <;> rfl

theorem isWindowed_start (plan : Plan) (config : Config) :
    (start plan config).isWindowed = plan.window.isSome := by
  unfold start
  split <;> simp [isWindowed, *]

end Run

theorem Pipeline.isWindowed_finish (p : Pipeline) :
    p.finish.2.isWindowed = p.run.isWindowed := by
  unfold finish
  split <;> simp

/-! ## The counters of records -/

namespace Counters

/-- The counters after `n` records, of a query with or without windows. -/
structure Accounts (n : Nat) (hasWindows : Bool) (c : Counters) : Prop where
  received : c.received = n
  total : n = c.filtered + c.projected + c.windowed + c.duplicate + c.overLimit + c.errors
  windowed : hasWindows = true → c.projected = 0 ∧ c.duplicate = 0 ∧ c.overLimit = 0
  rows : hasWindows = false → c.windowed = 0

/-- The counters of records, without those of batches. -/
def ofRecords (c : Counters) : Counters :=
  { c with queued := 0, dropped := 0, delivered := 0, sinkPanics := 0 }

theorem accounts_ofRecords {n : Nat} {hasWindows : Bool} {c : Counters} :
    c.ofRecords.Accounts n hasWindows ↔ c.Accounts n hasWindows :=
  ⟨fun ⟨h₁, h₂, h₃, h₄⟩ => ⟨h₁, h₂, h₃, h₄⟩, fun ⟨h₁, h₂, h₃, h₄⟩ => ⟨h₁, h₂, h₃, h₄⟩⟩

namespace Accounts

variable {n : Nat} {hasWindows : Bool} {c : Counters}

/-- Before the first record, the query may be of either kind. -/
theorem of_zero (h : c.Accounts 0 hasWindows) (hasWindows' : Bool) : c.Accounts 0 hasWindows' := by
  have htotal := h.total
  exact ⟨h.received, htotal, fun _ => by omega, fun _ => by omega⟩

/-- A record more, with an outcome that fits the kind of the query. -/
theorem note {outcome : Outcome} (h : c.Accounts n hasWindows)
    (hfits : outcome.fits hasWindows = true) :
    ({ c with received := c.received + 1 }.note outcome).Accounts (n + 1) hasWindows := by
  obtain ⟨hreceived, htotal, hwindowed, hrows⟩ := h
  have hnext : c.received + 1 = n + 1 := congrArg (· + 1) hreceived
  cases outcome with
  | filtered => exact ⟨hnext, by simp only [Counters.note]; omega, hwindowed, hrows⟩
  | windowed =>
    obtain rfl : hasWindows = true := hfits
    exact ⟨hnext, by simp only [Counters.note]; omega, hwindowed, nofun⟩
  | projected | duplicate | limitReached =>
    obtain rfl : hasWindows = false := Bool.not_eq_true' _ ▸ hfits
    exact ⟨hnext, by simp only [Counters.note]; omega, nofun, hrows⟩

/-- A record more that could not be processed. -/
theorem spoil (h : c.Accounts n hasWindows) :
    Accounts (n + 1) hasWindows
      { c with received := c.received + 1, errors := c.errors + 1 } := by
  obtain ⟨hreceived, htotal, hwindowed, hrows⟩ := h
  exact ⟨congrArg (· + 1) hreceived, congrArg (· + 1) htotal, hwindowed, hrows⟩

end Accounts

end Counters

/-! ## What leaves the accounts as they are -/

/-- The query of this phase has windows. -/
def Phase.hasWindows : Phase → Bool
  | idle => false
  | running p | stopping p _ => p.run.isWindowed
  | closing _ stats _ | stopped stats => stats.isSome

theorem Phase.hasWindows_withPipeline {phase : Phase} {p q : Pipeline}
    (hp : phase.pipeline? = some p) (hq : q.run.isWindowed = p.run.isWindowed) :
    (phase.withPipeline q).hasWindows = phase.hasWindows := by
  cases phase with
  | idle | stopped => cases hp
  | running | stopping =>
    cases hp
    exact hq
  | closing => rfl

theorem Phase.hasWindows_starve (phase : Phase) : phase.starve.hasWindows = phase.hasWindows := by
  unfold starve
  split <;> rfl

theorem Phase.starve_eq_idle {phase : Phase} : phase.starve = .idle ↔ phase = .idle := by
  unfold starve
  split <;> simp

theorem Phase.withPipeline_eq_idle {phase : Phase} {p : Pipeline} :
    phase.withPipeline p = .idle ↔ phase = .idle := by
  cases phase <;> simp [withPipeline]

namespace Engine

/-- `e'` has the query of `e`, and no record more. -/
structure Quiet (e e' : Engine) : Prop where
  records : e'.counters.ofRecords = e.counters.ofRecords
  hasWindows : e'.phase.hasWindows = e.phase.hasWindows
  idle : e'.phase = .idle → e.phase = .idle

namespace Quiet

variable {e e' e'' : Engine}

theorem refl (e : Engine) : Quiet e e :=
  ⟨rfl, rfl, id⟩

theorem trans (h : Quiet e e') (h' : Quiet e' e'') : Quiet e e'' :=
  ⟨h'.records.trans h.records, h'.hasWindows.trans h.hasWindows, h.idle ∘ h'.idle⟩

theorem deliver (e : Engine) (batches : List Batch) : Quiet e (e.deliver batches).2 := by
  obtain ⟨panics, h⟩ := e.deliver_eq batches
  rw [h]
  exact ⟨rfl, rfl, id⟩

section

variable {p q : Pipeline} (hp : e.phase.pipeline? = some p)
  (hq : q.run.isWindowed = p.run.isWindowed)

include hp hq

theorem withPipeline : Quiet e { e with phase := e.phase.withPipeline q } :=
  ⟨rfl, Phase.hasWindows_withPipeline hp hq, Phase.withPipeline_eq_idle.1⟩

theorem enqueue (batches : List Batch) : Quiet e (e.enqueue q batches) := by
  unfold Engine.enqueue
  rw [Pipeline.pushAll_eq]
  exact ⟨rfl, Phase.hasWindows_withPipeline hp hq, Phase.withPipeline_eq_idle.1⟩

end

theorem dispatch (e : Engine) : Quiet e e.dispatch.2 := by
  unfold Engine.dispatch
  split
  · next p hp =>
    split
    · exact ⟨rfl, Phase.hasWindows_starve _, Phase.starve_eq_idle.1⟩
    · refine trans ?_ (deliver _ _)
      exact withPipeline (Phase.pipeline?_of_served? hp) rfl
  · exact .refl e

theorem drain (e : Engine) : Quiet e e.drain.2 := by
  unfold Engine.drain
  split
  · next p hp =>
    refine trans ?_ (deliver _ _)
    exact withPipeline (Phase.pipeline?_of_served? hp) rfl
  · exact .refl e

theorem pass (e : Engine) (millis : Nat) : Quiet e (e.pass millis) :=
  ⟨rfl, rfl, id⟩

theorem ring (e : Engine) : Quiet e e.ring := by
  unfold Engine.ring
  split
  · next p hp =>
    split
    · split
      · exact enqueue hp (p.run.isWindowed_poll e.clock) _
      · exact .refl e
    · exact .refl e
  · exact .refl e

theorem tick (e : Engine) (millis : Nat) : Quiet e (e.tick millis).2 :=
  (((drain e).trans (pass _ millis)).trans (ring _)).trans (drain _)

theorem beginStop (e : Engine) : Quiet e e.beginStop := by
  unfold Engine.beginStop
  split
  · next h => exact ⟨rfl, by rw [h]; rfl, nofun⟩
  · next p h => exact ⟨rfl, by rw [h]; exact p.isWindowed_finish, nofun⟩
  all_goals exact .refl e

theorem flush (e : Engine) : Quiet e e.flush := by
  unfold Engine.flush
  split
  · next h =>
    split
    · exact ⟨rfl, by rw [h]; rfl, nofun⟩
    · exact .refl e
  · exact .refl e

theorem signal (e : Engine) : Quiet e e.signal := by
  unfold Engine.signal
  split
  · next p h => exact ⟨rfl, by rw [h]; exact p.run.isSome_stats?, nofun⟩
  · exact .refl e

theorem endTimer (e : Engine) : Quiet e e.endTimer := by
  unfold Engine.endTimer
  split
  · next h => exact ⟨rfl, by rw [h]; rfl, nofun⟩
  · exact .refl e

theorem endStop (e : Engine) : Quiet e e.endStop := by
  unfold Engine.endStop
  split
  · next h =>
    split
    · exact ⟨rfl, by rw [h]; rfl, nofun⟩
    · exact .refl e
  · exact .refl e

theorem settle (e : Engine) : Quiet e e.settle.2 := by
  unfold Engine.settle
  split
  · next p unsent h =>
    refine trans ?_ (deliver _ _)
    exact ⟨rfl, by rw [h]; exact p.run.isSome_stats?, nofun⟩
  · next h =>
    refine trans ?_ (deliver _ _)
    exact ⟨rfl, by rw [h]; rfl, nofun⟩
  · exact .refl e

theorem stop (e : Engine) : Quiet e e.stop.2 := by
  unfold Engine.stop
  cases e.phase with
  | idle | running => exact (beginStop e).trans (settle _)
  | stopping | closing | stopped => exact .refl e

end Quiet

/-! ## Accounts -/

/-- The engine after `n` records were accepted and the queries `qs` were started. -/
structure Accounts (n : Nat) (qs : List Query) (e : Engine) : Prop where
  counters : e.counters.Accounts n e.phase.hasWindows
  idle : e.phase = .idle → n = 0 ∧ qs = []
  queries : ∀ q ∈ qs, q.window.isSome = e.phase.hasWindows

namespace Accounts

variable {n : Nat} {qs : List Query} {e e' : Engine}

theorem of_quiet (h : e.Accounts n qs) (hquiet : Quiet e e') : e'.Accounts n qs := by
  refine ⟨?_, fun hidle => h.idle (hquiet.idle hidle), ?_⟩
  · rw [← Counters.accounts_ofRecords, hquiet.records, hquiet.hasWindows,
      Counters.accounts_ofRecords]
    exact h.counters
  · rw [hquiet.hasWindows]
    exact h.queries

/-- The only query is started. -/
theorem start (h : e.Accounts n qs) {q : Query} {p : Pipeline} (hidle : e.phase = .idle)
    (hq : q.window.isSome = p.run.isWindowed) :
    { e with phase := .running p }.Accounts n (qs ++ [q]) := by
  obtain ⟨rfl, rfl⟩ := h.idle hidle
  exact ⟨h.counters.of_zero _, nofun, by simpa [Phase.hasWindows] using hq⟩

/-- A record is taken in, and its batches are put into the queue. -/
theorem take (h : e.Accounts n qs) {p : Pipeline} {run : Run} {outcome : Outcome}
    (hp : e.phase = .running p) (hrun : run.isWindowed = p.run.isWindowed)
    (hfits : outcome.fits p.run.isWindowed = true) (batches : List Batch) :
    (enqueue { e with counters :=
        { e.counters with received := e.counters.received + 1 }.note outcome }
      { p with run } batches).Accounts (n + 1) qs := by
  have hkind : e.phase.hasWindows = p.run.isWindowed := by rw [hp]; rfl
  refine of_quiet (e := { e with counters :=
    { e.counters with received := e.counters.received + 1 }.note outcome }) ?_
    (.enqueue (p := p) (by rw [hp]; rfl) hrun batches)
  exact ⟨h.counters.note (hkind ▸ hfits), fun hidle => (nomatch hp.symm.trans hidle), h.queries⟩

/-- A record is taken in and cannot be processed. -/
theorem spoil (h : e.Accounts n qs) {p : Pipeline} (hp : e.phase = .running p) :
    { e with counters :=
      { e.counters with
        received := e.counters.received + 1
        errors := e.counters.errors + 1 } }.Accounts (n + 1) qs :=
  ⟨h.counters.spoil, fun hidle => (nomatch hp.symm.trans hidle), h.queries⟩

end Accounts

end Engine

namespace Command

/-- The command brought a record, and the record was accepted. -/
def isAccepted : Command → Reply → Bool
  | .emit _, .done | .emitText _, .done => true
  | _, _ => false

/-- The query that the command started, if it did. -/
def started? (c : Command) : Reply → Option Query
  | .done => c.query?
  | _ => none

theorem isAccepted_failed (c : Command) (error : QueryError) :
    c.isAccepted (.failed error) = false := by
  cases c <;> rfl

theorem isAccepted_done {c : Command} {record : Record} (h : c.record? = some record) :
    c.isAccepted .done = true ∧ c.started? .done = none := by
  cases c with
  | emit | emitText => exact ⟨rfl, rfl⟩
  | _ => cases h

theorem isAccepted_of_query {c : Command} {query : Query} (h : c.query? = some query) :
    c.isAccepted .done = false := by
  cases c with
  | execute | executeQuery => rfl
  | _ => cases h

end Command

namespace Engine

/-- The number of records accepted in a history. -/
def accepted (e : Engine) (cs : List Command) : Nat :=
  (cs.zip (e.replies cs)).countP fun (c, reply) => c.isAccepted reply

/-- The queries started in a history. -/
def started (e : Engine) (cs : List Command) : List Query :=
  (cs.zip (e.replies cs)).filterMap fun (c, reply) => c.started? reply

/-- **A step keeps the accounts.** -/
theorem accounts_step {n : Nat} {qs : List Query} {e : Engine} (h : e.Accounts n qs)
    (c : Command) :
    (e.step c).2.Accounts ((c.isAccepted (e.step c).1).toNat + n)
      (qs ++ (c.started? (e.step c).1).toList) := by
  have heffect := e.step_effect c
  generalize (e.step c).1 = reply at heffect ⊢
  generalize (e.step c).2 = e' at heffect ⊢
  -- a command that brings no record and starts no query leaves the accounts as they are
  have hquiet : Quiet e e' → c.isAccepted reply = false → c.started? reply = none →
      e'.Accounts ((c.isAccepted reply).toNat + n) (qs ++ (c.started? reply).toList) := by
    intro hquiet haccepted hstarted
    rw [haccepted, hstarted]
    simpa using h.of_quiet hquiet
  cases heffect with
  | refused | unreadable | absent => exact hquiet (.refl e) (Command.isAccepted_failed _ _) rfl
  | started hc hidle _ hplan =>
    rw [Command.isAccepted_of_query hc, Command.started?, hc]
    refine (Nat.zero_add n).symm ▸ h.start hidle ?_
    rw [← Plan.window_of_build hplan]
    exact (Run.isWindowed_start _ _).symm
  | taken hc hp hprocess =>
    obtain ⟨haccepted, hstarted⟩ := Command.isAccepted_done hc
    obtain ⟨hkind, hfits⟩ := Run.process_fits hprocess
    rw [haccepted, hstarted, Option.toList_none, List.append_nil, Nat.add_comm]
    exact h.take hp hkind hfits _
  | spoiled hc hp =>
    obtain ⟨haccepted, hstarted⟩ := Command.isAccepted_done hc
    rw [haccepted, hstarted, Option.toList_none, List.append_nil, Nat.add_comm]
    exact h.spoil hp
  | triggered hp =>
    exact hquiet (.enqueue (by rw [hp]; rfl) (Run.isWindowed_trigger _) _) rfl rfl
  | polled hp =>
    exact hquiet (.enqueue (by rw [hp]; rfl) (Run.isWindowed_poll _ _) _) rfl rfl
  | addSink =>
    refine hquiet ⟨rfl, rfl, id⟩ rfl ?_
    split <;> rfl
  | setClock | advanceClock => exact hquiet ⟨rfl, rfl, id⟩ rfl rfl
  | dispatch => exact hquiet (.dispatch e) rfl rfl
  | drain => exact hquiet (.drain e) rfl rfl
  | pass millis => exact hquiet (.pass e millis) rfl rfl
  | ring => exact hquiet (.ring e) rfl rfl
  | tick millis => exact hquiet (.tick e millis) rfl rfl
  | beginStop => exact hquiet (.beginStop e) rfl rfl
  | flush => exact hquiet (.flush e) rfl rfl
  | signal => exact hquiet (.signal e) rfl rfl
  | endTimer => exact hquiet (.endTimer e) rfl rfl
  | endStop => exact hquiet (.endStop e) rfl rfl
  | stop => exact hquiet (.stop e) rfl rfl

/-- **A history keeps the accounts.** -/
theorem accounts_after {n : Nat} {qs : List Query} {e : Engine} (h : e.Accounts n qs)
    (cs : List Command) : (e.after cs).Accounts (e.accepted cs + n) (qs ++ e.started cs) := by
  induction cs generalizing n qs e with
  | nil => simpa [accepted, started, after] using h
  | cons c cs ih =>
    have haccepted : e.accepted (c :: cs) + n =
        (e.step c).2.accepted cs + ((c.isAccepted (e.step c).1).toNat + n) := by
      simp only [accepted, replies, List.zip_cons_cons, List.countP_cons]
      cases c.isAccepted (e.step c).1 <;> simp [Nat.add_assoc, Nat.add_comm 1]
    have hstarted : qs ++ e.started (c :: cs) =
        qs ++ (c.started? (e.step c).1).toList ++ (e.step c).2.started cs := by
      simp only [started, replies, List.zip_cons_cons, List.filterMap_cons]
      cases c.started? (e.step c).1 <;> simp
    rw [haccepted, hstarted]
    exact ih (accounts_step h c)

/-- **Every record is accounted for.**  After whatever commands, the records received are those of
    the accepted commands, and each of them has one outcome.  A query with windows projects no
    record, drops none as a duplicate and counts none as over its limit; a query without windows
    folds no record into windows. -/
theorem records_accounted {e : Engine} (hfresh : e.counters = {}) (cs : List Command) :
    (e.after cs).counters.received = e.accepted cs ∧
      (e.after cs).counters.received =
        (e.after cs).counters.filtered + (e.after cs).counters.projected +
          (e.after cs).counters.windowed + (e.after cs).counters.duplicate +
          (e.after cs).counters.overLimit + (e.after cs).counters.errors ∧
      ∀ q ∈ e.started cs,
        (q.window.isSome = true → (e.after cs).counters.projected = 0 ∧
          (e.after cs).counters.duplicate = 0 ∧ (e.after cs).counters.overLimit = 0) ∧
        (q.window.isSome = false → (e.after cs).counters.windowed = 0) := by
  have hbegin : e.Accounts 0 [] :=
    ⟨by rw [hfresh]; exact ⟨rfl, rfl, fun _ => ⟨rfl, rfl, rfl⟩, fun _ => rfl⟩, fun _ => ⟨rfl, rfl⟩,
      nofun⟩
  obtain ⟨⟨hreceived, htotal, hwindowed, hrows⟩, -, hqueries⟩ := accounts_after hbegin cs
  refine ⟨hreceived, hreceived.trans htotal, fun q hq => ?_⟩
  rw [hqueries q hq]
  exact ⟨hwindowed, hrows⟩

end Engine

/-- The first record as it is. -/
def Query.first : Query where
  fields := [.wildcard]
  distinct := false
  source := "s"
  condition := none
  groupBy := []
  window := none
  having := none
  limit := some 1
  properties := []

/-- Two of four records are accepted: the first comes too early, and the last too late. -/
theorem Engine.records_accounted_first :
    let e : Engine := { config := {}, registry := .standard 0 }
    let cs : List Command := [.emit ⟨[]⟩, .executeQuery true .first,
      .emit ⟨[("v", .integer 5)]⟩, .emit ⟨[("v", .integer 7)]⟩, .stop, .emit ⟨[]⟩]
    e.counters = {} ∧ (e.after cs).counters.received = 2 ∧ (e.after cs).counters.windowed = 0 := by
  intro e cs
  have hfresh : e.counters = {} := rfl
  obtain ⟨hreceived, -, hkind⟩ := records_accounted hfresh cs
  have haccepted : e.accepted cs = 2 := by rfl
  have hstarted : Query.first ∈ e.started cs := List.mem_singleton_self _
  exact ⟨hfresh, hreceived.trans haccepted, (hkind _ hstarted).2 rfl⟩

end StreamSql
