import Tractor.Net.TimerQueue

/-!
When the timers of a `TimerQueue` run.

What the queue is for is said of the record alone: a timer that was added after `r` calls of
`handleRead` meets the clocks of the later calls one by one (`Timer.after`), and a call runs
the timers that are due when it starts, and those only (`Due`).  The queue keeps up with that
in every reachable state (`Tracked`): outside `handleRead`, `timers_` holds what is pending;
inside, what is pending and not in the expired batch.

* `Timer.fire`, `Timer.after`, `TimerRecord.pending`: the pending timers.
* `Stored`, `Tracked`: the invariant, and what each step does to it; `Tracked.reset` is the end of
  `handleRead`, which inserts the repeating timers of the batch again.
* `Tracked.failure_eq_none`: no assertion fails.
* `FirstDue`: the first call behind the `r`-th whose clock is not before `e`;
  `TimerRecord.dueAt_iff` says in these terms when a pending timer is due.
* `RunsWhenDue`, `Tracked.runsWhenDue`: **timers run exactly when they are due.**
-/

namespace Tractor

open Library

namespace Timer

/-- What a call of `handleRead` at `now` leaves of a timer that waits. -/
def fire (t : Timer) (now : ℤ) : Option Timer :=
  if t.expiration ≤ now then
    if t.getRepeat then some (t.restart now) else none
  else some t

/-- What calls of `handleRead` at these clocks leave of a timer. -/
def after (t : Timer) (clocks : List ℤ) : Option Timer := clocks.foldlM fire t

variable {t t' : Timer} {now : ℤ}

lemma fire_of_lt (h : now < t.expiration) : t.fire now = some t := if_neg h.not_ge

lemma fire_repeat (h : t.expiration ≤ now) (hrep : t.getRepeat = true) :
    t.fire now = some ⟨now + t.interval, t.interval⟩ := by
  rw [fire, if_pos h, if_pos hrep, restart_repeat hrep]

lemma fire_once (h : t.expiration ≤ now) (hrep : t.getRepeat = false) : t.fire now = none := by
  rw [fire, if_pos h, if_neg (by simp [hrep])]

/-- **What a call can leave of a timer**: the timer itself if it is not due, and otherwise the
next round of a repeating one. -/
lemma fire_eq_some (h : t.fire now = some t') :
    now < t.expiration ∧ t' = t ∨
      t.expiration ≤ now ∧ t.getRepeat = true ∧ t' = ⟨now + t.interval, t.interval⟩ := by
  by_cases hdue : t.expiration ≤ now
  · cases hrep : t.getRepeat with
    | false =>
        rw [fire_once hdue hrep] at h
        exact absurd h (by simp)
    | true =>
        rw [fire_repeat hdue hrep] at h
        exact Or.inr ⟨hdue, rfl, (Option.some.inj h).symm⟩
  · rw [fire_of_lt (not_le.mp hdue)] at h
    exact Or.inl ⟨not_le.mp hdue, (Option.some.inj h).symm⟩

end Timer

namespace TimerRecord

/-- The timer at an address as it waits behind the calls at these clocks. -/
def pending (rec : TimerRecord) (clocks : List ℤ) (a : ℕ) : Option Timer :=
  (rec.added a).bind fun x => if x.1 ≤ clocks.length then x.2.after (clocks.drop x.1) else none

variable {rec : TimerRecord} {a r : ℕ} {t u : Timer} {clocks : List ℤ} {now : ℤ}

lemma pending_eq (h : rec.added a = some (r, t)) (hr : r ≤ clocks.length) :
    rec.pending clocks a = t.after (clocks.drop r) := by
  rw [pending, h, Option.bind_some, if_pos hr]

lemma pending_none (h : rec.added a = none) : rec.pending clocks a = none := by
  rw [pending, h, Option.bind_none]

/-- What is pending was added before. -/
lemma added_of_pending (h : rec.pending clocks a = some u) :
    ∃ r t, rec.added a = some (r, t) ∧ r ≤ clocks.length ∧ t.after (clocks.drop r) = some u := by
  obtain ⟨⟨r, t⟩, hadd, hx⟩ := Option.bind_eq_some_iff.mp h
  simp only at hx
  split_ifs at hx with hr
  exact ⟨r, t, hadd, hr, hx⟩

lemma le_of_pending (hadd : rec.added a = some (r, t)) (h : rec.pending clocks a = some u) :
    r ≤ clocks.length := by
  obtain ⟨r', t', hadd', hr, -⟩ := added_of_pending h
  obtain ⟨rfl, rfl⟩ := Prod.mk.inj (Option.some.inj (hadd.symm.trans hadd'))
  exact hr

/-- One more call. -/
lemma pending_concat (hadd : ∀ r t, rec.added a = some (r, t) → r ≤ clocks.length) (now : ℤ) :
    rec.pending (clocks ++ [now]) a = (rec.pending clocks a).bind (Timer.fire · now) := by
  cases h : rec.added a with
  | none => rw [pending_none h, pending_none h, Option.bind_none]
  | some x =>
      obtain ⟨r, t⟩ := x
      have hr := hadd r t h
      rw [pending_eq h hr, pending_eq h (hr.trans (by simp)), List.drop_append_of_le_length hr,
        Timer.after, Timer.after, List.foldlM_append]
      cases List.foldlM Timer.fire t (clocks.drop r) with
      | none => rfl
      | some u =>
          show (List.foldlM Timer.fire u [now]) = u.fire now
          rw [List.foldlM_cons]
          cases u.fire now <;> rfl

/-- One more call, for what is pending before it. -/
lemma pending_concat_of_some (h : rec.pending clocks a = some u) (now : ℤ) :
    rec.pending (clocks ++ [now]) a = u.fire now := by
  rw [pending_concat (fun r t hadd => le_of_pending hadd h) now, h, Option.bind_some]

/-- The list holds the entries that are due for a call at `now` behind the calls at `clocks`,
each once and in order. -/
structure Due (rec : TimerRecord) (clocks : List ℤ) (now : ℤ) (l : List Entry) : Prop where
  sorted : l.Pairwise (· < ·)
  mem : ∀ e, e ∈ l ↔ ∃ t, rec.pending clocks e.second = some t ∧ t.expiration = e.first ∧
    e.first ≤ now

/-- No timer is due twice. -/
lemma Due.nodup {l : List Entry} (h : rec.Due clocks now l) : (l.map Entry.second).Nodup := by
  refine List.Nodup.map_on ?_ (h.sorted.imp fun hlt => hlt.ne)
  intro e he e' he' heq
  obtain ⟨t, ht, hexp, -⟩ := (h.mem e).mp he
  obtain ⟨t', ht', hexp', -⟩ := (h.mem e').mp he'
  rw [heq] at ht
  obtain rfl := Option.some.inj (ht.symm.trans ht')
  exact Entry.ext (hexp.symm.trans hexp') heq

/-- What is due does not depend on the timers that are added later. -/
lemma Due.of_pending {rec' : TimerRecord} {l : List Entry} (h : rec.Due clocks now l)
    (heq : ∀ a, rec'.pending clocks a = rec.pending clocks a) : rec'.Due clocks now l := by
  refine ⟨h.sorted, fun e => ?_⟩
  rw [heq]
  exact h.mem e

lemma added_add (a : ℕ) (t : Timer) (b : ℕ) :
    (rec.add a t).added b = if b = a then some (rec.reads.length, t) else rec.added b :=
  Function.update_apply _ _ _ _

/-- A timer that is added now was not pending behind fewer calls. -/
lemma pending_add_of_lt (hnew : rec.added a = none) (hlt : clocks.length < rec.reads.length)
    (b : ℕ) : (rec.add a t).pending clocks b = rec.pending clocks b := by
  rw [pending, added_add]
  split_ifs with hb
  · rw [hb, pending_none hnew, Option.bind_some, if_neg hlt.not_ge]
  · rfl

/-- From now on it is pending, and nothing else changes. -/
lemma pending_add (a : ℕ) (t : Timer) (b : ℕ) :
    (rec.add a t).pending rec.reads b = if b = a then some t else rec.pending rec.reads b := by
  rw [pending, added_add]
  split_ifs with hb
  · rw [Option.bind_some, if_pos le_rfl, List.drop_length]
    rfl
  · rfl

/-! ### The calls in which a timer is due -/

/-- The timer waits when the `j`-th call starts, and is due. -/
def DueAt (rec : TimerRecord) (a j : ℕ) : Prop :=
  ∃ u now, rec.pending (rec.reads.take j) a = some u ∧ rec.reads[j]? = some now ∧
    u.expiration ≤ now

/-- The `j`-th call is the first from the `r`-th on whose clock is at least `e`. -/
def FirstDue (rec : TimerRecord) (r : ℕ) (e : ℤ) (j : ℕ) : Prop :=
  r ≤ j ∧ (∃ now, rec.reads[j]? = some now ∧ e ≤ now) ∧
    ∀ i now, r ≤ i → i < j → rec.reads[i]? = some now → now < e

/-- The `j`-th call has run the timer. -/
def Runs (rec : TimerRecord) (a j : ℕ) : Prop := a ∈ (rec.ran j).map Entry.second

variable {i j : ℕ}

lemma pending_start (hadd : rec.added a = some (r, t)) (hr : r ≤ rec.reads.length) :
    rec.pending (rec.reads.take r) a = some t := by
  have hlen : (rec.reads.take r).length = r := List.length_take_of_le hr
  rw [pending_eq hadd hlen.ge, List.drop_of_length_le hlen.le]
  rfl

lemma pending_succ (hadd : rec.added a = some (r, t)) (hr : r ≤ j)
    (hj : rec.reads[j]? = some now) : rec.pending (rec.reads.take (j + 1)) a =
      (rec.pending (rec.reads.take j) a).bind (Timer.fire · now) := by
  obtain ⟨hlt, -⟩ := List.getElem?_eq_some_iff.mp hj
  have htake : rec.reads.take (j + 1) = rec.reads.take j ++ [now] := by
    rw [List.take_add_one, hj, Option.toList_some]
  rw [htake, pending_concat]
  intro r' t' hadd'
  obtain ⟨rfl, rfl⟩ := Prod.mk.inj (Option.some.inj (hadd.symm.trans hadd'))
  rwa [List.length_take_of_le hlt.le]

/-- **A timer stays as it is while it is not due.** -/
lemma pending_stays (hadd : rec.added a = some (r, t)) (hr : r ≤ i)
    (hi : rec.pending (rec.reads.take i) a = some u) (hij : i ≤ j) (hj : j ≤ rec.reads.length)
    (hlt : ∀ m now, i ≤ m → m < j → rec.reads[m]? = some now → now < u.expiration) :
    rec.pending (rec.reads.take j) a = some u := by
  induction j, hij using Nat.le_induction with
  | base => exact hi
  | succ j hij ih =>
      have hget : rec.reads[j]? = some (rec.reads.get ⟨j, hj⟩) := List.getElem?_eq_getElem hj
      rw [pending_succ hadd (hr.trans hij) hget, ih (by omega) fun m now hm hmj =>
        hlt m now hm (by omega), Option.bind_some]
      exact Timer.fire_of_lt (hlt j _ hij (Nat.lt_succ_self j) hget)

/-- **Where a pending timer comes from**: it is as it was added and was not due since; or it
was due in a call, was inserted again there and was not due since. -/
lemma pending_origin (hadd : rec.added a = some (r, t)) (hr : r ≤ j) (hj : j ≤ rec.reads.length)
    (hpend : rec.pending (rec.reads.take j) a = some u) :
    (u = t ∧ ∀ m now, r ≤ m → m < j → rec.reads[m]? = some now → now < t.expiration) ∨
      t.getRepeat = true ∧ ∃ i now, r ≤ i ∧ i < j ∧ rec.DueAt a i ∧ rec.reads[i]? = some now ∧
        u = ⟨now + t.interval, t.interval⟩ ∧
          ∀ m now', i < m → m < j → rec.reads[m]? = some now' → now' < now + t.interval := by
  induction j, hr using Nat.le_induction generalizing u with
  | base =>
      rw [pending_start hadd hj] at hpend
      exact Or.inl ⟨(Option.some.inj hpend).symm, fun m now hm hmr => by omega⟩
  | succ j hr ih =>
      have hget : rec.reads[j]? = some (rec.reads.get ⟨j, hj⟩) := List.getElem?_eq_getElem hj
      rw [pending_succ hadd hr hget] at hpend
      obtain ⟨v, hv, hfire⟩ := Option.bind_eq_some_iff.mp hpend
      have hv' := ih (by omega) hv
      have hinterval : v.interval = t.interval := by
        obtain ⟨rfl, -⟩ | ⟨-, i, now, -, -, -, -, rfl, -⟩ := hv' <;> rfl
      obtain ⟨hlt, rfl⟩ | ⟨hdue, hrep, rfl⟩ := Timer.fire_eq_some hfire
      · -- not due: the call passes it by
        obtain ⟨rfl, hbefore⟩ | ⟨hrep, i, now, hri, hij, hdue, hi, rfl, hbetween⟩ := hv'
        · refine Or.inl ⟨rfl, fun m now hm hmj hmn => ?_⟩
          obtain hmj | rfl := Nat.lt_succ_iff_lt_or_eq.mp hmj
          · exact hbefore m now hm hmj hmn
          · rwa [Option.some.inj (hmn.symm.trans hget)]
        · refine Or.inr ⟨hrep, i, now, hri, by omega, hdue, hi, rfl, fun m now' hm hmj hmn => ?_⟩
          obtain hmj | rfl := Nat.lt_succ_iff_lt_or_eq.mp hmj
          · exact hbetween m now' hm hmj hmn
          · rwa [Option.some.inj (hmn.symm.trans hget)]
      · -- due: it is inserted again
        rw [hinterval]
        have hrep' : t.getRepeat = true := by rwa [Timer.getRepeat, ← hinterval]
        exact Or.inr ⟨hrep', j, _, hr, Nat.lt_succ_self j, ⟨v, _, hv, hget, hdue⟩, hget, rfl,
          fun m now' hm hmj => by omega⟩

/-- The interval stays as it was added. -/
lemma pending_interval (hadd : rec.added a = some (r, t)) (hr : r ≤ j)
    (hj : j ≤ rec.reads.length) (hpend : rec.pending (rec.reads.take j) a = some u) :
    u.interval = t.interval := by
  obtain ⟨rfl, -⟩ | ⟨-, _, _, -, -, -, -, rfl, -⟩ := pending_origin hadd hr hj hpend
  · rfl
  · rfl

/-- **When a timer is due**: in the first call behind its insertion with a clock at its
expiration or later; and a repeating one again in the first such call for the expiration that
each call gives it in which it is due. -/
theorem dueAt_iff (hadd : rec.added a = some (r, t)) (hr : r ≤ rec.reads.length) :
    rec.DueAt a j ↔ rec.FirstDue r t.expiration j ∨ t.getRepeat = true ∧
      ∃ i now, i < j ∧ rec.DueAt a i ∧ rec.reads[i]? = some now ∧
        rec.FirstDue (i + 1) (now + t.interval) j := by
  have hle : ∀ {i}, rec.DueAt a i → r ≤ i := by
    rintro i ⟨u, now, hu, -, -⟩
    exact (le_of_pending hadd hu).trans (List.length_take_le _ _)
  constructor
  · intro hdue
    have hrj := hle hdue
    obtain ⟨u, now, hu, hget, hexp⟩ := hdue
    obtain ⟨hlt, -⟩ := List.getElem?_eq_some_iff.mp hget
    obtain ⟨rfl, hbefore⟩ | ⟨hrep, i, now', -, hij, hi, hget', rfl, hbetween⟩ :=
      pending_origin hadd hrj hlt.le hu
    · exact Or.inl ⟨hrj, ⟨now, hget, hexp⟩, hbefore⟩
    · exact Or.inr ⟨hrep, i, now', hij, hi, hget', hij, ⟨now, hget, hexp⟩,
        fun m now'' hm => hbetween m now'' hm⟩
  · rintro (⟨hrj, ⟨now, hget, hexp⟩, hbefore⟩ | ⟨hrep, i, now', hij, hi, hget', -,
      ⟨now, hget, hexp⟩, hbetween⟩)
    · obtain ⟨hlt, -⟩ := List.getElem?_eq_some_iff.mp hget
      exact ⟨t, now, pending_stays hadd le_rfl (pending_start hadd hr) hrj hlt.le hbefore, hget,
        hexp⟩
    · obtain ⟨hlt, -⟩ := List.getElem?_eq_some_iff.mp hget
      have hri := hle hi
      obtain ⟨u, now'', hu, hget'', hdue⟩ := hi
      obtain rfl := Option.some.inj (hget'.symm.trans hget'')
      have hinterval := pending_interval hadd hri (by omega) hu
      have hnext : rec.pending (rec.reads.take (i + 1)) a =
          some ⟨now' + t.interval, t.interval⟩ := by
        have hrep' : u.getRepeat = true := by rwa [Timer.getRepeat, hinterval]
        rw [pending_succ hadd hri hget', hu, Option.bind_some, Timer.fire_repeat hdue hrep',
          hinterval]
      exact ⟨_, now, pending_stays hadd (by omega) hnext hij hlt.le hbetween, hget, hexp⟩

end TimerRecord

/-! ### The queue keeps up with the record -/

namespace TimerQueue

/-- Of the timers that are pending, `timers_` holds those outside the batch `l`, as they are;
those in the batch are as they were before the last call of `handleRead`. -/
structure Stored (q : TimerQueue) (l : List Entry) : Prop where
  timers : ∀ e, e ∈ q.timers ↔
    (∃ t, q.record.pending q.record.reads e.second = some t ∧ t.expiration = e.first) ∧
      e.second ∉ l.map Entry.second
  heap : ∀ a t, q.record.pending q.record.reads a = some t → a ∉ l.map Entry.second → q.heap a = t
  batch : ∀ e ∈ l, ∃ clocks now, q.record.reads = clocks ++ [now] ∧
    q.record.pending clocks e.second = some (q.heap e.second) ∧
      (q.heap e.second).expiration ≤ now

/-- **The invariant.** -/
structure Tracked (q : TimerQueue) : Prop where
  added : ∀ a r t, q.record.added a = some (r, t) → r ≤ q.record.reads.length ∧ a < uintptrMax
  stored : q.Stored q.phase.expired
  running : ∀ now ran todo, q.phase = .running now ran todo → ∃ clocks,
    q.record.reads = clocks ++ [now] ∧ q.record.Due clocks now (ran ++ todo) ∧
      q.record.ran clocks.length = ran
  rounds : ∀ i now, q.record.reads[i]? = some now →
    (q.phase = .idle ∨ i + 1 < q.record.reads.length) →
      q.record.Due (q.record.reads.take i) now (q.record.ran i)
  unread : ∀ i, q.record.reads.length ≤ i → q.record.ran i = []

lemma new_tracked : new.Tracked where
  added := fun a r t h => absurd h (by simp [new])
  stored := by
    refine ⟨fun e => ?_, fun a t h => ?_, fun e he => ?_⟩
    · simp [new, TimerRecord.pending]
    · simp [new, TimerRecord.pending] at h
    · simp [new, TimerPhase.expired] at he
  running := fun now ran todo h => absurd h (by simp [new])
  rounds := fun i now h => absurd h (by simp [new])
  unread := fun _ _ => rfl

variable {q q' : TimerQueue}

/-- An entry of `timers_` is that of its timer. -/
lemma Stored.expiration {l : List Entry} (h : q.Stored l) {e : Entry} (he : e ∈ q.timers) :
    (q.heap e.second).expiration = e.first := by
  obtain ⟨⟨t, ht, hexp⟩, hnot⟩ := (h.timers e).mp he
  rw [h.heap e.second t ht hnot, hexp]

lemma Tracked.lt_uintptrMax (h : q.Tracked) {e : Entry} (he : e ∈ q.timers) :
    e.second < uintptrMax := by
  obtain ⟨⟨t, ht, -⟩, -⟩ := (h.stored.timers e).mp he
  obtain ⟨r, t₀, hadd, -, -⟩ := TimerRecord.added_of_pending ht
  exact (h.added _ r t₀ hadd).2

/-- A new timer is nowhere in the queue. -/
lemma Tracked.notMem_of_added (h : q.Tracked) {a : ℕ} (ha : q.record.added a = none) :
    (∀ e ∈ q.timers, e.second ≠ a) ∧ ∀ e ∈ q.phase.expired, e.second ≠ a := by
  constructor
  · rintro e he rfl
    obtain ⟨⟨t, ht, -⟩, -⟩ := (h.stored.timers e).mp he
    rw [TimerRecord.pending_none ha] at ht
    exact absurd ht (by simp)
  · rintro e he rfl
    obtain ⟨clocks, now, -, hpend, -⟩ := h.stored.batch e he
    rw [TimerRecord.pending_none ha] at hpend
    exact absurd hpend (by simp)

/-- **A timer is added**, outside `handleRead` or by a callback. -/
lemma Tracked.add (h : q.Tracked) {a : ℕ} (ha : q.record.added a = none) (hlt : a < uintptrMax)
    (t : Timer) (clock : ℤ) :
    ∃ q', (q.make a t).addTimerInLoop a clock = .ok q' ∧ q'.Tracked := by
  obtain ⟨hout, hbatch⟩ := h.notMem_of_added ha
  have hnot : a ∉ q.phase.expired.map Entry.second := by
    intro hmem
    obtain ⟨e, he, heq⟩ := List.mem_map.mp hmem
    exact hbatch e he heq
  refine ⟨_, add_eq (fun hmem => hout _ hmem rfl) clock, ?_, ⟨?_, ?_, ?_⟩, ?_, ?_, h.unread⟩
  · intro b r t' hb
    rw [TimerRecord.added_add] at hb
    split_ifs at hb with hba
    · obtain ⟨rfl, rfl⟩ := Prod.mk.inj (Option.some.inj hb)
      exact ⟨le_rfl, hba ▸ hlt⟩
    · exact h.added b r t' hb
  · intro e
    rw [OrderedSet.mem_insert]
    refine Iff.trans ?_ (and_congr_left' (exists_congr fun t' => and_congr_left' (by
      rw [show (q.record.add a t).reads = q.record.reads from rfl, TimerRecord.pending_add])))
    by_cases he : e.second = a
    · have hmem : e ∉ q.timers := fun hmem => hout e hmem he
      simp [he, hnot, hmem, Entry.ext_iff, eq_comm]
    · have hne : e ≠ ⟨t.expiration, a⟩ := by
        rintro rfl
        exact he rfl
      simp only [hne, false_or, he, if_false]
      exact h.stored.timers e
  · intro b t' hb hbl
    simp only [show (q.record.add a t).reads = q.record.reads from rfl,
      TimerRecord.pending_add] at hb
    by_cases hba : b = a
    · rw [if_pos hba] at hb
      obtain rfl := Option.some.inj hb
      rw [hba]
      exact Function.update_self _ _ _
    · rw [if_neg hba] at hb
      exact (Function.update_of_ne hba _ _).trans (h.stored.heap b t' hb hbl)
  · intro e he
    obtain ⟨clocks, now, hreads, hpend, hdue⟩ := h.stored.batch e he
    have hlt : clocks.length < q.record.reads.length := by simp [hreads]
    have hheap : Function.update q.heap a t e.second = q.heap e.second :=
      Function.update_of_ne (hbatch e he) _ _
    refine ⟨clocks, now, hreads, ?_⟩
    simp only [hheap, TimerRecord.pending_add_of_lt ha hlt]
    exact ⟨hpend, hdue⟩
  · intro now ran todo hphase
    obtain ⟨clocks, hreads, hdue, hran⟩ := h.running now ran todo hphase
    have hlt : clocks.length < q.record.reads.length := by simp [hreads]
    exact ⟨clocks, hreads, hdue.of_pending fun b => TimerRecord.pending_add_of_lt ha hlt b, hran⟩
  · intro i now hi hdone
    obtain ⟨hlt, -⟩ := List.getElem?_eq_some_iff.mp hi
    refine (h.rounds i now hi hdone).of_pending fun b => TimerRecord.pending_add_of_lt ha ?_ b
    exact (List.length_take_le _ _).trans_lt hlt

/-- Outside `handleRead` the due entries of `timers_` are those before the sentry. -/
lemma Tracked.mem_below (h : q.Tracked) (hidle : q.phase = .idle) (now : ℤ) (e : Entry) :
    e ∈ q.timers.below ⟨now, uintptrMax⟩ ↔
      ∃ t, q.record.pending q.record.reads e.second = some t ∧ t.expiration = e.first ∧
        e.first ≤ now := by
  have hstored : e ∈ q.timers ↔
      ∃ t, q.record.pending q.record.reads e.second = some t ∧ t.expiration = e.first := by
    rw [h.stored.timers, hidle]
    exact and_iff_left List.not_mem_nil
  rw [OrderedSet.mem_below]
  constructor
  · rintro ⟨hmem, hlt⟩
    obtain ⟨t, ht, hexp⟩ := hstored.mp hmem
    exact ⟨t, ht, hexp, (Entry.lt_sentry (h.lt_uintptrMax hmem)).mp hlt⟩
  · rintro ⟨t, ht, hexp, hle⟩
    have hmem := hstored.mpr ⟨t, ht, hexp⟩
    exact ⟨hmem, (Entry.lt_sentry (h.lt_uintptrMax hmem)).mpr hle⟩

/-- What `getExpired` leaves in the queue and in the batch. -/
lemma Tracked.stored_read (h : q.Tracked) (hidle : q.phase = .idle) (now : ℤ) (fd : Timerfd) :
    Stored { q with
      timers := q.timers.atLeast ⟨now, uintptrMax⟩
      timerfd := fd
      phase := .running now [] (q.timers.below ⟨now, uintptrMax⟩)
      record := q.record.read now } (q.timers.below ⟨now, uintptrMax⟩) := by
  have hbatch : ∀ b, b ∈ (q.timers.below ⟨now, uintptrMax⟩).map Entry.second ↔
      ∃ t, q.record.pending q.record.reads b = some t ∧ t.expiration ≤ now := by
    intro b
    simp only [List.mem_map, h.mem_below hidle now]
    constructor
    · rintro ⟨e, ⟨t, ht, hexp, hle⟩, rfl⟩
      exact ⟨t, ht, hexp ▸ hle⟩
    · rintro ⟨t, ht, hle⟩
      exact ⟨⟨t.expiration, b⟩, ⟨t, ht, rfl, hle⟩, rfl⟩
  -- outside the batch nothing happens to what is pending
  have hsame : ∀ b t, b ∉ (q.timers.below ⟨now, uintptrMax⟩).map Entry.second →
      ((q.record.read now).pending (q.record.read now).reads b = some t ↔
        q.record.pending q.record.reads b = some t) := by
    intro b t hb
    have hadd : ∀ r t, q.record.added b = some (r, t) → r ≤ q.record.reads.length :=
      fun r t hadd => (h.added b r t hadd).1
    have hstep : (q.record.read now).pending (q.record.read now).reads b =
        (q.record.pending q.record.reads b).bind (Timer.fire · now) :=
      TimerRecord.pending_concat hadd now
    rw [hstep]
    cases hp : q.record.pending q.record.reads b with
    | none => exact Iff.rfl
    | some u =>
        have hlt : now < u.expiration := by
          by_contra hle
          exact hb ((hbatch b).mpr ⟨u, hp, not_lt.mp hle⟩)
        rw [Option.bind_some, Timer.fire_of_lt hlt]
  have hstored := h.stored
  rw [hidle] at hstored
  refine ⟨fun e => ?_, fun b t hb hnot => ?_, fun e he => ?_⟩
  · rw [OrderedSet.mem_atLeast, hstored.timers e]
    constructor
    · rintro ⟨⟨⟨t, ht, hexp⟩, -⟩, hle⟩
      have hnot : e.second ∉ (q.timers.below ⟨now, uintptrMax⟩).map Entry.second := by
        intro hmem
        obtain ⟨t', ht', hdue⟩ := (hbatch e.second).mp hmem
        obtain rfl := Option.some.inj (ht.symm.trans ht')
        have hmem' := (h.mem_below hidle now e).mpr ⟨t, ht, hexp, hexp ▸ hdue⟩
        exact (OrderedSet.mem_below.mp hmem').2.not_ge hle
      exact ⟨⟨t, (hsame e.second t hnot).mpr ht, hexp⟩, hnot⟩
    · rintro ⟨⟨t, ht, hexp⟩, hnot⟩
      have ht := (hsame e.second t hnot).mp ht
      refine ⟨⟨⟨t, ht, hexp⟩, List.not_mem_nil⟩, not_lt.mp fun hlt => hnot ?_⟩
      have hmem := (hstored.timers e).mpr ⟨⟨t, ht, hexp⟩, List.not_mem_nil⟩
      exact List.mem_map_of_mem (OrderedSet.mem_below.mpr ⟨hmem, hlt⟩)
  · exact hstored.heap b t ((hsame b t hnot).mp hb) List.not_mem_nil
  · obtain ⟨t, ht, hexp, hle⟩ := (h.mem_below hidle now e).mp he
    have hheap := hstored.heap e.second t ht List.not_mem_nil
    refine ⟨q.record.reads, now, rfl, ?_⟩
    simp only [hheap, hexp]
    exact ⟨ht, hle⟩

/-- **`handleRead` up to its first callback.** -/
lemma Tracked.handleRead (h : q.Tracked) (hidle : q.phase = .idle) (now : ℤ) :
    ∃ q', q.handleRead now = .ok q' ∧ q'.Tracked := by
  refine ⟨_, handleRead_eq (fun e he => h.lt_uintptrMax he) now, fun b r t hb => ?_,
    h.stored_read hidle now _, ?_, ?_, fun i hi => ?_⟩
  · obtain ⟨hr, hb⟩ := h.added b r t hb
    exact ⟨hr.trans (by simp [TimerRecord.read]), hb⟩
  · intro now' ran todo hphase
    obtain ⟨rfl, rfl, rfl⟩ := TimerPhase.running.inj hphase
    refine ⟨q.record.reads, rfl, ⟨OrderedSet.below_sorted _ _, fun e => ?_⟩,
      Function.update_self _ _ _⟩
    exact h.mem_below hidle _ e
  · intro i now' hi hdone
    have hlt : i < q.record.reads.length := by
      have := hdone.resolve_left (by simp)
      simpa [TimerRecord.read] using this
    have htake : (q.record.reads ++ [now]).take i = q.record.reads.take i :=
      List.take_append_of_le_length hlt.le
    have hran : (q.record.read now).ran i = q.record.ran i := Function.update_of_ne hlt.ne _ _
    simp only [TimerRecord.read, List.getElem?_append_left hlt] at hi
    have hround := h.rounds i now' hi (Or.inl hidle)
    rw [← hran, ← htake] at hround
    exact hround.of_pending fun b => rfl
  · have hlt : q.record.reads.length < i := by simpa [TimerRecord.read] using hi
    exact (Function.update_of_ne hlt.ne' _ _).trans (h.unread i hlt.le)

/-- The batch stays the same while its callbacks are started. -/
lemma expired_runEntry {now : ℤ} {ran todo : List Entry} {e : Entry}
    (hphase : q.phase = .running now ran (e :: todo)) :
    (q.runEntry now ran e todo).phase.expired = q.phase.expired := by
  rw [hphase]
  exact List.append_assoc _ _ _

/-- **A callback is started.** -/
lemma Tracked.runEntry (h : q.Tracked) {now : ℤ} {ran todo : List Entry} {e : Entry}
    (hphase : q.phase = .running now ran (e :: todo)) : (q.runEntry now ran e todo).Tracked := by
  have hexpired := expired_runEntry hphase
  obtain ⟨clocks, hreads, hdue, hran⟩ := h.running _ _ _ hphase
  have hlast : q.record.reads.length - 1 = clocks.length := by simp [hreads]
  have hother : ∀ i, i ≠ clocks.length →
      (q.runEntry now ran e todo).record.ran i = q.record.ran i := by
    intro i hi
    exact Function.update_of_ne (hlast ▸ hi) _ _
  refine ⟨h.added, ⟨?_, ?_, ?_⟩, ?_, ?_, fun i hi => ?_⟩
  · rw [hexpired]
    exact h.stored.timers
  · rw [hexpired]
    exact h.stored.heap
  · rw [hexpired]
    exact h.stored.batch
  · intro now' ran' todo' hphase'
    obtain ⟨rfl, rfl, rfl⟩ := TimerPhase.running.inj hphase'
    refine ⟨clocks, hreads, ?_, ?_⟩
    · rw [List.append_assoc]
      exact hdue.of_pending fun b => rfl
    · have hself : (q.record.run (ran ++ [e])).ran (q.record.reads.length - 1) = ran ++ [e] :=
        Function.update_self _ _ _
      rw [hlast] at hself
      exact hself
  · intro i now' hi hdone
    have hdone : i + 1 < q.record.reads.length := hdone.resolve_left (by simp [TimerQueue.runEntry])
    have hne : i ≠ clocks.length := by
      rw [hreads, List.length_append, List.length_singleton] at hdone
      omega
    rw [hother i hne]
    exact (h.rounds i now' hi (Or.inr hdone)).of_pending fun b => rfl
  · have hne : i ≠ clocks.length := by
      have hlen : q.record.reads.length ≤ i := hi
      rw [hreads, List.length_append, List.length_singleton] at hlen
      omega
    exact (hother i hne).trans (h.unread i hi)

/-- What the loop of `reset` finds: the batch is not in the queue, and each of its timers is
as it was when `handleRead` read the clock. -/
lemma Tracked.batch (h : q.Tracked) {now : ℤ} {ran todo : List Entry}
    (hphase : q.phase = .running now ran todo) :
    ((ran ++ todo).map Entry.second).Nodup ∧
      (∀ e ∈ q.timers, e.second ∉ (ran ++ todo).map Entry.second) ∧
      ∀ a ∈ (ran ++ todo).map Entry.second, q.record.pending q.record.reads a =
        if (q.heap a).getRepeat then some ⟨now + (q.heap a).interval, (q.heap a).interval⟩
        else none := by
  have hexpired : q.phase.expired = ran ++ todo := by rw [hphase, TimerPhase.expired]
  obtain ⟨clocks, hreads, hdue, -⟩ := h.running now ran todo hphase
  refine ⟨hdue.nodup, fun e he => hexpired ▸ ((h.stored.timers e).mp he).2, fun a ha => ?_⟩
  obtain ⟨e, he, rfl⟩ := List.mem_map.mp ha
  obtain ⟨clocks', now', hreads', hpend, hle⟩ := h.stored.batch e (hexpired ▸ he)
  obtain ⟨rfl, hnow⟩ := List.append_inj' (hreads.symm.trans hreads') rfl
  obtain rfl : now = now' := by simpa using hnow
  rw [hreads, TimerRecord.pending_concat_of_some hpend]
  cases hrep : (q.heap e.second).getRepeat with
  | true => exact Timer.fire_repeat hle hrep
  | false => exact Timer.fire_once hle hrep

/-- What `reset` leaves in the queue. -/
lemma Tracked.reset_ok (h : q.Tracked) {now : ℤ} {ran : List Entry}
    (hphase : q.phase = .running now ran []) : ∃ timers heap,
      (∀ garbage clock, q.reset ran now garbage clock =
        .ok { q with
          timers := timers
          heap := heap
          timerfd :=
            let nextExpire := nextExpire { q with timers := timers, heap := heap } garbage
            if 0 < nextExpire then .resetTimerfd nextExpire clock else q.timerfd
          accesses := q.accesses ++ (resetAccesses q.heap ran ++
            (timers.first?.map fun e => .use e.second).toList) }) ∧
      (∀ e, e ∈ timers ↔ e ∈ q.timers ∨ e.second ∈ ran.map Entry.second ∧
        (q.heap e.second).getRepeat = true ∧ e.first = now + (q.heap e.second).interval) ∧
      ∀ a, heap a = if a ∈ ran.map Entry.second ∧ (q.heap a).getRepeat = true then
        ⟨now + (q.heap a).interval, (q.heap a).interval⟩ else q.heap a := by
  obtain ⟨hnodup, hout, -⟩ := h.batch hphase
  rw [List.append_nil] at hnodup hout
  obtain ⟨timers, heap, hrun, hspec⟩ := resetLoop hnodup hout
  refine ⟨timers, heap, fun garbage clock => (reset_eq hrun).trans ?_, hspec⟩
  simp only [List.append_assoc]
  rfl

/-- **The end of `handleRead`**: the queue holds what is pending again. -/
lemma Tracked.reset (h : q.Tracked) {now : ℤ} {ran : List Entry}
    (hphase : q.phase = .running now ran []) (garbage clock : ℤ) :
    ∃ q', q.reset ran now garbage clock = .ok q' ∧ Tracked { q' with phase := .idle } := by
  obtain ⟨-, hout, hpend⟩ := h.batch hphase
  have hexpired : q.phase.expired = ran := by rw [hphase, TimerPhase.expired, List.append_nil]
  rw [List.append_nil] at hout hpend
  obtain ⟨timers, heap, hrun, htimers, hheap⟩ := h.reset_ok hphase
  have hstored := h.stored
  rw [hexpired] at hstored
  refine ⟨_, hrun garbage clock, h.added, ⟨fun e => ?_, fun a t ht _ => ?_, fun e he => ?_⟩, ?_, ?_,
    h.unread⟩
  · refine (htimers e).trans ?_
    simp only [TimerPhase.expired, List.map_nil, List.not_mem_nil, not_false_eq_true, and_true]
    by_cases he : e.second ∈ ran.map Entry.second
    · have hnot : e ∉ q.timers := fun hmem => hout e hmem he
      rw [hpend e.second he]
      cases hrep : (q.heap e.second).getRepeat <;> simp [hnot, he, eq_comm]
    · rw [hstored.timers e]
      simp only [he, false_and, or_false, not_false_eq_true, and_true]
  · refine (hheap a).trans ?_
    by_cases ha : a ∈ ran.map Entry.second
    · have ht := (hpend a ha).symm.trans ht
      split_ifs at ht with hrep
      · rw [if_pos ⟨ha, hrep⟩]
        exact Option.some.inj ht
    · rw [if_neg fun h => ha h.1]
      exact hstored.heap a t ht ha
  · exact absurd he List.not_mem_nil
  · intro now' ran' todo' hphase'
    exact absurd hphase' (by simp)
  · intro i now' hi _
    obtain ⟨clocks, hreads, hdue, hlast⟩ := h.running now ran [] hphase
    by_cases hlt : i + 1 < q.record.reads.length
    · exact (h.rounds i now' hi (Or.inr hlt)).of_pending fun b => rfl
    · -- the call that ends now has run its whole batch
      obtain ⟨hbound, hget⟩ := List.getElem?_eq_some_iff.mp hi
      obtain rfl : i = clocks.length := by
        simp only [hreads, List.length_append, List.length_singleton] at hlt hbound
        omega
      have hnow : now' = now := by
        simp only [hreads, List.getElem?_concat_length, Option.some.injEq] at hi
        exact hi.symm
      have htake : q.record.reads.take clocks.length = clocks := by
        rw [hreads, List.take_left]
      have hround : q.record.Due (q.record.reads.take clocks.length) now'
          (q.record.ran clocks.length) := by
        rw [htake, hnow, hlast]
        rwa [List.append_nil] at hdue
      exact hround

/-- **No step fails, and every step keeps the invariant.** -/
theorem Tracked.step (h : q.Tracked) {l : Label} {x : Except TimerFault TimerQueue}
    (hx : q.step l = some x) : ∃ q', x = .ok q' ∧ q'.Tracked := by
  obtain ⟨a, t, clock, -, -, hlt, ha, rfl⟩ | ⟨now, -, hidle, rfl⟩ |
    ⟨now, ran, e, todo, -, hphase, rfl⟩ | ⟨now, ran, garbage, clock, -, hphase, rfl⟩ |
    ⟨-, -, rfl⟩ := step_cases hx
  · exact h.add ha hlt t clock
  · exact h.handleRead hidle now
  · exact ⟨_, rfl, h.runEntry hphase⟩
  · obtain ⟨q', hq', h'⟩ := h.reset hphase garbage clock
    exact ⟨_, by rw [hq']; rfl, h'⟩
  · exact ⟨_, rfl, h.added, ⟨h.stored.timers, h.stored.heap, h.stored.batch⟩, h.running, h.rounds,
      h.unread⟩

/-- The states of a queue in runs whose labels all meet `ok`. -/
def Reaches (ok : TimerQueue → Label → Prop) (q q' : TimerQueue) : Prop := Reach next ok q q'

/-- **The assertions of `getExpired` and `insert` never fail.** -/
lemma Tracked.failure_eq_none (h : q.Tracked) (l : Label) : q.failure l = none := by
  rw [Option.eq_none_iff_forall_ne_some]
  intro f hf
  obtain ⟨q', hq', -⟩ := h.step (failure_eq_some.mp hf)
  exact absurd hq' (by simp)

/-! ### When timers run -/

/-- All callbacks of the `j`-th call were started. -/
def Done (q : TimerQueue) (j : ℕ) : Prop :=
  j + 1 < q.record.reads.length ∨ ∀ now ran todo, q.phase = .running now ran todo → todo = []

/-- A call has run, in order, the first of the timers that were due when it started; and all
of them when it is done. -/
lemma Tracked.ran_due (h : q.Tracked) {j : ℕ} {now : ℤ} (hj : q.record.reads[j]? = some now) :
    ∃ l, q.record.ran j <+: l ∧ q.record.Due (q.record.reads.take j) now l ∧
      (q.Done j → q.record.ran j = l) := by
  by_cases hround : q.phase = .idle ∨ j + 1 < q.record.reads.length
  · exact ⟨_, List.prefix_rfl, h.rounds j now hj hround, fun _ => rfl⟩
  · obtain ⟨hphase, hlast⟩ := not_or.mp hround
    cases hp : q.phase with
    | idle => exact absurd hp hphase
    | running now' ran todo =>
        obtain ⟨clocks, hreads, hdue, hran⟩ := h.running now' ran todo hp
        obtain ⟨hlt, -⟩ := List.getElem?_eq_some_iff.mp hj
        obtain rfl : j = clocks.length := by
          simp only [hreads, List.length_append, List.length_singleton] at hlt hlast
          omega
        obtain rfl : now' = now := by
          simpa [hreads] using hj
        refine ⟨ran ++ todo, hran ▸ List.prefix_append _ _, ?_, fun hdone => ?_⟩
        · rwa [show q.record.reads.take clocks.length = clocks by rw [hreads, List.take_left]]
        · obtain hdone | hdone := hdone
          · exact absurd hdone hlast
          · rw [hdone _ _ _ hp, List.append_nil, hran]

/-- **A call runs the timers that are due.** -/
lemma Tracked.runs_iff (h : q.Tracked) {a j : ℕ} :
    (q.record.Runs a j → q.record.DueAt a j) ∧
      (q.Done j → q.record.DueAt a j → q.record.Runs a j) := by
  constructor
  · intro hruns
    have hlt : j < q.record.reads.length := by
      by_contra hge
      rw [TimerRecord.Runs, h.unread j (not_lt.mp hge)] at hruns
      exact absurd hruns List.not_mem_nil
    have hget : q.record.reads[j]? = some (q.record.reads.get ⟨j, hlt⟩) :=
      List.getElem?_eq_getElem hlt
    obtain ⟨l, hpre, hdue, -⟩ := h.ran_due hget
    obtain ⟨e, he, rfl⟩ := List.mem_map.mp hruns
    obtain ⟨u, hu, hexp, hle⟩ := (hdue.mem e).mp (hpre.subset he)
    exact ⟨u, _, hu, hget, hexp ▸ hle⟩
  · rintro hdone ⟨u, now, hu, hget, hle⟩
    obtain ⟨l, -, hdue, hall⟩ := h.ran_due hget
    rw [TimerRecord.Runs, hall hdone]
    exact List.mem_map.mpr ⟨⟨u.expiration, a⟩, (hdue.mem _).mpr ⟨u, hu, rfl, hle⟩, rfl⟩

/-- **A repeating timer that has run is in the queue again**, for its interval behind the clock
of the call. -/
lemma Tracked.again (h : q.Tracked) (hidle : q.phase = .idle) {a r : ℕ} {t : Timer}
    (hadd : q.record.added a = some (r, t)) (hrep : t.getRepeat = true) {clocks : List ℤ} {now : ℤ}
    (hreads : q.record.reads = clocks ++ [now]) (hruns : q.record.Runs a clocks.length) :
    ⟨now + t.interval, a⟩ ∈ q.timers ∧ q.heap a = ⟨now + t.interval, t.interval⟩ := by
  obtain ⟨u, now', hu, hget, hle⟩ := h.runs_iff.1 hruns
  obtain rfl : now = now' := by simpa [hreads] using hget
  have htake : q.record.reads.take clocks.length = clocks := by rw [hreads, List.take_left]
  have hlen : clocks.length ≤ q.record.reads.length := by simp [hreads]
  have hr : r ≤ clocks.length := by
    rw [← htake]
    exact TimerRecord.le_of_pending hadd hu
  have hinterval := TimerRecord.pending_interval hadd hr hlen hu
  have hrep' : u.getRepeat = true := by rwa [Timer.getRepeat, hinterval]
  have hpend : q.record.pending q.record.reads a = some ⟨now + t.interval, t.interval⟩ := by
    rw [htake] at hu
    rw [hreads, TimerRecord.pending_concat_of_some hu, Timer.fire_repeat hle hrep', hinterval]
  have hstored := h.stored
  rw [hidle] at hstored
  exact ⟨(hstored.timers _).mpr ⟨⟨_, hpend, rfl⟩, List.not_mem_nil⟩,
    hstored.heap a _ hpend List.not_mem_nil⟩

/-- **Timers run exactly when they are due.** -/
structure RunsWhenDue (q : TimerQueue) : Prop where
  /-- No assertion fails in the next step. -/
  assertions : ∀ l, q.failure l = none
  /-- Each call of `handleRead` has run its timers in the order of their expirations, none of them
  twice, and only timers that were added. -/
  order : ∀ j, (q.record.ran j).Pairwise (fun e e' => e.first ≤ e'.first) ∧
    ((q.record.ran j).map Entry.second).Nodup ∧
      ∀ a, q.record.Runs a j → ∃ r t, q.record.added a = some (r, t)
  /-- A one-shot timer is run by the first call that started after its insertion and has a clock
  of at least its expiration, and by no other. -/
  once : ∀ a r t, q.record.added a = some (r, t) → t.getRepeat = false → ∀ j,
    (q.record.Runs a j → q.record.FirstDue r t.expiration j) ∧
      (q.Done j → q.record.FirstDue r t.expiration j → q.record.Runs a j)
  /-- A repeating timer is run by that call, and after each call that runs it by the first later
  one with a clock of at least the new expiration, which is that call's clock and the interval. -/
  repeating : ∀ a r t, q.record.added a = some (r, t) → t.getRepeat = true → ∀ j,
    (q.record.Runs a j → q.record.FirstDue r t.expiration j ∨ ∃ i now, i < j ∧
      q.record.Runs a i ∧ q.record.reads[i]? = some now ∧
        q.record.FirstDue (i + 1) (now + t.interval) j) ∧
    (q.Done j → (q.record.FirstDue r t.expiration j ∨ ∃ i now, i < j ∧
      q.record.Runs a i ∧ q.record.reads[i]? = some now ∧
        q.record.FirstDue (i + 1) (now + t.interval) j) → q.record.Runs a j)
  /-- Behind the call it is in the queue with that expiration. -/
  again : ∀ a r t, q.record.added a = some (r, t) → t.getRepeat = true → q.phase = .idle →
    ∀ clocks now, q.record.reads = clocks ++ [now] → q.record.Runs a clocks.length →
      ⟨now + t.interval, a⟩ ∈ q.timers ∧ q.heap a = ⟨now + t.interval, t.interval⟩

/-- The entries that a call has run. -/
lemma Tracked.order (h : q.Tracked) (j : ℕ) :
    (q.record.ran j).Pairwise (fun e e' => e.first ≤ e'.first) ∧
      ((q.record.ran j).map Entry.second).Nodup ∧
        ∀ a, q.record.Runs a j → ∃ r t, q.record.added a = some (r, t) := by
  refine ⟨?_, ?_, fun a hruns => ?_⟩
  · by_cases hlt : j < q.record.reads.length
    · obtain ⟨l, hpre, hdue, -⟩ := h.ran_due (List.getElem?_eq_getElem hlt)
      exact (hdue.sorted.sublist hpre.sublist).imp fun hlt => Entry.first_le hlt.le
    · rw [h.unread j (not_lt.mp hlt)]
      exact List.Pairwise.nil
  · by_cases hlt : j < q.record.reads.length
    · obtain ⟨l, hpre, hdue, -⟩ := h.ran_due (List.getElem?_eq_getElem hlt)
      exact hdue.nodup.sublist (hpre.sublist.map _)
    · rw [h.unread j (not_lt.mp hlt)]
      exact List.nodup_nil
  · obtain ⟨u, now, hu, -, -⟩ := h.runs_iff.1 hruns
    obtain ⟨r, t, hadd, -, -⟩ := TimerRecord.added_of_pending hu
    exact ⟨r, t, hadd⟩

/-- **What the invariant says of the record**: the timers have run when they were due. -/
theorem Tracked.runsWhenDue (h : q.Tracked) : q.RunsWhenDue where
  assertions := h.failure_eq_none
  order := h.order
  once a r t hadd hrep j := by
    have hiff : q.record.DueAt a j ↔ q.record.FirstDue r t.expiration j := by
      rw [TimerRecord.dueAt_iff hadd (h.added a r t hadd).1, hrep]
      simp
    exact ⟨fun hruns => hiff.mp (h.runs_iff.1 hruns),
      fun hdone hfirst => h.runs_iff.2 hdone (hiff.mpr hfirst)⟩
  repeating a r t hadd hrep j := by
    have hiff := TimerRecord.dueAt_iff (j := j) hadd (h.added a r t hadd).1
    -- an earlier call is done
    have hruns : ∀ i, i < j → j < q.record.reads.length →
        (q.record.Runs a i ↔ q.record.DueAt a i) := by
      intro i hij hj
      exact ⟨h.runs_iff.1, h.runs_iff.2 (Or.inl (by omega))⟩
    constructor
    · intro hj
      have hdue := h.runs_iff.1 hj
      have hlt : j < q.record.reads.length := by
        obtain ⟨_, _, -, hget, -⟩ := hdue
        exact (List.getElem?_eq_some_iff.mp hget).1
      obtain hfirst | ⟨-, i, now, hij, hi, hget, hfirst⟩ := hiff.mp hdue
      · exact Or.inl hfirst
      · exact Or.inr ⟨i, now, hij, (hruns i hij hlt).mpr hi, hget, hfirst⟩
    · rintro hdone (hfirst | ⟨i, now, hij, hi, hget, hfirst⟩)
      · exact h.runs_iff.2 hdone (hiff.mpr (Or.inl hfirst))
      · exact h.runs_iff.2 hdone
          (hiff.mpr (Or.inr ⟨hrep, i, now, hij, h.runs_iff.1 hi, hget, hfirst⟩))
  again a r t hadd hrep hidle clocks now hreads hruns := h.again hidle hadd hrep hreads hruns

end TimerQueue

end Tractor
