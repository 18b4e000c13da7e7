import Tractor.Net.TimerRuns

/-!
What a `TimerQueue` does with its pointers.

The queue keeps raw pointers: in `timers_`, and in the expired batch while `handleRead` runs.  Its
steps use them, and `reset` deletes those of the one-shot timers in the batch.

* `Holds`: the queue holds the pointer.
* `Touches`: the accesses of each kind of step, and `againEntry`, the entry with which `reset`
  inserts a repeating timer again.
* `Stepped`, `Tracked.stepped`: **what a step of the queue does** to the timers that were added and
  to the pointers that are held.
* `HasOnce`, `Stuck`, `Tracked.once_step`: a one-shot timer in the batch that is not deleted, and
  the call of `handleRead` that does not end before that.
-/

namespace Tractor

open Library

/-- The entry whose callback is started next. -/
def TimerPhase.next? : TimerPhase → Option Entry
  | running _ _ (e :: _) => some e
  | _ => none

lemma TimerPhase.mem_expired_of_next {p : TimerPhase} {e : Entry} (h : p.next? = some e) :
    e ∈ p.expired := by
  cases p with
  | idle => simp [next?] at h
  | running now ran todo =>
      cases todo with
      | nil => simp [next?] at h
      | cons e' todo =>
          obtain rfl := Option.some.inj h
          simp [expired]

/-- The clock that `handleRead` has read. -/
def TimerPhase.clock : TimerPhase → ℤ
  | idle => 0
  | running now _ _ => now

namespace TimerQueue

variable {q q' : TimerQueue} {l : Label} {a : ℕ}

/-- The entry with which `reset` inserts a repeating timer of the batch again. -/
def againEntry (q : TimerQueue) (e : Entry) : Entry :=
  ⟨q.phase.clock + (q.heap e.second).interval, e.second⟩

/-- What a step does with the pointers. -/
inductive Touches (q : TimerQueue) : Label → TimerQueue → List Access → Prop
  | add {a : ℕ} {t : Timer} {clock : ℤ} {q' : TimerQueue} {accesses : List Access}
      (hadd : ∀ y ∈ accesses, y = .use a) : Touches q (.addTimerInLoop a t clock) q' accesses
  | handleRead {now : ℤ} {q' : TimerQueue} : Touches q (.handleRead now) q' []
  | run {now : ℤ} {ran todo : List Entry} {e : Entry} {q' : TimerQueue}
      (hphase : q.phase = .running now ran (e :: todo)) : Touches q .run q' [.use e.second]
  | reset {now garbage clock : ℤ} {ran : List Entry} {q' : TimerQueue}
      (hphase : q.phase = .running now ran [])
      (htimers : ∀ e, e ∈ q'.timers ↔ e ∈ q.timers ∨ ∃ e' ∈ ran,
        (q.heap e'.second).getRepeat = true ∧ e = q.againEntry e') :
      Touches q (.reset garbage clock) q'
        (resetAccesses q.heap ran ++ (q'.timers.first?.map fun e => .use e.second).toList)
  | expire {q' : TimerQueue} : Touches q .expire q' []

/-- The queue holds the pointer, in `timers_` or in the expired batch. -/
def Holds (q : TimerQueue) (a : ℕ) : Prop :=
  (∃ e ∈ q.timers, e.second = a) ∨ ∃ e ∈ q.phase.expired, e.second = a

instance (q : TimerQueue) (a : ℕ) : Decidable (q.Holds a) :=
  inferInstanceAs (Decidable ((∃ e ∈ q.timers.toList, e.second = a) ∨
    ∃ e ∈ q.phase.expired, e.second = a))

/-- What the queue holds was added to it. -/
lemma Tracked.added_of_holds (h : q.Tracked) (ha : q.Holds a) : q.record.added a ≠ none := by
  intro hnone
  obtain ⟨hout, hbatch⟩ := h.notMem_of_added hnone
  obtain ⟨e, he, heq⟩ | ⟨e, he, heq⟩ := ha
  · exact hout e he heq
  · exact hbatch e he heq

/-- The step adds the timer. -/
def Label.Adds (l : Label) (a : ℕ) : Prop := ∃ t clock, l = .addTimerInLoop a t clock

/-- **What a step does**: it makes these accesses, holds a new timer, and loses the pointers it
deletes. -/
structure Stepped (q : TimerQueue) (l : Label) (q' : TimerQueue) (accesses : List Access) :
    Prop where
  tracked : q'.Tracked
  recorded : q'.accesses = q.accesses ++ accesses
  touches : Touches q l q' accesses
  added : ∀ b, q'.record.added b ≠ none ↔ q.record.added b ≠ none ∨ l.Adds b
  holds : ∀ b, q'.Holds b ↔ q.Holds b ∧ .delete b ∉ accesses ∨ l.Adds b

lemma mem_resetAccesses_delete {heap : ℕ → Timer} {ran : List Entry} {first : Option Entry} :
    .delete a ∈ resetAccesses heap ran ++ (first.map fun e => .use e.second).toList ↔
      a ∈ ran.map Entry.second ∧ (heap a).getRepeat = false := by
  rw [List.mem_append, or_iff_left (by cases first <;> simp), resetAccesses, List.mem_flatMap]
  constructor
  · rintro ⟨e, he, hmem⟩
    split_ifs at hmem with hrep
    · simp at hmem
    · obtain rfl : a = e.second := by simpa using hmem
      exact ⟨List.mem_map_of_mem he, by simpa using hrep⟩
  · rintro ⟨hmem, hrep⟩
    obtain ⟨e, he, rfl⟩ := List.mem_map.mp hmem
    exact ⟨e, he, by simp [hrep]⟩

/-- A timer is added. -/
lemma Tracked.stepped_add (h : q.Tracked) {t : Timer} {clock : ℤ}
    (hnew : q.record.added a = none) (hok : (q.make a t).addTimerInLoop a clock = .ok q')
    (hq' : q'.Tracked) : ∃ accesses, Stepped q (.addTimerInLoop a t clock) q' accesses := by
  have hout := (h.notMem_of_added hnew).1
  rw [add_eq (fun hmem => hout _ hmem rfl)] at hok
  obtain rfl := Except.ok.inj hok
  have hadds : ∀ b, (Label.addTimerInLoop a t clock).Adds b ↔ b = a := fun b =>
    ⟨fun ⟨_, _, hl⟩ => (Label.addTimerInLoop.inj hl).1.symm, fun hb => ⟨t, clock, hb ▸ rfl⟩⟩
  refine ⟨_, hq', rfl, .add fun y hy => ?_, fun b => ?_, fun b => ?_⟩
  · split_ifs at hy <;> simpa using hy
  · rw [hadds]
    by_cases hb : b = a <;> simp [TimerRecord.add, hb]
  · rw [hadds, and_iff_left (by split_ifs <;> simp)]
    simp only [Holds, OrderedSet.mem_insert]
    constructor
    · rintro (⟨e, rfl | he, rfl⟩ | hb)
      · exact Or.inr rfl
      · exact Or.inl (Or.inl ⟨e, he, rfl⟩)
      · exact Or.inl (Or.inr hb)
    · rintro ((⟨e, he, rfl⟩ | hb) | rfl)
      · exact Or.inl ⟨e, Or.inr he, rfl⟩
      · exact Or.inr hb
      · exact Or.inl ⟨_, Or.inl rfl, rfl⟩

/-- The expired entries are moved to the batch. -/
lemma Tracked.stepped_handleRead (h : q.Tracked) {now : ℤ} (hidle : q.phase = .idle)
    (hok : q.handleRead now = .ok q') (hq' : q'.Tracked) : Stepped q (.handleRead now) q' [] := by
  rw [handleRead_eq (fun e he => h.lt_uintptrMax he)] at hok
  obtain rfl := Except.ok.inj hok
  refine ⟨hq', (List.append_nil _).symm, .handleRead, fun b => ?_, fun b => ?_⟩
  · simp [Label.Adds, TimerRecord.read]
  · simp only [Holds, hidle, TimerPhase.expired, List.nil_append, OrderedSet.mem_atLeast,
      OrderedSet.mem_below, List.not_mem_nil, not_false_eq_true, and_true, false_and,
      exists_false, or_false, Label.Adds, reduceCtorEq]
    constructor
    · rintro (⟨e, he, rfl⟩ | ⟨e, he, rfl⟩)
      · exact ⟨e, he.1, rfl⟩
      · exact ⟨e, he.1, rfl⟩
    · rintro ⟨e, he, rfl⟩
      rcases le_or_gt ⟨now, uintptrMax⟩ e with hle | hlt
      · exact Or.inl ⟨e, ⟨he, hle⟩, rfl⟩
      · exact Or.inr ⟨e, ⟨he, hlt⟩, rfl⟩

/-- The end of `handleRead`. -/
lemma Tracked.stepped_reset (h : q.Tracked) {now garbage clock : ℤ} {ran : List Entry}
    (hphase : q.phase = .running now ran [])
    (hok : (q.reset ran now garbage clock).map (fun q => { q with phase := .idle }) = .ok q')
    (hq' : q'.Tracked) : ∃ accesses, Stepped q (.reset garbage clock) q' accesses := by
  obtain ⟨timers, heap, hreset, htimers, -⟩ := h.reset_ok hphase
  rw [hreset] at hok
  obtain rfl := Except.ok.inj hok
  have hexpired : q.phase.expired = ran := by rw [hphase, TimerPhase.expired, List.append_nil]
  refine ⟨_, hq', rfl, .reset hphase fun e => (htimers e).trans (or_congr_right ?_), fun b => ?_,
    fun b => ?_⟩
  · simp only [againEntry, hphase, TimerPhase.clock, List.mem_map, Entry.ext_iff]
    constructor
    · rintro ⟨⟨e', he', heq⟩, hrep, hfirst⟩
      exact ⟨e', he', by rw [heq]; exact ⟨hrep, hfirst, rfl⟩⟩
    · rintro ⟨e', he', hrep, hfirst, heq⟩
      exact ⟨⟨e', he', heq.symm⟩, by rw [heq]; exact ⟨hrep, hfirst⟩⟩
  · simp [Label.Adds]
  · have hidle : TimerPhase.idle.expired = [] := rfl
    simp only [mem_resetAccesses_delete, Holds, hexpired, hidle, htimers, List.not_mem_nil,
      false_and, exists_false, or_false, Label.Adds, reduceCtorEq]
    constructor
    · rintro ⟨e, he | ⟨hmem, hrep, -⟩, rfl⟩
      · have hout := ((h.stored.timers e).mp he).2
        rw [hexpired] at hout
        exact ⟨Or.inl ⟨e, he, rfl⟩, fun hdel => hout hdel.1⟩
      · obtain ⟨e', he', heq⟩ := List.mem_map.mp hmem
        refine ⟨Or.inr ⟨e', he', heq⟩, fun hdel => ?_⟩
        rw [hrep] at hdel
        exact absurd hdel.2 (by simp)
    · rintro ⟨⟨e, he, rfl⟩ | ⟨e, he, rfl⟩, hkeep⟩
      · exact ⟨e, Or.inl he, rfl⟩
      · have hmem : e.second ∈ ran.map Entry.second := List.mem_map_of_mem he
        have hrep : (q.heap e.second).getRepeat = true := by
          by_contra hno
          exact hkeep ⟨hmem, by simpa using hno⟩
        exact ⟨⟨now + (q.heap e.second).interval, e.second⟩, Or.inr ⟨hmem, hrep, rfl⟩, rfl⟩

/-- **Every step passes the queue's own assertions**, and this is what it does. -/
theorem Tracked.stepped (h : q.Tracked) {x : Except TimerFault TimerQueue}
    (hx : q.step l = some x) : ∃ q' accesses, x = .ok q' ∧ Stepped q l q' accesses := by
  obtain ⟨q', rfl, htracked⟩ := h.step hx
  obtain ⟨a, t, clock, rfl, -, -, hnew, hadd⟩ | ⟨now, rfl, hidle, hread⟩ |
    ⟨now, ran, e, todo, rfl, hphase, hrun⟩ | ⟨now, ran, garbage, clock, rfl, hphase, hreset⟩ |
    ⟨rfl, -, hexpire⟩ := step_cases hx
  · obtain ⟨accesses, hstepped⟩ := h.stepped_add hnew hadd.symm htracked
    exact ⟨q', accesses, rfl, hstepped⟩
  · exact ⟨q', [], rfl, h.stepped_handleRead hidle hread.symm htracked⟩
  · obtain rfl := Except.ok.inj hrun
    refine ⟨_, _, rfl, htracked, rfl, .run hphase, fun b => ?_, fun b => ?_⟩
    · exact (or_iff_left (by simp [Label.Adds])).symm
    · have hholds : (q.runEntry now ran e todo).Holds b ↔ q.Holds b := by
        simp only [Holds, expired_runEntry hphase]
        exact Iff.rfl
      rw [hholds, and_iff_left (by simp), or_iff_left (by simp [Label.Adds])]
  · obtain ⟨accesses, hstepped⟩ := h.stepped_reset hphase hreset.symm htracked
    exact ⟨q', accesses, rfl, hstepped⟩
  · obtain rfl := Except.ok.inj hexpire
    refine ⟨_, [], rfl, htracked, (List.append_nil _).symm, .expire, fun b => ?_, fun b => ?_⟩
    · simp [Label.Adds]
    · simp [Holds, Label.Adds]

/-- A one-shot timer is in the expired batch. -/
def HasOnce (q : TimerQueue) (a : ℕ) : Prop :=
  a ∈ q.phase.expired.map Entry.second ∧ (q.heap a).getRepeat = false

/-- The second state is in the same call of `handleRead`, and nothing but what is in its batch was
run in between. -/
structure Stuck (q q' : TimerQueue) : Prop where
  batch : q'.phase.expired = q.phase.expired
  reads : q'.record.reads = q.record.reads
  runs : ∀ b j, q'.record.Runs b j →
    q.record.Runs b j ∨ b ∈ q.phase.expired.map Entry.second

lemma Stuck.refl (q : TimerQueue) : q.Stuck q := ⟨rfl, rfl, fun _ _ => Or.inl⟩

lemma Stuck.trans {q'' : TimerQueue} (h : q.Stuck q') (h' : q'.Stuck q'') : q.Stuck q'' where
  batch := h'.batch.trans h.batch
  reads := h'.reads.trans h.reads
  runs b j hb := by
    rcases h'.runs b j hb with hb | hb
    · exact h.runs b j hb
    · exact Or.inr (h.batch ▸ hb)

/-- **While a one-shot timer is in the batch and is not deleted**, the queue stays in the call. -/
lemma Tracked.once_step (h : q.Tracked) (hone : q.HasOnce a) (hx : q.step l = some (.ok q'))
    {accesses : List Access} (hstepped : Stepped q l q' accesses) (hkeep : .delete a ∉ accesses) :
    q.Stuck q' ∧ q'.HasOnce a := by
  suffices hstuck : q.Stuck q' ∧ (q'.heap a).getRepeat = false from
    ⟨hstuck.1, hstuck.1.batch ▸ hone.1, hstuck.2⟩
  obtain ⟨hmem, hrep⟩ := hone
  obtain ⟨b, t, clock, rfl, -, -, hnew, hadd⟩ | ⟨now, rfl, hidle, -⟩ |
    ⟨now, ran, e, todo, rfl, hphase, hrun⟩ | ⟨now, ran, garbage, clock, rfl, hphase, -⟩ |
    ⟨rfl, -, hexpire⟩ := step_cases hx
  · obtain ⟨hout, hbatch⟩ := h.notMem_of_added hnew
    have hab : a ≠ b := by
      rintro rfl
      obtain ⟨e, he, heq⟩ := List.mem_map.mp hmem
      exact hbatch e he heq
    rw [add_eq (fun hmem => hout _ hmem rfl)] at hadd
    obtain rfl := Except.ok.inj hadd
    refine ⟨⟨rfl, rfl, fun _ _ => Or.inl⟩, ?_⟩
    simp only [Function.update_of_ne hab, hrep]
  · rw [hidle] at hmem
    exact absurd hmem List.not_mem_nil
  · obtain rfl := Except.ok.inj hrun
    refine ⟨⟨expired_runEntry hphase, rfl, fun b j hruns => ?_⟩, hrep⟩
    by_cases hj : j = q.record.reads.length - 1
    · -- the call that is running has run this part of its batch
      subst hj
      have hself : (q.record.run (ran ++ [e])).ran (q.record.reads.length - 1) = ran ++ [e] :=
        Function.update_self _ _ _
      have hb : b ∈ (ran ++ [e]).map Entry.second := hself ▸ hruns
      have hsplit : ran ++ e :: todo = (ran ++ [e]) ++ todo := by simp
      refine Or.inr (List.map_subset _ ?_ hb)
      rw [hphase, TimerPhase.expired, hsplit]
      exact List.subset_append_left _ _
    · have hother : (q.record.run (ran ++ [e])).ran j = q.record.ran j :=
        Function.update_of_ne hj _ _
      exact Or.inl (show b ∈ (q.record.ran j).map Entry.second from hother ▸ hruns)
  · obtain ⟨-, -, htouches, -, -⟩ := hstepped
    cases htouches with
    | @reset now _ _ ran _ hphase =>
        rw [hphase, TimerPhase.expired, List.append_nil] at hmem
        exact absurd (mem_resetAccesses_delete.mpr ⟨hmem, hrep⟩) hkeep
  · obtain rfl := Except.ok.inj hexpire
    exact ⟨⟨rfl, rfl, fun _ _ => Or.inl⟩, hrep⟩

end TimerQueue

end Tractor
