import Mathlib.Data.Finset.Max
import Mathlib.Data.List.Perm.Basic
import WindowSystem.Library.LabelledRun

/-!
# `SpeedLimitUtil`: a limit on the calls for a key

The limiter counts the calls for a key in a record, which is found by its key
in a map and by its deadline in a priority queue.  Every call first removes
the records whose deadline has come, whatever their keys are.  Which of
several records with the same deadline the queue gives out first is left open.

The answers of the limiter are compared with windows: a window of a key begins
with the first `add` after the window before it has ended, and lasts for
`period` seconds.
-/

namespace WindowSystem.HidataFramework.SpeedLimitUtil

open WindowSystem.Library.LabelledRun

/-! ## The limiter -/

/-- A reference to a record. -/
abbrev Reference := Nat

/-- `Record` -/
structure Record (K : Type*) where
  key : K
  count : Nat
  deadline : Nat
deriving DecidableEq

/-- `isTimeout` -/
def Record.isTimeout {K : Type*} (record : Record K) (now : Nat) : Bool :=
  record.deadline ≤ now

/-- `isLimit` -/
def Record.isLimit {K : Type*} (times : Nat) (record : Record K) : Bool :=
  record.count < times

/-- `update`: the answer, and the record with its new count. -/
def Record.update {K : Type*} (times : Nat) (record : Record K) :
    Bool × Record K :=
  (record.count < times, { record with count := record.count + 1 })

/-- The map `rm` and the queue `rq` hold references to the same records.
`clock` is the last time that was read. -/
structure SpeedLimit (K : Type*) where
  heap : Reference → Record K
  fresh : Reference
  rm : K → Option Reference
  rq : List Reference
  clock : Nat

variable {K : Type*} [DecidableEq K]

/-- `rq.peek()` may return the record: its deadline is a least one. -/
def IsHead (limiter : SpeedLimit K) (r : Reference) : Prop :=
  r ∈ limiter.rq ∧
    ∀ other ∈ limiter.rq,
      (limiter.heap r).deadline ≤ (limiter.heap other).deadline

/-- `rm.remove(r.key)` and `rq.poll()` -/
def poll (limiter : SpeedLimit K) (r : Reference) : SpeedLimit K :=
  { limiter with
    rm := Function.update limiter.rm (limiter.heap r).key none
    rq := limiter.rq.erase r }

/-- The loop that removes what has timed out. -/
inductive Evicted (now : Nat) : SpeedLimit K → SpeedLimit K → Prop where
  | empty {limiter : SpeedLimit K} :
      limiter.rq = [] → Evicted now limiter limiter
  | stop {limiter : SpeedLimit K} {r : Reference} :
      IsHead limiter r → (limiter.heap r).isTimeout now = false →
      Evicted now limiter limiter
  | poll {limiter after : SpeedLimit K} {r : Reference} :
      IsHead limiter r → (limiter.heap r).isTimeout now = true →
      Evicted now (poll limiter r) after →
      Evicted now limiter after

/-- The two operations. -/
inductive Call (K : Type*) where
  | add (key : K)
  | ask (key : K)
deriving DecidableEq

/-- The key of a call. -/
def Call.key : Call K → K
  | .add key => key
  | .ask key => key

/-- A call of the limiter.  The clock is read when it begins, and once more
(`later`) for the deadline of a new record. -/
structure Event (K : Type*) where
  call : Call K
  now : Nat
  later : Nat
  answer : Bool
deriving DecidableEq

/-- `rq.add(r); rm.put(key, r)` for a new record. -/
def put (period later : Nat) (limiter : SpeedLimit K) (key : K) :
    SpeedLimit K :=
  { limiter with
    heap := Function.update limiter.heap limiter.fresh
      ⟨key, 1, period + later⟩
    fresh := limiter.fresh + 1
    rm := Function.update limiter.rm key (some limiter.fresh)
    rq := limiter.fresh :: limiter.rq }

/-- What `add` and `ask` do behind the loop. -/
def perform (period times later : Nat) (limiter : SpeedLimit K) :
    Call K → Bool × SpeedLimit K
  | .add key =>
      match limiter.rm key with
      | some r =>
          let (answer, record) := (limiter.heap r).update times
          (answer,
            { limiter with heap := Function.update limiter.heap r record })
      | none => (true, put period later limiter key)
  | .ask key =>
      match limiter.rm key with
      | some r => ((limiter.heap r).isLimit times, limiter)
      | none => (true, limiter)

/-- A call, at a time that is not before the last one. -/
def Step (period times : Nat) (before : SpeedLimit K) (event : Event K)
    (after : SpeedLimit K) : Prop :=
  before.clock ≤ event.now ∧ event.now ≤ event.later ∧
    ∃ evicted, Evicted event.now before evicted ∧
      (event.answer, after) =
        ((perform period times event.later evicted event.call).1,
          { (perform period times event.later evicted event.call).2 with
            clock := event.later })

/-- A limiter without records. -/
def start (memory : Reference → Record K) : SpeedLimit K where
  heap := memory
  fresh := 0
  rm := fun _ => none
  rq := []
  clock := 0

/-! ## Windows -/

/-- The last window of a key: when it began, and how often `add` was called
in it. -/
structure Window where
  start : Nat
  adds : Nat
deriving DecidableEq

/-- The window has not ended. -/
def Window.isOpen (period now : Nat) (window : Window) : Bool :=
  now < window.start + period

/-- What a call makes of the window of a key. -/
def windowAfter (period : Nat) (key : K) (window : Option Window)
    (event : Event K) : Option Window :=
  if event.call = .add key then
    match window with
    | some window =>
        if window.isOpen period event.now then
          some { window with adds := window.adds + 1 }
        else some ⟨event.later, 1⟩
    | none => some ⟨event.later, 1⟩
  else window

/-- The last window of a key. -/
def lastWindow (period : Nat) (history : List (Event K)) (key : K) :
    Option Window :=
  history.foldl (windowAfter period key) none

/-- How often `add` was called in the window that is open now. -/
def openAdds (period now : Nat) : Option Window → Nat
  | some window => if window.isOpen period now then window.adds else 0
  | none => 0

/-- A call is answered as the limit of its window says. -/
def Answered (period times : Nat) (events : List (Event K)) : Prop :=
  ∀ front event back, events = front ++ event :: back →
    (event.answer = true ↔
      openAdds period event.now
        (lastWindow period front event.call.key) < times)

/-- The times do not decrease. -/
def Timed (clock : Nat) : List (Event K) → Prop
  | [] => True
  | event :: events =>
      clock ≤ event.now ∧ event.now ≤ event.later ∧
        Timed event.later events

/-- The map and the queue hold the same records, one for each key. -/
structure SameRecords (limiter : SpeedLimit K) : Prop where
  nodup : limiter.rq.Nodup
  rm_iff : ∀ key r, limiter.rm key = some r ↔
    r ∈ limiter.rq ∧ (limiter.heap r).key = key

/-! ## What the limiter remembers -/

section Memory

variable {period times now later : Nat} {history : List (Event K)}
  {limiter after : SpeedLimit K}

/-- A record stands for the last window of its key.  A window without a record
has ended. -/
structure Holds (period : Nat) (history : List (Event K)) (now : Nat)
    (limiter : SpeedLimit K) : Prop where
  same : SameRecords limiter
  old : ∀ r ∈ limiter.rq, r < limiter.fresh
  record : ∀ key r, limiter.rm key = some r →
    ∃ window, lastWindow period history key = some window ∧
      (limiter.heap r).count = window.adds ∧
      (limiter.heap r).deadline = window.start + period
  ended : ∀ key window, limiter.rm key = none →
    lastWindow period history key = some window →
      window.start + period ≤ now

theorem Holds.mono (holds : Holds period history now limiter)
    (order : now ≤ later) : Holds period history later limiter :=
  { holds with
    ended := fun key window absent last =>
      (holds.ended key window absent last).trans order }

theorem SameRecords.poll (same : SameRecords limiter) {r : Reference}
    (queued : r ∈ limiter.rq) : SameRecords (poll limiter r) where
  nodup := same.nodup.erase r
  rm_iff key other := by
    simp only [SpeedLimitUtil.poll, same.nodup.mem_erase_iff]
    by_cases removed : key = (limiter.heap r).key
    · subst removed
      rw [Function.update_self]
      refine iff_of_false nofun ?_
      rintro ⟨⟨different, inQueue⟩, sameKey⟩
      have found := (same.rm_iff _ other).mpr ⟨inQueue, sameKey⟩
      have foundToo := (same.rm_iff _ r).mpr ⟨queued, rfl⟩
      rw [found] at foundToo
      exact different (Option.some.inj foundToo)
    · rw [Function.update_of_ne removed, same.rm_iff]
      constructor
      · rintro ⟨inQueue, rfl⟩
        refine ⟨⟨?_, inQueue⟩, rfl⟩
        rintro rfl
        exact removed rfl
      · rintro ⟨⟨-, inQueue⟩, sameKey⟩
        exact ⟨inQueue, sameKey⟩

theorem Holds.poll (holds : Holds period history now limiter)
    {r : Reference} (queued : r ∈ limiter.rq)
    (timedOut : (limiter.heap r).isTimeout now = true) :
    Holds period history now (poll limiter r) where
  same := holds.same.poll queued
  old other inQueue := holds.old other (List.mem_of_mem_erase inQueue)
  record key other found := by
    by_cases removed : key = (limiter.heap r).key
    · simp [SpeedLimitUtil.poll, removed] at found
    · simp only [SpeedLimitUtil.poll, Function.update_of_ne removed] at found
      exact holds.record key other found
  ended key window absent last := by
    by_cases removed : key = (limiter.heap r).key
    · subst removed
      have found := (holds.same.rm_iff _ r).mpr ⟨queued, rfl⟩
      obtain ⟨other, lastToo, -, deadline⟩ := holds.record _ r found
      rw [last, Option.some.injEq] at lastToo
      rw [Record.isTimeout, decide_eq_true_eq, deadline] at timedOut
      rw [lastToo]
      exact timedOut
    · simp only [SpeedLimitUtil.poll, Function.update_of_ne removed] at absent
      exact holds.ended key window absent last

/-- The loop forgets what has timed out and nothing else. -/
theorem Holds.evicted (holds : Holds period history now limiter)
    (loop : Evicted now limiter after) :
    Holds period history now after ∧
      ∀ r ∈ after.rq, now < (after.heap r).deadline := by
  induction loop with
  | empty none =>
      refine ⟨holds, ?_⟩
      rw [none]
      nofun
  | stop head running =>
      refine ⟨holds, fun other queued => ?_⟩
      rw [Record.isTimeout, decide_eq_false_iff_not, not_le] at running
      exact running.trans_le (head.2 other queued)
  | poll head timedOut _ ih => exact ih (holds.poll head.1 timedOut)

/-- A record can be removed as long as one has timed out. -/
theorem exists_evicted (now : Nat) (limiter : SpeedLimit K) :
    ∃ after, Evicted now limiter after := by
  induction length : limiter.rq.length using Nat.strong_induction_on
    generalizing limiter with
  | h size ih =>
      subst length
      by_cases none : limiter.rq = []
      · exact ⟨limiter, .empty none⟩
      · obtain ⟨r, queued, least⟩ := Finset.exists_min_image
          limiter.rq.toFinset (fun r => (limiter.heap r).deadline)
          (List.toFinset_nonempty_iff _ |>.mpr none)
        rw [List.mem_toFinset] at queued
        have head : IsHead limiter r :=
          ⟨queued, fun other inQueue =>
            least other (List.mem_toFinset.mpr inQueue)⟩
        cases timedOut : (limiter.heap r).isTimeout now with
        | false => exact ⟨limiter, .stop head timedOut⟩
        | true =>
            have shorter : (poll limiter r).rq.length <
                limiter.rq.length := by
              show (limiter.rq.erase r).length < limiter.rq.length
              have positive := List.length_pos_of_mem queued
              rw [List.length_erase_of_mem queued]
              omega
            obtain ⟨after, loop⟩ := ih _ shorter (poll limiter r) rfl
            exact ⟨after, .poll head timedOut loop⟩

/-! ## One call -/

theorem lastWindow_concat (history : List (Event K)) (event : Event K)
    (key : K) :
    lastWindow period (history ++ [event]) key =
      windowAfter period key (lastWindow period history key) event := by
  simp [lastWindow]

/-- What the loop leaves: the records of the windows that are open. -/
structure Ready (period : Nat) (history : List (Event K)) (now : Nat)
    (limiter : SpeedLimit K) : Prop where
  holds : Holds period history now limiter
  running : ∀ r ∈ limiter.rq, now < (limiter.heap r).deadline

theorem Ready.found (ready : Ready period history now limiter) {key : K}
    {r : Reference} (found : limiter.rm key = some r) :
    ∃ window, lastWindow period history key = some window ∧
      (limiter.heap r).count = window.adds ∧
      (limiter.heap r).deadline = window.start + period ∧
      window.isOpen period now = true := by
  obtain ⟨window, last, count, deadline⟩ := ready.holds.record key r found
  have queued := ((ready.holds.same.rm_iff key r).mp found).1
  have running := ready.running r queued
  rw [deadline] at running
  exact ⟨window, last, count, deadline, decide_eq_true running⟩

theorem Ready.absent (ready : Ready period history now limiter) {key : K}
    (absent : limiter.rm key = none) {window : Window}
    (last : lastWindow period history key = some window) :
    window.isOpen period now = false := by
  rw [Window.isOpen, decide_eq_false_iff_not, not_lt]
  exact ready.holds.ended key window absent last

/-- A new window begins when the record of the old one is gone. -/
theorem Ready.windowAfter_add (ready : Ready period history now limiter)
    {event : Event K} {key : K} (absent : limiter.rm key = none)
    (isAdd : event.call = .add key) (isNow : event.now = now) :
    windowAfter period key (lastWindow period history key) event =
      some ⟨event.later, 1⟩ := by
  unfold windowAfter
  rw [if_pos isAdd]
  cases last : lastWindow period history key with
  | none => rfl
  | some window =>
      dsimp only
      rw [isNow, ready.absent absent last]
      rfl

/-- The answer is the one of the window. -/
theorem Ready.answer_iff (ready : Ready period history now limiter)
    (positive : 0 < times) (call : Call K) :
    (perform period times later limiter call).1 = true ↔
      openAdds period now (lastWindow period history call.key) < times := by
  cases found : limiter.rm call.key with
  | some r =>
      obtain ⟨window, last, count, -, isOpen⟩ := ready.found found
      have answer : (perform period times later limiter call).1 =
          decide ((limiter.heap r).count < times) := by
        cases call with
        | add key =>
            simp only [Call.key] at found
            simp [perform, found, Record.update]
        | ask key =>
            simp only [Call.key] at found
            simp [perform, found, Record.isLimit]
      rw [answer, last, openAdds, if_pos isOpen, decide_eq_true_eq, count]
  | none =>
      have answer : (perform period times later limiter call).1 = true := by
        cases call with
        | add key =>
            simp only [Call.key] at found
            simp [perform, found]
        | ask key =>
            simp only [Call.key] at found
            simp [perform, found]
      have noAdds :
          openAdds period now (lastWindow period history call.key) = 0 := by
        cases last : lastWindow period history call.key with
        | none => rfl
        | some window =>
            rw [openAdds, ready.absent found last]
            rfl
      rw [noAdds]
      exact iff_of_true answer positive

theorem windowAfter_of_ne {event : Event K} {key : K}
    (notAdd : event.call ≠ .add key) (window : Option Window) :
    windowAfter period key window event = window :=
  if_neg notAdd

/-- A call that adds nothing keeps all windows. -/
theorem Holds.ask (holds : Holds period history now limiter)
    {event : Event K} (notAdd : ∀ key, event.call ≠ .add key) :
    Holds period (history ++ [event]) now limiter where
  same := holds.same
  old := holds.old
  record key r found := by
    rw [lastWindow_concat, windowAfter_of_ne (notAdd key)]
    exact holds.record key r found
  ended key window absent last := by
    rw [lastWindow_concat, windowAfter_of_ne (notAdd key)] at last
    exact holds.ended key window absent last

omit [DecidableEq K] in
theorem SameRecords.update (same : SameRecords limiter) {r : Reference}
    {record : Record K} (sameKey : record.key = (limiter.heap r).key) :
    SameRecords
      { limiter with heap := Function.update limiter.heap r record } where
  nodup := same.nodup
  rm_iff key other := by
    rw [same.rm_iff]
    dsimp only
    by_cases updated : other = r
    · subst updated
      rw [Function.update_self, sameKey]
    · rw [Function.update_of_ne updated]

/-- Another `add` in an open window. -/
theorem Ready.count (ready : Ready period history now limiter)
    {event : Event K} {key : K} {r : Reference}
    (found : limiter.rm key = some r) (isAdd : event.call = .add key)
    (isNow : event.now = now) :
    Holds period (history ++ [event]) now
      { limiter with
        heap := Function.update limiter.heap r
          ((limiter.heap r).update times).2 } where
  same := ready.holds.same.update rfl
  old := ready.holds.old
  record other place foundToo := by
    rw [lastWindow_concat]
    by_cases sameKey : other = key
    · subst sameKey
      rw [found, Option.some.injEq] at foundToo
      subst foundToo
      obtain ⟨window, last, count, deadline, isOpen⟩ := ready.found found
      refine ⟨{ window with adds := window.adds + 1 }, ?_, ?_, ?_⟩
      · unfold windowAfter
        rw [if_pos isAdd, last, isNow]
        simp only [isOpen, if_true]
      · simp only [Function.update_self, Record.update, count]
      · simp only [Function.update_self, Record.update, deadline]
    · have different : place ≠ r := by
        rintro rfl
        have keys := ((ready.holds.same.rm_iff _ _).mp found).2
        have keysToo := ((ready.holds.same.rm_iff _ _).mp foundToo).2
        exact sameKey (keysToo.symm.trans keys)
      have notAdd : event.call ≠ .add other := by
        rw [isAdd]
        rintro ⟨⟩
        exact sameKey rfl
      simp only [Function.update_of_ne different, windowAfter_of_ne notAdd]
      exact ready.holds.record other place foundToo
  ended other window absent last := by
    have notAdd : event.call ≠ .add other := by
      rw [isAdd]
      rintro ⟨⟩
      rw [found] at absent
      cases absent
    rw [lastWindow_concat, windowAfter_of_ne notAdd] at last
    exact ready.holds.ended other window absent last

theorem SameRecords.put (same : SameRecords limiter) {key : K}
    (absent : limiter.rm key = none)
    (old : ∀ r ∈ limiter.rq, r < limiter.fresh) :
    SameRecords (put period later limiter key) where
  nodup := List.nodup_cons.mpr
    ⟨fun queued => absurd (old _ queued) (lt_irrefl _), same.nodup⟩
  rm_iff other r := by
    simp only [SpeedLimitUtil.put, List.mem_cons]
    by_cases isFresh : r = limiter.fresh
    · subst isFresh
      have notFound : limiter.rm other ≠ some limiter.fresh := by
        intro found
        exact absurd (old _ ((same.rm_iff _ _).mp found).1) (lt_irrefl _)
      rw [Function.update_self]
      by_cases isKey : other = key
      · subst isKey
        simp
      · simp [Function.update_of_ne isKey, notFound, Ne.symm isKey]
    · rw [Function.update_of_ne isFresh]
      by_cases isKey : other = key
      · subst isKey
        rw [Function.update_self]
        refine iff_of_false ?_ ?_
        · simpa using Ne.symm isFresh
        · rintro ⟨queued, sameKey⟩
          have found := (same.rm_iff other r).mpr
            ⟨queued.resolve_left isFresh, sameKey⟩
          rw [absent] at found
          cases found
      · rw [Function.update_of_ne isKey, same.rm_iff]
        simp [isFresh]

/-- The first `add` of a window. -/
theorem Ready.put (ready : Ready period history now limiter)
    {event : Event K} {key : K} (absent : limiter.rm key = none)
    (isAdd : event.call = .add key) (isNow : event.now = now) :
    Holds period (history ++ [event]) now
      (put period event.later limiter key) where
  same := ready.holds.same.put absent ready.holds.old
  old r queued := by
    rcases List.mem_cons.mp queued with rfl | queued
    · exact Nat.lt_succ_self _
    · exact Nat.lt_succ_of_lt (ready.holds.old r queued)
  record other r found := by
    rw [lastWindow_concat]
    by_cases sameKey : other = key
    · subst sameKey
      simp only [SpeedLimitUtil.put, Function.update_self,
        Option.some.injEq] at found
      subst found
      refine ⟨_, ready.windowAfter_add absent isAdd isNow, ?_, ?_⟩
      · simp [SpeedLimitUtil.put]
      · simp [SpeedLimitUtil.put, Nat.add_comm]
    · simp only [SpeedLimitUtil.put, Function.update_of_ne sameKey] at found
      have queued := ((ready.holds.same.rm_iff _ _).mp found).1
      have different : r ≠ limiter.fresh :=
        (ready.holds.old r queued).ne
      have notAdd : event.call ≠ .add other := by
        rw [isAdd]
        rintro ⟨⟩
        exact sameKey rfl
      simp only [SpeedLimitUtil.put, Function.update_of_ne different,
        windowAfter_of_ne notAdd]
      exact ready.holds.record other r found
  ended other window absentToo last := by
    by_cases sameKey : other = key
    · subst sameKey
      simp [SpeedLimitUtil.put] at absentToo
    · have notAdd : event.call ≠ .add other := by
        rw [isAdd]
        rintro ⟨⟩
        exact sameKey rfl
      simp only [SpeedLimitUtil.put, Function.update_of_ne sameKey]
        at absentToo
      rw [lastWindow_concat, windowAfter_of_ne notAdd] at last
      exact ready.holds.ended other window absentToo last

/-- What a call leaves behind the loop. -/
theorem Ready.perform (ready : Ready period history now limiter)
    {event : Event K} (isNow : event.now = now) :
    Holds period (history ++ [event]) now
      (perform period times event.later limiter event.call).2 := by
  cases call : event.call with
  | add key =>
      cases found : limiter.rm key with
      | some r =>
          simp only [SpeedLimitUtil.perform, found]
          exact ready.count found call isNow
      | none =>
          simp only [SpeedLimitUtil.perform, found]
          exact ready.put found call isNow
  | ask key =>
      have notAdd : ∀ key, event.call ≠ .add key := by
        rw [call]
        nofun
      have unchanged : (SpeedLimitUtil.perform period times event.later
          limiter (.ask key)).2 = limiter := by
        simp only [SpeedLimitUtil.perform]
        split <;> rfl
      rw [unchanged]
      exact ready.holds.ask notAdd

end Memory

/-! ## Runs -/

section Runs

variable {period times : Nat} {history events : List (Event K)}
  {limiter before after : SpeedLimit K} {event : Event K}
  {memory : Reference → Record K}

omit [DecidableEq K] in
theorem SameRecords.clock (same : SameRecords limiter) (clock : Nat) :
    SameRecords { limiter with clock := clock } :=
  ⟨same.nodup, same.rm_iff⟩

theorem Holds.clock {now : Nat} (holds : Holds period history now limiter)
    (clock : Nat) :
    Holds period history now { limiter with clock := clock } where
  same := holds.same.clock clock
  old := holds.old
  record := holds.record
  ended := holds.ended

theorem Holds.ready (holds : Holds period history before.clock before)
    {now : Nat} (order : before.clock ≤ now)
    (loop : Evicted now before after) : Ready period history now after :=
  have evicted := (holds.mono order).evicted loop
  ⟨evicted.1, evicted.2⟩

/-- A call keeps what the limiter remembers. -/
theorem Holds.step (holds : Holds period history before.clock before)
    (taken : Step period times before event after) :
    Holds period (history ++ [event]) after.clock after := by
  obtain ⟨order, orderToo, evicted, loop, result⟩ := taken
  have ready := holds.ready order loop
  rw [(Prod.mk.inj result).2]
  exact ((ready.perform rfl).mono orderToo).clock event.later

theorem Holds.answer_iff (positive : 0 < times)
    (holds : Holds period history before.clock before)
    (taken : Step period times before event after) :
    event.answer = true ↔
      openAdds period event.now
        (lastWindow period history event.call.key) < times := by
  obtain ⟨order, -, evicted, loop, result⟩ := taken
  rw [(Prod.mk.inj result).1]
  exact (holds.ready order loop).answer_iff positive event.call

/-- A call with the answer of its window can be made. -/
theorem Holds.exists_step (positive : 0 < times)
    (holds : Holds period history before.clock before)
    (order : before.clock ≤ event.now) (orderToo : event.now ≤ event.later)
    (answered : event.answer = true ↔
      openAdds period event.now
        (lastWindow period history event.call.key) < times) :
    ∃ after, Step period times before event after ∧
      after.clock = event.later := by
  obtain ⟨evicted, loop⟩ := exists_evicted event.now before
  refine ⟨_, ⟨order, orderToo, evicted, loop, Prod.ext ?_ rfl⟩, rfl⟩
  rw [Bool.eq_iff_iff, answered]
  exact ((holds.ready order loop).answer_iff positive event.call).symm

/-- What the limiter remembers at the last time that was read. -/
def Remembers (period : Nat) (history : List (Event K))
    (limiter : SpeedLimit K) : Prop :=
  Holds period history limiter.clock limiter

theorem holds_start (memory : Reference → Record K) :
    Holds period [] (start memory).clock (start memory) where
  same := ⟨List.nodup_nil, fun key r => by simp [start]⟩
  old := nofun
  record := nofun
  ended := nofun

theorem holds_of_run
    (run : Run (Step period times) (start memory) events limiter) :
    Holds period events limiter.clock limiter := by
  have stepped : ∀ {front : List (Event K)} {before after : SpeedLimit K}
      {event : Event K}, Remembers period front before →
        Step period times before event after →
          Remembers period (front ++ [event]) after :=
    fun holds taken => Holds.step holds taken
  have remembers : Remembers period ([] ++ events) limiter :=
    run.history (fun holds taken => stepped holds taken) (holds_start memory)
  exact remembers

theorem timed_of_run (run : Run (Step period times) before events after) :
    Timed before.clock events := by
  induction run with
  | nil => trivial
  | cons taken _ ih =>
      obtain ⟨order, orderToo, evicted, loop, result⟩ := taken
      rw [(Prod.mk.inj result).2] at ih
      exact ⟨order, orderToo, ih⟩

theorem answered_of_run (positive : 0 < times)
    (run : Run (Step period times) (start memory) events limiter) :
    Answered period times events := by
  rintro front event back rfl
  obtain ⟨middle, before, rest⟩ := Run.append_iff.mp run
  obtain ⟨next, taken, -⟩ := Run.cons_iff.mp rest
  exact (holds_of_run before).answer_iff positive taken

theorem exists_run (positive : 0 < times)
    (holds : Holds period history before.clock before)
    (timed : Timed before.clock events)
    (answered : ∀ front event back, events = front ++ event :: back →
      (event.answer = true ↔
        openAdds period event.now
          (lastWindow period (history ++ front) event.call.key) < times)) :
    ∃ after, Run (Step period times) before events after := by
  induction events generalizing history before with
  | nil => exact ⟨before, .nil _⟩
  | cons event events ih =>
      obtain ⟨order, orderToo, later⟩ := timed
      have first := answered [] event events rfl
      rw [List.append_nil] at first
      obtain ⟨next, taken, clock⟩ :=
        holds.exists_step positive order orderToo first
      have rest : ∀ front other back, events = front ++ other :: back →
          (other.answer = true ↔
            openAdds period other.now
              (lastWindow period ((history ++ [event]) ++ front)
                other.call.key) < times) := by
        rintro front other back rfl
        rw [List.append_assoc, List.singleton_append]
        exact answered (event :: front) other back rfl
      rw [← clock] at later
      obtain ⟨after, run⟩ := ih (holds.step taken) later rest
      exact ⟨after, .cons taken run⟩

/-- The runs of the limiter are the calls whose answers are those of the
windows. -/
theorem exists_run_iff (positive : 0 < times) :
    (∃ state, Run (Step period times) (start memory) events state) ↔
      Timed 0 events ∧ Answered period times events := by
  constructor
  · rintro ⟨state, run⟩
    exact ⟨timed_of_run run, answered_of_run positive run⟩
  · rintro ⟨timed, answered⟩
    exact exists_run positive (holds_start memory) timed answered

omit [DecidableEq K] in
/-- Leaving out an event keeps the order of the times. -/
theorem Timed.leave_out {clock : Nat} {front back : List (Event K)}
    (timed : Timed clock (front ++ event :: back)) :
    Timed clock (front ++ back) := by
  induction front generalizing clock with
  | nil =>
      obtain ⟨order, orderToo, later⟩ := timed
      cases back with
      | nil => trivial
      | cons other back =>
          exact ⟨(order.trans orderToo).trans later.1, later.2⟩
  | cons other front ih => exact ⟨timed.1, timed.2.1, ih timed.2.2⟩

/-- A question leaves all windows as they are. -/
theorem lastWindow_leave_out {front back : List (Event K)} {asked : K}
    (ask : event.call = .ask asked) (key : K) :
    lastWindow period (front ++ event :: back) key =
      lastWindow period (front ++ back) key := by
  have notAdd : event.call ≠ .add key := by
    rw [ask]
    nofun
  simp [lastWindow, windowAfter_of_ne notAdd]

theorem Answered.leave_out {front back : List (Event K)} {asked : K}
    (ask : event.call = .ask asked)
    (answered : Answered period times (front ++ event :: back)) :
    Answered period times (front ++ back) := by
  intro left other right parts
  have behind : ∀ middle, left = front ++ middle →
      back = middle ++ other :: right →
        (other.answer = true ↔
          openAdds period other.now
            (lastWindow period left other.call.key) < times) := by
    rintro middle rfl rfl
    rw [← lastWindow_leave_out ask]
    apply answered (front ++ event :: middle) other right
    rw [List.append_assoc, List.cons_append]
  rcases List.append_eq_append_iff.mp parts with
    ⟨middle, isLeft, isBack⟩ | ⟨middle, isFront, rest⟩
  · exact behind middle isLeft isBack
  · cases middle with
    | nil =>
        apply behind []
        · rw [isFront, List.append_nil, List.append_nil]
        · exact rest.symm
    | cons first middle =>
        rw [List.cons_append, List.cons.injEq] at rest
        obtain ⟨rfl, -⟩ := rest
        apply answered left other (middle ++ event :: back)
        rw [isFront, List.append_assoc, List.cons_append]

/-- What the limiter does, in all its runs. -/
structure Limits (period times : Nat) (memory : Reference → Record K) :
    Prop where
  /-- The map and the queue hold the same records, one for each key. -/
  same : ∀ {events : List (Event K)} {state},
    Run (Step period times) (start memory) events state → SameRecords state
  /-- A record belongs to the last window of its key, counts the calls of
  `add` in it, and ends with it. -/
  record : ∀ {events : List (Event K)} {state key r},
    Run (Step period times) (start memory) events state →
      state.rm key = some r →
        ∃ window, lastWindow period events key = some window ∧
          (state.heap r).count = window.adds ∧
          (state.heap r).deadline = window.start + period
  /-- The calls that can be made are those at times that do not decrease, and
  their answers are those of the windows. -/
  answers : ∀ {events : List (Event K)},
    (∃ state, Run (Step period times) (start memory) events state) ↔
      Timed 0 events ∧ Answered period times events
  /-- `ask` answers what `add` would answer. -/
  agree : ∀ {front : List (Event K)} {key now later laterToo answer
      answerToo state stateToo},
    Run (Step period times) (start memory)
        (front ++ [⟨.ask key, now, later, answer⟩]) state →
      Run (Step period times) (start memory)
          (front ++ [⟨.add key, now, laterToo, answerToo⟩]) stateToo →
        answer = answerToo
  /-- Without a call of `ask` all later answers are the same. -/
  ask : ∀ {front back : List (Event K)} {event key state},
    event.call = .ask key →
      Run (Step period times) (start memory)
          (front ++ event :: back) state →
        ∃ state, Run (Step period times) (start memory)
          (front ++ back) state

/-- The limiter accepts the first `times` calls of `add` in a window. -/
theorem limiter_limits (positive : 0 < times)
    (memory : Reference → Record K) : Limits period times memory where
  same run := (holds_of_run run).same
  record run found := (holds_of_run run).record _ _ found
  answers := exists_run_iff positive
  agree asked added := by
    have left := answered_of_run positive asked _ _ [] rfl
    have right := answered_of_run positive added _ _ [] rfl
    exact Bool.eq_iff_iff.mpr (left.trans right.symm)
  ask isAsk run := by
    obtain ⟨timed, answered⟩ := (exists_run_iff positive).mp ⟨_, run⟩
    exact (exists_run_iff positive).mpr
      ⟨timed.leave_out, answered.leave_out isAsk⟩

end Runs

/-- The limiter with the values of the source: ten thousand calls in a
second. -/
theorem limiter_limits_default :
    Limits 1 10000 (fun _ => Record.mk (0 : Nat) 0 0) :=
  limiter_limits (by decide) _

end WindowSystem.HidataFramework.SpeedLimitUtil
