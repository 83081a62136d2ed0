import Mathlib.Data.List.Perm.Basic
import Mathlib.Data.List.Range
import WindowSystem.Library.Exceptions

/-!
# `RedisUtil`: clients of the connection pool

Every operation takes a client from the pool, sends its commands and gives the
client back in a `finally` block; a failed operation also gives it back as
broken in its `catch` block.  Every command may throw.  The module counts for
each client that was taken how often it is given back, and says what the pool
makes of it as long as nobody gives a client back twice.
-/

namespace WindowSystem.HidataFramework.RedisUtil

open WindowSystem.Library.Exceptions

/-! ## Clients and the pool -/

/-- How a client is given back: `releaseJedis` or `releaseBrokenJedis`. -/
inductive Return where
  | good
  | broken
deriving DecidableEq

/-- A client that was taken, with what was done to give it back. -/
structure Lease where
  client : Nat
  returns : List Return
deriving DecidableEq

/-- What is called; `service` stands for the database and for conversions. -/
inductive Call where
  | getResource
  | hset
  | sadd
  | keys
  | hget
  | hgetAll
  | isPresent
  | del
  | get
  | set
  | scard
  | rename
  | expire
  | service
deriving DecidableEq

/-- Where a call stands: in a method of `RedisUtil`, in a task outside of the
`try` blocks that go on to give the client back, or inside of them. -/
inductive Site where
  | operation
  | outside
  | inside
deriving DecidableEq

/-- A call that has thrown, and whether a client was out at that moment. -/
structure Failure where
  call : Call
  site : Site
  out : Bool
deriving DecidableEq

/-- The pool, the clients that were taken, and the variable `client` of the
method that runs. -/
structure State where
  idle : List Nat
  destroyed : List Nat
  created : Nat
  closed : List Lease
  client : Option Lease
  failures : List Failure
deriving DecidableEq

/-- A pool that nobody has used yet. -/
def initial : State where
  idle := []
  destroyed := []
  created := 0
  closed := []
  client := none
  failures := []

/-- All clients that were taken so far. -/
def State.leases (state : State) : List Lease :=
  state.closed ++ state.client.toList

/-- The variable holds a client that is not given back yet. -/
def State.out (state : State) : Bool :=
  state.client.any fun lease => lease.returns.isEmpty

/-- A new variable `Jedis client = null`. -/
def State.declare (state : State) : State :=
  { state with closed := state.leases, client := none }

/-- `client = getResource()`: an idle client, or a new one. -/
def State.take (state : State) : State :=
  match state.idle with
  | client :: idle =>
      { state with
        idle
        closed := state.leases
        client := some ⟨client, []⟩ }
  | [] =>
      { state with
        created := state.created + 1
        closed := state.leases
        client := some ⟨state.created, []⟩ }

/-- A call throws. -/
def State.fail (state : State) (call : Call) (site : Site) : State :=
  { state with failures := state.failures ++ [⟨call, site, state.out⟩] }

/-- The client of a lease goes back to the pool. -/
def State.accept (state : State) (lease : Lease) : Return → State
  | .good =>
      { state with
        idle := lease.client :: state.idle
        client := some { lease with returns := lease.returns ++ [.good] } }
  | .broken =>
      { state with
        destroyed := lease.client :: state.destroyed
        client := some { lease with returns := lease.returns ++ [.broken] } }

/-- The atomic actions of the methods. -/
inductive Action where
  | declare
  | getResource
  | command (call : Call) (site : Site)
  | service (site : Site)
  | giveBack (how : Return)
deriving DecidableEq

/-- The results of an action.  A command on a client that is `null` throws,
and so may every other one.  What the pool does with a client that it has got
back already is left open: it may take it again, or throw. -/
def results : Action → State → List (Outcome × State)
  | .declare, state => [(.completed, state.declare)]
  | .getResource, state =>
      [(.completed, state.take), (.threw, state.fail .getResource .inside)]
  | .command call site, state =>
      if state.client = none then [(.threw, state.fail call site)]
      else [(.completed, state), (.threw, state.fail call site)]
  | .service site, state =>
      [(.completed, state), (.threw, state.fail .service site)]
  | .giveBack how, state =>
      match state.client with
      | none => [(.completed, state)]
      | some lease =>
          if lease.returns = [] then
            [(.completed, state.accept lease how)]
          else
            [(.completed, state.accept lease how),
              (.threw,
                { state with
                  client :=
                    some { lease with returns := lease.returns ++ [how] } })]

/-- A method. -/
abbrev Method := Command Action

/-! ## The operations -/

/-- `client.call(…)` in a method of `RedisUtil`. -/
def inOperation (call : Call) : Method :=
  .atomic (.command call .operation)

/-- An operation: take a client, run the body, give the client back. -/
def operation (body : Method) : Method :=
  .seq (.atomic .declare)
    (.tryFinally
      (.tryCatch (.seq (.atomic .getResource) body)
        (.atomic (.giveBack .broken)))
      (.atomic (.giveBack .good)))

def hset : Method := operation (inOperation .hset)

def sadd : Method := operation (inOperation .sadd)

def keys : Method := operation (inOperation .keys)

/-- The value is only read where the key exists. -/
def hget : Method :=
  operation (.seq (inOperation .isPresent) (.either (inOperation .hget) .skip))

/-- The hash is only read where the key exists. -/
def hgetAll : Method :=
  operation
    (.seq (inOperation .isPresent) (.either (inOperation .hgetAll) .skip))

def isExists : Method := operation (inOperation .isPresent)

def del : Method := operation (inOperation .del)

def get : Method := operation (inOperation .get)

def set : Method := operation (inOperation .set)

/-- `hsetOjbect`: the object is converted, then every field with a value is
set. -/
def hsetOjbect : Method :=
  .seq (.atomic .declare)
    (.seq (.atomic (.service .operation)) (.loop (.either hset .skip)))

/-- `getJedisClientFromPool` -/
def getJedisClientFromPool : Method :=
  .seq (.atomic .declare)
    (.tryCatch (.atomic .getResource) (.atomic (.giveBack .broken)))

/-- `releaseJedisClientFromPool` -/
def releaseJedisClientFromPool : Method :=
  .atomic (.giveBack .good)

/-! ## What is claimed -/

/-- A failure after which the client is still given back once. -/
def Failure.harmless (failure : Failure) : Bool :=
  !failure.out || failure.site == .inside

/-- Every client that was taken is given back exactly once. -/
def State.Balanced (state : State) : Prop :=
  ∀ lease ∈ state.leases, lease.returns.length = 1

/-- The pool has each client that was ever created exactly once: as an idle
one or as a destroyed one. -/
def State.Whole (state : State) : Prop :=
  (state.idle ++ state.destroyed).Perm (List.range state.created)

/-- No call has thrown where it does harm. -/
def State.Harmless (state : State) : Prop :=
  ∀ failure ∈ state.failures, failure.harmless = true

/-! ## What the pool has -/

/-- The clients that are out. -/
def State.holding (state : State) : List Nat :=
  (state.leases.filter fun lease => lease.returns.isEmpty).map Lease.client

/-- As long as no client is given back twice, every client is idle, destroyed
or out, and only one of these. -/
def State.Accounted (state : State) : Prop :=
  (∀ lease ∈ state.leases, lease.returns.length ≤ 1) →
    (state.idle ++ state.destroyed ++ state.holding).Perm
      (List.range state.created)

theorem leases_declare (state : State) :
    state.declare.leases = state.leases := by
  simp [State.declare, State.leases]

theorem accounted_declare {state : State} (accounted : state.Accounted) :
    state.declare.Accounted := by
  rw [State.Accounted, State.holding, leases_declare]
  exact accounted

theorem accounted_fail {state : State} (accounted : state.Accounted)
    (call : Call) (site : Site) : (state.fail call site).Accounted :=
  accounted

/-- The clients that the leases of a list have out. -/
theorem holding_append {state : State} {closed : List Lease} {lease : Lease}
    (leases : state.leases = closed ++ [lease]) :
    state.holding =
      ((closed.filter fun lease => lease.returns.isEmpty).map Lease.client) ++
        if lease.returns = [] then [lease.client] else [] := by
  rw [State.holding, leases, List.filter_append, List.map_append]
  by_cases back : lease.returns = [] <;> simp [back]

theorem leases_of_client {state : State} {lease : Lease}
    (client : state.client = some lease) :
    state.leases = state.closed ++ [lease] := by
  rw [State.leases, client, Option.toList_some]

theorem accounted_take {state : State} (accounted : state.Accounted) :
    state.take.Accounted := by
  intro once
  rw [State.take] at once ⊢
  cases idle : state.idle with
  | nil =>
      simp only [idle] at once ⊢
      have before := accounted fun lease member =>
        once lease (List.mem_append_left _ member)
      rw [holding_append (leases_of_client rfl)]
      rw [idle] at before
      simp only [if_true, List.range_succ, ← List.append_assoc]
      exact before.append_right _
  | cons client rest =>
      simp only [idle] at once ⊢
      have before := accounted fun lease member =>
        once lease (List.mem_append_left _ member)
      rw [holding_append (leases_of_client rfl)]
      rw [idle] at before
      refine List.Perm.trans ?_ before
      simp only [if_true, List.cons_append, ← List.append_assoc]
      exact List.perm_append_singleton client _

/-- A client that is given back for the first time is no longer out. -/
theorem accounted_accept {state : State} {lease : Lease} {how : Return}
    (client : state.client = some lease) (out : lease.returns = [])
    (accounted : state.Accounted) : (state.accept lease how).Accounted := by
  intro once
  have before := accounted fun other member => by
    rw [leases_of_client client, List.mem_append,
      List.mem_singleton] at member
    rcases member with closed | rfl
    · apply once other
      cases how <;> exact List.mem_append_left _ closed
    · rw [out]
      exact Nat.zero_le 1
  rw [holding_append (leases_of_client client), if_pos out] at before
  cases how with
  | good =>
      rw [holding_append (leases_of_client rfl), if_neg (by simp),
        List.append_nil]
      refine List.Perm.trans ?_ before
      simp only [State.accept, List.cons_append, ← List.append_assoc]
      exact (List.perm_append_singleton lease.client _).symm
  | broken =>
      rw [holding_append (leases_of_client rfl), if_neg (by simp),
        List.append_nil]
      refine List.Perm.trans ?_ before
      simp only [State.accept, List.append_assoc, List.cons_append]
      refine List.perm_middle.trans ?_
      simp only [← List.append_assoc]
      exact (List.perm_append_singleton lease.client _).symm

/-- A client that is given back again ends the claim on the pool. -/
theorem accounted_of_twice {state : State} {lease : Lease}
    (client : state.client = some lease) (twice : 2 ≤ lease.returns.length) :
    state.Accounted := by
  intro once
  have last := once lease (by
    rw [leases_of_client client]
    exact List.mem_append_right _ List.mem_cons_self)
  omega

/-- Every action keeps account of the clients. -/
theorem accounted_results {action : Action} {before after : State}
    {outcome : Outcome} (accounted : before.Accounted)
    (member : (outcome, after) ∈ results action before) :
    after.Accounted := by
  cases action with
  | declare =>
      simp only [results, List.mem_singleton, Prod.mk.injEq] at member
      rw [member.2]
      exact accounted_declare accounted
  | getResource =>
      simp only [results, List.mem_cons, Prod.mk.injEq, List.not_mem_nil,
        or_false] at member
      rcases member with ⟨-, rfl⟩ | ⟨-, rfl⟩
      · exact accounted_take accounted
      · exact accounted_fail accounted _ _
  | command call site =>
      rw [results] at member
      split_ifs at member with none
      · simp only [List.mem_singleton, Prod.mk.injEq] at member
        rw [member.2]
        exact accounted_fail accounted _ _
      · simp only [List.mem_cons, Prod.mk.injEq, List.not_mem_nil,
          or_false] at member
        rcases member with ⟨-, rfl⟩ | ⟨-, rfl⟩
        · exact accounted
        · exact accounted_fail accounted _ _
  | service site =>
      simp only [results, List.mem_cons, Prod.mk.injEq, List.not_mem_nil,
        or_false] at member
      rcases member with ⟨-, rfl⟩ | ⟨-, rfl⟩
      · exact accounted
      · exact accounted_fail accounted _ _
  | giveBack how =>
      rw [results] at member
      cases client : before.client with
      | none =>
          simp only [client, List.mem_singleton, Prod.mk.injEq] at member
          rw [member.2]
          exact accounted
      | some lease =>
          simp only [client] at member
          split_ifs at member with out
          · simp only [List.mem_singleton, Prod.mk.injEq] at member
            rw [member.2]
            exact accounted_accept client out accounted
          · have again : 2 ≤ (lease.returns ++ [how]).length := by
              have := List.length_pos_of_ne_nil out
              simp only [List.length_append, List.length_singleton]
              omega
            simp only [List.mem_cons, Prod.mk.injEq, List.not_mem_nil,
              or_false] at member
            rcases member with ⟨-, rfl⟩ | ⟨-, rfl⟩
            · cases how <;> exact accounted_of_twice rfl again
            · exact accounted_of_twice rfl again

theorem accounted_initial : initial.Accounted := by
  intro _
  rfl

/-- Where every client is given back exactly once, the pool has all of
them. -/
theorem whole_of_balanced {command : Method} {last : State}
    {outcome : Outcome}
    (execution : Executes results command initial outcome last)
    (balanced : last.Balanced) : last.Whole := by
  have accounted : last.Accounted :=
    execution.invariant accounted_results accounted_initial
  have perm := accounted fun lease member => (balanced lease member).le
  have nothing : last.holding = [] := by
    rw [State.holding, List.map_eq_nil_iff, List.filter_eq_nil_iff]
    intro lease member empty
    have once := balanced lease member
    rw [List.isEmpty_iff.mp empty] at once
    cases once
  rw [nothing, List.append_nil] at perm
  exact perm

/-! ## Conditions between the actions -/

/-- The clients are all given back once exactly if no failure was harmful. -/
def State.Exact (state : State) : Prop :=
  state.Balanced ↔ state.Harmless

/-- The variable is `null`. -/
def Null (state : State) : Prop :=
  state.Exact ∧ state.client = none

/-- The variable holds a client that is out; the others are as they should
be. -/
def Out (state : State) : Prop :=
  ((∀ lease ∈ state.closed, lease.returns.length = 1) ↔ state.Harmless) ∧
    ∃ lease, state.client = some lease ∧ lease.returns = []

/-- What `getJedisClientFromPool` returns. -/
def Available (state : State) : Prop :=
  Null state ∨ Out state

/-- No client is out. -/
def Done (state : State) : Prop :=
  state.Exact ∧ state.out = false

/-- After a harmful failure, a client that is given back some times. -/
def Spoilt (times : Nat) (state : State) : Prop :=
  ¬ state.Harmless ∧
    ∃ lease, state.client = some lease ∧ lease.returns.length = times

/-- After a failure at which the client, if any, is out. -/
def Failed (times : Nat) (state : State) : Prop :=
  Null state ∨ Spoilt times state

theorem balanced_of_client {state : State} {lease : Lease}
    (client : state.client = some lease) :
    state.Balanced ↔
      (∀ lease ∈ state.closed, lease.returns.length = 1) ∧
        lease.returns.length = 1 := by
  rw [State.Balanced, leases_of_client client, List.forall_mem_append,
    List.forall_mem_singleton]

theorem Spoilt.exact {times : Nat} {state : State}
    (spoilt : Spoilt times state) (other : times ≠ 1) : state.Exact := by
  obtain ⟨harm, lease, client, rfl⟩ := spoilt
  refine iff_of_false (fun balanced => ?_) harm
  exact other ((balanced_of_client client).mp balanced).2

theorem Failed.exact {times : Nat} {state : State}
    (failed : Failed times state) (other : times ≠ 1) : state.Exact :=
  failed.elim And.left fun spoilt => spoilt.exact other

theorem Null.done {state : State} (null : Null state) : Done state :=
  ⟨null.1, by rw [State.out, null.2, Option.any_none]⟩

theorem Out.out {state : State} (out : Out state) : state.out = true := by
  obtain ⟨_, lease, client, back⟩ := out
  rw [State.out, client, Option.any_some, back, List.isEmpty_nil]

theorem harmless_fail (state : State) (call : Call) (site : Site) :
    (state.fail call site).Harmless ↔
      state.Harmless ∧ (Failure.mk call site state.out).harmless = true := by
  simp only [State.Harmless, State.fail, List.forall_mem_append,
    List.forall_mem_singleton]

/-- A failure that does no harm. -/
theorem exact_fail {state : State} (exact : state.Exact) {call : Call}
    {site : Site}
    (harmless : (Failure.mk call site state.out).harmless = true) :
    (state.fail call site).Exact := by
  rw [State.Exact, harmless_fail, and_iff_left harmless]
  exact exact

/-- Every failure is harmless when no client is out. -/
theorem Done.fail {state : State} (done : Done state) (call : Call)
    (site : Site) : Done (state.fail call site) := by
  refine ⟨exact_fail done.1 ?_, done.2⟩
  rw [Failure.harmless, done.2]
  rfl

/-- A failed command on a variable that is `null`. -/
theorem null_fail {state : State} (null : Null state) (call : Call)
    (site : Site) : Null (state.fail call site) :=
  ⟨(null.done.fail call site).1, null.2⟩

/-- A failure inside the guarded part leaves the client out. -/
theorem out_fail_inside {state : State} (out : Out state) (call : Call) :
    Out (state.fail call .inside) := by
  obtain ⟨closed, lease, client, back⟩ := out
  refine ⟨?_, lease, client, back⟩
  rw [harmless_fail, and_iff_left (by simp [Failure.harmless])]
  exact closed

/-! ## The actions -/

theorem declare_triple :
    Triple results State.Exact (.atomic .declare) Null fun _ => False := by
  apply Triple.atomic
  intro state outcome last exact member
  simp only [results, List.mem_singleton, Prod.mk.injEq] at member
  obtain ⟨rfl, rfl⟩ := member
  refine ⟨?_, rfl⟩
  rw [State.Exact, State.Balanced, leases_declare]
  exact exact

theorem getResource_triple :
    Triple results Null (.atomic .getResource) Out Null := by
  apply Triple.atomic
  intro state outcome last null member
  simp only [results, List.mem_cons, Prod.mk.injEq, List.not_mem_nil,
    or_false] at member
  rcases member with ⟨rfl, rfl⟩ | ⟨rfl, rfl⟩
  · rw [Outcome.select, State.take]
    cases state.idle <;> exact ⟨null.1, _, rfl, rfl⟩
  · exact null_fail null _ _

theorem command_inside_triple (call : Call) :
    Triple results Available (.atomic (.command call .inside)) Available
      Available := by
  apply Triple.atomic
  rintro state outcome last (null | out) member
  · simp only [results, null.2, if_true, List.mem_singleton,
      Prod.mk.injEq] at member
    obtain ⟨rfl, rfl⟩ := member
    exact .inl (null_fail null call .inside)
  · obtain ⟨_, lease, client, _⟩ := id out
    simp only [results, client, reduceCtorEq, if_false, List.mem_cons,
      Prod.mk.injEq, List.not_mem_nil, or_false] at member
    rcases member with ⟨rfl, rfl⟩ | ⟨rfl, rfl⟩
    · exact .inr out
    · exact .inr (out_fail_inside out call)

theorem command_triple (call : Call) {site : Site}
    (unguarded : site ≠ .inside) :
    Triple results Available (.atomic (.command call site)) Available
      (Failed 0) := by
  apply Triple.atomic
  rintro state outcome last (null | out) member
  · simp only [results, null.2, if_true, List.mem_singleton,
      Prod.mk.injEq] at member
    obtain ⟨rfl, rfl⟩ := member
    exact .inl (null_fail null call site)
  · obtain ⟨closed, lease, client, back⟩ := id out
    simp only [results, client, reduceCtorEq, if_false, List.mem_cons,
      Prod.mk.injEq, List.not_mem_nil, or_false] at member
    rcases member with ⟨rfl, rfl⟩ | ⟨rfl, rfl⟩
    · exact .inr out
    · refine .inr ⟨?_, lease, client, by rw [back, List.length_nil]⟩
      rw [harmless_fail, out.out]
      simp [Failure.harmless, unguarded]

theorem service_done_triple (site : Site) :
    Triple results Done (.atomic (.service site)) Done Done := by
  apply Triple.atomic
  intro state outcome last done member
  simp only [results, List.mem_cons, Prod.mk.injEq, List.not_mem_nil,
    or_false] at member
  rcases member with ⟨rfl, rfl⟩ | ⟨rfl, rfl⟩
  · exact done
  · exact done.fail _ _

theorem service_inside_triple :
    Triple results Available (.atomic (.service .inside)) Available
      Available := by
  apply Triple.atomic
  intro state outcome last available member
  simp only [results, List.mem_cons, Prod.mk.injEq, List.not_mem_nil,
    or_false] at member
  rcases member with ⟨rfl, rfl⟩ | ⟨rfl, rfl⟩
  · exact available
  · rcases available with null | out
    · exact .inl (null_fail null _ _)
    · exact .inr (out_fail_inside out _)

/-- What `giveBack` does to the variable. -/
theorem giveBack_cases {how : Return} {state last : State} {outcome : Outcome}
    (member : (outcome, last) ∈ results (.giveBack how) state) :
    (state.client = none ∧ outcome = .completed ∧ last = state) ∨
      ∃ lease, state.client = some lease ∧
        last.client =
          some { lease with returns := lease.returns ++ [how] } ∧
        last.closed = state.closed ∧ last.failures = state.failures ∧
        (lease.returns = [] → outcome = .completed) := by
  rw [results] at member
  cases client : state.client with
  | none =>
      simp only [client, List.mem_singleton, Prod.mk.injEq] at member
      exact .inl ⟨rfl, member.1, member.2⟩
  | some lease =>
      right
      refine ⟨lease, rfl, ?_⟩
      simp only [client] at member
      split_ifs at member with out
      · simp only [List.mem_singleton, Prod.mk.injEq] at member
        obtain ⟨rfl, rfl⟩ := member
        cases how <;> exact ⟨rfl, rfl, rfl, fun _ => rfl⟩
      · simp only [List.mem_cons, Prod.mk.injEq, List.not_mem_nil,
          or_false] at member
        rcases member with ⟨rfl, rfl⟩ | ⟨rfl, rfl⟩
        · cases how <;> exact ⟨rfl, rfl, rfl, fun back => absurd back out⟩
        · exact ⟨rfl, rfl, rfl, fun back => absurd back out⟩

theorem giveBack_triple (how : Return) :
    Triple results Available (.atomic (.giveBack how)) Done
      fun _ => False := by
  apply Triple.atomic
  rintro state outcome last available member
  rcases giveBack_cases member with
    ⟨none, rfl, rfl⟩ | ⟨lease, client, given, closed, failures, first⟩
  · rcases available with null | ⟨_, lease, client, _⟩
    · exact null.done
    · rw [none] at client
      cases client
  · rcases available with null | ⟨others, other, same, back⟩
    · rw [null.2] at client
      cases client
    · rw [client] at same
      cases same
      cases first back
      rw [back] at given
      constructor
      · rw [State.Exact, balanced_of_client given, State.Harmless, closed,
          failures]
        exact (and_iff_left rfl).trans others
      · rw [State.out, given]
        rfl

theorem giveBack_failed_triple (how : Return) (times : Nat) :
    Triple results (Failed times) (.atomic (.giveBack how))
      (Failed (times + 1))
      fun state => 0 < times ∧ Failed (times + 1) state := by
  apply Triple.atomic
  rintro state outcome last failed member
  rcases giveBack_cases member with
    ⟨none, rfl, rfl⟩ | ⟨lease, client, given, closed, failures, first⟩
  · rcases failed with null | ⟨_, lease, client, _⟩
    · exact .inl null
    · rw [none] at client
      cases client
  · rcases failed with null | ⟨harm, other, same, rfl⟩
    · rw [null.2] at client
      cases client
    · rw [client] at same
      cases same
      have spoilt : Failed (lease.returns.length + 1) last := by
        refine .inr ⟨?_, _, given, by simp⟩
        rw [State.Harmless, failures]
        exact harm
      cases outcome with
      | completed => exact spoilt
      | threw =>
          refine ⟨List.length_pos_iff.mpr fun back => ?_, spoilt⟩
          cases first back

/-! ## The operations keep the count -/

/-- A method that leaves a client that is not given back once, or given back
twice, exactly if it has a harmful failure. -/
def Exacting (method : Method) : Prop :=
  Triple results State.Exact method State.Exact State.Exact

theorem giveBack_good_triple :
    Triple results (fun state => Available state ∨ Failed 1 state)
      (.atomic (.giveBack .good)) State.Exact State.Exact := by
  apply Triple.or
  · exact (giveBack_triple .good).mono (fun _ => id) (fun _ => And.left)
      fun _ => False.elim
  · exact (giveBack_failed_triple .good 1).mono (fun _ => id)
      (fun _ twice => twice.exact (by decide))
      fun _ twice => twice.2.exact (by decide)

/-- A body that leaves the client out where it throws. -/
def Body (body : Method) : Prop :=
  Triple results Available body Available (Failed 0)

theorem operation_exacting {body : Method} (safe : Body body) :
    Exacting (operation body) := by
  have taken : Triple results Null (.atomic .getResource) Available
      (Failed 0) :=
    getResource_triple.mono (fun _ => id) (fun _ => .inr) fun _ => .inl
  have handled : Triple results (Failed 0) (.atomic (.giveBack .broken))
      (fun state => Available state ∨ Failed 1 state) fun _ => False :=
    (giveBack_failed_triple .broken 0).mono (fun _ => id) (fun _ => .inr)
      fun _ impossible => Nat.lt_irrefl 0 impossible.1
  have tried : Triple results Null
      (.tryCatch (.seq (.atomic .getResource) body)
        (.atomic (.giveBack .broken)))
      (fun state => Available state ∨ Failed 1 state) fun _ => False :=
    ((taken.seq safe).mono (fun _ => id) (fun _ => .inl)
      fun _ => id).tryCatch handled
  have declared : Triple results State.Exact (.atomic .declare) Null
      State.Exact :=
    declare_triple.mono (fun _ => id) (fun _ => id) fun _ => False.elim
  exact declared.seq (tried.tryFinally giveBack_good_triple .absurd)

theorem inOperation_body (call : Call) : Body (inOperation call) :=
  command_triple call (by decide)

/-- Commands one after the other. -/
theorem Body.seq {first second : Method} (left : Body first)
    (right : Body second) : Body (.seq first second) :=
  Triple.seq left right

/-- A command that may be left out. -/
theorem Body.optional {body : Method} (safe : Body body) :
    Body (.either body .skip) :=
  Triple.either safe Triple.skip

theorem hset_exacting : Exacting hset :=
  operation_exacting (inOperation_body .hset)

theorem sadd_exacting : Exacting sadd :=
  operation_exacting (inOperation_body .sadd)

theorem keys_exacting : Exacting keys :=
  operation_exacting (inOperation_body .keys)

theorem hget_exacting : Exacting hget :=
  operation_exacting
    ((inOperation_body .isPresent).seq (inOperation_body .hget).optional)

theorem hgetAll_exacting : Exacting hgetAll :=
  operation_exacting
    ((inOperation_body .isPresent).seq (inOperation_body .hgetAll).optional)

theorem isExists_exacting : Exacting isExists :=
  operation_exacting (inOperation_body .isPresent)

theorem del_exacting : Exacting del :=
  operation_exacting (inOperation_body .del)

theorem get_exacting : Exacting get :=
  operation_exacting (inOperation_body .get)

theorem set_exacting : Exacting set :=
  operation_exacting (inOperation_body .set)

theorem hsetOjbect_exacting : Exacting hsetOjbect := by
  have declared : Triple results State.Exact (.atomic .declare) Done
      State.Exact :=
    declare_triple.mono (fun _ => id) (fun _ => Null.done)
      fun _ => False.elim
  have converted : Triple results Done (.atomic (.service .operation))
      State.Exact State.Exact :=
    (service_done_triple .operation).mono (fun _ => id) (fun _ => And.left)
      fun _ => And.left
  have fields : Exacting (.loop (.either hset .skip)) :=
    Triple.loop (Triple.either hset_exacting Triple.skip)
  exact declared.seq (converted.seq fields)

/-! ## Clients that are handed out -/

theorem giveBack_null_triple (how : Return) :
    Triple results Null (.atomic (.giveBack how)) Null fun _ => False := by
  apply Triple.atomic
  intro state outcome last null member
  rcases giveBack_cases member with ⟨_, rfl, rfl⟩ | ⟨lease, client, _⟩
  · exact null
  · rw [null.2] at client
    cases client

theorem getJedisClientFromPool_triple :
    Triple results State.Exact getJedisClientFromPool Available
      fun _ => False := by
  have taken : Triple results Null (.atomic .getResource) Available Null :=
    getResource_triple.mono (fun _ => id) (fun _ => .inr) fun _ => id
  have handled : Triple results Null (.atomic (.giveBack .broken)) Available
      fun _ => False :=
    (giveBack_null_triple .broken).mono (fun _ => id) (fun _ => .inl)
      fun _ => id
  exact declare_triple.seq (taken.tryCatch handled)

theorem releaseJedisClientFromPool_triple :
    Triple results Available releaseJedisClientFromPool Done
      fun _ => False :=
  giveBack_triple .good

end WindowSystem.HidataFramework.RedisUtil
