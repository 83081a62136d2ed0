import Mathlib.Data.List.Perm.Basic
import WindowSystem.Library.LabelledRun

/-!
# The approval of the advertisements

Reviewers vote on an advertisement, each in a row of its own, and the
advertisement gets a state from these rows: `5` when it is rejected, `0` while
a vote is missing, and `2` when it may be delivered.  `checkad` and
`batchcheck` of `CheckManageController` do this for two tables of rows, in
four copies of one loop.  The database returns the rows in any order.
-/

namespace WindowSystem.VfoxServer.CheckManage

open WindowSystem.Library.LabelledRun

/-! ## The database -/

/-- `check_sts`: `1`, `2` and `3`. -/
inductive CheckSts where
  | pending
  | passed
  | rejected
deriving DecidableEq

/-- `radioValue`: `2`, `3`, or another text. -/
inductive RadioValue where
  | passed
  | rejected
  | other
deriving DecidableEq

/-- The type of the reviewer, `1` or `3`: each has a table of its own. -/
inductive ReviewerType where
  | normal
  | t
deriving DecidableEq

/-- `AdCheckProcessDto` and `TAdCheckProcessDto`. -/
structure AdCheckProcessDto where
  id : String
  adId : String
  checkSts : CheckSts
deriving DecidableEq

/-- The tables `ad_check_process` and `t_ad_check_process`, and the column
`ad_toufang_sts` of the advertisements. -/
structure Database where
  adCheckProcess : ReviewerType → List AdCheckProcessDto
  adToufangSts : String → Option Int

/-- The order in which a query returns its rows. -/
structure RowOrder where
  arrange : List AdCheckProcessDto → List AdCheckProcessDto
  perm : ∀ rows, (arrange rows).Perm rows

namespace Database

variable (db : Database)

/-- `findAdCheckProcessDtoByPk` and `findTAdCheckProcessDtoByPk`. -/
def findByPk (reviewer : ReviewerType) (pk : String) :
    Option AdCheckProcessDto :=
  (db.adCheckProcess reviewer).find? (·.id = pk)

/-- `updateAdCheckProcessInfo` and `updateTAdCheckProcessInfo`. -/
def updateInfo (reviewer : ReviewerType) (pk : String)
    (checkSts : CheckSts) : Database :=
  { db with
    adCheckProcess :=
      Function.update db.adCheckProcess reviewer
        ((db.adCheckProcess reviewer).map fun row =>
          if row.id = pk then { row with checkSts := checkSts } else row) }

/-- `updateAdTouFangSts`. -/
def updateAdTouFangSts (adId : String) (adToufangSts : Int) : Database :=
  { db with
    adToufangSts :=
      Function.update db.adToufangSts adId (some adToufangSts) }

/-- The rows that `findAdCheckProcessDtoByAdId` and
`findTAdCheckProcessDtoByAdId` select. -/
def rowsOf (reviewer : ReviewerType) (adId : String) :
    List AdCheckProcessDto :=
  (db.adCheckProcess reviewer).filter (·.adId = adId)

end Database

/-! ## The controller -/

/-- The vote that is written into the row. -/
def vote (radioValue : RadioValue) (checkSts : CheckSts) : CheckSts :=
  match radioValue with
  | .passed => .passed
  | .rejected => .rejected
  | .other => checkSts

/-- The loop of `checkad`; its result is stored after it. -/
def checkLoop : List CheckSts → Int → Int
  | [], adToufangSts => adToufangSts
  | .rejected :: _, _ => 5
  | .pending :: _, _ => 0
  | .passed :: rows, _ => checkLoop rows 2

/-- The loop of `batchcheck`, which stores the state at the end of every pass
that does not leave it; the second argument is what is stored. -/
def batchLoop : List CheckSts → Int → Int
  | [], stored => stored
  | .rejected :: _, stored => stored
  | .pending :: _, stored => stored
  | .passed :: rows, _ => batchLoop rows 2

/-- A review of a row.  `none` is the `NullPointerException` of a row or an
advertisement that does not exist. -/
def review (loop : List CheckSts → Int → Int) (reviewer : ReviewerType)
    (order : RowOrder) (pk : String) (radioValue : RadioValue)
    (db : Database) : Option Database :=
  (db.findByPk reviewer pk).bind fun dto =>
  (db.adToufangSts dto.adId).map fun found =>
    let adToufangSts := if radioValue = .rejected then 5 else found
    let voted := db.updateInfo reviewer pk (vote radioValue dto.checkSts)
    let rows := order.arrange (voted.rowsOf reviewer dto.adId)
    voted.updateAdTouFangSts dto.adId
      (loop (rows.map AdCheckProcessDto.checkSts) adToufangSts)

/-- `checkad`. -/
def checkad : ReviewerType → RowOrder → String → RadioValue →
    Database → Option Database :=
  review checkLoop

/-- The pass of the outer loop of `batchcheck` for one row. -/
def batchPass : ReviewerType → RowOrder → String → RadioValue →
    Database → Option Database :=
  review batchLoop

/-- `batchcheck` for the parts of `adCheckProcessId`, each with the order in
which its query returns the rows. -/
def batchcheck (reviewer : ReviewerType) (radioValue : RadioValue) :
    List (String × RowOrder) → Database → Option Database
  | [], db => some db
  | (pk, order) :: adCheckProcessPks, db =>
      (batchPass reviewer order pk radioValue db).bind
        (batchcheck reviewer radioValue adCheckProcessPks)

/-! ## What the votes say -/

/-- The state that the votes ask for. -/
def verdict (votes : List CheckSts) : Int :=
  if .rejected ∈ votes then 5 else if .pending ∈ votes then 0 else 2

/-- All votes on an advertisement. -/
def Database.votes (db : Database) (adId : String) : List CheckSts :=
  (db.rowsOf .normal adId ++ db.rowsOf .t adId).map
    AdCheckProcessDto.checkSts

/-- The stored state is the one that the votes ask for. -/
def Database.Agrees (db : Database) (adId : String) : Prop :=
  db.adToufangSts adId = some (verdict (db.votes adId))

/-- What is asked of a reviewer. -/
structure Vote where
  reviewer : ReviewerType
  pk : String
  radioValue : RadioValue

/-- A single review, or the pass of a batch for one row. -/
structure Review extends Vote where
  batch : Bool
  order : RowOrder

/-- The database after a review. -/
def Review.next (event : Review) (db : Database) : Option Database :=
  if event.batch then
    batchPass event.reviewer event.order event.pk event.radioValue db
  else checkad event.reviewer event.order event.pk event.radioValue db

/-- One review. -/
def Step (before : Database) (event : Review) (after : Database) : Prop :=
  event.next before = some after

/-- After the review the state of its advertisement agrees with the votes. -/
def Right (before : Database) (event : Review) (after : Database) : Prop :=
  ∀ dto ∈ before.findByPk event.reviewer event.pk, after.Agrees dto.adId

/-- The votes on an advertisement in the order of the query, with the new one
among them. -/
def Review.returned (event : Review) (voted : Database) (adId : String) :
    List CheckSts :=
  (event.order.arrange (voted.rowsOf event.reviewer adId)).map
    AdCheckProcessDto.checkSts

/-- A single review gets along when the first returned vote that is not a
passed one is a rejection, or is pending while nobody has rejected, or does
not exist while the votes in the other table are passed, too. -/
def SingleFits (returned votes : List CheckSts) : Prop :=
  match returned.find? (· ≠ .passed) with
  | none => ∀ checkSts ∈ votes, checkSts = .passed
  | some .pending => .rejected ∉ votes
  | some _ => True

/-- A pass of a batch gets along when the first returned vote is passed, as
are all others, or it is not and nothing has to be stored: the vote is a
rejection or the stored state was right before. -/
def BatchFits (radioValue : RadioValue) (found : Int)
    (returned votes : List CheckSts) : Prop :=
  if returned.head? = some .passed then
    ∀ checkSts ∈ votes, checkSts = .passed
  else radioValue = .rejected ∨ found = verdict votes

/-- The condition on a review and on the database before it. -/
def Fits (before : Database) (event : Review) : Prop :=
  ∀ dto ∈ before.findByPk event.reviewer event.pk,
    let voted := before.updateInfo event.reviewer event.pk
      (vote event.radioValue dto.checkSts)
    ∀ found ∈ before.adToufangSts dto.adId,
      if event.batch then
        BatchFits event.radioValue found (event.returned voted dto.adId)
          (voted.votes dto.adId)
      else
        SingleFits (event.returned voted dto.adId) (voted.votes dto.adId)

/-! ## The loops -/

theorem checkLoop_eq (votes : List CheckSts) (adToufangSts : Int) :
    checkLoop votes adToufangSts =
      match votes.find? (· ≠ .passed) with
      | none => if votes = [] then adToufangSts else 2
      | some .pending => 0
      | some _ => 5 := by
  induction votes generalizing adToufangSts with
  | nil => rfl
  | cons first votes induction =>
      cases first with
      | pending => rfl
      | rejected => rfl
      | passed =>
          rw [checkLoop, induction, List.find?_cons_of_neg (by simp)]
          cases votes.find? (· ≠ .passed) with
          | none => simp
          | some vote => cases vote <;> rfl

theorem batchLoop_eq (votes : List CheckSts) (stored : Int) :
    batchLoop votes stored =
      if votes.head? = some .passed then 2 else stored := by
  have passed : ∀ rows, batchLoop rows 2 = 2 := by
    intro rows
    induction rows with
    | nil => rfl
    | cons first rows induction =>
        cases first with
        | passed => exact induction
        | _ => rfl
  cases votes with
  | nil => rfl
  | cons first votes =>
      cases first with
      | passed => exact passed votes
      | _ => rfl

theorem verdict_eq_two {votes : List CheckSts} :
    2 = verdict votes ↔ ∀ checkSts ∈ votes, checkSts = .passed := by
  rw [verdict]
  by_cases rejected : CheckSts.rejected ∈ votes
  · rw [if_pos rejected]
    exact iff_of_false (by decide) fun all => nomatch all _ rejected
  · rw [if_neg rejected]
    by_cases pending : CheckSts.pending ∈ votes
    · rw [if_pos pending]
      exact iff_of_false (by decide) fun all => nomatch all _ pending
    · rw [if_neg pending]
      refine iff_of_true rfl fun checkSts member => ?_
      cases checkSts with
      | passed => rfl
      | pending => exact absurd member pending
      | rejected => exact absurd member rejected

theorem checkLoop_eq_verdict {returned votes : List CheckSts}
    (some : returned ≠ []) (among : returned ⊆ votes) (adToufangSts : Int) :
    checkLoop returned adToufangSts = verdict votes ↔
      SingleFits returned votes := by
  rw [checkLoop_eq, SingleFits]
  cases first : returned.find? (· ≠ .passed) with
  | none =>
      simp only [if_neg some]
      exact verdict_eq_two
  | some vote =>
      have member := among (List.mem_of_find?_eq_some first)
      cases vote with
      | passed =>
          have other := List.find?_some first
          simp at other
      | pending =>
          rw [verdict, if_pos member]
          by_cases rejected : CheckSts.rejected ∈ votes
          · simp [rejected]
          · simp [rejected]
      | rejected =>
          rw [verdict, if_pos member]
          exact iff_of_true rfl trivial

theorem batchLoop_eq_verdict {radioValue : RadioValue}
    {returned votes : List CheckSts} {found : Int}
    (rejection : radioValue = .rejected → .rejected ∈ votes) :
    batchLoop returned (if radioValue = .rejected then 5 else found) =
        verdict votes ↔
      BatchFits radioValue found returned votes := by
  rw [batchLoop_eq, BatchFits]
  split
  · exact verdict_eq_two
  · by_cases rejected : radioValue = .rejected
    · rw [if_pos rejected, verdict, if_pos (rejection rejected)]
      exact iff_of_true rfl (.inl rejected)
    · rw [if_neg rejected]
      exact (or_iff_right rejected).symm

/-! ## One review -/

/-- The new vote is among the votes on its advertisement. -/
theorem mem_rowsOf_updateInfo {db : Database} {reviewer : ReviewerType}
    {pk : String} {dto : AdCheckProcessDto}
    (found : dto ∈ db.findByPk reviewer pk) (checkSts : CheckSts) :
    { dto with checkSts := checkSts } ∈
      (db.updateInfo reviewer pk checkSts).rowsOf reviewer dto.adId := by
  have member := List.mem_of_find?_eq_some found
  have named : dto.id = pk := by
    simpa using List.find?_some found
  rw [Database.rowsOf, Database.updateInfo, List.mem_filter]
  simp only [Function.update_self, decide_true, and_true]
  rw [List.mem_map]
  exact ⟨dto, member, if_pos named⟩

theorem returned_subset (event : Review) (db : Database) (adId : String) :
    event.returned db adId ⊆ db.votes adId := by
  refine List.map_subset _ fun row member => ?_
  have inside := (event.order.perm _).subset member
  rw [List.mem_append]
  cases reviewer : event.reviewer with
  | normal => exact .inl (reviewer ▸ inside)
  | t => exact .inr (reviewer ▸ inside)

theorem vote_mem_returned {db : Database} {event : Review}
    {dto : AdCheckProcessDto}
    (found : dto ∈ db.findByPk event.reviewer event.pk)
    (checkSts : CheckSts) :
    checkSts ∈
      event.returned (db.updateInfo event.reviewer event.pk checkSts)
        dto.adId := by
  have row := mem_rowsOf_updateInfo found checkSts
  exact List.mem_map.mpr
    ⟨_, (event.order.perm _).mem_iff.mpr row, rfl⟩

/-- What a review does to the database. -/
theorem step_cases {before after : Database} {event : Review}
    (taken : Step before event after) :
    ∃ dto ∈ before.findByPk event.reviewer event.pk,
      ∃ found ∈ before.adToufangSts dto.adId,
        let voted := before.updateInfo event.reviewer event.pk
          (vote event.radioValue dto.checkSts)
        after = voted.updateAdTouFangSts dto.adId
          ((if event.batch then batchLoop else checkLoop)
            (event.returned voted dto.adId)
            (if event.radioValue = .rejected then 5 else found)) := by
  have reviewed : review (if event.batch then batchLoop else checkLoop)
      event.reviewer event.order event.pk event.radioValue before =
        some after := by
    rw [Step, Review.next] at taken
    split at taken
    · rename_i batch
      rw [if_pos batch]
      exact taken
    · rename_i single
      rw [if_neg single]
      exact taken
  obtain ⟨dto, row, reviewed⟩ := Option.bind_eq_some_iff.mp reviewed
  obtain ⟨found, stored, reviewed⟩ := Option.map_eq_some_iff.mp reviewed
  exact ⟨dto, row, found, stored, reviewed.symm⟩

/-- A review is right exactly when it fits. -/
theorem right_iff_fits {before after : Database} {event : Review}
    (taken : Step before event after) :
    Right before event after ↔ Fits before event := by
  obtain ⟨dto, row, found, stored, rfl⟩ := step_cases taken
  have voted := vote_mem_returned row (vote event.radioValue dto.checkSts)
  have among := returned_subset event
    (before.updateInfo event.reviewer event.pk
      (vote event.radioValue dto.checkSts)) dto.adId
  have fits : Fits before event ↔
      ((if event.batch then batchLoop else checkLoop)
          (event.returned
            (before.updateInfo event.reviewer event.pk
              (vote event.radioValue dto.checkSts)) dto.adId)
          (if event.radioValue = .rejected then 5 else found) =
        verdict
          ((before.updateInfo event.reviewer event.pk
            (vote event.radioValue dto.checkSts)).votes dto.adId)) := by
    rw [Fits]
    simp only [Option.mem_def] at row stored ⊢
    simp only [row, stored, Option.some.injEq, forall_eq']
    cases event.batch with
    | true =>
        simp only [if_true]
        refine (batchLoop_eq_verdict fun rejected => ?_).symm
        have rejection : vote event.radioValue dto.checkSts = .rejected := by
          rw [rejected, vote]
        exact rejection ▸ among voted
    | false =>
        simp only [Bool.false_eq_true, if_false]
        exact (checkLoop_eq_verdict (List.ne_nil_of_mem voted) among
          _).symm
  rw [fits, Right]
  simp only [Option.mem_def] at row ⊢
  simp only [row, Option.some.injEq, forall_eq', Database.Agrees,
    Database.updateAdTouFangSts, Function.update_self]
  rfl

/-- A right review leaves the same database on every path and in every
order. -/
theorem right_unique {before one other : Database} {event another : Review}
    (same : event.toVote = another.toVote)
    (taken : Step before event one) (right : Right before event one)
    (takenToo : Step before another other)
    (rightToo : Right before another other) : one = other := by
  have settled : ∀ {event : Review} {after : Database},
      Step before event after → Right before event after →
        ∃ dto ∈ before.findByPk event.reviewer event.pk,
          let voted := before.updateInfo event.reviewer event.pk
            (vote event.radioValue dto.checkSts)
          after = voted.updateAdTouFangSts dto.adId
            (verdict (voted.votes dto.adId)) := by
    intro event after taken right
    obtain ⟨dto, row, found, stored, rfl⟩ := step_cases taken
    have agrees := right dto row
    simp only [Database.Agrees, Database.updateAdTouFangSts,
      Function.update_self, Option.some.injEq] at agrees
    exact ⟨dto, row, congrArg _ agrees⟩
  obtain ⟨dto, row, rfl⟩ := settled taken right
  obtain ⟨twin, rowToo, rfl⟩ := settled takenToo rightToo
  rw [← same] at rowToo ⊢
  rw [Option.mem_unique row rowToo]

/-! ## All reviews -/

/-- A batch is a run over its rows. -/
theorem batchcheck_run {reviewer : ReviewerType} {radioValue : RadioValue}
    {adCheckProcessPks : List (String × RowOrder)} {db last : Database}
    (checked : batchcheck reviewer radioValue adCheckProcessPks db =
      some last) :
    Run Step db
      (adCheckProcessPks.map fun (pk, order) =>
        ⟨⟨reviewer, pk, radioValue⟩, true, order⟩) last := by
  induction adCheckProcessPks generalizing db with
  | nil =>
      cases checked
      exact .nil _
  | cons first adCheckProcessPks induction =>
      obtain ⟨middle, taken, rest⟩ := Option.bind_eq_some_iff.mp checked
      exact .cons taken (induction rest)

/-- Reviews that fit lead to the same database on every path. -/
theorem fitting_unique {first last other : Database}
    {reviews others : List Review}
    (same : others.map Review.toVote = reviews.map Review.toVote)
    (run : Run (fun before event after =>
      Fits before event ∧ Step before event after) first reviews last)
    (another : Run (fun before event after =>
      Fits before event ∧ Step before event after) first others other) :
    other = last := by
  induction run generalizing others with
  | nil =>
      rw [List.map_nil, List.map_eq_nil_iff] at same
      rw [same] at another
      exact (Run.nil_iff.mp another).symm
  | cons taken _ induction =>
      obtain ⟨event, rest, rfl, vote, later⟩ := List.map_eq_cons_iff.mp same
      obtain ⟨middle, takenToo, another⟩ := Run.cons_iff.mp another
      have equal := right_unique vote takenToo.2
        ((right_iff_fits takenToo.2).mpr takenToo.1) taken.2
        ((right_iff_fits taken.2).mpr taken.1)
      rw [equal] at another
      exact induction later another

/--
When the stored states agree with the votes.

In a run of single reviews and of passes of batches every state is right
exactly when every review fits; and reviews that fit leave the same database
one by one and as a batch.
-/
theorem approval_agrees_iff (first last : Database)
    (reviews : List Review) :
    (Run (fun before event after =>
          Right before event after ∧ Step before event after)
          first reviews last ↔
        Run (fun before event after =>
          Fits before event ∧ Step before event after)
          first reviews last) ∧
      ∀ {others : List Review} {other : Database},
        others.map Review.toVote = reviews.map Review.toVote →
        Run (fun before event after =>
          Fits before event ∧ Step before event after) first reviews last →
        Run (fun before event after =>
          Fits before event ∧ Step before event after) first others other →
        other = last := by
  refine ⟨⟨fun right => ?_, fun fits => ?_⟩, fun same => ?_⟩
  · exact right.mono fun both => ⟨(right_iff_fits both.2).mp both.1, both.2⟩
  · exact fits.mono fun both => ⟨(right_iff_fits both.2).mpr both.1, both.2⟩
  · exact fitting_unique same

/-- The rows come back as they are stored. -/
def storedOrder : RowOrder :=
  ⟨id, fun rows => .refl rows⟩

/-- The rows come back in reverse. -/
def reverseOrder : RowOrder :=
  ⟨List.reverse, List.reverse_perm⟩

/-- An advertisement that waits for two votes. -/
def twoVotes : Database where
  adCheckProcess := fun
    | .normal => [⟨"1", "7", .pending⟩, ⟨"2", "7", .pending⟩]
    | .t => []
  adToufangSts adId := if adId = "7" then some 0 else none

/-- A rejection behind a missing vote is stored as `0`, and a batch makes an
advertisement deliverable while a vote is missing. -/
theorem votes_disagree :
    (∃ last,
        Run Step twoVotes
          [⟨⟨.normal, "2", .rejected⟩, false, storedOrder⟩] last ∧
        last.adToufangSts "7" = some 0 ∧ .rejected ∈ last.votes "7" ∧
        ¬ last.Agrees "7") ∧
      ∃ last,
        Run Step twoVotes
          [⟨⟨.normal, "2", .passed⟩, true, reverseOrder⟩] last ∧
        last.adToufangSts "7" = some 2 ∧ .pending ∈ last.votes "7" ∧
        ¬ last.Agrees "7" := by
  have stored : ∀ (event : Review) (sts : Int) (votes : List CheckSts),
      (event.next twoVotes).map (fun last =>
          (last.adToufangSts "7", last.votes "7")) =
        some (some sts, votes) →
      ∃ last, Run Step twoVotes [event] last ∧
        last.adToufangSts "7" = some sts ∧ last.votes "7" = votes := by
    intro event sts votes reached
    obtain ⟨last, taken, equal⟩ := Option.map_eq_some_iff.mp reached
    exact ⟨last, .single taken, (Prod.mk.inj equal).1,
      (Prod.mk.inj equal).2⟩
  constructor
  · obtain ⟨last, run, sts, votes⟩ :=
      stored ⟨⟨.normal, "2", .rejected⟩, false, storedOrder⟩ 0
        [.pending, .rejected] (by decide +kernel)
    refine ⟨last, run, sts, by simp [votes], ?_⟩
    rw [Database.Agrees, sts, votes]
    decide
  · obtain ⟨last, run, sts, votes⟩ :=
      stored ⟨⟨.normal, "2", .passed⟩, true, reverseOrder⟩ 2
        [.pending, .passed] (by decide +kernel)
    refine ⟨last, run, sts, by simp [votes], ?_⟩
    rw [Database.Agrees, sts, votes]
    decide

end WindowSystem.VfoxServer.CheckManage
