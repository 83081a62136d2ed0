import WindowSystem.UserCaps

/-!
# The caps of the subscribers

The counter of a subscriber holds the number of pass-backs that were counted
for it, over all its users.  The deciders look the counter up with the pointer
to the subscriber's name in the place of its length; where that pointer, cut
to an `int`, is at least the length, they read the counter that the pass-back
thread writes.
-/

namespace WindowSystem.SubscriberCaps

open WindowSystem.CRuntime
open WindowSystem.DataPassBack
open WindowSystem.DcGlobal
open WindowSystem.FilterRulePop
open WindowSystem.Library
open WindowSystem.Library.LabelledRun
open WindowSystem.ToolHashMap
open WindowSystem.UserCaps

/-! ## The counter as a tally -/

/-- The pass-back of a label counted for a subscriber. -/
def countsFor (id : CounterId) : Event × Reply → Bool
  | (_, .passedBack passBack) => passBack.countedAd = some id
  | (_, .answered _) => false

/-- The number of pass-backs counted for a subscriber in a run. -/
def countedFor (id : CounterId) (labels : List (Event × Reply)) : Nat :=
  labels.countP (countsFor id)

/-- What a table of subscribers holds after a number of pass-backs. -/
def tally (counted : Nat) : Option (Option Int) :=
  if counted = 0 then none else some (some counted)

variable {conf : Conf} {before after : Server}

theorem lookup_countSubscriber_same {ads ads' : HashMap Int} {ad : Bytes}
    {count : Int} {counted : Nat} (searchable : ads.Searchable)
    (counting : countSubscriber ads ad = some (count, ads'))
    (tallied :
      ads.lookup (fingerprint ads.hashLen ad ad.length) = tally counted) :
    ads'.lookup (fingerprint ads.hashLen ad ad.length) =
      tally (counted + 1) := by
  rw [tally, if_neg (Nat.succ_ne_zero counted)]
  rcases countSubscriber_cases searchable counting with
    ⟨absent, _, rfl⟩ | ⟨old, found, _, rfl⟩
  · rw [lookup_hashMapInsert_same, absent]
    rw [absent, tally] at tallied
    split at tallied
    · rename_i zero
      simp [zero]
    · cases tallied
  · rw [lookup_writeValue_same, found]
    rw [found, tally] at tallied
    split at tallied
    · cases tallied
    · simp only [Option.some.injEq] at tallied
      simp [tallied]

theorem lookup_countSubscriber_other {ads ads' : HashMap Int}
    {ad : Bytes} {count : Int} {key : Fingerprint}
    (searchable : ads.Searchable)
    (counting : countSubscriber ads ad = some (count, ads'))
    (different : key ≠ fingerprint ads.hashLen ad ad.length) :
    ads'.lookup key = ads.lookup key := by
  rcases countSubscriber_cases searchable counting with
    ⟨_, _, rfl⟩ | ⟨_, _, _, rfl⟩
  · exact lookup_hashMapInsert_other _ _ _ _ different
  · exact lookup_writeValue_other _ different _

/-- One message changes the counter that it names and no other one. -/
theorem counter_passBack {currTime : Int} {passBack : PassBack}
    (allocated : before.Allocated)
    (effect : PassBackCase before currTime passBack after)
    {id : CounterId} {counted : Nat}
    (tallied : before.counter id = tally counted) :
    after.counter id =
      tally (counted + if passBack.countedAd = some id then 1 else 0) := by
  cases effect with
  | skipped => simpa using tallied
  | target _ counting => simpa [Server.counter] using tallied
  | @capped adTable fields count ads pUserInfo users _ _ countingAd
      counting =>
      have length :
          (before.ads (adTable, userThread fields.ad)).hashLen =
            adTable.length :=
        allocated.ads _
      have searchable :=
        allocated.ads_searchable (adTable, userThread fields.ad)
      dsimp only
      split
      · rename_i same
        rw [← Option.some.inj same] at tallied ⊢
        have next :=
          lookup_countSubscriber_same searchable countingAd
            (by rw [length]; exact tallied)
        rw [length] at next
        exact (counter_update_same rfl).trans next
      · rename_i different
        rw [Nat.add_zero, ← tallied]
        refine counter_update_other (fun otherKey => ?_) rfl
          fun same => different (congrArg some same).symm
        rw [← length] at otherKey
        exact lookup_countSubscriber_other searchable countingAd otherKey

/-! ## Whole runs -/

/-- The counter of a subscriber is the tally of its pass-backs. -/
structure Counts (id : CounterId) (labels : List (Event × Reply))
    (server : Server) : Prop where
  allocated : server.Allocated
  counter : server.counter id = tally (countedFor id labels)

theorem Counts.initial (id : CounterId) : Counts id [] .initial where
  allocated := Server.allocated_initial
  counter := rfl

theorem Counts.step {id : CounterId} {labels : List (Event × Reply)}
    {label : Event × Reply} (counts : Counts id labels before)
    (taken : stepOf (serverStep conf) before label after) :
    Counts id (labels ++ [label]) after where
  allocated := serverStep_allocated counts.allocated taken
  counter := by
    rw [countedFor, List.countP_append, List.countP_singleton]
    cases serverStep_cases taken with
    | request decision =>
        rw [Server.counter, decision.1]
        exact counts.counter
    | passBack effect =>
        have counted :=
          counter_passBack counts.allocated effect counts.counter
        simpa [countsFor, countedFor] using counted

theorem Counts.run (id : CounterId) {labels : List (Event × Reply)}
    (run : ServerRun conf .initial labels after) : Counts id labels after :=
  run.history (fun counts taken => counts.step taken) (Counts.initial id)

/-- A refusal by the counter of the subscriber. -/
def refuse (server : Server) (ad : Bytes) (psMqHttpMes : MqHttpMessage) :
    Option (Reply × Server) :=
  (store 1024 (ad ++ psMqHttpMes.pcUa)).map fun _ =>
    (.answered false, server)

/-- A decision that the counter of the subscriber has no part in. -/
def decideAlone (conf : Conf) (server : Server) (table : UserTable)
    (ad : Bytes) (psMqHttpMes : MqHttpMessage) : Option (Reply × Server) :=
  (store 1024 (ad ++ psMqHttpMes.pcUa)).bind fun szADUA =>
    (decideInTable conf server table (userThread ad) szADUA
      psMqHttpMes.lSec).map fun (answer, server) =>
        (.answered answer, server)

/-- The test on the counter, when the pointer is at least the length. -/
theorem adCapReached_eq {adTable : AdTable} {sAd : CharPointer}
    {labels : List (Event × Reply)} {adMaxNum : Int}
    (positive : 1 ≤ adMaxNum)
    (addressed : (sAd.text.length : Int) ≤ toInt32 sAd.address)
    (counts : Counts (counterId adTable sAd.text) labels before) :
    adCapReached adMaxNum (before.ads (adTable, userThread sAd.text)) sAd =
      some (decide
        (adMaxNum ≤ countedFor (counterId adTable sAd.text) labels)) := by
  have length :
      (before.ads (adTable, userThread sAd.text)).hashLen =
        adTable.length :=
    counts.allocated.ads _
  have stored :
      (before.ads (adTable, userThread sAd.text)).lookup
          (fingerprint adTable.length sAd.text sAd.text.length) =
        tally (countedFor (counterId adTable sAd.text) labels) :=
    counts.counter
  rw [adCapReached, findObject_eq (counts.allocated.ads_searchable _),
    length, fingerprint_of_length_le addressed, stored]
  cases countedFor (counterId adTable sAd.text) labels with
  | zero =>
      have room : ¬ adMaxNum ≤ ((0 : Nat) : Int) := by omega
      rw [decide_eq_false room]
      rfl
  | succ counted => rfl

theorem decider_capped (adTable : AdTable) (server : Server)
    (iTid : ThreadId) (psMqHttpMes : MqHttpMessage)
    (sAd : Option CharPointer) :
    decider adTable.users conf server iTid psMqHttpMes sAd =
      isSendCapped adTable.users adTable conf server iTid psMqHttpMes
        sAd := by
  cases adTable with
  | surplusAD => rfl
  | filterConditionAD => rfl

/--
The cap of a subscriber in any run from the empty tables.

Once `adMaxNum` pass-backs have been counted for the subscriber, over all its
users together, a request of the subscriber is answered `false`; before that
the counter has no part in the decision.
-/
theorem subscriberCap_respected (conf : Conf) (adTable : AdTable)
    (psMqHttpMes : MqHttpMessage) (sAd : CharPointer)
    {labels : List (Event × Reply)} {server : Server}
    (positive : 1 ≤ conf.adMaxNum adTable)
    (addressed : (sAd.text.length : Int) ≤ toInt32 sAd.address)
    (run : ServerRun conf .initial labels server) :
    (conf.adMaxNum adTable ≤
        countedFor (counterId adTable sAd.text) labels →
      serverStep conf server (.request adTable.users psMqHttpMes sAd) =
        refuse server sAd.text psMqHttpMes) ∧
    (countedFor (counterId adTable sAd.text) labels <
        conf.adMaxNum adTable →
      serverStep conf server (.request adTable.users psMqHttpMes sAd) =
        decideAlone conf server adTable.users sAd.text psMqHttpMes) := by
  have counts : Counts (counterId adTable sAd.text) labels server :=
    Counts.run _ run
  have capped := adCapReached_eq positive addressed counts
  constructor
  · intro reached
    simp only [serverStep, decider_capped, isSendCapped, capped,
      decide_eq_true reached, refuse, Option.bind_some]
    cases store 1024 (sAd.text ++ psMqHttpMes.pcUa) with
    | none => rfl
    | some szADUA => rfl
  · intro room
    simp only [serverStep, decider_capped, isSendCapped, capped,
      decide_eq_false (not_le.mpr room), decideAlone, Option.bind_some]
    cases store 1024 (sAd.text ++ psMqHttpMes.pcUa) with
    | none => rfl
    | some szADUA => rfl

/-! ## A subscriber at two addresses -/

/-- One pass-back per subscriber. -/
def oneConf : Conf where
  limits _ := { maxNum := 9, factNum := 9, factdelay := 600, delay := 3600 }
  adMaxNum _ := 1

/-- A request of a user of the subscriber `user`, whose name lies at
`address`. -/
def requestAt (address : Nat) (lSec : Int) : Event :=
  .request .surplusIP (sampleMessage lSec)
    { address := address, text := ascii "user" }

/-- The pass-back that reaches the cap of the subscriber. -/
def cappingLabels : List (Event × Reply) :=
  [ (.passBack (ascii "10.0.0.1::user::123::0") 1000,
      .passedBack
        { counted := none
          countedAd := some (counterId .surplusAD (ascii "user"))
          szMsg := none }) ]

/-- A name at an address whose low half is large as a positive `int`. -/
theorem subscriberCap_respected_low :
    ∃ server,
      ServerRun oneConf .initial cappingLabels server ∧
      oneConf.adMaxNum .surplusAD ≤
        countedFor (counterId .surplusAD (ascii "user")) cappingLabels ∧
      (((ascii "user").length : Int) ≤ toInt32 (0x7f3a00001000 : Nat)) ∧
      ∀ psMqHttpMes : MqHttpMessage,
        serverStep oneConf server
            (.request .surplusIP psMqHttpMes
              { address := 0x7f3a00001000, text := ascii "user" }) =
          refuse server (ascii "user") psMqHttpMes := by
  obtain ⟨server, run⟩ :
      ∃ server, ServerRun oneConf .initial cappingLabels server :=
    exists_run_of_execute (by decide +kernel)
  have reached :
      oneConf.adMaxNum .surplusAD ≤
        countedFor (counterId .surplusAD (ascii "user")) cappingLabels := by
    decide +kernel
  have addressed :
      ((ascii "user").length : Int) ≤ toInt32 (0x7f3a00001000 : Nat) := by
    decide
  exact ⟨server, run, reached, addressed, fun psMqHttpMes =>
    (subscriberCap_respected oneConf .surplusAD psMqHttpMes
      { address := 0x7f3a00001000, text := ascii "user" } (by decide)
      addressed run).1 reached⟩

/-- A name at an address whose low half is negative as an `int`: the request
is answered `true` although the cap is reached. -/
theorem subscriberCap_missed :
    ∃ before after,
      ServerRun oneConf .initial cappingLabels before ∧
      oneConf.adMaxNum .surplusAD ≤
        countedFor (counterId .surplusAD (ascii "user")) cappingLabels ∧
      ServerRun oneConf .initial
        (cappingLabels ++ [(requestAt 0x7f3a80001000 2000, .answered true)])
        after ∧
      ServerRun oneConf before
        [(requestAt 0x7f3a80001000 2000, .answered true)] after := by
  obtain ⟨after, run⟩ :
      ∃ server,
        ServerRun oneConf .initial
          (cappingLabels ++
            [(requestAt 0x7f3a80001000 2000, .answered true)]) server :=
    exists_run_of_execute (by decide +kernel)
  obtain ⟨before, front, back⟩ := Run.append_iff.mp run
  exact ⟨before, after, front, by decide +kernel, run, back⟩

end WindowSystem.SubscriberCaps
