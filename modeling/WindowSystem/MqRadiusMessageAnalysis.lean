import WindowSystem.Library.Block
import WindowSystem.Library.LabelledRun
import WindowSystem.ToolHashMap

/-!
# The map of `mq_radius_message_analysis.c`

The map gives for the address of a user the account that it was last seen
with.  It is filled once from redis, in blocks of 128 bytes, and kept up to
date by messages, which put new accounts into blocks of 496 bytes and write
over the blocks that are there.
-/

namespace WindowSystem.MqRadiusMessageAnalysis

open WindowSystem.CRuntime
open WindowSystem.Library
open WindowSystem.Library.LabelledRun
open WindowSystem.ToolHashMap

/-! ## The source -/

/-- `hash_map_find` and `hash_map_insert` of a loaded value. -/
def loadValue (g_pRadiusHashMap : HashMap Bytes) (szBuff str : Bytes) :
    Option (HashMap Bytes) :=
  if (hashMapFind g_pRadiusHashMap szBuff szBuff.length).ret < 0 then
    (Block.copy str (Block.cleared 128)).map fun sRadiushash =>
      hashMapInsert g_pRadiusHashMap szBuff szBuff.length
        (some sRadiushash)
  else some g_pRadiusHashMap

/-- The loop over the elements of the reply; `szBuff` is the last field. -/
def loadElements (g_pRadiusHashMap : HashMap Bytes) (szBuff : Bytes)
    (i : Nat) : List Bytes → Option (HashMap Bytes)
  | [] => some g_pRadiusHashMap
  | str :: rest =>
      if i % 2 = 0 then
        (store 512 str).bind fun szBuff =>
          loadElements g_pRadiusHashMap szBuff (i + 1) rest
      else
        (loadValue g_pRadiusHashMap szBuff str).bind fun loaded =>
          loadElements loaded szBuff (i + 1) rest

/-- `load_radius_redis_data_init` after the reply to `hgetall`. -/
def loadRadiusRedisDataInit (elements : List Bytes) :
    Option (HashMap Bytes) :=
  loadElements (hashMapNew 8388608) [] 0 elements

/-- What the message thread does with an address and an account. -/
def radiusUpdate (g_pRadiusHashMap : HashMap Bytes) (sBuff sAd : Bytes) :
    Option (HashMap Bytes) :=
  (findObject g_pRadiusHashMap sBuff sBuff.length).bind fun
    | none =>
        (Block.copy sAd (Block.cleared 496)).map fun ppcv =>
          hashMapInsert g_pRadiusHashMap sBuff sBuff.length (some ppcv)
    | some ppcv =>
        (Block.text ppcv).bind fun stored =>
          if sAd = stored then some g_pRadiusHashMap
          else
            ((Block.clear 496 ppcv).bind (Block.copy sAd)).map fun next =>
              g_pRadiusHashMap.writeValue
                (fingerprint g_pRadiusHashMap.hashLen sBuff sBuff.length)
                fun _ => next

/-- The body of the loop of `mq_radius_message_thread_func` for a received
message; `none` stands for behaviour that C leaves undefined. -/
def radiusMessage (g_pRadiusHashMap : HashMap Bytes) (received : Bytes) :
    Option (HashMap Bytes) :=
  (store 512 received).bind fun packet =>
    match strtok 58 (cString packet) with
    | result :: next :: _ =>
        (store 16 result).bind fun sBuff =>
          (store 496 next).bind fun sAd =>
            radiusUpdate g_pRadiusHashMap sBuff sAd
    | _ => none

/-- What the deciders read for an address: `none` when C leaves it undefined,
`some none` when the address is not in the map. -/
def radiusFind (g_pRadiusHashMap : HashMap Bytes) (pcSrcIP : Bytes) :
    Option (Option Bytes) :=
  (findObject g_pRadiusHashMap pcSrcIP pcSrcIP.length).bind fun
    | none => some none
    | some adv => (Block.text adv).map some

/-! ## Lines and messages -/

/-- An address with its account. -/
structure RadiusEntry where
  ip : Bytes
  ad : Bytes
deriving DecidableEq

/-- What the map knows of an address. -/
def ipKey (ip : Bytes) : Fingerprint :=
  fingerprint 8388608 ip ip.length

/-- The reply to `hgetall` lists the fields, each followed by its value. -/
def replyElements (lines : List RadiusEntry) : List Bytes :=
  lines.flatMap fun line => [line.ip, line.ad]

/-- The message `ip:ad`. -/
def RadiusEntry.packet (message : RadiusEntry) : Bytes :=
  message.ip ++ 58 :: message.ad

/-- A line that the loader has room for. -/
structure Loadable (line : RadiusEntry) : Prop where
  ip_short : line.ip.length < 512
  ad_short : line.ad.length < 128
  ad_noNul : 0 ∉ line.ad

/-- A message that is cut into its two parts, each of which has its
buffer. -/
structure WellFormed (message : RadiusEntry) : Prop where
  ip_nonempty : message.ip ≠ []
  ip_noColon : 58 ∉ message.ip
  ip_noNul : 0 ∉ message.ip
  ip_short : message.ip.length < 16
  ad_nonempty : message.ad ≠ []
  ad_noColon : 58 ∉ message.ad
  ad_noNul : 0 ∉ message.ad
  ad_short : message.ad.length < 496

/-- The address was in the reply to `hgetall`, as far as the map knows. -/
def WasLoaded (lines : List RadiusEntry) (key : Fingerprint) : Prop :=
  ∃ line ∈ lines, ipKey line.ip = key

/-- A message for an address that was not loaded, or one that repeats the
account in the map. -/
def Harmless (lines : List RadiusEntry) (g_pRadiusHashMap : HashMap Bytes)
    (message : RadiusEntry) : Prop :=
  WasLoaded lines (ipKey message.ip) →
    radiusFind g_pRadiusHashMap message.ip = some (some message.ad)

/-- A harmless message that returns. -/
def HarmlessStep (lines : List RadiusEntry) (before : HashMap Bytes)
    (message : RadiusEntry) (after : HashMap Bytes) : Prop :=
  WellFormed message ∧ Harmless lines before message ∧
    radiusMessage before message.packet = some after

/-- The account of the last entry for an address. -/
def lastAd (ip : Bytes) (entries : List RadiusEntry) : Option Bytes :=
  (entries.filter fun entry => entry.ip = ip).getLast?.map RadiusEntry.ad

/-- No entry has another address that the map confuses with this one. -/
def Unshared (ip : Bytes) (entries : List RadiusEntry) : Prop :=
  ∀ entry ∈ entries, ipKey entry.ip = ipKey ip → entry.ip = ip

/-! ## The abstract map -/

/-- The accounts by what the map knows of their addresses. -/
abbrev Ads := Fingerprint → Option Bytes

/-- A message replaces the account. -/
def Ads.learn (ads : Ads) (message : RadiusEntry) : Ads :=
  Function.update ads (ipKey message.ip) (some message.ad)

/-- The loader keeps the account that is there. -/
def Ads.load (ads : Ads) (line : RadiusEntry) : Ads :=
  if (ads (ipKey line.ip)).isSome then ads else ads.learn line

/-- The accounts after the lines and the messages. -/
def adsAfter (lines messages : List RadiusEntry) : Ads :=
  messages.foldl Ads.learn (lines.foldl Ads.load fun _ => none)

theorem lastAd_append_same (ip : Bytes) (entries : List RadiusEntry)
    {entry : RadiusEntry} (same : entry.ip = ip) :
    lastAd ip (entries ++ [entry]) = some entry.ad := by
  simp [lastAd, same]

theorem lastAd_append_other {ip : Bytes} (entries : List RadiusEntry)
    {entry : RadiusEntry} (different : entry.ip ≠ ip) :
    lastAd ip (entries ++ [entry]) = lastAd ip entries := by
  simp [lastAd, different]

theorem lastAd_eq_none {ip : Bytes} {entries : List RadiusEntry}
    (absent : ip ∉ entries.map RadiusEntry.ip) :
    lastAd ip entries = none := by
  rw [lastAd, List.filter_eq_nil_iff.mpr]
  · rfl
  · intro entry member
    rw [decide_eq_true_iff]
    rintro rfl
    exact absent (List.mem_map_of_mem member)

theorem Unshared.front {ip : Bytes} {front back : List RadiusEntry}
    (unshared : Unshared ip (front ++ back)) : Unshared ip front :=
  fun entry member => unshared entry (List.mem_append_left _ member)

theorem Unshared.last {ip : Bytes} {front : List RadiusEntry}
    {entry : RadiusEntry} (unshared : Unshared ip (front ++ [entry]))
    (same : ipKey entry.ip = ipKey ip) : entry.ip = ip :=
  unshared entry (List.mem_append_right _ (List.mem_singleton_self _)) same

/-- The account of an address that was loaded once is the one of its
line. -/
theorem loaded_eq_lastAd {ip : Bytes} {lines : List RadiusEntry}
    (distinct : (lines.map RadiusEntry.ip).Nodup)
    (unshared : Unshared ip lines) :
    lines.foldl Ads.load (fun _ => none) (ipKey ip) = lastAd ip lines := by
  induction lines using List.reverseRecOn with
  | nil => rfl
  | append_singleton lines line induction =>
      rw [List.map_append, List.nodup_append] at distinct
      obtain ⟨earlier, _, apart⟩ := distinct
      have before := induction earlier unshared.front
      rw [List.foldl_append, List.foldl_cons, List.foldl_nil, Ads.load]
      by_cases same : line.ip = ip
      · have absent : ip ∉ lines.map RadiusEntry.ip := fun member =>
          apart ip member line.ip (by simp) same.symm
        rw [lastAd_append_same ip lines same, same, before,
          lastAd_eq_none absent, if_neg (by simp), Ads.learn, same,
          Function.update_self]
      · have other : ipKey ip ≠ ipKey line.ip := fun equal =>
          same (unshared.last equal.symm)
        rw [lastAd_append_other lines same, ← before]
        split_ifs
        · rfl
        · rw [Ads.learn, Function.update_of_ne other]

/-- The account of an address is the one of its last entry. -/
theorem adsAfter_eq_lastAd {ip : Bytes} {lines messages : List RadiusEntry}
    (distinct : (lines.map RadiusEntry.ip).Nodup)
    (unshared : Unshared ip (lines ++ messages)) :
    adsAfter lines messages (ipKey ip) = lastAd ip (lines ++ messages) := by
  induction messages using List.reverseRecOn with
  | nil =>
      rw [List.append_nil] at unshared ⊢
      exact loaded_eq_lastAd distinct unshared
  | append_singleton messages message induction =>
      rw [← List.append_assoc] at unshared ⊢
      have before := induction unshared.front
      rw [adsAfter, List.foldl_append, List.foldl_cons, List.foldl_nil,
        ← adsAfter, Ads.learn]
      by_cases same : message.ip = ip
      · rw [lastAd_append_same ip _ same, same, Function.update_self]
      · have other : ipKey ip ≠ ipKey message.ip := fun equal =>
          same (unshared.last equal.symm)
        rw [lastAd_append_other _ same, Function.update_of_ne other, before]

/-! ## The map refines it -/

/-- Every account stands in a block of its own, whose size tells who
allocated it. -/
structure Represents (lines : List RadiusEntry)
    (g_pRadiusHashMap : HashMap Bytes) (ads : Ads) : Prop where
  length : g_pRadiusHashMap.hashLen = 8388608
  missing {key : Fingerprint} : g_pRadiusHashMap.lookup key = none →
    ads key = none ∧ ¬ WasLoaded lines key
  found {key : Fingerprint} {pointer : Option Bytes} :
    g_pRadiusHashMap.lookup key = some pointer →
    ∃ block ad, pointer = some block ∧ Block.text block = some ad ∧
      ads key = some ad ∧
      (WasLoaded lines key ∧ block.length = 128 ∨
        ¬ WasLoaded lines key ∧ block.length = 496)

section Refinement

variable {lines : List RadiusEntry} {table : HashMap Bytes} {ads : Ads}

theorem Represents.searchable (represents : Represents lines table ads) :
    table.Searchable := by
  rw [HashMap.Searchable, represents.length]
  decide

theorem Represents.key (represents : Represents lines table ads)
    (ip : Bytes) : fingerprint table.hashLen ip ip.length = ipKey ip := by
  rw [represents.length]
  rfl

/-- A look-up gives what the abstract map has. -/
theorem Represents.radiusFind (represents : Represents lines table ads)
    (ip : Bytes) : radiusFind table ip = some (ads (ipKey ip)) := by
  rw [MqRadiusMessageAnalysis.radiusFind,
    findObject_eq represents.searchable, represents.key]
  cases stored : table.lookup (ipKey ip) with
  | none =>
      rw [(represents.missing stored).1]
      rfl
  | some pointer =>
      obtain ⟨block, ad, rfl, text, known, _⟩ := represents.found stored
      rw [known]
      dsimp only [Option.map_some, Option.bind_some]
      rw [text]
      rfl

/-- Writing the block of one address keeps the rest of the map. -/
theorem Represents.next {after : HashMap Bytes} {key : Fingerprint}
    {block ad : Bytes} (represents : Represents lines table ads)
    (length : after.hashLen = 8388608)
    (others : ∀ {other}, other ≠ key →
      after.lookup other = table.lookup other)
    (written : after.lookup key = some (some block))
    (text : Block.text block = some ad)
    (size : WasLoaded lines key ∧ block.length = 128 ∨
      ¬ WasLoaded lines key ∧ block.length = 496) :
    Represents lines after (Function.update ads key (some ad)) where
  length := length
  missing {other} absent := by
    have different : other ≠ key := by
      rintro rfl
      rw [written] at absent
      cases absent
    rw [Function.update_of_ne different]
    exact represents.missing (others different ▸ absent)
  found {other _} stored := by
    by_cases same : other = key
    · subst same
      rw [written] at stored
      cases stored
      rw [Function.update_self]
      exact ⟨block, ad, rfl, text, rfl, size⟩
    · rw [Function.update_of_ne same]
      exact represents.found (others same ▸ stored)

/-! ## Messages -/

/-- The packet of a message is cut into its two parts. -/
theorem radiusMessage_packet {message : RadiusEntry}
    (wellFormed : WellFormed message) (table : HashMap Bytes) :
    radiusMessage table message.packet =
      radiusUpdate table message.ip message.ad := by
  have ip_short := wellFormed.ip_short
  have ad_short := wellFormed.ad_short
  have short : message.packet.length < 512 := by
    rw [RadiusEntry.packet, List.length_append, List.length_cons]
    omega
  have noNul : 0 ∉ message.packet := by
    simp [RadiusEntry.packet, wellFormed.ip_noNul, wellFormed.ad_noNul]
  have tokens : strtok 58 message.packet = [message.ip, message.ad] := by
    rw [RadiusEntry.packet,
      strtok_append _ wellFormed.ad_nonempty wellFormed.ad_noColon,
      strtok_of_not_mem wellFormed.ip_nonempty wellFormed.ip_noColon]
    rfl
  rw [radiusMessage, store, if_pos short, Option.bind_some,
    cString_eq_self noNul, tokens]
  dsimp only
  rw [store, if_pos ip_short, Option.bind_some, store, if_pos ad_short,
    Option.bind_some]

/-- An account that differs is written over a block of 496 bytes only. -/
theorem Represents.radiusUpdate_eq {message : RadiusEntry}
    {block stored : Bytes} (represents : Represents lines table ads)
    (found : table.lookup (ipKey message.ip) = some (some block))
    (text : Block.text block = some stored) :
    radiusUpdate table message.ip message.ad =
      if message.ad = stored then some table
      else
        ((Block.clear 496 block).bind (Block.copy message.ad)).map
          fun next => table.writeValue (ipKey message.ip) fun _ => next := by
  have looked : findObject table message.ip message.ip.length =
      some (some block) := by
    rw [findObject_eq_found_iff represents.searchable, represents.key]
    exact found
  rw [radiusUpdate, looked, Option.bind_some]
  dsimp only
  rw [text, Option.bind_some, represents.key]

theorem Represents.radiusUpdate_missing {message : RadiusEntry}
    (represents : Represents lines table ads)
    (missing : table.lookup (ipKey message.ip) = none) :
    radiusUpdate table message.ip message.ad =
      (Block.copy message.ad (Block.cleared 496)).map fun ppcv =>
        hashMapInsert table message.ip message.ip.length (some ppcv) := by
  rw [radiusUpdate, findObject_eq represents.searchable, represents.key,
    missing, Option.bind_some]

/-- What a message does to the map that it can be stored in. -/
theorem Represents.message {message : RadiusEntry}
    (represents : Represents lines table ads)
    (wellFormed : WellFormed message)
    (harmless : Harmless lines table message) :
    ∃ after, radiusMessage table message.packet = some after ∧
      Represents lines after (ads.learn message) := by
  obtain ⟨fresh, copied, size, text⟩ :=
    Block.exists_copy_cleared wellFormed.ad_noNul wellFormed.ad_short
  rw [radiusMessage_packet wellFormed]
  cases stored : table.lookup (ipKey message.ip) with
  | none =>
      rw [represents.radiusUpdate_missing stored, copied]
      refine ⟨_, rfl, represents.next ?_ ?_ ?_ text
        (.inr ⟨(represents.missing stored).2, size⟩)⟩
      · rw [hashLen_hashMapInsert, represents.length]
      · intro other different
        apply lookup_hashMapInsert_other
        rwa [represents.key]
      · have inserted := lookup_hashMapInsert_same table message.ip
          message.ip.length (some fresh)
        rwa [represents.key, stored] at inserted
  | some pointer =>
      obtain ⟨block, ad, rfl, held, known, allocated⟩ :=
        represents.found stored
      rw [represents.radiusUpdate_eq stored held]
      by_cases same : message.ad = ad
      · rw [if_pos same]
        refine ⟨table, rfl, ?_⟩
        rw [Ads.learn, same, ← known, Function.update_eq_self]
        exact represents
      · have unloaded : ¬ WasLoaded lines (ipKey message.ip) := by
          intro loaded
          have repeated := harmless loaded
          rw [represents.radiusFind, known] at repeated
          exact same (Option.some_inj.mp (Option.some_inj.mp repeated)).symm
        have wide : block.length = 496 := by
          rcases allocated with ⟨loaded, _⟩ | ⟨_, wide⟩
          · exact absurd loaded unloaded
          · exact wide
        rw [if_neg same, ← wide, Block.clear_length, wide,
          Option.bind_some, copied]
        refine ⟨_, rfl, represents.next represents.length ?_ ?_ text
          (.inr ⟨unloaded, size⟩)⟩
        · intro other different
          exact lookup_writeValue_other table different _
        · rw [lookup_writeValue_same, stored]
          rfl

/-- Without the condition a message is written behind its block. -/
theorem Represents.message_isSome_iff {message : RadiusEntry}
    (represents : Represents lines table ads)
    (wellFormed : WellFormed message) :
    (radiusMessage table message.packet).isSome ↔
      Harmless lines table message := by
  constructor
  · intro returned loaded
    rw [radiusMessage_packet wellFormed] at returned
    cases stored : table.lookup (ipKey message.ip) with
    | none => exact absurd loaded (represents.missing stored).2
    | some pointer =>
        obtain ⟨block, ad, rfl, held, known, allocated⟩ :=
          represents.found stored
        rw [represents.radiusUpdate_eq stored held] at returned
        have narrow : block.length = 128 := by
          rcases allocated with ⟨_, narrow⟩ | ⟨unloaded, _⟩
          · exact narrow
          · exact absurd loaded unloaded
        split_ifs at returned with same
        · rw [represents.radiusFind, known, same]
        · rw [Option.isSome_map] at returned
          have cleared := Option.isSome_of_isSome_bind returned
          rw [Block.clear_isSome_iff, narrow] at cleared
          exact absurd cleared (by decide)
  · intro harmless
    obtain ⟨after, returned, _⟩ := represents.message wellFormed harmless
    rw [returned]
    rfl

theorem Represents.run {messages : List RadiusEntry}
    {after : HashMap Bytes} (represents : Represents lines table ads)
    (run : Run (HarmlessStep lines) table messages after) :
    Represents lines after (messages.foldl Ads.learn ads) := by
  induction run generalizing ads with
  | nil => exact represents
  | cons head _ induction =>
      obtain ⟨wellFormed, harmless, returned⟩ := head
      obtain ⟨next, equal, still⟩ := represents.message wellFormed harmless
      rw [returned] at equal
      cases equal
      exact induction still

/-- Messages for addresses that were not loaded can always be stored. -/
theorem Represents.exists_run {messages : List RadiusEntry}
    (represents : Represents lines table ads)
    (wellFormed : ∀ message ∈ messages, WellFormed message)
    (unloaded : ∀ message ∈ messages,
      ¬ WasLoaded lines (ipKey message.ip)) :
    ∃ after, Run (HarmlessStep lines) table messages after := by
  induction messages generalizing table ads with
  | nil => exact ⟨table, .nil _⟩
  | cons message messages induction =>
      obtain ⟨first, others⟩ := List.forall_mem_cons.mp wellFormed
      obtain ⟨new, news⟩ := List.forall_mem_cons.mp unloaded
      have harmless : Harmless lines table message :=
        fun loaded => absurd loaded new
      obtain ⟨next, returned, still⟩ := represents.message first harmless
      obtain ⟨after, run⟩ := induction still others news
      exact ⟨after, .cons ⟨first, harmless, returned⟩ run⟩

/-! ## The initial load -/

theorem represents_initial :
    Represents [] (hashMapNew 8388608) (fun _ => none) where
  length := rfl
  missing _ := ⟨rfl, fun ⟨_, member, _⟩ => absurd member List.not_mem_nil⟩
  found stored := by simp at stored

theorem wasLoaded_append {lines : List RadiusEntry} {line : RadiusEntry}
    {key : Fingerprint} :
    WasLoaded (lines ++ [line]) key ↔
      WasLoaded lines key ∨ ipKey line.ip = key := by
  simp [WasLoaded, or_and_right, exists_or]

/-- The invariant of the loader: every block belongs to a line. -/
structure Loading (lines : List RadiusEntry) (table : HashMap Bytes)
    (ads : Ads) : Prop extends Represents lines table ads where
  onlyLoaded {key : Fingerprint} : table.lookup key ≠ none →
    WasLoaded lines key

theorem loading_initial :
    Loading [] (hashMapNew 8388608) (fun _ => none) where
  toRepresents := represents_initial
  onlyLoaded present := absurd (lookup_hashMapNew _ _) present

/-- A line whose address is missing is put into a new block. -/
theorem Loading.insert {line : RadiusEntry} {block : Bytes}
    (loading : Loading lines table ads)
    (missing : table.lookup (ipKey line.ip) = none)
    (text : Block.text block = some line.ad) (size : block.length = 128) :
    Loading (lines ++ [line])
      (hashMapInsert table line.ip line.ip.length (some block))
      (ads.learn line) := by
  have written := lookup_hashMapInsert_same table line.ip line.ip.length
    (some block)
  rw [loading.key, missing] at written
  have others : ∀ {other}, other ≠ ipKey line.ip →
      (hashMapInsert table line.ip line.ip.length (some block)).lookup
        other = table.lookup other := by
    intro other different
    apply lookup_hashMapInsert_other
    rwa [loading.key]
  refine { length := ?length, missing := ?missing, found := ?found,
           onlyLoaded := ?onlyLoaded }
  case length => rw [hashLen_hashMapInsert, loading.length]
  case missing =>
    intro other absent
    have different : other ≠ ipKey line.ip := by
      rintro rfl
      rw [written] at absent
      cases absent
    have before := loading.missing (others different ▸ absent)
    rw [Ads.learn, Function.update_of_ne different, wasLoaded_append]
    exact ⟨before.1, not_or.mpr ⟨before.2, different.symm⟩⟩
  case found =>
    intro other pointer stored
    by_cases same : other = ipKey line.ip
    · subst same
      rw [written] at stored
      cases stored
      rw [Ads.learn, Function.update_self]
      exact ⟨block, line.ad, rfl, text, rfl,
        .inl ⟨wasLoaded_append.mpr (.inr rfl), size⟩⟩
    · rw [others same] at stored
      have loaded := loading.onlyLoaded (stored ▸ Option.some_ne_none _)
      obtain ⟨block, ad, equal, text, known, sizes⟩ := loading.found stored
      rcases sizes with ⟨_, narrow⟩ | ⟨unloaded, _⟩
      · rw [Ads.learn, Function.update_of_ne same]
        exact ⟨block, ad, equal, text, known,
          .inl ⟨wasLoaded_append.mpr (.inl loaded), narrow⟩⟩
      · exact absurd loaded unloaded
  case onlyLoaded =>
    intro other present
    rw [wasLoaded_append]
    by_cases same : other = ipKey line.ip
    · exact .inr same.symm
    · exact .inl (loading.onlyLoaded (others same ▸ present))

/-- A line whose address is there changes nothing. -/
theorem Loading.keep {line : RadiusEntry}
    (loading : Loading lines table ads)
    (present : table.lookup (ipKey line.ip) ≠ none) :
    Loading (lines ++ [line]) table ads := by
  have known := loading.onlyLoaded present
  have same : ∀ {key}, WasLoaded (lines ++ [line]) key ↔
      WasLoaded lines key := by
    intro key
    rw [wasLoaded_append, or_iff_left_iff_imp]
    rintro rfl
    exact known
  refine { length := ?length, missing := ?missing, found := ?found,
           onlyLoaded := ?onlyLoaded }
  case length => exact loading.length
  case missing =>
    intro key absent
    rw [same]
    exact loading.missing absent
  case found =>
    intro key pointer stored
    rw [same]
    exact loading.found stored
  case onlyLoaded =>
    intro key found
    rw [same]
    exact loading.onlyLoaded found

theorem Loading.loadValue {line : RadiusEntry}
    (loading : Loading lines table ads) (loadable : Loadable line) :
    ∃ after,
      MqRadiusMessageAnalysis.loadValue table line.ip line.ad = some after ∧
      Loading (lines ++ [line]) after (ads.load line) := by
  obtain ⟨positive, bounded⟩ := loading.searchable
  have found := ret_hashMapFind_nonneg_iff positive bounded line.ip
    line.ip.length
  rw [loading.key] at found
  rw [MqRadiusMessageAnalysis.loadValue]
  cases stored : table.lookup (ipKey line.ip) with
  | none =>
      obtain ⟨block, copied, size, text⟩ :=
        Block.exists_copy_cleared loadable.ad_noNul loadable.ad_short
      have absent : (hashMapFind table line.ip line.ip.length).ret < 0 := by
        rw [← not_le, found, stored]
        simp
      rw [if_pos absent, copied, Ads.load, (loading.missing stored).1,
        if_neg (by simp)]
      exact ⟨_, rfl, loading.insert stored text size⟩
  | some pointer =>
      obtain ⟨_, _, _, _, known, _⟩ := loading.found stored
      have present :
          0 ≤ (hashMapFind table line.ip line.ip.length).ret := by
        rw [found, stored]
        rfl
      rw [if_neg (not_lt.mpr present), Ads.load, known,
        if_pos Option.isSome_some]
      exact ⟨table, rfl, loading.keep (stored ▸ Option.some_ne_none _)⟩

theorem Loading.loadElements {rest : List RadiusEntry}
    (loading : Loading lines table ads)
    (loadable : ∀ line ∈ rest, Loadable line) (szBuff : Bytes) {i : Nat}
    (field : i % 2 = 0) :
    ∃ after,
      MqRadiusMessageAnalysis.loadElements table szBuff i
        (replyElements rest) = some after ∧
      Loading (lines ++ rest) after (rest.foldl Ads.load ads) := by
  induction rest generalizing lines table ads szBuff i with
  | nil =>
      rw [List.append_nil]
      exact ⟨table, rfl, loading⟩
  | cons line rest induction =>
      obtain ⟨first, others⟩ := List.forall_mem_cons.mp loadable
      obtain ⟨next, stored, still⟩ := loading.loadValue first
      obtain ⟨after, loaded, last⟩ :=
        @induction _ _ _ still others line.ip (i + 2)
          (by rw [Nat.add_mod_right, field])
      refine ⟨after, ?_, ?_⟩
      · show MqRadiusMessageAnalysis.loadElements table szBuff i
          (line.ip :: line.ad :: replyElements rest) = some after
        rw [MqRadiusMessageAnalysis.loadElements, if_pos field, store,
          if_pos first.ip_short, Option.bind_some,
          MqRadiusMessageAnalysis.loadElements, if_neg (by omega), stored,
          Option.bind_some]
        exact loaded
      · rwa [List.append_assoc] at last

end Refinement

/--
The map of addresses over whole runs.

If the reply of redis fits into the blocks of the loader, and no message of
the run brings a new account for a loaded address, then the deciders read for
every address the account of its last entry, a message changes no other
address, and the next message is written inside its block if and only if it is
harmless.
-/
theorem radiusMap_correct (lines : List RadiusEntry)
    (loadable : ∀ line ∈ lines, Loadable line)
    (distinct : (lines.map RadiusEntry.ip).Nodup) :
    ∃ loaded,
      loadRadiusRedisDataInit (replyElements lines) = some loaded ∧
      ∀ messages table, Run (HarmlessStep lines) loaded messages table →
        (∀ ip, Unshared ip (lines ++ messages) →
          radiusFind table ip = some (lastAd ip (lines ++ messages))) ∧
        ∀ message, WellFormed message →
          ((radiusMessage table message.packet).isSome ↔
            Harmless lines table message) ∧
          ∀ after, radiusMessage table message.packet = some after →
            ∀ ip, ipKey ip ≠ ipKey message.ip →
              radiusFind after ip = radiusFind table ip := by
  obtain ⟨loaded, returned, loading⟩ :=
    loading_initial.loadElements loadable [] (show 0 % 2 = 0 from rfl)
  refine ⟨loaded, returned, ?_⟩
  intro messages table run
  have represents := loading.toRepresents.run run
  refine ⟨?_, ?_⟩
  · intro ip unshared
    rw [represents.radiusFind]
    exact congrArg some (adsAfter_eq_lastAd distinct unshared)
  · intro message wellFormed
    have inside := represents.message_isSome_iff wellFormed
    refine ⟨inside, ?_⟩
    intro after written ip different
    have harmless := inside.mp (written ▸ rfl)
    obtain ⟨next, equal, still⟩ := represents.message wellFormed harmless
    rw [written] at equal
    cases equal
    rw [represents.radiusFind, still.radiusFind, Ads.learn,
      Function.update_of_ne different]

/-- A loaded address. -/
def loadedLine : RadiusEntry where
  ip := ascii "10.0.0.1"
  ad := ascii "ad1"

/-- Two messages for an address that was not loaded. -/
def newMessages : List RadiusEntry :=
  [⟨ascii "10.0.0.2", ascii "ad2"⟩, ⟨ascii "10.0.0.2", ascii "ad3"⟩]

/-- A message that brings a new account for the loaded address. -/
def changedAd : RadiusEntry where
  ip := ascii "10.0.0.1"
  ad := ascii "ad2"

theorem radiusMap_correct_newMessages :
    ∃ loaded table,
      loadRadiusRedisDataInit (replyElements [loadedLine]) = some loaded ∧
      Run (HarmlessStep [loadedLine]) loaded newMessages table ∧
      radiusFind table (ascii "10.0.0.1") = some (some (ascii "ad1")) ∧
      radiusFind table (ascii "10.0.0.2") = some (some (ascii "ad3")) := by
  have loadable : ∀ line ∈ [loadedLine], Loadable line := by
    rw [List.forall_mem_singleton]
    exact ⟨by decide, by decide, by decide⟩
  have wellFormed : ∀ message ∈ newMessages, WellFormed message := by
    rw [newMessages, List.forall_mem_cons, List.forall_mem_singleton]
    exact ⟨⟨by decide, by decide, by decide, by decide, by decide,
      by decide, by decide, by decide⟩, ⟨by decide, by decide, by decide,
      by decide, by decide, by decide, by decide, by decide⟩⟩
  have unloaded : ∀ message ∈ newMessages,
      ¬ WasLoaded [loadedLine] (ipKey message.ip) := by
    simp only [WasLoaded]
    decide +kernel
  obtain ⟨loaded, returned, correct⟩ :=
    radiusMap_correct [loadedLine] loadable (by decide)
  obtain ⟨_, equal, loading⟩ :=
    loading_initial.loadElements loadable [] (show 0 % 2 = 0 from rfl)
  rw [loadRadiusRedisDataInit, equal] at returned
  cases returned
  obtain ⟨table, run⟩ :=
    loading.toRepresents.exists_run wellFormed unloaded
  have unshared : Unshared (ascii "10.0.0.1") ([loadedLine] ++ newMessages) ∧
      Unshared (ascii "10.0.0.2") ([loadedLine] ++ newMessages) := by
    simp only [Unshared]
    decide +kernel
  refine ⟨loaded, table, equal, run, ?_, ?_⟩
  · exact (correct newMessages table run).1 _ unshared.1
  · exact (correct newMessages table run).1 _ unshared.2

/-- The new account of a loaded address is written behind its block. -/
theorem radiusMap_overwritten :
    WellFormed changedAd ∧
      ∃ loaded,
        loadRadiusRedisDataInit (replyElements [loadedLine]) = some loaded ∧
        radiusMessage loaded changedAd.packet = none := by
  refine ⟨⟨by decide, by decide, by decide, by decide, by decide,
    by decide, by decide, by decide⟩, ?_⟩
  have written :
      (loadRadiusRedisDataInit (replyElements [loadedLine])).isSome ∧
        (loadRadiusRedisDataInit (replyElements [loadedLine])).bind
          (fun loaded => radiusMessage loaded changedAd.packet) = none := by
    decide +kernel
  obtain ⟨loaded, equal⟩ := Option.isSome_iff_exists.mp written.1
  rw [equal] at written
  exact ⟨loaded, equal, written.2⟩

end WindowSystem.MqRadiusMessageAnalysis
