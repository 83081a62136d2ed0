import WindowSystem.CRuntime

/-!
# The loaders of the jc sites

`load_jc_site_cfg` of the server and `load_jc_cfg` of the client walk over the
entries of `jc.cfg`.  An entry that is not enabled makes them `continue`
without going on to the next one.  `zz_config_child` asserts that it is called
for an item, and the arrays have a fixed size.
-/

namespace WindowSystem.DcConfJc

open WindowSystem.CRuntime

/-! ## Configuration trees -/

/-- `zzconfig_t` as `zz_config_load` builds it: an item with a name, a value
and the items below it. -/
structure ZzConfig where
  name : Bytes
  value : Bytes
  children : List ZzConfig

/-- The names along a path; a leading slash is ignored. -/
def segments (path : Bytes) : List Bytes :=
  (if path.head? = some 47 then path.tail else path).splitOn 47

/-- The item that the names lead to: at every level the first one of its
name. -/
def locateSegments (self : ZzConfig) : List Bytes → Option ZzConfig
  | [] => none
  | [segment] => self.children.find? fun child => child.name = segment
  | segment :: rest =>
      (self.children.find? fun child => child.name = segment).bind
        fun child => locateSegments child rest

/-- `zz_config_locate` -/
def zzConfigLocate (self : ZzConfig) (path : Bytes) : Option ZzConfig :=
  locateSegments self (segments path)

/-- `zz_config_resolve` -/
def zzConfigResolve (self : ZzConfig) (path defaultValue : Bytes) : Bytes :=
  match zzConfigLocate self path with
  | some item => item.value
  | none => defaultValue

/-! ## The loaders -/

/-- How a call ends without sites: it returns `-1`, or something is undefined
(a write behind an array, a failed assertion). -/
inductive Failure where
  | failed
  | undefined
deriving DecidableEq

/-- `strcmp(enable, "yes") == 0` -/
def isEnabled (child : ZzConfig) : Bool :=
  zzConfigResolve child (ascii "enable") (ascii "yes") = ascii "yes"

/-- The `uri` of an entry. -/
def uriOf (child : ZzConfig) : Bytes :=
  zzConfigResolve child (ascii "uri") []

section Loader

variable {ρ σ : Type} (regcomp : Bytes → Option ρ) (capacity : Nat)
  (site : ZzConfig → ρ → List Bytes → σ)

/-- What the body of the loop stores for an entry, unless the call ends there:
the expression has to be accepted, `dst` has to be there, and its items have
to fit into `dst_url`. -/
def storeSite (child : ZzConfig) : Except Failure σ :=
  match regcomp (uriOf child) with
  | none => .error .failed
  | some uriRe =>
      match zzConfigLocate child (ascii "dst") with
      | none => .error .undefined
      | some childDst =>
          if childDst.children.length ≤ 8 then
            .ok (site child uriRe (childDst.children.map ZzConfig.value))
          else .error .undefined

/-- The `while` loop, for at most so many rounds; the entries are those from
`child` on, and `i` is the number of the sites. -/
def loop : Nat → List ZzConfig → List σ → Option (Except Failure (List σ))
  | 0, _, _ => none
  | _ + 1, [], jcSites => some (.ok jcSites)
  | rounds + 1, child :: next, jcSites =>
      if !isEnabled child then loop rounds (child :: next) jcSites
      else if jcSites.length < capacity then
        match storeSite regcomp site child with
        | .ok stored => loop rounds next (jcSites ++ [stored])
        | .error failure => some (.error failure)
      else some (.error .undefined)

end Loader

namespace Server

/-- `struct JC_S` of the server. -/
structure JcS (ρ : Type) where
  name : Bytes
  host : Bytes
  hostLen : Nat
  uri : Bytes
  uriLen : Nat
  delay : Int
  percent : Int
  type : Int
  dstUrl : List Bytes
  flag : Bytes
  dstUrlLen : Nat
  dstRodomIndex : Nat
  uriRe : ρ

/-- The fields that `load_jc_site_cfg` fills in. -/
def site {ρ : Type} (child : ZzConfig) (uriRe : ρ) (dstUrl : List Bytes) :
    JcS ρ where
  name := child.value
  host := zzConfigResolve child (ascii "host") []
  hostLen := (zzConfigResolve child (ascii "host") []).length
  uri := uriOf child
  uriLen := (uriOf child).length
  delay := atoi (zzConfigResolve child (ascii "delay") (ascii "3600"))
  percent := atoi (zzConfigResolve child (ascii "percent") [])
  type := atoi (zzConfigResolve child (ascii "type") (ascii "0"))
  dstUrl := dstUrl
  flag := zzConfigResolve child (ascii "flag") []
  dstUrlLen := dstUrl.length
  dstRodomIndex := 0
  uriRe := uriRe

/-- `load_jc_site_cfg`, into the 128 sites that `rule_jc_load_target_sites`
allocates. -/
def loadJcSiteCfg {ρ : Type} (regcomp : Bytes → Option ρ) (root : ZzConfig)
    (rounds : Nat) : Option (Except Failure (List (JcS ρ))) :=
  loop regcomp 128 site rounds root.children []

end Server

namespace Client

/-- `struct JC_S` of the client. -/
structure JcS (ρ : Type) where
  name : Bytes
  host : Bytes
  hostLen : Nat
  uri : Bytes
  uriLen : Nat
  percent : Int
  currTimes : Int
  currPv : Int
  dstUrl : List Bytes
  dstUrlLen : Nat
  dstRodomIndex : Nat
  uriRe : ρ

/-- The fields that `load_jc_cfg` fills in. -/
def site {ρ : Type} (child : ZzConfig) (uriRe : ρ) (dstUrl : List Bytes) :
    JcS ρ where
  name := child.value
  host := zzConfigResolve child (ascii "host") []
  hostLen := (zzConfigResolve child (ascii "host") []).length
  uri := uriOf child
  uriLen := (uriOf child).length
  percent := atoi (zzConfigResolve child (ascii "percent") [])
  currTimes := 0
  currPv := 0
  dstUrl := dstUrl
  dstUrlLen := dstUrl.length
  dstRodomIndex := 0
  uriRe := uriRe

/-- `load_jc_cfg`, into the 64 sites that `rule_jc_load_target_sites`
allocates. -/
def loadJcCfg {ρ : Type} (regcomp : Bytes → Option ρ) (root : ZzConfig)
    (rounds : Nat) : Option (Except Failure (List (JcS ρ))) :=
  loop regcomp 64 site rounds root.children []

end Client

/-! ## What is loaded -/

section Loads

variable {ρ σ : Type} {regcomp : Bytes → Option ρ} {capacity rounds : Nat}
  {site : ZzConfig → ρ → List Bytes → σ} {child : ZzConfig}
  {entries : List ZzConfig} {jcSites loaded : List σ} {root : ZzConfig}

/-- The call ends, and the sites are those of the enabled entries, in their
order. -/
def Loads (load : Nat → Option (Except Failure (List σ)))
    (regcomp : Bytes → Option ρ) (site : ZzConfig → ρ → List Bytes → σ)
    (root : ZzConfig) : Prop :=
  ∃ rounds sites, load rounds = some (.ok sites) ∧
    (root.children.filter isEnabled).map (storeSite regcomp site) =
      sites.map .ok

/-- An entry that the body of the loop can store. -/
structure Complete (regcomp : Bytes → Option ρ) (child : ZzConfig) :
    Prop where
  compiles : (regcomp (uriOf child)).isSome = true
  dst : ∃ childDst, zzConfigLocate child (ascii "dst") = some childDst ∧
    childDst.children.length ≤ 8

/-- Entries that are all enabled and complete, and that fit. -/
structure Fits (regcomp : Bytes → Option ρ) (capacity : Nat)
    (root : ZzConfig) : Prop where
  enabled : ∀ child ∈ root.children, isEnabled child = true
  complete : ∀ child ∈ root.children, Complete regcomp child
  few : root.children.length ≤ capacity

theorem complete_iff :
    Complete regcomp child ↔
      ∃ stored, storeSite regcomp site child = .ok stored := by
  constructor
  · rintro ⟨compiles, childDst, located, few⟩
    obtain ⟨uriRe, compiled⟩ := Option.isSome_iff_exists.mp compiles
    rw [storeSite, compiled, located]
    exact ⟨_, if_pos few⟩
  · rintro ⟨stored, stores⟩
    unfold storeSite at stores
    split at stores
    case h_1 => cases stores
    case h_2 uriRe compiled =>
      split at stores
      case h_1 => cases stores
      case h_2 childDst located =>
        split_ifs at stores with few
        exact ⟨Option.isSome_iff_exists.mpr ⟨uriRe, compiled⟩, childDst,
          located, few⟩

/-- Sites for all of some entries. -/
structure Stored (regcomp : Bytes → Option ρ)
    (site : ZzConfig → ρ → List Bytes → σ) (entries : List ZzConfig)
    (sites : List σ) : Prop where
  enabled : ∀ child ∈ entries, isEnabled child = true
  sites : entries.map (storeSite regcomp site) = sites.map .ok

theorem Stored.cons {next : List ZzConfig} {stored : σ} {more : List σ}
    (enabled : isEnabled child = true)
    (stores : storeSite regcomp site child = .ok stored)
    (rest : Stored regcomp site next more) :
    Stored regcomp site (child :: next) (stored :: more) where
  enabled := List.forall_mem_cons.mpr ⟨enabled, rest.enabled⟩
  sites := by rw [List.map_cons, List.map_cons, stores, rest.sites]

theorem Stored.exists_cons {next : List ZzConfig} {sites : List σ}
    (all : Stored regcomp site (child :: next) sites) :
    ∃ stored more, sites = stored :: more ∧ isEnabled child = true ∧
      storeSite regcomp site child = .ok stored ∧
      Stored regcomp site next more := by
  obtain ⟨enabled, rest⟩ := List.forall_mem_cons.mp all.enabled
  cases sites with
  | nil => cases all.sites
  | cons stored more =>
      obtain ⟨stores, stored'⟩ := List.cons.inj all.sites
      exact ⟨stored, more, rfl, enabled, stores, rest, stored'⟩

theorem stored_iff :
    (∃ sites, Stored regcomp site entries sites) ↔
      (∀ child ∈ entries, isEnabled child = true) ∧
        ∀ child ∈ entries, Complete regcomp child := by
  induction entries with
  | nil => exact iff_of_true ⟨[], by simp, rfl⟩ (by simp)
  | cons child next induction =>
      rw [List.forall_mem_cons, List.forall_mem_cons,
        @complete_iff _ _ _ site]
      constructor
      · rintro ⟨sites, all⟩
        obtain ⟨stored, more, -, enabled, stores, rest⟩ := all.exists_cons
        obtain ⟨enabledNext, completeNext⟩ := induction.mp ⟨more, rest⟩
        exact ⟨⟨enabled, enabledNext⟩, ⟨stored, stores⟩, completeNext⟩
      · rintro ⟨⟨enabled, enabledNext⟩, ⟨stored, stores⟩, completeNext⟩
        obtain ⟨more, rest⟩ := induction.mpr ⟨enabledNext, completeNext⟩
        exact ⟨stored :: more, rest.cons enabled stores⟩

/-- A loop that ends with sites has gone over all entries. -/
theorem stored_of_loop
    (ended : loop regcomp capacity site rounds entries jcSites =
      some (.ok loaded)) :
    ∃ more, loaded = jcSites ++ more ∧ Stored regcomp site entries more ∧
      (entries = [] ∨ loaded.length ≤ capacity) := by
  induction rounds generalizing entries jcSites with
  | zero => cases ended
  | succ rounds induction =>
      cases entries with
      | nil =>
          cases ended
          exact ⟨[], (List.append_nil _).symm, ⟨by simp, rfl⟩, .inl rfl⟩
      | cons child next =>
          rw [loop] at ended
          split_ifs at ended with disabled room
          · exact induction ended
          · cases stores : storeSite regcomp site child with
            | error failure =>
                rw [stores] at ended
                cases ended
            | ok stored =>
                rw [stores] at ended
                obtain ⟨more, rfl, rest, fits⟩ := induction ended
                rw [Bool.not_eq_true', Bool.not_eq_false] at disabled
                refine ⟨stored :: more, List.append_assoc _ _ _,
                  rest.cons disabled stores, .inr ?_⟩
                rcases fits with rfl | fits
                · rw [List.map_eq_nil_iff.mp rest.sites.symm, List.append_nil,
                    List.length_append]
                  exact room
                · exact fits
          · cases ended

/-- A loop over enabled entries that fit stores them all. -/
theorem loop_of_stored {more : List σ}
    (stored : Stored regcomp site entries more)
    (few : jcSites.length + entries.length ≤ capacity) :
    loop regcomp capacity site (entries.length + 1) entries jcSites =
      some (.ok (jcSites ++ more)) := by
  induction entries generalizing jcSites more with
  | nil =>
      rw [List.map_eq_nil_iff.mp stored.sites.symm, List.append_nil]
      rfl
  | cons child next induction =>
      obtain ⟨first, rest, rfl, enabled, stores, storedRest⟩ :=
        stored.exists_cons
      rw [List.length_cons] at few ⊢
      have disabled : ¬ (!isEnabled child) = true := by
        simp [enabled]
      rw [loop, if_neg disabled, if_pos (by omega), stores]
      have fewNext : (jcSites ++ [first]).length + next.length ≤ capacity := by
        rw [List.length_append, List.length_singleton]
        omega
      dsimp only
      rw [induction storedRest fewNext, List.append_assoc]
      rfl

/-- The sites of all enabled entries are loaded exactly if all entries are
enabled and complete and fit. -/
theorem loads_loop_iff :
    Loads (fun rounds => loop regcomp capacity site rounds root.children [])
        regcomp site root ↔ Fits regcomp capacity root := by
  constructor
  · rintro ⟨rounds, sites, ended, -⟩
    obtain ⟨more, same, stored, fits⟩ := stored_of_loop ended
    obtain rfl : sites = more := same
    obtain ⟨enabled, complete⟩ := stored_iff.mp ⟨sites, stored⟩
    have length := congrArg List.length stored.sites
    rw [List.length_map, List.length_map] at length
    refine ⟨enabled, complete, ?_⟩
    rcases fits with none | few
    · rw [none]
      exact Nat.zero_le _
    · rw [length]
      exact few
  · intro fits
    obtain ⟨sites, stored⟩ := (@stored_iff _ _ _ site _).mpr
      ⟨fits.enabled, fits.complete⟩
    have few : ([] : List σ).length + root.children.length ≤ capacity := by
      rw [List.length_nil, Nat.zero_add]
      exact fits.few
    refine ⟨_, sites, loop_of_stored stored few, ?_⟩
    rw [List.filter_eq_self.mpr fits.enabled, stored.sites]

/-- An entry that is not enabled is looked at again and again. -/
theorem loop_of_disabled {next : List ZzConfig}
    (disabled : isEnabled child = false) :
    loop regcomp capacity site rounds (child :: next) jcSites = none := by
  induction rounds with
  | zero => rfl
  | succ rounds induction =>
      rw [loop, disabled]
      exact induction

/-- Both loaders, for every configuration tree. -/
theorem loads_iff_fits (regcomp : Bytes → Option ρ) (root : ZzConfig) :
    (Loads (Server.loadJcSiteCfg regcomp root) regcomp Server.site root ↔
        Fits regcomp 128 root) ∧
      (Loads (Client.loadJcCfg regcomp root) regcomp Client.site root ↔
        Fits regcomp 64 root) :=
  ⟨loads_loop_iff, loads_loop_iff⟩

end Loads

/-! ## A disabled entry -/

/-- An item without items below it. -/
def leaf (name value : Bytes) : ZzConfig :=
  ⟨name, value, []⟩

/-- A tree with one entry that is not enabled. -/
def disabledTree : ZzConfig :=
  ⟨ascii "root", [],
    [⟨ascii "site", ascii "a", [leaf (ascii "enable") (ascii "no")]⟩]⟩

/-- Every expression is accepted. -/
def acceptAll (expression : Bytes) : Option Bytes :=
  some expression

/-- Neither loader ends. -/
theorem not_loads_disabledTree :
    (∀ rounds, Server.loadJcSiteCfg acceptAll disabledTree rounds = none) ∧
      (∀ rounds, Client.loadJcCfg acceptAll disabledTree rounds = none) ∧
      ¬ Loads (Server.loadJcSiteCfg acceptAll disabledTree) acceptAll
        Server.site disabledTree ∧
      ¬ Loads (Client.loadJcCfg acceptAll disabledTree) acceptAll Client.site
        disabledTree := by
  have server : ∀ rounds,
      Server.loadJcSiteCfg acceptAll disabledTree rounds = none :=
    fun rounds => loop_of_disabled (by decide +kernel)
  have client : ∀ rounds,
      Client.loadJcCfg acceptAll disabledTree rounds = none :=
    fun rounds => loop_of_disabled (by decide +kernel)
  refine ⟨server, client, ?_, ?_⟩
  · rintro ⟨rounds, sites, ended, -⟩
    rw [server] at ended
    cases ended
  · rintro ⟨rounds, sites, ended, -⟩
    rw [client] at ended
    cases ended

end WindowSystem.DcConfJc
