import Mathlib.Algebra.Ring.Int.Defs
import WindowSystem.Jieba.DictSegment
import WindowSystem.Jieba.FinalSeg

/-!
# The dictionary

`WordDictionary` reads lines with a word and its number into a tree and into a
map.  The segmenter asks the tree for the words that begin at a place and the
map for everything else.  The module shows that the two have the same words
after the main dictionary and any number of user dictionaries.
-/

namespace WindowSystem.Jieba

open WindowSystem.Jieba.DictSegment
open WindowSystem.Jieba.FinalSeg (Text)

/-! ## Lines -/

/-- The separators of a line. -/
def isBlank (ch : UInt16) : Bool :=
  ch == 9 || ch == 32

/-- `line.split ("[\t ]+")`: an empty string stands in front of separators at
the beginning, and there is none at the end. -/
def split (line : Text) : List Text :=
  let words := (line.splitOnP isBlank).filter fun word => word ≠ []
  if words = [] then if line = [] then [[]] else []
  else if (line.head?.map isBlank).getD false then [] :: words
  else words

/-- `trim` -/
def trim (word : Text) : Text :=
  ((word.dropWhile (· ≤ 32)).reverse.dropWhile (· ≤ 32)).reverse

/-! ## The dictionary -/

/-- What the dictionary uses of `String` and of `double`: an exception of
`Double.valueOf` is `none`. -/
structure Runtime (W : Type*) where
  toLowerCase : Text → Text
  valueOf : Text → Option W
  add : W → W → W
  logRatio : W → W → W
  zero : W
  maxValue : W

/-- The fields of a `WordDictionary`; a key of `freqs` may be `null`. -/
structure WordDictionary (W : Type*) where
  dict : DictSegment
  freqs : List (Option Text × W)
  total : W
  minFreq : W

namespace WordDictionary

section Load

variable {W : Type*} (runtime : Runtime W)

/-- `freqs.put` -/
def put (freqs : List (Option Text × W)) (key : Option Text) (freq : W) :
    List (Option Text × W) :=
  if freqs.any fun entry => entry.1 = key then
    freqs.map fun entry => if entry.1 = key then (key, freq) else entry
  else freqs ++ [(key, freq)]

/-- `addWord`: the tree afterwards and the key, unless an exception is
thrown. -/
def addWord (dict : DictSegment) (word : Text) :
    Option (DictSegment × Option Text) :=
  if trim word = [] then some (dict, none)
  else
    match runtime.toLowerCase (trim word) with
    | [] => none
    | first :: rest =>
        some (fillSegment true first rest dict, some (first :: rest))

/-- A line of the main dictionary. -/
def loadLine (self : WordDictionary W) (line : Text) :
    Option (WordDictionary W) :=
  match split line with
  | word :: number :: _ =>
      (runtime.valueOf number).bind fun freq =>
        (addWord runtime self.dict word).map fun (dict, key) =>
          { self with
            dict := dict
            freqs := put self.freqs key freq
            total := runtime.add self.total freq }
  | _ => some self

/-- The loop over the entries behind the lines. -/
def normalize [LinearOrder W] (self : WordDictionary W) : WordDictionary W :=
  let freqs := self.freqs.map fun entry =>
    (entry.1, runtime.logRatio entry.2 self.total)
  { self with
    freqs := freqs
    minFreq := freqs.foldl (fun minFreq entry => min entry.2 minFreq)
      self.minFreq }

/-- `loadDict` -/
def loadDict [LinearOrder W] (lines : List Text) :
    Option (WordDictionary W) :=
  (lines.foldlM (loadLine runtime)
    ⟨root, [], runtime.zero, runtime.maxValue⟩).map (normalize runtime)

/-- A line of a user dictionary: the tokens before the last one are the
word. -/
def loadUserLine (self : WordDictionary W) (line : Text) :
    Option (WordDictionary W) :=
  let tokens := split line
  if tokens.length < 2 then some self
  else
    let word := [32].intercalate tokens.dropLast
    if word = [] then some self
    else
      (runtime.valueOf (tokens.getLast?.getD [])).bind fun freq =>
        (addWord runtime self.dict word).map fun (dict, key) =>
          { self with
            dict := dict
            freqs := put self.freqs key (runtime.logRatio freq self.total) }

/-- `loadUserDict` -/
def loadUserDict (self : WordDictionary W) (lines : List Text) :
    Option (WordDictionary W) :=
  lines.foldlM (loadUserLine runtime) self

end Load

section Words

variable {W : Type*}

/-- `freqs.get` -/
def get (self : WordDictionary W) (key : Text) : Option W :=
  (self.freqs.find? fun entry => entry.1 = some key).map Prod.snd

/-- `containsWord` -/
def containsWord (self : WordDictionary W) (word : Text) : Bool :=
  (get self word).isSome

/-- `getFreq` -/
def getFreq (self : WordDictionary W) (key : Text) : W :=
  (get self key).getD self.minFreq

end Words

/-! ## The tree and the map -/

section Agreement

variable {W : Type*} {self : WordDictionary W} {key : Option Text} {freq : W}

/-- The keys of the map. -/
def keys (self : WordDictionary W) : List (Option Text) :=
  self.freqs.map Prod.fst

theorem containsWord_iff {word : Text} :
    self.containsWord word = true ↔ some word ∈ self.keys := by
  simp [containsWord, get, keys, List.find?_isSome]

theorem mem_put {freqs : List (Option Text × W)} {other : Option Text} :
    other ∈ (put freqs key freq).map Prod.fst ↔
      other = key ∨ other ∈ freqs.map Prod.fst := by
  rw [put]
  split_ifs with there
  · have same : (freqs.map fun entry =>
        if entry.1 = key then (key, freq) else entry).map Prod.fst =
          freqs.map Prod.fst := by
      rw [List.map_map]
      refine List.map_congr_left fun entry _ => ?_
      rw [Function.comp_apply]
      split_ifs with equal
      · exact equal.symm
      · rfl
    rw [same]
    refine (or_iff_right_of_imp ?_).symm
    rintro rfl
    obtain ⟨entry, member, equal⟩ := List.any_eq_true.mp there
    exact List.mem_map.mpr ⟨entry, member, of_decide_eq_true equal⟩
  · rw [List.map_append, List.mem_append, or_comm]
    simp

/-- The tree has the words that are keys of the map. -/
def Agrees (self : WordDictionary W) : Prop :=
  ∃ calls : List Call, self.dict = root.afterCalls calls ∧
    (∀ call ∈ calls, call.enabled = true) ∧
    ∀ first rest, some (first :: rest) ∈ self.keys ↔
      ∃ call ∈ calls, call.word = first :: rest

variable {runtime : Runtime W}

theorem addWord_eq_some {dict grown : DictSegment} {word : Text}
    (added : addWord runtime dict word = some (grown, key)) :
    grown = dict ∧ key = none ∨
      ∃ first rest, grown = fillSegment true first rest dict ∧
        key = some (first :: rest) := by
  rw [addWord] at added
  split_ifs at added
  · cases added
    exact .inl ⟨rfl, rfl⟩
  · split at added
    · cases added
    · cases added
      exact .inr ⟨_, _, rfl, rfl⟩

/-- A word is added to the tree and to the map. -/
theorem Agrees.add {later : WordDictionary W} {grown : DictSegment}
    {word : Text} (agrees : Agrees self)
    (added : addWord runtime self.dict word = some (grown, key))
    (dict : later.dict = grown)
    (freqs : later.freqs = put self.freqs key freq) : Agrees later := by
  obtain ⟨calls, same, enabled, words⟩ := agrees
  have isKey : ∀ other, other ∈ later.keys ↔ other = key ∨ other ∈ self.keys := by
    intro other
    rw [keys, freqs, mem_put]
    rfl
  rcases addWord_eq_some added with ⟨rfl, rfl⟩ | ⟨first, rest, rfl, rfl⟩
  · refine ⟨calls, dict.trans same, enabled, ?_⟩
    intro first rest
    rw [isKey, ← words]
    simp
  · refine ⟨calls ++ [⟨true, first, rest⟩], ?_, ?_, ?_⟩
    · rw [dict, same, afterCalls, afterCalls, List.foldl_append]
      rfl
    · intro call member
      rcases List.mem_append.mp member with before | last
      · exact enabled call before
      · rw [List.mem_singleton.mp last]
    · intro second further
      rw [isKey, words]
      simp only [List.mem_append, List.mem_singleton, or_and_right, exists_or,
        exists_eq_left, Call.word, Option.some.injEq]
      rw [or_comm, eq_comm]

theorem Agrees.loadLine {later : WordDictionary W} {line : Text}
    (agrees : Agrees self)
    (loaded : WordDictionary.loadLine runtime self line = some later) :
    Agrees later := by
  rw [WordDictionary.loadLine] at loaded
  split at loaded
  · obtain ⟨freq, -, loaded⟩ := Option.bind_eq_some_iff.mp loaded
    obtain ⟨⟨grown, key⟩, added, rfl⟩ := Option.map_eq_some_iff.mp loaded
    exact agrees.add added rfl rfl
  · cases loaded
    exact agrees

theorem Agrees.loadUserLine {later : WordDictionary W} {line : Text}
    (agrees : Agrees self)
    (loaded : WordDictionary.loadUserLine runtime self line = some later) :
    Agrees later := by
  simp only [WordDictionary.loadUserLine] at loaded
  split_ifs at loaded
  · cases loaded
    exact agrees
  · cases loaded
    exact agrees
  · obtain ⟨freq, -, loaded⟩ := Option.bind_eq_some_iff.mp loaded
    obtain ⟨⟨grown, key⟩, added, rfl⟩ := Option.map_eq_some_iff.mp loaded
    exact agrees.add added rfl rfl

/-- What every line keeps, all lines keep. -/
theorem agrees_foldlM
    {load : WordDictionary W → Text → Option (WordDictionary W)}
    (step : ∀ {self later line}, Agrees self → load self line = some later →
      Agrees later) {lines : List Text} {later : WordDictionary W}
    (agrees : Agrees self) (loaded : lines.foldlM load self = some later) :
    Agrees later := by
  induction lines generalizing self with
  | nil =>
      cases loaded
      exact agrees
  | cons line lines induction =>
      rw [List.foldlM_cons] at loaded
      obtain ⟨next, first, others⟩ := Option.bind_eq_some_iff.mp loaded
      exact induction (step agrees first) others

theorem Agrees.isMatch (agrees : Agrees self) (first : UInt16) (rest : Text) :
    (matchSegment first rest self.dict).isMatch = true ↔
      self.containsWord (first :: rest) = true := by
  obtain ⟨calls, same, enabled, words⟩ := agrees
  rw [same, isMatch_afterCalls, lastFilled_of_enabled enabled,
    containsWord_iff, words]

theorem Agrees.isPrefix (agrees : Agrees self) (first : UInt16) (rest : Text) :
    (matchSegment first rest self.dict).isPrefix = true ↔
      ∃ word, self.containsWord word = true ∧
        first :: rest <+: word ∧ first :: rest ≠ word := by
  obtain ⟨calls, same, enabled, words⟩ := agrees
  rw [same, isPrefix_afterCalls]
  constructor
  · rintro ⟨call, member, -, isPrefix, differs⟩
    exact ⟨call.word, containsWord_iff.mpr
      ((words _ _).mpr ⟨call, member, rfl⟩), isPrefix, differs⟩
  · rintro ⟨word, contained, isPrefix, differs⟩
    obtain ⟨second, further, rfl⟩ :=
      List.exists_cons_of_ne_nil (isPrefix.ne_nil (List.cons_ne_nil _ _))
    obtain ⟨call, member, same⟩ :=
      (words _ _).mp (containsWord_iff.mp contained)
    rw [← same] at isPrefix differs
    exact ⟨call, member, enabled call member, isPrefix, differs⟩

variable [LinearOrder W]

variable (runtime) in
/-- A dictionary after the main file and some user files. -/
inductive Loaded : WordDictionary W → Prop
  | main {lines : List Text} {self : WordDictionary W}
      (loaded : loadDict runtime lines = some self) : Loaded self
  | user {lines : List Text} {self later : WordDictionary W}
      (before : Loaded self)
      (loaded : loadUserDict runtime self lines = some later) : Loaded later

theorem Loaded.agrees (loaded : Loaded runtime self) : Agrees self := by
  induction loaded with
  | main loaded =>
      obtain ⟨before, lines, rfl⟩ := Option.map_eq_some_iff.mp loaded
      have empty : Agrees (⟨root, [], runtime.zero, runtime.maxValue⟩ :
          WordDictionary W) :=
        ⟨[], rfl, by simp, by simp [keys]⟩
      obtain ⟨calls, same, enabled, words⟩ :=
        agrees_foldlM (fun agrees => agrees.loadLine) empty lines
      refine ⟨calls, same, enabled, ?_⟩
      have keys : (normalize runtime before).keys = before.keys := by
        rw [WordDictionary.keys, normalize, List.map_map]
        rfl
      rwa [keys]
  | user _ loaded agrees =>
      exact agrees_foldlM (fun agrees => agrees.loadUserLine) agrees loaded

/-- The tree answers as the map does: after the main dictionary and any user
dictionaries a text is matched when it is a key, and is a prefix when a longer
key begins with it. -/
theorem matchSegment_dict (loaded : Loaded runtime self) (first : UInt16)
    (rest : Text) :
    ((matchSegment first rest self.dict).isMatch = true ↔
        self.containsWord (first :: rest) = true) ∧
      ((matchSegment first rest self.dict).isPrefix = true ↔
        ∃ word, self.containsWord word = true ∧
          first :: rest <+: word ∧ first :: rest ≠ word) :=
  ⟨loaded.agrees.isMatch first rest, loaded.agrees.isPrefix first rest⟩

end Agreement

/-- A runtime for words in lower case, with numbers in unary. -/
def unary : Runtime Int where
  toLowerCase word := word
  valueOf text := some (text.length : Int)
  add := (· + ·)
  logRatio value _ := value
  zero := 0
  maxValue := 1000

/-- A text of ASCII characters. -/
def ascii (string : String) : Text :=
  string.toList.map fun character => UInt16.ofNat character.toNat

/-- A main dictionary with four words, and a user dictionary with a word of two
parts. -/
theorem exists_loaded :
    ∃ self, Loaded unary self ∧
      self.keys =
        [some (ascii "ab"), some (ascii "cd"), some (ascii "abc"),
          some (ascii "abcde"), some (ascii "d e")] := by
  obtain ⟨self, same, keys⟩ : ∃ self,
      ((loadDict unary [ascii "ab 1", ascii "cd\t11", ascii "abc 1",
        ascii "abcde 111111111"]).bind fun main =>
          loadUserDict unary main [ascii "d e 1"]) = some self ∧
      self.keys =
        [some (ascii "ab"), some (ascii "cd"), some (ascii "abc"),
          some (ascii "abcde"), some (ascii "d e")] :=
    ⟨_, rfl, by decide +kernel⟩
  obtain ⟨main, loaded, added⟩ := Option.bind_eq_some_iff.mp same
  exact ⟨self, .user (.main loaded) added, keys⟩

/-- The words of both files are found, one of them is also the beginning of
others, and what is only a beginning is not found. -/
theorem matchSegment_dict_words :
    ∃ self, Loaded unary self ∧
      (matchSegment 97 [98] self.dict).isMatch = true ∧
      (matchSegment 97 [98] self.dict).isPrefix = true ∧
      (matchSegment 97 [98, 99, 100] self.dict).isMatch = false ∧
      (matchSegment 100 [32, 101] self.dict).isMatch = true := by
  obtain ⟨self, loaded, keys⟩ := exists_loaded
  have known : ∀ word, self.containsWord word = true ↔ some word ∈
      [some (ascii "ab"), some (ascii "cd"), some (ascii "abc"),
        some (ascii "abcde"), some (ascii "d e")] := by
    intro word
    rw [containsWord_iff, keys]
  have found := fun first rest => matchSegment_dict loaded first rest
  refine ⟨self, loaded, ?_, ?_, ?_, ?_⟩
  · exact (found 97 [98]).1.mpr ((known _).mpr (by decide +kernel))
  · exact (found 97 [98]).2.mpr
      ⟨ascii "abc", (known _).mpr (by decide +kernel), by decide +kernel⟩
  · refine Bool.eq_false_iff.mpr fun matched => ?_
    exact absurd ((known _).mp ((found 97 [98, 99, 100]).1.mp matched))
      (by decide +kernel)
  · exact (found 100 [32, 101]).1.mpr ((known _).mpr (by decide +kernel))

end WordDictionary

end WindowSystem.Jieba
