import WindowSystem.Jieba.WordDictionary
import WindowSystem.Library.MissingResult

/-!
# The segmenter

`createDAG` finds the dictionary words that begin at every place of a sentence,
`calc` chooses among them from the end of the sentence on, `sentenceProcess`
reads the words off and hands over to `FinalSeg` what stands between them, and
`process` does this for every run of letters in a paragraph.  The module shows
that the words are found, that the choice is the best one, and that the tokens
cover the paragraph.
-/

namespace WindowSystem.Jieba.JiebaSegmenter

open WindowSystem.Jieba.DictSegment (Hit matchSegment)
open WindowSystem.Jieba.FinalSeg
open WindowSystem.Jieba.WordDictionary (ascii)
open WindowSystem.Library.BestPath
open WindowSystem.Library.MissingResult (mapM_eq_some_iff)

variable {W : Type*}

/-! ## The words of a sentence -/

section DAG

variable (wordDict : WordDictionary W) (sentence : Text)

/-- `trie.match (chars, i, j - i + 1)` -/
def hit (i j : Nat) : Hit :=
  match substring sentence i (j + 1) with
  | [] => ⟨false, false⟩
  | first :: rest => matchSegment first rest wordDict.dict

/-- The end of a word is added to those at `i`. -/
def addEnd (isMatch : Bool) (i j : Nat) (dag : Nat → Option (List Nat)) :
    Nat → Option (List Nat) :=
  if isMatch then Function.update dag i (some ((dag i).getD [] ++ [j]))
  else dag

/-- The `while` loop of `createDAG`. -/
def dagLoop (i j : Nat) (dag : Nat → Option (List Nat)) :
    Nat → Option (List Nat) :=
  if i < sentence.length then
    let hit := hit wordDict sentence i j
    if hit.isPrefix || hit.isMatch then
      let dag := addEnd hit.isMatch i j dag
      if sentence.length ≤ j + 1 then dagLoop (i + 1) (i + 1) dag
      else dagLoop i (j + 1) dag
    else dagLoop (i + 1) (i + 1) dag
  else dag
termination_by (sentence.length - i, sentence.length - j)

/-- `createDAG` -/
def createDAG (i : Nat) : Option (List Nat) :=
  if i < sentence.length then
    some ((dagLoop wordDict sentence 0 0 (fun _ => none) i).getD [i])
  else none

end DAG

/-! ## The best words -/

section Calc

variable [Add W] [LinearOrder W] [Zero W] (wordDict : WordDictionary W)
  (sentence : Text)

/-- The candidates at `i`: the ends of the words there, each with the value
from there on. -/
def candidates (route : Nat → Option (Nat × W)) (i : Nat) (ends : List Nat) :
    Option (List (Nat × W)) :=
  ends.mapM fun x => (route (x + 1)).map fun pair =>
    (x, wordDict.getFreq (substring sentence i (x + 1)) + pair.2)

/-- The loop of `calc` for the places below `i`; a `NullPointerException` is
`none`. -/
def calcLoop (dag : Nat → Option (List Nat)) :
    Nat → (Nat → Option (Nat × W)) → Option (Nat → Option (Nat × W))
  | 0, route => some route
  | i + 1, route =>
      (dag i).bind fun ends =>
        (candidates wordDict sentence route i ends).bind fun candidates =>
          calcLoop dag i (Function.update route i
            (pick (fun kept other => kept < other) candidates))

/-- `calc` -/
def calcRoute (dag : Nat → Option (List Nat)) :
    Option (Nat → Option (Nat × W)) :=
  calcLoop wordDict sentence dag sentence.length
    (Function.update (fun _ => none) sentence.length (some (0, 0)))

end Calc

/-! ## The tokens of a sentence -/

section Sentence

variable [Add W] [LinearOrder W] [Zero W] (wordDict : WordDictionary W)
  (finalSeg : Model W)

/-- What becomes of the characters that were collected. -/
def flush (buf : Text) : List Text :=
  if buf = [] then []
  else if buf.length = 1 then [buf]
  else if wordDict.containsWord buf then [buf]
  else cut finalSeg buf

/-- The `while` loop of `sentenceProcess`, for at most so many rounds. -/
def wordLoop (sentence : Text) (route : Nat → Option (Nat × W)) :
    Nat → Nat → Text → Option (List Text)
  | 0, _, _ => none
  | rounds + 1, x, sb =>
      if x < sentence.length then
        (route x).bind fun pair =>
          let y := pair.1 + 1
          let lWord := substring sentence x y
          if y - x = 1 then wordLoop sentence route rounds y (sb ++ lWord)
          else
            (wordLoop sentence route rounds y []).map fun tokens =>
              flush wordDict finalSeg sb ++ lWord :: tokens
      else some (flush wordDict finalSeg sb)

/-- `sentenceProcess` -/
def sentenceProcess (sentence : Text) : Option (List Text) :=
  (calcRoute wordDict sentence (createDAG wordDict sentence)).bind fun route =>
    wordLoop wordDict finalSeg sentence route (sentence.length + 1) 0 []

end Sentence

/-! ## The tokens of a paragraph -/

/-- `SegMode` -/
inductive SegMode where
  | INDEX
  | SEARCH
deriving DecidableEq

/-- `SegToken` -/
structure SegToken where
  word : Text
  startOffset : Nat
  endOffset : Nat
deriving DecidableEq

section Paragraph

variable [Add W] [LinearOrder W] [Zero W] (wordDict : WordDictionary W)
  (finalSeg : Model W) (mode : SegMode)

/-- The parts of `size` characters of a longer token that are in the
dictionary. -/
def grams (size : Nat) (token : Text) (offset : Nat) : List SegToken :=
  if size < token.length then
    ((List.range (token.length - (size - 1))).filter fun j =>
      wordDict.containsWord (substring token j (j + size))).map fun j =>
        ⟨substring token j (j + size), offset + j, offset + j + size⟩
  else []

/-- The tokens of the words of a sentence that begins at `offset`. -/
def addTokens (offset : Nat) : List Text → List SegToken
  | [] => []
  | token :: rest =>
      (match mode with
        | .SEARCH => []
        | .INDEX => grams wordDict 2 token offset ++
            grams wordDict 3 token offset) ++
        ⟨token, offset, offset + token.length⟩ ::
          addTokens (offset + token.length) rest

/-- The tokens of the characters that were collected. -/
def addSentence (sb : Text) (offset : Nat) : Option (List SegToken) :=
  if sb = [] then some []
  else (sentenceProcess wordDict finalSeg sb).map
    (addTokens wordDict mode offset)

/-- The loop of `process` from the index `i` on. -/
def processLoop : Text → Nat → Text → Nat → Option (List SegToken)
  | [], _, sb, offset => addSentence wordDict finalSeg mode sb offset
  | raw :: rest, i, sb, offset =>
      let ch := regularize raw
      if ccFind ch then processLoop rest (i + 1) (sb ++ [ch]) offset
      else
        (addSentence wordDict finalSeg mode sb offset).bind fun tokens =>
          let offset := if sb = [] then offset else i
          (processLoop rest (i + 1) [] (offset + 1)).map fun further =>
            tokens ++ ⟨[raw], offset, offset + 1⟩ :: further

/-- `process` -/
def process (paragraph : Text) : Option (List SegToken) :=
  processLoop wordDict finalSeg mode paragraph 0 [] 0

end Paragraph

/-! ## Which words are found -/

section Found

variable {wordDict : WordDictionary W} {sentence : Text}

variable (wordDict sentence) in
/-- The ends below `stop` of the dictionary words that begin at `i`. -/
def endsBelow (i stop : Nat) : List Nat :=
  (List.range' i (stop - i)).filter fun j =>
    wordDict.containsWord (substring sentence i (j + 1))

variable (wordDict sentence) in
/-- The ends of the dictionary words that begin at `i`, or else the end of the
character there. -/
def ends (i : Nat) : List Nat :=
  if endsBelow wordDict sentence i sentence.length = [] then [i]
  else endsBelow wordDict sentence i sentence.length

/-- A list as it stands in the map. -/
def listed (list : List Nat) : Option (List Nat) :=
  if list = [] then none else some list

theorem endsBelow_self (i : Nat) : endsBelow wordDict sentence i i = [] := by
  simp [endsBelow]

theorem endsBelow_succ {i j : Nat} (le : i ≤ j) :
    endsBelow wordDict sentence i (j + 1) =
      endsBelow wordDict sentence i j ++
        if wordDict.containsWord (substring sentence i (j + 1)) then [j]
        else [] := by
  have more : j + 1 - i = j - i + 1 := by omega
  have last : i + (j - i) = j := by omega
  rw [endsBelow, endsBelow, more, List.range'_1_concat, List.filter_append,
    last, List.filter_singleton, cond_eq_ite]

/-- The hit says whether the text is a word, and whether a longer word begins
with it. -/
theorem hit_iff (agrees : wordDict.Agrees) {i j : Nat} (le : i ≤ j)
    (inside : j < sentence.length) :
    ((hit wordDict sentence i j).isMatch = true ↔
        wordDict.containsWord (substring sentence i (j + 1)) = true) ∧
      ((hit wordDict sentence i j).isPrefix = true ↔
        ∃ word, wordDict.containsWord word = true ∧
          substring sentence i (j + 1) <+: word ∧
          substring sentence i (j + 1) ≠ word) := by
  have some : substring sentence i (j + 1) ≠ [] :=
    substring_ne_nil (Nat.lt_succ_of_le le) inside
  rw [hit]
  obtain ⟨first, rest, same⟩ := List.exists_cons_of_ne_nil some
  rw [same]
  exact ⟨agrees.isMatch first rest, agrees.isPrefix first rest⟩

theorem substring_prefix {i j stop : Nat} (le : j ≤ stop) :
    substring sentence i j <+: substring sentence i stop := by
  have same : (substring sentence i stop).take (j - i) =
      substring sentence i j := by
    rw [substring, substring, List.take_take,
      Nat.min_eq_left (Nat.sub_le_sub_right le i)]
  rw [← same]
  exact List.take_prefix _ _

/-- Where nothing is hit no longer words begin. -/
theorem endsBelow_of_miss (agrees : wordDict.Agrees) {i j : Nat} (le : i ≤ j)
    (miss : ((hit wordDict sentence i j).isPrefix ||
      (hit wordDict sentence i j).isMatch) = false) {stop : Nat}
    (more : j ≤ stop) (inside : stop ≤ sentence.length) :
    endsBelow wordDict sentence i stop = endsBelow wordDict sentence i j := by
  induction stop, more using Nat.le_induction with
  | base => rfl
  | succ stop more induction =>
      have within : j < sentence.length := by omega
      obtain ⟨isMatch, isPrefix⟩ := hit_iff agrees le within
      rw [Bool.or_eq_false_iff] at miss
      have noWord :
          ¬ wordDict.containsWord (substring sentence i (stop + 1)) = true := by
        intro contained
        rcases Nat.eq_or_lt_of_le more with rfl | less
        · rw [← isMatch, miss.2] at contained
          cases contained
        · have longer : substring sentence i (j + 1) ≠
              substring sentence i (stop + 1) := by
            intro equal
            have lengths := congrArg List.length equal
            simp only [substring, List.length_take, List.length_drop] at lengths
            omega
          have there := isPrefix.mpr
            ⟨_, contained, substring_prefix (Nat.succ_le_succ more), longer⟩
          rw [miss.1] at there
          cases there
      rw [endsBelow_succ (le.trans more), if_neg noWord, List.append_nil,
        induction (Nat.le_of_succ_le inside)]

theorem addEnd_of_ne {isMatch : Bool} {i j k : Nat}
    {dag : Nat → Option (List Nat)} (other : k ≠ i) :
    addEnd isMatch i j dag k = dag k := by
  rw [addEnd]
  split_ifs
  · exact Function.update_of_ne other _ _
  · rfl

theorem addEnd_self (agrees : wordDict.Agrees) {i j : Nat}
    {dag : Nat → Option (List Nat)} (le : i ≤ j)
    (inside : j < sentence.length)
    (here : dag i = listed (endsBelow wordDict sentence i j)) :
    addEnd (hit wordDict sentence i j).isMatch i j dag i =
      listed (endsBelow wordDict sentence i (j + 1)) := by
  rw [endsBelow_succ le, addEnd, here]
  simp only [(hit_iff agrees le inside).1]
  split_ifs
  · rw [Function.update_self, listed, listed]
    split_ifs with empty <;> simp_all
  · rw [List.append_nil, here]

/-- With the words at `i` the map is the one from `i` on. -/
theorem listed_from {i : Nat} {dag added : Nat → Option (List Nat)}
    (more : i < sentence.length)
    (here : added i = listed (endsBelow wordDict sentence i sentence.length))
    (others : ∀ k, k ≠ i → added k = dag k) (k : Nat) :
    (if k < i + 1 then added k
      else if k < sentence.length then
        listed (endsBelow wordDict sentence k sentence.length)
      else added k) =
      if k < i then dag k
      else if k < sentence.length then
        listed (endsBelow wordDict sentence k sentence.length)
      else dag k := by
  rcases Nat.lt_trichotomy k i with before | rfl | behind
  · rw [if_pos (Nat.lt_succ_of_lt before), if_pos before,
      others k (Nat.ne_of_lt before)]
  · rw [if_pos (Nat.lt_succ_self k), if_neg (Nat.lt_irrefl k), if_pos more,
      here]
  · have notBefore : ¬ k < i := Nat.not_lt_of_lt behind
    have notHere : ¬ k < i + 1 := Nat.not_lt_of_le behind
    rw [if_neg notHere, if_neg notBefore, others k (Nat.ne_of_gt behind)]

/-- The loop lists the words at every place from `i` on. -/
theorem dagLoop_eq (agrees : wordDict.Agrees) {i j : Nat}
    {dag : Nat → Option (List Nat)} (le : i ≤ j)
    (inside : i < sentence.length → j < sentence.length)
    (here : dag i = listed (endsBelow wordDict sentence i j))
    (later : ∀ k, i < k → dag k = none) (k : Nat) :
    dagLoop wordDict sentence i j dag k =
      if k < i then dag k
      else if k < sentence.length then
        listed (endsBelow wordDict sentence k sentence.length)
      else dag k := by
  have nothing : ∀ i, listed (endsBelow wordDict sentence i i) = none := by
    intro i
    rw [endsBelow_self]
    rfl
  induction i, j, dag using dagLoop.induct wordDict sentence with
  | case1 i j dag more hit isHit added last induction =>
      have whole : j + 1 = sentence.length :=
        Nat.le_antisymm (inside more) last
      have self := addEnd_self agrees le (inside more) here
      have others : ∀ k, k ≠ i → added k = dag k := fun k => addEnd_of_ne
      rw [dagLoop, if_pos more]
      simp only
      rw [if_pos isHit, if_pos last, induction le_rfl id
        (by rw [nothing, others _ (by omega), later _ (by omega)])
        (fun k less => by rw [others _ (by omega), later _ (by omega)])]
      rw [whole] at self
      exact listed_from more self others k
  | case2 i j dag more hit isHit added notLast induction =>
      have others : ∀ k, k ≠ i → added k = dag k := fun k => addEnd_of_ne
      rw [dagLoop, if_pos more]
      simp only
      rw [if_pos isHit, if_neg notLast, induction (Nat.le_succ_of_le le)
        (fun _ => Nat.lt_of_not_le notLast)
        (addEnd_self agrees le (inside more) here)
        (fun k less => by rw [others _ (by omega), later _ less])]
      split_ifs with before within
      · exact others k (Nat.ne_of_lt before)
      · rfl
      · exact others k (by omega)
  | case3 i j dag more hit miss induction =>
      have missed := Bool.eq_false_of_not_eq_true miss
      rw [dagLoop, if_pos more]
      simp only
      rw [if_neg miss, induction le_rfl id
        (by rw [nothing, later _ (Nat.lt_succ_self i)])
        (fun k less => later k (by omega))]
      refine listed_from more ?_ (fun _ _ => rfl) k
      rw [here, endsBelow_of_miss agrees le missed (inside more).le le_rfl]
  | case4 i j dag done =>
      rw [dagLoop, if_neg done]
      split_ifs
      · rfl
      · omega
      · rfl

/-- At every place of a sentence the map lists the ends of all dictionary words
there in their order, or the character alone. -/
theorem createDAG_eq (agrees : wordDict.Agrees) (i : Nat) :
    createDAG wordDict sentence i =
      if i < sentence.length then some (ends wordDict sentence i)
      else none := by
  have start := @dagLoop_eq W wordDict sentence agrees 0 0 (fun _ => none)
    le_rfl id (by rw [endsBelow_self]; rfl) (fun _ _ => rfl) i
  rw [createDAG, start, if_neg (Nat.not_lt_zero i)]
  split_ifs with inside
  · rw [ends, listed]
    split_ifs <;> rfl
  · rfl

theorem mem_ends {i x : Nat} (inside : i < sentence.length)
    (member : x ∈ ends wordDict sentence i) : i ≤ x ∧ x < sentence.length := by
  rw [ends] at member
  split_ifs at member
  · rw [List.mem_singleton.mp member]
    exact ⟨le_rfl, inside⟩
  · have place := List.mem_range'_1.mp (List.mem_filter.mp member).1
    omega

theorem ends_ne_nil (i : Nat) : ends wordDict sentence i ≠ [] := by
  rw [ends]
  split_ifs with empty
  · exact List.cons_ne_nil _ _
  · exact empty

end Found

/-! ## The best way through a sentence -/

section Route

variable [Zero W] {wordDict : WordDictionary W} {sentence : Text}
  {route : Nat → Option (Nat × W)}

/-- The value of a place. -/
def valueAt (route : Nat → Option (Nat × W)) (i : Nat) : W :=
  ((route i).map Prod.snd).getD 0

theorem valueAt_update {i k : Nat} {pair : Option (Nat × W)} (other : k ≠ i) :
    valueAt (Function.update route i pair) k = valueAt route k := by
  rw [valueAt, Function.update_of_ne other, valueAt]

theorem valueAt_update_self {i : Nat} {pair : Nat × W} :
    valueAt (Function.update route i (some pair)) i = pair.2 := by
  rw [valueAt, Function.update_self]
  rfl

variable [Add W] [LinearOrder W]

variable (wordDict sentence) in
/-- What a word from `i` to the place `j` behind it adds. -/
def gain (i j : Nat) (before : W) : W :=
  wordDict.getFreq (substring sentence i j) + before

variable (wordDict sentence) in
/-- The places behind the words at a place. -/
def successors (i : Nat) : List Nat :=
  if i < sentence.length then (ends wordDict sentence i).map (· + 1) else []

variable (sentence) in
/-- The place behind the word that was chosen. -/
def choice (route : Nat → Option (Nat × W)) (i : Nat) : Option Nat :=
  if i < sentence.length then (route i).map fun pair => pair.1 + 1 else none

variable (wordDict sentence) in
/-- From `i` on the map has the best values. -/
structure BestFrom (route : Nat → Option (Nat × W)) (i : Nat) : Prop where
  last : route sentence.length = some (0, 0)
  best : ∀ k, i ≤ k → k < sentence.length →
    ∃ x ∈ ends wordDict sentence k,
      route k =
        some (x, gain wordDict sentence k (x + 1) (valueAt route (x + 1))) ∧
      ∀ other ∈ ends wordDict sentence k,
        gain wordDict sentence k (other + 1) (valueAt route (other + 1)) ≤
          valueAt route k

theorem BestFrom.isSome {i : Nat} (best : BestFrom wordDict sentence route i)
    {k : Nat} (from' : i ≤ k) (inside : k ≤ sentence.length) :
    route k = some (((route k).map Prod.fst).getD 0, valueAt route k) := by
  rcases Nat.eq_or_lt_of_le inside with rfl | less
  · rw [valueAt, best.last]
    rfl
  · obtain ⟨x, -, same, -⟩ := best.best k from' less
    rw [valueAt, same]
    rfl

theorem candidates_eq {i : Nat} (inside : i < sentence.length)
    (best : BestFrom wordDict sentence route (i + 1)) :
    candidates wordDict sentence route i (ends wordDict sentence i) =
      some ((ends wordDict sentence i).map fun x =>
        (x, gain wordDict sentence i (x + 1) (valueAt route (x + 1)))) := by
  rw [candidates, mapM_eq_some_iff, List.map_map]
  refine List.map_congr_left fun x member => ?_
  obtain ⟨le, within⟩ := mem_ends inside member
  rw [best.isSome (Nat.succ_le_succ le) within]
  rfl

/-- One round of the loop. -/
theorem BestFrom.step {i : Nat} (inside : i < sentence.length)
    (best : BestFrom wordDict sentence route (i + 1)) :
    ∃ found, candidates wordDict sentence route i
        (ends wordDict sentence i) = some found ∧
      BestFrom wordDict sentence (Function.update route i
        (pick (fun kept other => kept < other) found)) i := by
  refine ⟨_, candidates_eq inside best, ?_⟩
  have nonempty : ((ends wordDict sentence i).map fun x =>
      (x, gain wordDict sentence i (x + 1) (valueAt route (x + 1)))) ≠ [] := by
    rw [Ne, List.map_eq_nil_iff]
    exact ends_ne_nil i
  obtain ⟨pair, member, picked, top⟩ := pick_best improves_lt nonempty
  obtain ⟨x, chosen, rfl⟩ := List.mem_map.mp member
  rw [picked]
  have value : ∀ k x, i ≤ k → k < sentence.length →
      x ∈ ends wordDict sentence k → ∀ pair,
      valueAt (Function.update route i pair) (x + 1) =
        valueAt route (x + 1) := by
    intro k x le less member pair
    have behind := (mem_ends less member).1
    exact valueAt_update (by omega)
  refine ⟨?_, ?_⟩
  · rw [Function.update_of_ne (Nat.ne_of_gt inside)]
    exact best.last
  · intro k le less
    rcases Nat.eq_or_lt_of_le le with rfl | behind
    · refine ⟨x, chosen, ?_, ?_⟩
      · rw [Function.update_self, value i x le_rfl less chosen]
      · intro other there
        rw [value i other le_rfl less there, valueAt_update_self]
        exact top _ (List.mem_map_of_mem there)
    · obtain ⟨y, there, same, most⟩ := best.best k behind less
      refine ⟨y, there, ?_, ?_⟩
      · rw [Function.update_of_ne (Nat.ne_of_gt behind), same,
          value k y le less there]
      · intro other inside
        rw [value k other le less inside,
          valueAt_update (Nat.ne_of_gt behind)]
        exact most other inside

/-- The loop ends with the best values everywhere. -/
theorem BestFrom.calcLoop {dag : Nat → Option (List Nat)}
    (lists : ∀ k, k < sentence.length → dag k = some (ends wordDict sentence k))
    {i : Nat} (inside : i ≤ sentence.length)
    (best : BestFrom wordDict sentence route i) :
    ∃ later, JiebaSegmenter.calcLoop wordDict sentence dag i route =
        some later ∧ BestFrom wordDict sentence later 0 := by
  induction i generalizing route with
  | zero => exact ⟨route, rfl, best⟩
  | succ i induction =>
      obtain ⟨found, isFound, next⟩ := best.step inside
      obtain ⟨later, looped, all⟩ :=
        induction (Nat.le_of_succ_le inside) next
      refine ⟨later, ?_, all⟩
      rw [JiebaSegmenter.calcLoop, lists i inside, Option.bind_some, isFound,
        Option.bind_some, looped]

theorem calcRoute_eq (agrees : wordDict.Agrees) (sentence : Text) :
    ∃ route, calcRoute wordDict sentence (createDAG wordDict sentence) =
        some route ∧ BestFrom wordDict sentence route 0 := by
  have start : BestFrom wordDict sentence
      (Function.update (fun _ => none) sentence.length (some (0, 0)))
      sentence.length :=
    ⟨Function.update_self _ _ _, fun k le less => by omega⟩
  refine start.calcLoop (fun k less => ?_) le_rfl
  rw [createDAG_eq agrees, if_pos less]

/-- The map solves the search for the best way. -/
theorem BestFrom.solved (best : BestFrom wordDict sentence route 0) :
    Solved (successors wordDict sentence) (fun _ => 0)
      (gain wordDict sentence) (· ≤ sentence.length) (valueAt route)
      (choice sentence route) where
  closed := by
    intro node next _ member
    rw [successors] at member
    split_ifs at member with less
    · obtain ⟨x, there, rfl⟩ := List.mem_map.mp member
      exact (mem_ends less there).2
    · cases member
  last := by
    intro node le nothing
    rw [successors] at nothing
    split_ifs at nothing with less
    · exact absurd (List.map_eq_nil_iff.mp nothing) (ends_ne_nil node)
    · have same : node = sentence.length :=
        Nat.le_antisymm le (Nat.le_of_not_lt less)
      rw [choice, if_neg less, same, valueAt, best.last]
      exact ⟨rfl, rfl⟩
  step := by
    intro node le nonempty
    rw [successors] at nonempty ⊢
    split_ifs at nonempty ⊢ with less
    · obtain ⟨x, there, same, most⟩ := best.best node (Nat.zero_le _) less
      refine ⟨x + 1, List.mem_map_of_mem there, ?_, ?_, ?_⟩
      · rw [choice, if_pos less, same]
        rfl
      · rw [valueAt, same]
        rfl
      · intro other member
        obtain ⟨y, inside, rfl⟩ := List.mem_map.mp member
        exact most y inside
    · exact absurd rfl nonempty

/-- The choices lead to the end of the sentence. -/
theorem BestFrom.followed (best : BestFrom wordDict sentence route 0) {i : Nat}
    (inside : i ≤ sentence.length) :
    ∃ cuts, Followed (choice sentence route) i cuts := by
  induction left : sentence.length - i using Nat.strongRecOn generalizing i with
  | ind size induction =>
      by_cases less : i < sentence.length
      · obtain ⟨x, there, same, -⟩ := best.best i (Nat.zero_le _) less
        obtain ⟨le, within⟩ := mem_ends less there
        obtain ⟨cuts, behind⟩ :=
          induction (sentence.length - (x + 1)) (by omega) within rfl
        refine ⟨(x + 1) :: cuts, ?_, behind⟩
        rw [choice, if_pos less, same]
        rfl
      · refine ⟨[], ?_⟩
        rw [Followed, choice, if_neg less]

/-- The words that are chosen for a sentence lead to its end, and no other way
along dictionary words is worth more. -/
theorem calcRoute_best [AddLeftMono W] {runtime : Runtime W}
    (loaded : WordDictionary.Loaded runtime wordDict) (sentence : Text) :
    ∃ route cuts,
      calcRoute wordDict sentence (createDAG wordDict sentence) =
        some route ∧
      Followed (choice sentence route) 0 cuts ∧
      Chain (successors wordDict sentence) 0 cuts ∧
      ∀ others, Chain (successors wordDict sentence) 0 others →
        worth (fun _ => 0) (gain wordDict sentence) 0 others ≤
          worth (fun _ => 0) (gain wordDict sentence) 0 cuts := by
  obtain ⟨route, same, best⟩ := calcRoute_eq loaded.agrees sentence
  obtain ⟨cuts, followed⟩ := best.followed (Nat.zero_le _)
  obtain ⟨chain, value⟩ := best.solved.worth_followed (Nat.zero_le _) followed
  refine ⟨route, cuts, same, followed, chain, ?_⟩
  intro others way
  rw [value]
  refine best.solved.worth_le ?_ (Nat.zero_le _) way
  exact fun node next left right le => add_le_add_right le _

end Route

/-- A sentence with words that overlap. -/
theorem calcRoute_best_words :
    ∃ wordDict, WordDictionary.Loaded WordDictionary.unary wordDict ∧
      ∃ route cuts,
        calcRoute wordDict (ascii "abcdexcd")
          (createDAG wordDict (ascii "abcdexcd")) = some route ∧
        Followed (choice (ascii "abcdexcd") route) 0 cuts ∧
        Chain (successors wordDict (ascii "abcdexcd")) 0 cuts ∧
        ∀ others, Chain (successors wordDict (ascii "abcdexcd")) 0 others →
          worth (fun _ => 0) (gain wordDict (ascii "abcdexcd")) 0 others ≤
            worth (fun _ => 0) (gain wordDict (ascii "abcdexcd")) 0
              cuts := by
  obtain ⟨wordDict, loaded, _⟩ := WordDictionary.exists_loaded
  exact ⟨wordDict, loaded, calcRoute_best loaded (ascii "abcdexcd")⟩

/-! ## The tokens make up the sentence -/

section Tokens

variable [Add W] [LinearOrder W] [Zero W] {wordDict : WordDictionary W}
  (finalSeg : Model W) {sentence : Text} {route : Nat → Option (Nat × W)}

omit [Zero W] in
theorem tiles_flush (buf : Text) : Tiles (flush wordDict finalSeg buf) buf := by
  rw [flush]
  split_ifs with empty
  · rw [empty]
    exact tiles_nil
  · exact tiles_singleton empty
  · exact tiles_singleton empty
  · exact tiles_cut finalSeg buf

/-- The loop adds what was collected and what is left of the sentence. -/
theorem tiles_wordLoop (best : BestFrom wordDict sentence route 0)
    (rounds x : Nat) (sb : Text) (enough : sentence.length < x + rounds)
    (inside : x ≤ sentence.length) :
    ∃ tokens, wordLoop wordDict finalSeg sentence route rounds x sb =
        some tokens ∧ Tiles tokens (sb ++ sentence.drop x) := by
  induction rounds generalizing x sb with
  | zero => omega
  | succ rounds induction =>
      rw [wordLoop]
      by_cases less : x < sentence.length
      · obtain ⟨stop, member, same, -⟩ := best.best x (Nat.zero_le _) less
        obtain ⟨le, within⟩ := mem_ends less member
        have parts : substring sentence x (stop + 1) ++
            sentence.drop (stop + 1) = sentence.drop x :=
          substring_drop (Nat.le_succ_of_le le)
        have word : substring sentence x (stop + 1) ≠ [] :=
          substring_ne_nil (Nat.lt_succ_of_le le) within
        rw [if_pos less, same, Option.bind_some]
        simp only
        split_ifs with single
        · obtain ⟨tokens, looped, tiles⟩ :=
            induction (stop + 1) (sb ++ substring sentence x (stop + 1))
              (by omega) within
          rw [List.append_assoc, parts] at tiles
          exact ⟨tokens, looped, tiles⟩
        · obtain ⟨tokens, looped, tiles⟩ :=
            induction (stop + 1) [] (by omega) within
          rw [looped]
          refine ⟨_, rfl, ?_⟩
          rw [← parts]
          exact (tiles_flush finalSeg sb).append
            ((tiles_singleton word).append tiles)
      · rw [if_neg less, List.drop_of_length_le (Nat.le_of_not_lt less),
          List.append_nil]
        exact ⟨_, rfl, tiles_flush finalSeg sb⟩

/-- The tokens of a sentence are not empty and make it up. -/
theorem tiles_sentenceProcess (agrees : wordDict.Agrees) (sentence : Text) :
    ∃ tokens, sentenceProcess wordDict finalSeg sentence = some tokens ∧
      Tiles tokens sentence := by
  obtain ⟨route, same, best⟩ := calcRoute_eq agrees sentence
  obtain ⟨tokens, looped, tiles⟩ :=
    tiles_wordLoop finalSeg best (sentence.length + 1) 0 [] (by omega)
      (Nat.zero_le _)
  refine ⟨tokens, ?_, tiles⟩
  rw [sentenceProcess, same, Option.bind_some, looped]

end Tokens

/-! ## The tokens cover the paragraph -/

/-- A token says what stands at its place. -/
structure Reads (text : Text) (token : SegToken) : Prop where
  word : token.word = substring text token.startOffset token.endOffset
  less : token.startOffset < token.endOffset
  inside : token.endOffset ≤ text.length

/-- The tokens cover a text from one place to another. -/
def Covers (text : Text) : Nat → List SegToken → Nat → Prop
  | start, [], stop => start = stop
  | start, token :: rest, stop =>
      token.startOffset = start ∧ Reads text token ∧
        Covers text token.endOffset rest stop

theorem Covers.append {text : Text} {start middle stop : Nat}
    {front behind : List SegToken} (first : Covers text start front middle)
    (second : Covers text middle behind stop) :
    Covers text start (front ++ behind) stop := by
  induction front generalizing start with
  | nil =>
      cases first
      exact second
  | cons token front induction =>
      obtain ⟨here, reads, further⟩ := first
      exact ⟨here, reads, induction further⟩

/-- A dictionary word of two or three characters at its place. -/
structure Gram (wordDict : WordDictionary W) (text : Text) (token : SegToken) :
    Prop where
  reads : Reads text token
  contained : wordDict.containsWord token.word = true
  size : token.word.length = 2 ∨ token.word.length = 3

/-- The words of two and then of three characters that stand inside of a longer
token, each from the left to the right. -/
structure Shorter (wordDict : WordDictionary W) (text : Text) (token : SegToken)
    (parts : List SegToken) : Prop where
  mem : ∀ gram, gram ∈ parts ↔ Gram wordDict text gram ∧
    token.startOffset ≤ gram.startOffset ∧
    gram.endOffset ≤ token.endOffset ∧
    gram.word.length < token.word.length
  ordered : parts.Pairwise fun one other =>
    one.word.length < other.word.length ∨
      one.word.length = other.word.length ∧
        one.startOffset < other.startOffset

/-- The parts of a token that index mode puts in front of it. -/
def parts (wordDict : WordDictionary W) (token : SegToken) : List SegToken :=
  grams wordDict 2 token.word token.startOffset ++
    grams wordDict 3 token.word token.startOffset

/-- The tokens of the two modes for a part of a text: those of the one cover
it, and those of the other are the same, each behind its parts. -/
structure Modes (wordDict : WordDictionary W) (text : Text) (start stop : Nat)
    (plain tokens : List SegToken) : Prop where
  covers : Covers text start plain stop
  index : tokens = plain.flatMap fun token => parts wordDict token ++ [token]

section Modes

variable {wordDict : WordDictionary W} {text : Text} {start middle stop : Nat}

theorem modes_nil : Modes wordDict text start start [] [] :=
  ⟨rfl, rfl⟩

theorem Modes.append {front behind more further : List SegToken}
    (first : Modes wordDict text start middle front more)
    (second : Modes wordDict text middle stop behind further) :
    Modes wordDict text start stop (front ++ behind) (more ++ further) where
  covers := first.covers.append second.covers
  index := by rw [List.flatMap_append, ← first.index, ← second.index]

/-- One token behind its parts. -/
theorem modes_token (token : SegToken) (here : token.startOffset = start)
    (reads : Reads text token) :
    Modes wordDict text start token.endOffset [token]
      (parts wordDict token ++ [token]) where
  covers := ⟨here, reads, rfl⟩
  index := (List.flatMap_singleton _ _).symm

theorem substring_append {front behind : Text}
    (place : substring text start (start + (front ++ behind).length) =
      front ++ behind) :
    substring text start (start + front.length) = front ∧
      substring text (start + front.length)
        (start + front.length + behind.length) = behind := by
  rw [substring, Nat.add_sub_cancel_left, List.length_append] at place
  rw [substring, substring, Nat.add_sub_cancel_left, Nat.add_sub_cancel_left]
  constructor
  · have taken := congrArg (List.take front.length) place
    rwa [List.take_take, Nat.min_eq_left (Nat.le_add_right _ _),
      List.take_left] at taken
  · have dropped := congrArg (List.drop front.length) place
    rwa [List.drop_take, Nat.add_sub_cancel_left, List.drop_drop,
      List.drop_left] at dropped

theorem substring_substring {j size : Nat} (within : start + j + size ≤ stop) :
    substring (substring text start stop) j (j + size) =
      substring text (start + j) (start + j + size) := by
  simp only [substring, Nat.add_sub_cancel_left]
  rw [List.drop_take, List.take_take, List.drop_drop,
    Nat.min_eq_left (by omega)]

theorem Reads.length {token : SegToken} (reads : Reads text token) :
    token.startOffset + token.word.length = token.endOffset := by
  have less := reads.less
  have inside := reads.inside
  rw [reads.word, substring, List.length_take, List.length_drop]
  omega

/-- The short words inside of a token stand at their places. -/
theorem mem_grams_iff {token gram : SegToken} {size : Nat}
    (reads : Reads text token) (two : size = 2 ∨ size = 3) :
    gram ∈ grams wordDict size token.word token.startOffset ↔
      Gram wordDict text gram ∧ token.startOffset ≤ gram.startOffset ∧
        gram.endOffset ≤ token.endOffset ∧ gram.word.length = size ∧
        size < token.word.length := by
  have ends := reads.length
  have inside := reads.inside
  have place : ∀ j, j + size ≤ token.word.length →
      substring token.word j (j + size) =
        substring text (token.startOffset + j)
          (token.startOffset + j + size) := by
    intro j within
    rw [reads.word]
    exact substring_substring (by omega)
  rw [grams]
  constructor
  · intro member
    split_ifs at member with longer
    · obtain ⟨j, chosen, rfl⟩ := List.mem_map.mp member
      obtain ⟨range, contained⟩ := List.mem_filter.mp chosen
      have before := List.mem_range.mp range
      have within : j + size ≤ token.word.length := by omega
      have length : (substring token.word j (j + size)).length = size := by
        rw [substring, List.length_take, List.length_drop]
        omega
      refine ⟨⟨⟨place j within, ?_, ?_⟩, contained, ?_⟩, ?_, ?_, length,
        longer⟩
      · exact Nat.lt_add_of_pos_right (by omega)
      · change token.startOffset + j + size ≤ text.length
        omega
      · rwa [length]
      · exact Nat.le_add_right _ _
      · change token.startOffset + j + size ≤ token.endOffset
        omega
    · cases member
  · rintro ⟨isGram, from', upTo, length, longer⟩
    obtain ⟨word, first, last⟩ := gram
    have stop : first + word.length = last := isGram.reads.length
    dsimp only at from' upTo length
    have word' : substring token.word (first - token.startOffset)
        (first - token.startOffset + size) = word := by
      rw [place _ (by omega), Nat.add_sub_cancel' from', ← length, stop]
      exact isGram.reads.word.symm
    rw [if_pos longer, List.mem_map]
    refine ⟨first - token.startOffset, List.mem_filter.mpr
      ⟨List.mem_range.mpr (by omega), ?_⟩, ?_⟩
    · rw [word']
      exact isGram.contained
    · rw [word', Nat.add_sub_cancel' from', ← length, stop]

theorem pairwise_grams {token : SegToken} {size : Nat} :
    (grams wordDict size token.word token.startOffset).Pairwise
      fun one other => one.startOffset < other.startOffset := by
  rw [grams]
  split_ifs
  · refine List.pairwise_map.mpr (List.Pairwise.filter _ ?_)
    exact List.pairwise_lt_range.imp fun less =>
      Nat.add_lt_add_left less token.startOffset
  · exact List.Pairwise.nil

/-- What index mode puts in front of a token. -/
theorem shorter_parts {token : SegToken} (reads : Reads text token) :
    Shorter wordDict text token (parts wordDict token) := by
  have two := fun gram =>
    @mem_grams_iff W wordDict text token gram 2 reads (.inl rfl)
  have three := fun gram =>
    @mem_grams_iff W wordDict text token gram 3 reads (.inr rfl)
  constructor
  case mem =>
    intro gram
    rw [parts, List.mem_append, two, three]
    constructor
    · rintro (⟨isGram, from', upTo, length, longer⟩ |
        ⟨isGram, from', upTo, length, longer⟩) <;>
      exact ⟨isGram, from', upTo, length ▸ longer⟩
    · rintro ⟨isGram, from', upTo, longer⟩
      rcases isGram.size with length | length
      · exact .inl ⟨isGram, from', upTo, length, length ▸ longer⟩
      · exact .inr ⟨isGram, from', upTo, length, length ▸ longer⟩
  case ordered =>
    refine List.pairwise_append.mpr ⟨?_, ?_, ?_⟩
    · refine pairwise_grams.imp_of_mem fun one other before => .inr ⟨?_, before⟩
      rw [((two _).mp one).2.2.2.1, ((two _).mp other).2.2.2.1]
    · refine pairwise_grams.imp_of_mem fun one other before => .inr ⟨?_, before⟩
      rw [((three _).mp one).2.2.2.1, ((three _).mp other).2.2.2.1]
    · intro one first other second
      left
      rw [((two _).mp first).2.2.2.1, ((three _).mp second).2.2.2.1]
      exact Nat.lt_succ_self 2

theorem modes_addTokens {words : List Text} {sb : Text} {offset : Nat}
    (tiles : Tiles words sb)
    (place : substring text offset (offset + sb.length) = sb)
    (inside : offset + sb.length ≤ text.length) :
    Modes wordDict text offset (offset + sb.length)
      (addTokens wordDict .SEARCH offset words)
      (addTokens wordDict .INDEX offset words) := by
  induction words generalizing sb offset with
  | nil =>
      cases tiles.flatten
      exact modes_nil
  | cons token words induction =>
      obtain ⟨some', others⟩ := List.forall_mem_cons.mp tiles.nonempty
      have whole : token ++ words.flatten = sb := tiles.flatten
      subst whole
      obtain ⟨here, behind⟩ := substring_append place
      rw [List.length_append] at inside ⊢
      have later := induction ⟨rfl, others⟩ behind (by omega)
      have positive := List.length_pos_iff.mpr some'
      have reads : Reads text ⟨token, offset, offset + token.length⟩ :=
        ⟨here.symm, Nat.lt_add_of_pos_right positive, by
          change offset + token.length ≤ text.length
          omega⟩
      have first := @modes_token W wordDict text offset
        ⟨token, offset, offset + token.length⟩ rfl reads
      have both := first.append later
      rw [List.append_assoc] at both
      rw [← Nat.add_assoc]
      exact both

end Modes

section Process

variable [Add W] [LinearOrder W] [Zero W] {wordDict : WordDictionary W}
  (finalSeg : Model W)

/-- A character as it stands in the tokens. -/
def seen (raw : UInt16) : UInt16 :=
  if ccFind (regularize raw) then regularize raw else raw

theorem modes_addSentence (agrees : wordDict.Agrees) {text : Text}
    (sb : Text) (offset : Nat)
    (place : substring text offset (offset + sb.length) = sb)
    (inside : offset + sb.length ≤ text.length) :
    ∃ plain tokens,
      addSentence wordDict finalSeg .SEARCH sb offset = some plain ∧
      addSentence wordDict finalSeg .INDEX sb offset = some tokens ∧
      Modes wordDict text offset (offset + sb.length) plain tokens := by
  by_cases empty : sb = []
  · subst empty
    refine ⟨[], [], ?_, ?_, modes_nil⟩
    · rw [addSentence, if_pos rfl]
    · rw [addSentence, if_pos rfl]
  · obtain ⟨words, processed, tiles⟩ :=
      tiles_sentenceProcess finalSeg agrees sb
    refine ⟨_, _, ?_, ?_, modes_addTokens tiles place inside⟩
    · rw [addSentence, if_neg empty, processed]
      rfl
    · rw [addSentence, if_neg empty, processed]
      rfl

/-- One more character of a text. -/
theorem substring_succ {text rest : Text} {ch : UInt16} {offset i : Nat}
    (le : offset ≤ i) (here : text.drop i = ch :: rest) :
    substring text offset (i + 1) = substring text offset i ++ [ch] := by
  have more : i + 1 - offset = i - offset + 1 := by omega
  have place : offset + (i - offset) = i := by omega
  rw [substring, substring, more, List.take_add, List.drop_drop, place, here]
  rfl

theorem modes_processLoop (agrees : wordDict.Agrees) {text : Text}
    (rest sb : Text) (i offset : Nat) (behind : text.drop i = rest.map seen)
    (inside : i ≤ text.length) (ends : offset + sb.length = i)
    (place : substring text offset i = sb) :
    ∃ plain tokens,
      processLoop wordDict finalSeg .SEARCH rest i sb offset = some plain ∧
      processLoop wordDict finalSeg .INDEX rest i sb offset = some tokens ∧
      Modes wordDict text offset text.length plain tokens := by
  induction rest generalizing sb i offset with
  | nil =>
      have last : i = text.length :=
        Nat.le_antisymm inside (List.drop_eq_nil_iff.mp behind)
      have all := modes_addSentence finalSeg agrees sb offset
        (by rw [ends]; exact place) (by rw [ends]; exact inside)
      rw [ends, last] at all
      exact all
  | cons raw rest induction =>
      have more : i < text.length := by
        by_contra done
        rw [List.drop_of_length_le (Nat.le_of_not_lt done)] at behind
        cases behind
      have next : text.drop (i + 1) = rest.map seen := by
        rw [← List.tail_drop, behind]
        rfl
      rw [processLoop, processLoop]
      by_cases letter : ccFind (regularize raw) = true
      · simp only [if_pos letter]
        refine induction (sb ++ [regularize raw]) (i + 1) offset next more ?_ ?_
        · rw [List.length_append, List.length_singleton, ← Nat.add_assoc, ends]
        · rw [substring_succ (by omega) behind, place, seen, if_pos letter]
      · obtain ⟨plain, tokens, search, index, modes⟩ :=
          modes_addSentence finalSeg agrees sb offset
            (by rw [ends]; exact place) (by rw [ends]; exact inside)
        have start : (if sb = [] then offset else i) = i := by
          by_cases empty : sb = []
          · rw [if_pos empty, ← ends, empty]
            rfl
          · rw [if_neg empty]
        have single : substring text i (i + 1) = [raw] := by
          rw [substring_succ le_rfl behind, seen, if_neg letter, substring,
            Nat.sub_self]
          rfl
        obtain ⟨later, further, search', index', modes'⟩ :=
          induction [] (i + 1) (i + 1) next more rfl (by
            rw [substring, Nat.sub_self]
            rfl)
        simp only [if_neg letter, start]
        rw [search, index, Option.bind_some, Option.bind_some, search', index']
        refine ⟨_, _, rfl, rfl, ?_⟩
        rw [ends] at modes
        have token : Modes wordDict text i (i + 1) [⟨[raw], i, i + 1⟩]
            [⟨[raw], i, i + 1⟩] :=
          modes_token ⟨[raw], i, i + 1⟩ rfl
            ⟨single.symm, Nat.lt_succ_self i, more⟩
        exact modes.append (token.append modes')

theorem Covers.reads {text : Text} {start stop : Nat} {tokens : List SegToken}
    (covers : Covers text start tokens stop) :
    ∀ token ∈ tokens, Reads text token := by
  induction tokens generalizing start with
  | nil => exact List.forall_mem_nil _
  | cons token tokens induction =>
      exact List.forall_mem_cons.mpr
        ⟨covers.2.1, induction covers.2.2⟩

/-- The tokens of a paragraph in search mode cover it from its beginning to its
end, in the spelling of the dictionary.  Those in index mode are the same, each
behind the dictionary words of two and three characters that stand inside of
it. -/
theorem process_modes {runtime : Runtime W}
    (loaded : WordDictionary.Loaded runtime wordDict) (finalSeg : Model W)
    (paragraph : Text) :
    ∃ plain tokens, ∃ parts : SegToken → List SegToken,
      process wordDict finalSeg .SEARCH paragraph = some plain ∧
      process wordDict finalSeg .INDEX paragraph = some tokens ∧
      Covers (paragraph.map seen) 0 plain paragraph.length ∧
      tokens = plain.flatMap (fun token => parts token ++ [token]) ∧
      ∀ token ∈ plain,
        Shorter wordDict (paragraph.map seen) token (parts token) := by
  obtain ⟨plain, tokens, search, index, modes⟩ :=
    @modes_processLoop W _ _ _ wordDict finalSeg loaded.agrees
      (paragraph.map seen) paragraph [] 0 0 rfl (Nat.zero_le _) rfl rfl
  have covers := modes.covers
  rw [List.length_map] at covers
  exact ⟨plain, tokens, parts wordDict, search, index, covers, modes.index,
    fun token member => shorter_parts (covers.reads token member)⟩

end Process

/-- A paragraph with words that have others inside of them, a capital and a
blank. -/
theorem process_modes_words :
    ∃ wordDict, WordDictionary.Loaded WordDictionary.unary wordDict ∧
      ∃ plain tokens, ∃ parts : SegToken → List SegToken,
        process wordDict thousandths .SEARCH (ascii "Abcdexcd cd") =
          some plain ∧
        process wordDict thousandths .INDEX (ascii "Abcdexcd cd") =
          some tokens ∧
        Covers (ascii "abcdexcd cd") 0 plain 11 ∧
        tokens = plain.flatMap (fun token => parts token ++ [token]) ∧
        ∀ token ∈ plain,
          Shorter wordDict (ascii "abcdexcd cd") token (parts token) := by
  obtain ⟨wordDict, loaded, _⟩ := WordDictionary.exists_loaded
  exact ⟨wordDict, loaded,
    process_modes loaded thousandths (ascii "Abcdexcd cd")⟩

end WindowSystem.Jieba.JiebaSegmenter
