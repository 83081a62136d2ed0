import Mathlib.Algebra.Order.Monoid.Unbundled.Basic
import Mathlib.Data.List.Chain
import WindowSystem.Library.BestPath

/-!
# Words that are not in the dictionary

`FinalSeg.cut` takes a text apart into runs of Chinese letters and of others.
The Viterbi algorithm gives every Chinese letter one of four states, from which
the words are read off, and a regular expression finds numbers and Latin words
in the others.  The module shows that the states are the best ones that may
follow one another, and that nothing of a text is lost or changed.
-/

namespace WindowSystem.Jieba.FinalSeg

open WindowSystem.Library.BestPath

/-- The characters of a Java string. -/
abbrev Text := List UInt16

/-! ## Kinds of characters -/

/-- `isChineseLetter` -/
def isChineseLetter (ch : UInt16) : Bool :=
  0x4E00 ≤ ch && ch ≤ 0x9FA5

/-- `isEnglishLetter` -/
def isEnglishLetter (ch : UInt16) : Bool :=
  (0x0041 ≤ ch && ch ≤ 0x005A) || (0x0061 ≤ ch && ch ≤ 0x007A)

/-- `isDigit` -/
def isDigit (ch : UInt16) : Bool :=
  0x0030 ≤ ch && ch ≤ 0x0039

/-- `connectors` -/
def connectors : List UInt16 :=
  [43, 35, 38, 46, 95, 45]

/-- `isConnector` -/
def isConnector (ch : UInt16) : Bool :=
  connectors.any fun connector => ch == connector

/-- `ccFind` -/
def ccFind (ch : UInt16) : Bool :=
  isChineseLetter ch || isEnglishLetter ch || isDigit ch || isConnector ch

/-- `regularize` -/
def regularize (input : UInt16) : UInt16 :=
  if input = 12288 then 32
  else if 65280 < input ∧ input < 65375 then input - 65248
  else if 65 ≤ input ∧ input ≤ 90 then input + 32
  else input

/-! ## Numbers and Latin words -/

/-- `substring` -/
def substring (text : Text) (start stop : Nat) : Text :=
  (text.drop start).take (stop - start)

/-- How many characters at the beginning of a text match
`[a-zA-Z0-9]+`. -/
def matchWord (text : Text) : Nat :=
  (text.takeWhile fun ch => isEnglishLetter ch || isDigit ch).length

/-- How many characters at the beginning of a text match `reSkip`: digits, a
dot and digits, or else letters and digits. -/
def reSkip (text : Text) : Nat :=
  let digits := text.takeWhile isDigit
  match text.dropWhile isDigit with
  | 46 :: rest =>
      let fraction := rest.takeWhile isDigit
      if digits ≠ [] ∧ fraction ≠ [] then digits.length + 1 + fraction.length
      else matchWord text
  | _ => matchWord text

/-- `mat.find ()`: what is in front of the match, the match, and what is
behind it. -/
def find : Text → Option (Text × Text × Text)
  | [] => none
  | ch :: rest =>
      if 0 < reSkip (ch :: rest) then
        some ([], (ch :: rest).take (reSkip (ch :: rest)),
          (ch :: rest).drop (reSkip (ch :: rest)))
      else (find rest).map fun (front, group, behind) =>
        (ch :: front, group, behind)

theorem find_eq_some {text front group behind : Text}
    (found : find text = some (front, group, behind)) :
    front ++ (group ++ behind) = text ∧ group ≠ [] := by
  induction text generalizing front with
  | nil => cases found
  | cons ch rest induction =>
      rw [find] at found
      split_ifs at found with positive
      · cases found
        refine ⟨List.take_append_drop _ _, ?_⟩
        rw [← List.length_pos_iff, List.length_take, List.length_cons]
        exact Nat.lt_min.mpr ⟨positive, Nat.succ_pos _⟩
      · obtain ⟨⟨before, _, _⟩, later, ⟨⟩⟩ := Option.map_eq_some_iff.mp found
        obtain ⟨whole, some⟩ := induction later
        exact ⟨congrArg (ch :: ·) whole, some⟩

/-- `processOtherUnknownWords`: the tokens that are added. -/
def processOtherUnknownWords (other : Text) : List Text :=
  match _found : find other with
  | none => if other = [] then [] else [other]
  | some (front, group, behind) =>
      (if front = [] then [group] else [front, group]) ++
        processOtherUnknownWords behind
termination_by other.length
decreasing_by
  obtain ⟨whole, some⟩ := find_eq_some _found
  rw [← whole, List.length_append, List.length_append]
  have positive := List.length_pos_iff.mpr some
  omega

/-! ## States of Chinese letters -/

/-- `states` -/
inductive State where
  | B
  | M
  | E
  | S
deriving DecidableEq

/-- `prevStatus` -/
def prevStatus : State → State × State
  | .B => (.E, .S)
  | .M => (.M, .B)
  | .S => (.S, .E)
  | .E => (.B, .M)

/-- The tables of `loadModel`. -/
structure Model (W : Type*) where
  emit : State → UInt16 → Option W
  start : State → W
  trans : State → State → Option W
  minFloat : W

section Viterbi

variable {W : Type*} [Add W] [LinearOrder W] (model : Model W)

/-- `emP` -/
def Model.emP (state : State) (ch : UInt16) : W :=
  (model.emit state ch).getD model.minFloat

/-- `tranp` from the value of the state before. -/
def Model.tranp (y0 y : State) (ch : UInt16) (before : W) : W :=
  (model.trans y0 y).getD model.minFloat + (model.emP y ch + before)

/-- The values of the states at a character, and for every state the states
that lead to it, the last one first. -/
structure Column (W : Type*) where
  v : State → W
  path : State → List State

/-- The first column. -/
def Model.first (ch : UInt16) : Column W where
  v y := model.start y + model.emP y ch
  path y := [y]

/-- The candidate for the state before `y`. -/
def Model.before (column : Column W) (ch : UInt16) (y : State) : State × W :=
  candidate (fun kept other => kept ≤ other)
    ((prevStatus y).1, model.tranp (prevStatus y).1 y ch
      (column.v (prevStatus y).1))
    [((prevStatus y).2, model.tranp (prevStatus y).2 y ch
      (column.v (prevStatus y).2))]

/-- The column of the next character. -/
def Model.next (column : Column W) (ch : UInt16) : Column W where
  v y := (model.before column ch y).2
  path y := y :: column.path (model.before column ch y).1

/-- `posList` of a text that begins with `ch`. -/
def posList (ch : UInt16) (rest : Text) : List State :=
  let column := rest.foldl model.next (model.first ch)
  (if column.v .E < column.v .S then column.path .S
    else column.path .E).reverse

end Viterbi

/-- The loop over `posList`, from the index `i` on. -/
def wordsLoop (sentence : Text) : List State → Nat → Nat → Nat → List Text
  | [], _, _, next =>
      if next < sentence.length then [sentence.drop next] else []
  | .B :: posList, i, _, next => wordsLoop sentence posList (i + 1) i next
  | .E :: posList, i, begin, _ =>
      substring sentence begin (i + 1) ::
        wordsLoop sentence posList (i + 1) begin (i + 1)
  | .S :: posList, i, begin, _ =>
      substring sentence i (i + 1) ::
        wordsLoop sentence posList (i + 1) begin (i + 1)
  | .M :: posList, i, begin, next =>
      wordsLoop sentence posList (i + 1) begin next

section Cut

variable {W : Type*} [Add W] [LinearOrder W] (model : Model W)

/-- `viterbi`: the tokens that are added for a text with a character. -/
def viterbi : Text → List Text
  | [] => []
  | ch :: rest => wordsLoop (ch :: rest) (posList model ch rest) 0 0 0

/-- The loop of `cut`, with the texts that are collected. -/
def cutLoop : Text → Text → Text → List Text
  | [], chinese, other =>
      if chinese ≠ [] then viterbi model chinese
      else processOtherUnknownWords other
  | ch :: rest, chinese, other =>
      if isChineseLetter ch then
        (if other ≠ [] then processOtherUnknownWords other else []) ++
          cutLoop rest (chinese ++ [ch]) []
      else
        (if chinese ≠ [] then viterbi model chinese else []) ++
          cutLoop rest [] (other ++ [ch])

/-- `cut`: the tokens that are added. -/
def cut (sentence : Text) : List Text :=
  cutLoop model sentence [] []

end Cut

/-! ## The best states -/

section Best

variable {W : Type*} [Add W] [LinearOrder W] (model : Model W)

/-- A state may stand behind another one. -/
def Precedes (y0 y : State) : Prop :=
  y0 = (prevStatus y).1 ∨ y0 = (prevStatus y).2

/-- States, the last one first, of which each may stand behind the one
before. -/
def Joined (tags : List State) : Prop :=
  tags.IsChain fun y y0 => Precedes y0 y

/-- What states are worth for the characters of a text, both with the last one
first. -/
def Model.worth : Text → List State → W
  | [ch], [y] => model.start y + model.emP y ch
  | ch :: seen, y :: y0 :: tags => model.tranp y0 y ch (worth seen (y0 :: tags))
  | _, _ => model.minFloat

/-- The column of the last character of a text. -/
def Model.column : UInt16 → Text → Column W
  | ch, [] => model.first ch
  | ch, before :: seen => model.next (Model.column before seen) ch

/-- The states of a column are possible ones, and worth its values. -/
structure Formed (ch : UInt16) (seen : Text) (column : Column W) : Prop where
  head : ∀ y, ∃ tags, column.path y = y :: tags
  joined : ∀ y, Joined (column.path y)
  length : ∀ y, (column.path y).length = seen.length + 1
  worth : ∀ y, model.worth (ch :: seen) (column.path y) = column.v y

/-- The candidate may stand before the state, and no other one that may is
better. -/
theorem before_best (column : Column W) (ch : UInt16) (y : State) :
    Precedes (model.before column ch y).1 y ∧
      (model.before column ch y).2 =
        model.tranp (model.before column ch y).1 y ch
          (column.v (model.before column ch y).1) ∧
      ∀ y0, Precedes y0 y →
        model.tranp y0 y ch (column.v y0) ≤
          (model.before column ch y).2 := by
  obtain ⟨member, best⟩ := candidate_best (W := W) improves_le
    ((prevStatus y).1, model.tranp (prevStatus y).1 y ch
      (column.v (prevStatus y).1))
    [((prevStatus y).2, model.tranp (prevStatus y).2 y ch
      (column.v (prevStatus y).2))]
  refine ⟨?_, ?_, ?_⟩
  · rcases List.mem_pair.mp member with first | second
    · exact .inl (congrArg Prod.fst first)
    · exact .inr (congrArg Prod.fst second)
  · rcases List.mem_pair.mp member with first | second
    · rw [Model.before, first]
    · rw [Model.before, second]
  · rintro y0 (rfl | rfl)
    · exact best _ List.mem_cons_self
    · exact best _ (List.mem_cons_of_mem _ List.mem_cons_self)

theorem formed_column (ch : UInt16) (seen : Text) :
    Formed model ch seen (model.column ch seen) := by
  induction seen generalizing ch with
  | nil =>
      exact ⟨fun y => ⟨[], rfl⟩, fun y => List.isChain_singleton _,
        fun y => rfl, fun y => rfl⟩
  | cons before seen induction =>
      have last := induction before
      have chosen := before_best model (model.column before seen) ch
      refine ⟨fun y => ⟨_, rfl⟩, ?_, ?_, ?_⟩
      · intro y
        obtain ⟨tags, path⟩ :=
          last.head (model.before (model.column before seen) ch y).1
        have joined :=
          last.joined (model.before (model.column before seen) ch y).1
        change Joined (y :: _)
        rw [path] at joined ⊢
        exact List.isChain_cons_cons.mpr ⟨(chosen y).1, joined⟩
      · intro y
        change _ + 1 = _
        rw [last.length]
        rfl
      · intro y
        obtain ⟨tags, path⟩ :=
          last.head (model.before (model.column before seen) ch y).1
        have worth :=
          last.worth (model.before (model.column before seen) ch y).1
        change model.worth (ch :: before :: seen) (y :: _) = _
        rw [path] at worth ⊢
        rw [Model.worth, worth]
        exact (chosen y).2.1.symm

/-- The loop computes the column of the last character. -/
theorem foldl_column (ch : UInt16) (seen rest : Text) :
    ∃ last front, rest.reverse ++ ch :: seen = last :: front ∧
      rest.foldl model.next (model.column ch seen) = model.column last front := by
  induction rest generalizing ch seen with
  | nil => exact ⟨ch, seen, rfl, rfl⟩
  | cons next rest induction =>
      obtain ⟨last, front, whole, column⟩ := induction next (ch :: seen)
      refine ⟨last, front, ?_, column⟩
      rw [List.reverse_cons, List.append_assoc]
      exact whole

/-- States, the last one first, that a text can have: each may stand behind
the one before, and the text ends with a word. -/
structure Tagging (text : Text) (tags : List State) : Prop where
  joined : Joined tags
  length : tags.length = text.length
  last : tags.head? = some .E ∨ tags.head? = some .S

omit [LinearOrder W] in
theorem Formed.tagging {text : Text} {last : UInt16} {front : Text}
    {column : Column W} (formed : Formed model last front column)
    (size : text.length = front.length + 1) {y : State}
    (ends : y = .E ∨ y = .S) : Tagging text (column.path y) := by
  obtain ⟨tags, path⟩ := formed.head y
  refine ⟨formed.joined y, (formed.length y).trans size.symm, ?_⟩
  rw [path]
  exact ends.imp (congrArg some) (congrArg some)

/-- The column from which `posList` is read. -/
theorem posList_eq (ch : UInt16) (rest : Text) :
    ∃ last front, (ch :: rest).reverse = last :: front ∧
      (posList model ch rest).reverse =
        if (model.column last front).v .E < (model.column last front).v .S then
          (model.column last front).path .S
        else (model.column last front).path .E := by
  obtain ⟨last, front, whole, same⟩ := foldl_column model ch [] rest
  refine ⟨last, front, ?_, ?_⟩
  · rw [List.reverse_cons]
    exact whole
  · have start : model.column ch [] = model.first ch := rfl
    rw [start] at same
    rw [posList, same]
    exact List.reverse_reverse _

theorem posList_tagging (ch : UInt16) (rest : Text) :
    Tagging (ch :: rest) (posList model ch rest).reverse := by
  obtain ⟨last, front, text, same⟩ := posList_eq model ch rest
  have formed := formed_column model last front
  have size := congrArg List.length text
  rw [List.length_reverse] at size
  rw [same]
  split_ifs
  · exact formed.tagging model size (.inr rfl)
  · exact formed.tagging model size (.inl rfl)

variable [AddLeftMono W]

theorem tranp_mono {y0 y : State} {ch : UInt16} {left right : W}
    (le : left ≤ right) :
    model.tranp y0 y ch left ≤ model.tranp y0 y ch right :=
  add_le_add_right (add_le_add_right le _) _

/-- No states that end with `y` are worth more than the value of `y`. -/
theorem worth_le_column {ch : UInt16} {seen : Text} {y : State}
    {tags : List State} (joined : Joined (y :: tags))
    (length : tags.length = seen.length) :
    model.worth (ch :: seen) (y :: tags) ≤ (model.column ch seen).v y := by
  induction seen generalizing ch y tags with
  | nil =>
      rw [List.length_eq_zero_iff.mp length]
      exact le_rfl
  | cons before seen induction =>
      obtain ⟨y0, tags, rfl⟩ := List.exists_cons_of_length_eq_add_one length
      obtain ⟨precedes, joined⟩ := List.isChain_cons_cons.mp joined
      obtain ⟨-, -, best⟩ :=
        before_best model (model.column before seen) ch y
      rw [Model.worth]
      exact (tranp_mono model (induction joined (Nat.succ.inj length))).trans
        (best y0 precedes)

/-- The states that are given to a text are possible ones, and no possible
ones are worth more. -/
theorem posList_best (ch : UInt16) (rest : Text) :
    Tagging (ch :: rest) (posList model ch rest).reverse ∧
      ∀ tags, Tagging (ch :: rest) tags →
        model.worth (ch :: rest).reverse tags ≤
          model.worth (ch :: rest).reverse
            (posList model ch rest).reverse := by
  refine ⟨posList_tagging model ch rest, ?_⟩
  obtain ⟨last, front, text, same⟩ := posList_eq model ch rest
  have formed := formed_column model last front
  have size := congrArg List.length text
  rw [List.length_reverse, List.length_cons] at size
  have best : ∀ y tags, Tagging (ch :: rest) tags → tags.head? = some y →
      model.worth (last :: front) tags ≤ (model.column last front).v y := by
    rintro y (_ | ⟨y', tags⟩) tagging ⟨⟩
    refine worth_le_column model tagging.joined ?_
    have length := tagging.length
    rw [List.length_cons] at length
    exact Nat.succ.inj (length.trans size)
  intro tags tagging
  rw [text, same]
  split_ifs with less
  · rw [formed.worth]
    rcases tagging.last with ends | ends
    · exact (best .E tags tagging ends).trans less.le
    · exact best .S tags tagging ends
  · rw [formed.worth]
    rcases tagging.last with ends | ends
    · exact best .E tags tagging ends
    · exact (best .S tags tagging ends).trans (not_lt.mp less)

end Best

/-- The tables in thousandths, for letters that do not occur in them. -/
def thousandths : Model Int where
  emit _ _ := none
  start
    | .B => -263
    | .S => -1465
    | _ => -314000000
  trans
    | .B, .E => some (-511)
    | .B, .M => some (-916)
    | .E, .B => some (-590)
    | .E, .S => some (-809)
    | .M, .E => some (-333)
    | .M, .M => some (-1260)
    | .S, .B => some (-721)
    | .S, .S => some (-666)
    | _, _ => none
  minFloat := -314000000

/-- Two letters by themselves are not worth more than one word. -/
theorem posList_best_word :
    thousandths.worth [0x597D, 0x4F60] [.S, .S] ≤
      thousandths.worth [0x597D, 0x4F60]
        (posList thousandths 0x4F60 [0x597D]).reverse :=
  (posList_best thousandths 0x4F60 [0x597D]).2 [.S, .S]
    ⟨by simp [Joined, Precedes, prevStatus], rfl, .inr rfl⟩

/-! ## Nothing is lost -/

/-- The tokens make up a text, and none of them is empty. -/
structure Tiles (tokens : List Text) (text : Text) : Prop where
  flatten : tokens.flatten = text
  nonempty : ∀ token ∈ tokens, token ≠ []

theorem tiles_nil : Tiles [] [] :=
  ⟨rfl, fun _ member => (List.not_mem_nil member).elim⟩

theorem tiles_singleton {text : Text} (some : text ≠ []) : Tiles [text] text where
  flatten := by simp
  nonempty token member := by rwa [List.mem_singleton.mp member]

theorem Tiles.append {tokens more : List Text} {text rest : Text}
    (front : Tiles tokens text) (behind : Tiles more rest) :
    Tiles (tokens ++ more) (text ++ rest) where
  flatten := by rw [List.flatten_append, front.flatten, behind.flatten]
  nonempty token member :=
    (List.mem_append.mp member).elim (front.nonempty token)
      (behind.nonempty token)

theorem tiles_processOtherUnknownWords (other : Text) :
    Tiles (processOtherUnknownWords other) other := by
  fun_induction processOtherUnknownWords other with
  | case1 missing => exact tiles_nil
  | case2 other missing some => exact tiles_singleton some
  | case3 other front group behind found induction =>
      obtain ⟨whole, some⟩ := find_eq_some found
      rw [← whole, ← List.append_assoc]
      refine Tiles.append ?_ induction
      split_ifs with empty
      · rw [empty]
        exact tiles_singleton some
      · exact (tiles_singleton empty).append (tiles_singleton some)

theorem substring_drop {text : Text} {next stop : Nat} (le : next ≤ stop) :
    substring text next stop ++ text.drop stop = text.drop next := by
  obtain ⟨more, rfl⟩ := Nat.exists_eq_add_of_le le
  rw [substring, Nat.add_sub_cancel_left, ← List.drop_drop,
    List.take_append_drop]

theorem substring_ne_nil {text : Text} {start stop : Nat} (less : start < stop)
    (inside : stop ≤ text.length) : substring text start stop ≠ [] := by
  rw [← List.length_pos_iff, substring, List.length_take, List.length_drop]
  omega

/-- Where the loop stands: behind a word, or inside of one that begins at
`next`. -/
def Between (posList : List State) (i begin next : Nat) : Prop :=
  (next = i ∧ ∀ y ∈ posList.head?, y = .B ∨ y = .S) ∨
    (begin = next ∧ next ≤ i ∧ ∀ y ∈ posList.head?, y = .M ∨ y = .E)

/-- Inside of a word its middle or its end follows. -/
theorem inside_of_precedes {y0 y : State} (inside : y0 = .B ∨ y0 = .M)
    (precedes : Precedes y0 y) : y = .M ∨ y = .E := by
  rcases inside with rfl | rfl <;> cases y <;>
    simp [Precedes, prevStatus] at precedes ⊢

/-- Behind a word another one begins. -/
theorem begins_of_precedes {y0 y : State} (ends : y0 = .E ∨ y0 = .S)
    (precedes : Precedes y0 y) : y = .B ∨ y = .S := by
  rcases ends with rfl | rfl <;> cases y <;>
    simp [Precedes, prevStatus] at precedes ⊢

/-- A word, and then the rest. -/
theorem Tiles.word {sentence : Text} {tokens : List Text} {next stop : Nat}
    (less : next < stop) (inside : stop ≤ sentence.length)
    (behind : Tiles tokens (sentence.drop stop)) :
    Tiles (substring sentence next stop :: tokens) (sentence.drop next) := by
  rw [← substring_drop less.le]
  exact (tiles_singleton (substring_ne_nil less inside)).append behind

/-- The words that are read off make up the rest of the text. -/
theorem tiles_wordsLoop {sentence : Text} {posList : List State}
    {i begin next : Nat} (chain : posList.IsChain Precedes)
    (length : i + posList.length = sentence.length)
    (between : Between posList i begin next) :
    Tiles (wordsLoop sentence posList i begin next) (sentence.drop next) := by
  induction posList generalizing i begin next with
  | nil =>
      rw [wordsLoop]
      split_ifs with more
      · refine tiles_singleton ?_
        rw [← List.length_pos_iff, List.length_drop]
        omega
      · rw [List.drop_of_length_le (Nat.le_of_not_lt more)]
        exact tiles_nil
  | cons y posList induction =>
      have further : i + 1 + posList.length = sentence.length := by
        rw [← length, List.length_cons]
        omega
      obtain ⟨follows, chains⟩ := List.isChain_cons.mp chain
      have within : i + 1 ≤ sentence.length := by
        omega
      cases y with
      | B =>
          obtain ⟨rfl, -⟩ | ⟨-, -, open'⟩ := between
          · exact induction chains further (.inr ⟨rfl, Nat.le_succ _,
              fun y head => inside_of_precedes (.inl rfl) (follows y head)⟩)
          · cases open' .B rfl <;> contradiction
      | M =>
          obtain ⟨-, closed⟩ | ⟨rfl, le, -⟩ := between
          · cases closed .M rfl <;> contradiction
          · exact induction chains further (.inr ⟨rfl, Nat.le_succ_of_le le,
              fun y head => inside_of_precedes (.inr rfl) (follows y head)⟩)
      | E =>
          obtain ⟨-, closed⟩ | ⟨rfl, le, -⟩ := between
          · cases closed .E rfl <;> contradiction
          · exact Tiles.word (Nat.lt_succ_of_le le) within
              (induction chains further (.inl ⟨rfl,
                fun y head => begins_of_precedes (.inl rfl) (follows y head)⟩))
      | S =>
          obtain ⟨rfl, -⟩ | ⟨-, -, open'⟩ := between
          · exact Tiles.word (Nat.lt_succ_self _) within
              (induction chains further (.inl ⟨rfl,
                fun y head => begins_of_precedes (.inr rfl) (follows y head)⟩))
          · cases open' .S rfl <;> contradiction

/-! ## The tokens of a text -/

section Tokens

variable {W : Type*} [Add W] [LinearOrder W] (model : Model W)

theorem tiles_viterbi (sentence : Text) :
    Tiles (viterbi model sentence) sentence := by
  cases sentence with
  | nil => exact tiles_nil
  | cons ch rest =>
      have tagging := posList_tagging model ch rest
      have chain : (posList model ch rest).IsChain Precedes := by
        rw [← List.reverse_reverse (posList model ch rest),
          List.isChain_reverse]
        exact tagging.joined
      have length := tagging.length
      rw [List.length_reverse] at length
      refine tiles_wordsLoop chain (by rw [length, Nat.zero_add]) ?_
      cases head : (posList model ch rest).head? with
      | none => exact .inl ⟨rfl, by simp [head]⟩
      | some y =>
          cases y with
          | B => exact .inl ⟨rfl, by simp [head]⟩
          | M => exact .inr ⟨rfl, le_rfl, by simp [head]⟩
          | E => exact .inr ⟨rfl, le_rfl, by simp [head]⟩
          | S => exact .inl ⟨rfl, by simp [head]⟩

theorem tiles_cutLoop {rest chinese other : Text}
    (apart : chinese = [] ∨ other = []) :
    Tiles (cutLoop model rest chinese other) (chinese ++ other ++ rest) := by
  induction rest generalizing chinese other with
  | nil =>
      rw [cutLoop, List.append_nil]
      split_ifs with some
      · rw [apart.resolve_left some, List.append_nil]
        exact tiles_viterbi model chinese
      · rw [not_not.mp some]
        exact tiles_processOtherUnknownWords other
  | cons ch rest induction =>
      rw [cutLoop]
      split_ifs with letter some some
      · have behind := @induction (chinese ++ [ch]) [] (.inr rfl)
        rw [apart.resolve_right some]
        rw [apart.resolve_right some] at behind
        have whole := (tiles_processOtherUnknownWords other).append behind
        simpa using whole
      · have behind := @induction (chinese ++ [ch]) [] (.inr rfl)
        rw [not_not.mp some]
        simpa using behind
      · have behind := @induction [] (other ++ [ch]) (.inl rfl)
        rw [apart.resolve_left some]
        rw [apart.resolve_left some] at behind
        have whole := (tiles_viterbi model chinese).append behind
        simpa using whole
      · have behind := @induction [] (other ++ [ch]) (.inl rfl)
        rw [not_not.mp some]
        simpa using behind

/-- What is cut is the whole sentence, in words that are not empty. -/
theorem tiles_cut (sentence : Text) :
    Tiles (cut model sentence) sentence :=
  tiles_cutLoop model (.inl rfl)

end Tokens

end WindowSystem.Jieba.FinalSeg
