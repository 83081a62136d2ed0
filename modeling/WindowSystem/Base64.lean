import Mathlib.Data.List.Basic
import WindowSystem.CRuntime

/-!
# Base64

`base64.c` encodes the messages to the push server.  Its functions build a
group of three bytes or four characters in an `int` of 24 bits and write the
result through the pointer `f` into a buffer of `ret_len` zeros.  `none` stands
for a write behind an array, for an `int` that overflows, and for everything
else that C leaves undefined.
-/

namespace WindowSystem.Base64

open WindowSystem.CRuntime

/-! ## The functions -/

/-- The characters of `base`. -/
def base : Bytes :=
  ascii "ABCDEFGHIJKLMNOPQRSTUVWXYZabcdefghijklmnopqrstuvwxyz0123456789+/="

/-- The buffer `ret` when this was written through `f`, with `*f = '\0'` at the
end. -/
def fill (retLen : Nat) (written : Bytes) : Option Bytes :=
  if written.length < retLen then
    some (written ++ List.replicate (retLen - written.length) 0)
  else none

/-- `prepare` behind the loop over the bytes of a group. -/
def prepareBytes (group : Bytes) : Nat :=
  (group.foldl (fun prepare byte => prepare <<< 8 ||| (byte.toNat &&& 255))
    0) <<< ((3 - group.length) * 8)

/-- `changed[i]`. -/
def changed (group : Bytes) (i : Nat) : Nat :=
  if group.length < i then 64
  else (prepareBytes group >>> ((3 - i) * 6)) &&& 63

/-- The characters for a group. -/
def encodeGroup (group : Bytes) : Bytes :=
  (List.range 4).map fun i => base.getD (changed group i) 0

/-- The loop of `base64_encode`. -/
def encodeLoop : Bytes → Bytes
  | [] => []
  | [first] => encodeGroup [first]
  | [first, second] => encodeGroup [first, second]
  | first :: second :: third :: data =>
      encodeGroup [first, second, third] ++ encodeLoop data

/-- `base64_encode`. -/
def base64Encode (data : Bytes) : Option Bytes :=
  let groups := data.length / 3 + if 0 < data.length % 3 then 1 else 0
  let retLen := groups * 4 + 1
  if retLen ≤ 2147483647 then fill retLen (encodeLoop data) else none

/-- `find_pos`: `strrchr` looks from the end of `base`, with its terminator. -/
def findPos (ch : UInt8) : Option Nat :=
  ((base ++ [0]).reverse.idxOf? ch).map (base.length - ·)

/-- A group of `base64_decode`, which clears four bytes of `need`. -/
def decodeGroup (needLen : Nat) (group : Bytes) : Option Bytes :=
  if 4 ≤ needLen then
    (group.mapM findPos).map fun places =>
      let prepare :=
        (places.foldl (fun prepare place => prepare <<< 6 ||| place) 0) <<<
          ((4 - group.length) * 6)
      (List.range (min 3 group.length)).map fun i =>
        UInt8.ofNat ((prepare >>> ((2 - i) * 8)) &&& 255)
  else none

/-- The loop of `base64_decode`. -/
def decodeLoop (needLen : Nat) : Bytes → Option Bytes
  | [] => some []
  | first :: second :: third :: fourth :: data =>
      (decodeGroup needLen [first, second, third, fourth]).bind fun bytes =>
        (decodeLoop needLen data).map (bytes ++ ·)
  | group => decodeGroup needLen group

/-- `equal_count`. -/
def equalCount (data : Bytes) : Nat :=
  (if data.getD (data.length - 1) 0 = 61 then 1 else 0) +
    (if data.getD (data.length - 2) 0 = 61 then 1 else 0) +
    (if data.getD (data.length - 3) 0 = 61 then 1 else 0)

/-- What is added to `ret_len`. -/
def extraLen : Nat → Nat
  | 0 => 4
  | 1 => 4
  | 2 => 3
  | _ => 2

/-- `base64_decode` with an array `need` of some length. -/
def base64DecodeWith (needLen : Nat) (data : Bytes) : Option Bytes :=
  let retLen := data.length / 4 * 3 + extraLen (equalCount data)
  if 3 ≤ data.length ∧ retLen ≤ 2147483647 then
    (decodeLoop needLen (data.take (data.length - equalCount data))).bind
      (fill retLen)
  else none

/-- `base64_decode`, with `char need[3]`. -/
def base64Decode (data : Bytes) : Option Bytes :=
  base64DecodeWith 3 data

/-- The encoder fills its buffer with a text of the right length, and the
decoder fills its own with the data and zeros. -/
structure RoundTrip (decode : Bytes → Option Bytes) (data text : Bytes) :
    Prop where
  encoded : base64Encode data = some (text ++ [0])
  length : text.length = 4 * ((data.length + 2) / 3)
  alphabet : ∀ ch ∈ text, ch ∈ base
  decoded : ∃ zeros, decode text = some (data ++ List.replicate zeros 0)

example : base64Encode (ascii "fo") = some (ascii "Zm8=" ++ [0]) := by
  decide +kernel

example : base64DecodeWith 4 (ascii "Zm8=") =
    some (ascii "fo" ++ List.replicate 5 0) := by
  decide +kernel

/-! ## Groups -/

section Groups

variable {place : Nat}

theorem findPos_base (small : place < 64) :
    findPos (base.getD place 0) = some place := by
  revert place
  decide +kernel

theorem base_ne_equals (small : place < 64) : base.getD place 0 ≠ 61 := by
  revert place
  decide +kernel

theorem mem_base (small : place ≤ 64) : base.getD place 0 ∈ base := by
  revert place
  decide +kernel

theorem shiftLeft_or (value : Nat) {bits digit : Nat}
    (small : digit < 2 ^ bits) :
    value <<< bits ||| digit = value * 2 ^ bits + digit := by
  rw [← Nat.shiftLeft_add_eq_or_of_lt small, Nat.shiftLeft_eq]

theorem toNat_and_255 (byte : UInt8) : byte.toNat &&& 255 = byte.toNat :=
  Nat.and_two_pow_sub_one_of_lt_two_pow (n := 8) byte.toNat_lt

theorem and_63 (value : Nat) : value &&& 63 = value % 64 :=
  Nat.and_two_pow_sub_one_eq_mod value 6

theorem and_255 (value : Nat) : value &&& 255 = value % 256 :=
  Nat.and_two_pow_sub_one_eq_mod value 8

theorem prepareBytes_one (first : UInt8) :
    prepareBytes [first] = first.toNat * 65536 := by
  simp [prepareBytes, toNat_and_255, Nat.shiftLeft_eq]

theorem prepareBytes_two (first second : UInt8) :
    prepareBytes [first, second] =
      first.toNat * 65536 + second.toNat * 256 := by
  simp only [prepareBytes, List.foldl_cons, List.foldl_nil, toNat_and_255,
    shiftLeft_or _ (UInt8.toNat_lt _)]
  simp [Nat.shiftLeft_eq]
  omega

theorem prepareBytes_three (first second third : UInt8) :
    prepareBytes [first, second, third] =
      first.toNat * 65536 + second.toNat * 256 + third.toNat := by
  simp only [prepareBytes, List.foldl_cons, List.foldl_nil, toNat_and_255,
    shiftLeft_or _ (UInt8.toNat_lt _)]
  simp [Nat.shiftLeft_eq]
  omega

end Groups

/-! ## Characters -/

/-- The value of the character at a place of a group. -/
def sextet (prepare i : Nat) : Nat :=
  (prepare >>> ((3 - i) * 6)) &&& 63

/-- The characters of a group in front of the padding. -/
def chars (group : Bytes) : Bytes :=
  (List.range (group.length + 1)).map fun i =>
    base.getD (sextet (prepareBytes group) i) 0

/-- `prepare` behind the loop over the characters of a group. -/
def joined (places : List Nat) : Nat :=
  (places.foldl (fun prepare place => prepare <<< 6 ||| place) 0) <<<
    ((4 - places.length) * 6)

section Characters

variable {prepare : Nat} {group : Bytes}

theorem sextet_lt (prepare i : Nat) : sextet prepare i < 64 := by
  rw [sextet, and_63]
  exact Nat.mod_lt _ (by decide)

theorem sextet_eq (prepare i : Nat) :
    sextet prepare i = prepare / 2 ^ ((3 - i) * 6) % 64 := by
  rw [sextet, and_63, Nat.shiftRight_eq_div_pow]

theorem base_equals : base.getD 64 0 = 61 := by
  decide +kernel

theorem encodeGroup_one (first : UInt8) :
    encodeGroup [first] = chars [first] ++ [61, 61] := by
  rw [← base_equals]
  rfl

theorem encodeGroup_two (first second : UInt8) :
    encodeGroup [first, second] = chars [first, second] ++ [61] := by
  rw [← base_equals]
  rfl

theorem encodeGroup_three (first second third : UInt8) :
    encodeGroup [first, second, third] = chars [first, second, third] :=
  rfl

theorem mem_chars {ch : UInt8} (member : ch ∈ chars group) :
    ch ∈ base ∧ ch ≠ 61 := by
  obtain ⟨i, _, rfl⟩ := List.mem_map.mp member
  have small := sextet_lt (prepareBytes group) i
  exact ⟨mem_base small.le, base_ne_equals small⟩

theorem mapM_findPos {places : List Nat}
    (small : ∀ place ∈ places, place < 64) :
    (places.map fun place => base.getD place 0).mapM findPos =
      some places := by
  induction places with
  | nil => rfl
  | cons place places induction =>
      obtain ⟨first, rest⟩ := List.forall_mem_cons.mp small
      rw [List.map_cons, List.mapM_cons, findPos_base first, induction rest]
      rfl

/-- The characters of a group are the digits of a number. -/
theorem joined_eq {places : List Nat}
    (small : ∀ place ∈ places, place < 64) :
    joined places =
      places.foldl (fun prepare place => prepare * 64 + place) 0 *
        2 ^ ((4 - places.length) * 6) := by
  rw [joined, Nat.shiftLeft_eq]
  congr 1
  refine List.foldl_ext _ _ 0 fun prepare place member => ?_
  exact @shiftLeft_or prepare 6 place (small place member)

theorem sextets_lt {indices : List Nat} :
    ∀ place ∈ indices.map (sextet prepare), place < 64 := by
  intro place member
  obtain ⟨i, _, rfl⟩ := List.mem_map.mp member
  exact sextet_lt prepare i

theorem joined_two (below : prepare < 2 ^ 24) (rest : prepare % 4096 = 0) :
    joined ((List.range 2).map (sextet prepare)) = prepare := by
  rw [joined_eq sextets_lt, show List.range 2 = [0, 1] from rfl]
  simp only [List.map_cons, List.map_nil, List.foldl_cons, List.foldl_nil,
    sextet_eq, List.length_cons, List.length_nil]
  omega

theorem joined_three (below : prepare < 2 ^ 24) (rest : prepare % 64 = 0) :
    joined ((List.range 3).map (sextet prepare)) = prepare := by
  rw [joined_eq sextets_lt, show List.range 3 = [0, 1, 2] from rfl]
  simp only [List.map_cons, List.map_nil, List.foldl_cons, List.foldl_nil,
    sextet_eq, List.length_cons, List.length_nil]
  omega

theorem joined_four (below : prepare < 2 ^ 24) :
    joined ((List.range 4).map (sextet prepare)) = prepare := by
  rw [joined_eq sextets_lt, show List.range 4 = [0, 1, 2, 3] from rfl]
  simp only [List.map_cons, List.map_nil, List.foldl_cons, List.foldl_nil,
    sextet_eq, List.length_cons, List.length_nil]
  omega

/-- The bytes of a group that is decoded, from its value. -/
theorem decodeGroup_eq {places : List Nat}
    (small : ∀ place ∈ places, place < 64) :
    decodeGroup 4 (places.map fun place => base.getD place 0) =
      some ((List.range (min 3 places.length)).map fun i =>
        UInt8.ofNat ((joined places >>> ((2 - i) * 8)) &&& 255)) := by
  rw [decodeGroup, if_pos (Nat.le_refl 4), mapM_findPos small,
    Option.map_some, List.length_map]
  rfl

/-- A byte of the value of a group. -/
def octet (prepare i : Nat) : UInt8 :=
  UInt8.ofNat ((prepare >>> ((2 - i) * 8)) &&& 255)

theorem octet_eq {i : Nat} {byte : UInt8}
    (digit : prepare / 2 ^ ((2 - i) * 8) % 256 = byte.toNat) :
    octet prepare i = byte := by
  rw [octet, and_255, Nat.shiftRight_eq_div_pow, digit, UInt8.ofNat_toNat]

theorem decodeGroup_chars
    (whole : joined ((List.range (group.length + 1)).map
      (sextet (prepareBytes group))) = prepareBytes group) :
    decodeGroup 4 (chars group) =
      some ((List.range (min 3 (group.length + 1))).map
        (octet (prepareBytes group))) := by
  have places := @decodeGroup_eq
    ((List.range (group.length + 1)).map (sextet (prepareBytes group)))
    sextets_lt
  rw [whole, List.map_map, List.length_map, List.length_range] at places
  exact places

theorem decodeGroup_one (first : UInt8) :
    decodeGroup 4 (chars [first]) = some [first, 0] := by
  have bound := first.toNat_lt
  have value := prepareBytes_one first
  have front : octet (prepareBytes [first]) 0 = first :=
    octet_eq (by omega)
  have zero : octet (prepareBytes [first]) 1 = 0 :=
    octet_eq (by simp; omega)
  rw [@decodeGroup_chars [first] (joined_two (by omega) (by omega))]
  show some [octet _ 0, octet _ 1] = _
  rw [front, zero]

theorem decodeGroup_two (first second : UInt8) :
    decodeGroup 4 (chars [first, second]) = some [first, second, 0] := by
  have bound := first.toNat_lt
  have secondBound := second.toNat_lt
  have value := prepareBytes_two first second
  have front : octet (prepareBytes [first, second]) 0 = first :=
    octet_eq (by omega)
  have middle : octet (prepareBytes [first, second]) 1 = second :=
    octet_eq (by omega)
  have zero : octet (prepareBytes [first, second]) 2 = 0 :=
    octet_eq (by simp; omega)
  rw [@decodeGroup_chars [first, second]
    (joined_three (by omega) (by omega))]
  show some [octet _ 0, octet _ 1, octet _ 2] = _
  rw [front, middle, zero]

theorem decodeGroup_three (first second third : UInt8) :
    decodeGroup 4 (chars [first, second, third]) =
      some [first, second, third] := by
  have bound := first.toNat_lt
  have secondBound := second.toNat_lt
  have thirdBound := third.toNat_lt
  have value := prepareBytes_three first second third
  have front : octet (prepareBytes [first, second, third]) 0 = first :=
    octet_eq (by omega)
  have middle : octet (prepareBytes [first, second, third]) 1 = second :=
    octet_eq (by omega)
  have last : octet (prepareBytes [first, second, third]) 2 = third :=
    octet_eq (by omega)
  rw [@decodeGroup_chars [first, second, third] (joined_four (by omega))]
  show some [octet _ 0, octet _ 1, octet _ 2] = _
  rw [front, middle, last]

end Characters

/-! ## The loops -/

/-- The text in front of the padding. -/
def plain : Bytes → Bytes
  | [] => []
  | [first] => chars [first]
  | [first, second] => chars [first, second]
  | first :: second :: third :: data =>
      chars [first, second, third] ++ plain data

/-- The number of equals signs. -/
def padding (length : Nat) : Nat :=
  (3 - length % 3) % 3

section Loops

variable (data : Bytes)

theorem encodeLoop_eq :
    encodeLoop data =
      plain data ++ List.replicate (padding data.length) 61 := by
  induction data using encodeLoop.induct with
  | case1 => rfl
  | case2 first => exact encodeGroup_one first
  | case3 first second => exact encodeGroup_two first second
  | case4 first second third data induction =>
      have same : padding (data.length + 1 + 1 + 1) = padding data.length := by
        rw [padding, padding]
        omega
      rw [encodeLoop, plain, encodeGroup_three, induction,
        List.append_assoc, List.length_cons, List.length_cons,
        List.length_cons, same]

theorem length_encodeLoop :
    (encodeLoop data).length = 4 * ((data.length + 2) / 3) := by
  induction data using encodeLoop.induct with
  | case1 => rfl
  | case2 first => simp [encodeLoop, encodeGroup]
  | case3 first second => simp [encodeLoop, encodeGroup]
  | case4 first second third data induction =>
      rw [encodeLoop, List.length_append, induction, encodeGroup,
        List.length_map, List.length_range, List.length_cons,
        List.length_cons, List.length_cons]
      omega

theorem mem_plain {ch : UInt8} (member : ch ∈ plain data) :
    ch ∈ base ∧ ch ≠ 61 := by
  induction data using plain.induct with
  | case1 => cases member
  | case2 first => exact mem_chars member
  | case3 first second => exact mem_chars member
  | case4 first second third data induction =>
      rw [plain, List.mem_append] at member
      rcases member with member | member
      · exact mem_chars member
      · exact induction member

theorem mem_encodeLoop {ch : UInt8} (member : ch ∈ encodeLoop data) :
    ch ∈ base := by
  rw [encodeLoop_eq, List.mem_append] at member
  rcases member with member | member
  · exact (mem_plain data member).1
  · rw [List.eq_of_mem_replicate member]
    decide

/-- What the decoder writes for the text of some data. -/
theorem decodeLoop_plain :
    decodeLoop 4 (plain data) =
      some (data ++
        List.replicate (if data.length % 3 = 0 then 0 else 1) 0) := by
  induction data using plain.induct with
  | case1 => rfl
  | case2 first => exact decodeGroup_one first
  | case3 first second => exact decodeGroup_two first second
  | case4 first second third data induction =>
      have group : decodeLoop 4 (chars [first, second, third] ++ plain data) =
          (decodeGroup 4 (chars [first, second, third])).bind fun bytes =>
            (decodeLoop 4 (plain data)).map (bytes ++ ·) := rfl
      rw [plain, group, decodeGroup_three, Option.bind_some, induction,
        Option.map_some]
      simp only [List.length_cons, Nat.add_mod_right, Nat.add_assoc]
      rfl

/-- With a shorter array every group writes behind it. -/
theorem decodeLoop_eq_none {needLen : Nat} (short : needLen < 4)
    {text : Bytes} (nonempty : text ≠ []) :
    decodeLoop needLen text = none := by
  have group (characters : Bytes) : decodeGroup needLen characters = none :=
    if_neg (Nat.not_le.mpr short)
  unfold decodeLoop
  split
  · exact absurd rfl nonempty
  · rw [group]
    rfl
  · exact group _

end Loops

/-! ## The padding -/

section Padding

variable {front : Bytes} {number : Nat}

/-- An equals sign near the end is one of the padding. -/
theorem getD_padded_iff (none : 61 ∉ front) {place : Nat}
    (positive : 0 < place) (inside : place ≤ front.length + number) :
    (front ++ List.replicate number 61).getD
        ((front ++ List.replicate number 61).length - place) 0 = (61 : UInt8) ↔
      place ≤ number := by
  rw [List.length_append, List.length_replicate, List.getD_eq_getElem?_getD]
  by_cases padded : place ≤ number
  · rw [List.getElem?_append_right (by omega),
      List.getElem?_replicate_of_lt (by omega)]
    simp [padded]
  · rw [List.getElem?_append_left (by omega),
      List.getElem?_eq_getElem (by omega), Option.getD_some]
    refine iff_of_false ?_ padded
    intro equal
    exact none (equal ▸ List.getElem_mem _)

theorem equalCount_padded (none : 61 ∉ front) (few : number ≤ 3)
    (long : 3 ≤ front.length + number) :
    equalCount (front ++ List.replicate number 61) = number := by
  rw [equalCount, if_congr (getD_padded_iff none (by decide) (by omega)) rfl
      rfl,
    if_congr (getD_padded_iff none (by decide) (by omega)) rfl rfl,
    if_congr (getD_padded_iff none (by decide) (by omega)) rfl rfl]
  split_ifs <;> omega

end Padding

/-! ## The round trip -/

section Whole

variable {data : Bytes}

theorem fill_eq {retLen : Nat} {written : Bytes}
    (room : written.length < retLen) :
    fill retLen written =
      some (written ++ List.replicate (retLen - written.length) 0) :=
  if_pos room

/-- The encoder works as long as the length of its buffer is an `int`. -/
theorem base64Encode_eq (data : Bytes) :
    base64Encode data =
      if data.length ≤ 1610612733 then some (encodeLoop data ++ [0])
      else none := by
  have groups : data.length / 3 + (if 0 < data.length % 3 then 1 else 0) =
      (data.length + 2) / 3 := by
    split_ifs <;> omega
  simp only [base64Encode, groups]
  by_cases fits : data.length ≤ 1610612733
  · have length := length_encodeLoop data
    rw [if_pos (by omega), if_pos fits, fill_eq (by omega), length,
      show (data.length + 2) / 3 * 4 + 1 - 4 * ((data.length + 2) / 3) = 1
        by omega]
    rfl
  · rw [if_neg (by omega), if_neg fits]

theorem equalCount_encodeLoop (nonempty : data ≠ []) :
    equalCount (encodeLoop data) = padding data.length := by
  have positive := List.length_pos_of_ne_nil nonempty
  have length := length_encodeLoop data
  rw [encodeLoop_eq] at length ⊢
  rw [List.length_append, List.length_replicate] at length
  refine equalCount_padded ?_ ?_ (by omega)
  · intro member
    exact (mem_plain data member).2 rfl
  · rw [padding]
    omega

/-- The decoder looks at the text in front of the padding. -/
theorem take_encodeLoop (nonempty : data ≠ []) :
    (encodeLoop data).take
        ((encodeLoop data).length - equalCount (encodeLoop data)) =
      plain data := by
  rw [equalCount_encodeLoop nonempty, encodeLoop_eq, List.length_append,
    List.length_replicate, Nat.add_sub_cancel, List.take_left]

theorem extraLen_padding (length : Nat) :
    extraLen (padding length) = if length % 3 = 1 then 3 else 4 := by
  rw [padding]
  rcases (by omega : length % 3 = 0 ∨ length % 3 = 1 ∨ length % 3 = 2) with
    rest | rest | rest
  · rw [rest]
    rfl
  · rw [rest]
    rfl
  · rw [rest]
    rfl

/-- The text of a round trip fits the buffer of the decoder. -/
theorem base64DecodeWith_encodeLoop (needLen : Nat) (nonempty : data ≠ [])
    (fits : data.length ≤ 1610612733) :
    base64DecodeWith needLen (encodeLoop data) =
      (decodeLoop needLen (plain data)).bind
        (fill ((data.length + 2) / 3 * 3 +
          if data.length % 3 = 1 then 3 else 4)) := by
  have positive := List.length_pos_of_ne_nil nonempty
  have length := length_encodeLoop data
  have retLen : (encodeLoop data).length / 4 * 3 +
      extraLen (equalCount (encodeLoop data)) =
        (data.length + 2) / 3 * 3 +
          if data.length % 3 = 1 then 3 else 4 := by
    rw [equalCount_encodeLoop nonempty, extraLen_padding, length,
      Nat.mul_div_cancel_left _ (by decide)]
  rw [base64DecodeWith, take_encodeLoop nonempty, retLen, if_pos]
  constructor
  · omega
  · split_ifs <;> omega

theorem base64DecodeWith_four (nonempty : data ≠ [])
    (fits : data.length ≤ 1610612733) :
    ∃ zeros, base64DecodeWith 4 (encodeLoop data) =
      some (data ++ List.replicate zeros 0) := by
  rw [base64DecodeWith_encodeLoop 4 nonempty fits, decodeLoop_plain,
    Option.bind_some, fill_eq]
  · rw [List.append_assoc, List.replicate_append_replicate]
    exact ⟨_, rfl⟩
  · rw [List.length_append, List.length_replicate]
    split_ifs <;> omega

/-- The decoder of the source writes behind `need`. -/
theorem base64Decode_encodeLoop (nonempty : data ≠ [])
    (fits : data.length ≤ 1610612733) :
    base64Decode (encodeLoop data) = none := by
  have text : plain data ≠ [] := by
    intro empty
    have decoded := decodeLoop_plain data
    rw [empty] at decoded
    have whole := congrArg List.length (Option.some.inj decoded)
    rw [List.length_append] at whole
    have positive := List.length_pos_of_ne_nil nonempty
    have nothing : ([] : Bytes).length = 0 := rfl
    omega
  rw [base64Decode, base64DecodeWith_encodeLoop 3 nonempty fits,
    decodeLoop_eq_none (by decide) text]
  rfl

/-- The text of a round trip is that of the encoder. -/
theorem text_eq {decode : Bytes → Option Bytes} {text : Bytes}
    (trip : RoundTrip decode data text) :
    data.length ≤ 1610612733 ∧ text = encodeLoop data := by
  have encoded := trip.encoded
  rw [base64Encode_eq, Option.ite_none_right_eq_some] at encoded
  exact ⟨encoded.1,
    (List.append_cancel_right (Option.some.inj encoded.2)).symm⟩

theorem not_roundTrip (nonempty : data ≠ []) :
    ¬ ∃ text, RoundTrip base64Decode data text := by
  rintro ⟨text, trip⟩
  obtain ⟨fits, rfl⟩ := text_eq trip
  obtain ⟨zeros, decoded⟩ := trip.decoded
  rw [base64Decode_encodeLoop nonempty fits] at decoded
  cases decoded

theorem roundTrip_four (nonempty : data ≠ [])
    (fits : data.length ≤ 1610612733) :
    RoundTrip (base64DecodeWith 4) data (encodeLoop data) where
  encoded := by rw [base64Encode_eq, if_pos fits]
  length := length_encodeLoop data
  alphabet _ member := mem_encodeLoop data member
  decoded := base64DecodeWith_four nonempty fits

end Whole

/-- **Data do not survive base64.**

No data are encoded and decoded inside the arrays, since the decoder clears
four bytes of `char need[3]`.  With four bytes in this array the round trip
works exactly as long as the length of the encoded text and its terminator is
an `int`. -/
theorem base64_round_trip {data : Bytes} (nonempty : data ≠ []) :
    (¬ ∃ text, RoundTrip base64Decode data text) ∧
      ((∃ text, RoundTrip (base64DecodeWith 4) data text) ↔
        data.length ≤ 1610612733) := by
  refine ⟨not_roundTrip nonempty, ?_⟩
  constructor
  · rintro ⟨text, trip⟩
    exact (text_eq trip).1
  · intro fits
    exact ⟨_, roundTrip_four nonempty fits⟩

theorem base64_round_trip_letter :
    (¬ ∃ text, RoundTrip base64Decode (ascii "f") text) ∧
      ((∃ text, RoundTrip (base64DecodeWith 4) (ascii "f") text) ↔
        (ascii "f").length ≤ 1610612733) :=
  base64_round_trip (List.cons_ne_nil _ _)

/-- A letter is encoded, but its text is not decoded inside the arrays. -/
theorem not_roundTrip_letter :
    base64Encode (ascii "f") = some (ascii "Zg==" ++ [0]) ∧
      base64Decode (ascii "Zg==") = none ∧
      ¬ ∃ text, RoundTrip base64Decode (ascii "f") text :=
  ⟨by decide +kernel, by decide +kernel,
    not_roundTrip (List.cons_ne_nil _ _)⟩

end WindowSystem.Base64
