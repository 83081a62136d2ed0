import Mathlib.Data.List.Chain
import Mathlib.Data.List.Find
import WindowSystem.Sspserver.MediaFilter

/-!
# The hosts and the top domains of pages

`StringUtil.getHostUrl` and `DomainUtils.getTopDomainWithoutSubdomain` on the
urls of pages, `scheme://host[:port][/path][?query][#fragment]`.  The first is
one scan over the characters of the url, which knows no query and no fragment;
the second takes the first place of the host where one of the listed suffixes
begins, whether the host ends there or not.  The module says for which pages
they return the host with its port and the top domain.
-/

namespace WindowSystem.Sspserver.PageHosts

open WindowSystem.Sspserver.JavaRuntime
open WindowSystem.Sspserver.MediaFilter

/-! ## Urls of pages -/

/-- A character of a label: none of those that end a part of a url. -/
def isLabelCharacter (character : Char) : Bool :=
  ' ' < character && !(text ".:/?#@[]").contains character

/-- Labels with dots between them. -/
def hostText : List JavaString → JavaString
  | [] => []
  | label :: labels => label ++ labels.flatMap ('.' :: ·)

/-- The parts of the url of a page. -/
structure UrlParts where
  scheme : JavaString
  labels : List JavaString
  port : Option JavaString
  path : JavaString
  query : Option JavaString
  fragment : Option JavaString
  schemed : scheme ≠ [] ∧ scheme.all (fun character =>
    character != ':' && character != '/') = true
  labelled : ∀ label ∈ labels,
    label ≠ [] ∧ label.all isLabelCharacter = true
  numbered : ∀ digits ∈ port, digits ≠ [] ∧ digits.all Char.isDigit = true
  rooted : path = [] ∨ path.head? = some '/'
  unqueried : path.all (fun character =>
    character != '?' && character != '#') = true
  unfragmented : ∀ part ∈ query, part.all (· != '#') = true

namespace UrlParts

variable (url : UrlParts)

/-- `host` -/
def host : JavaString :=
  hostText url.labels

/-- A part with the character that introduces it. -/
def introduced (character : Char) : Option JavaString → JavaString
  | none => []
  | some part => character :: part

/-- `host[:port]` -/
def authority : JavaString :=
  url.host ++ introduced ':' url.port

/-- `[/path][?query][#fragment]` -/
def tail : JavaString :=
  url.path ++ introduced '?' url.query ++ introduced '#' url.fragment

/-- The url. -/
def text : JavaString :=
  url.scheme ++ ':' :: '/' :: '/' :: (url.authority ++ url.tail)

end UrlParts

/-! ## Top domains -/

/-- The longest listed suffix that ends a host. -/
structure LongestSuffix (host suffix : JavaString) : Prop where
  listed : suffix ∈ suffixes
  ends : suffix <:+ host
  longest : ∀ other ∈ suffixes, other <:+ host →
    other.length ≤ suffix.length

/-- The last label before the longest suffix of a host. -/
structure LastLabel (host label suffix : JavaString) : Prop where
  longest : LongestSuffix host suffix
  nonempty : label ≠ []
  undotted : '.' ∉ label
  split : ∃ front, host = front ++ label ++ suffix ∧
    (front = [] ∨ front.getLast? = some '.')

/-- The top domain of a host. -/
def IsTopDomain (host : JavaString) : Option JavaString → Prop
  | none => ∀ suffix ∈ suffixes, ¬ suffix <:+ host
  | some domain => ∃ label suffix, LastLabel host label suffix ∧
      domain = label ++ suffix

/-- The host and the top domain are extracted from the url. -/
structure Extracted (platform : Platform) (url : UrlParts) : Prop where
  host : getHostUrl url.text = some url.authority
  domain : ∃ answer,
    getTopDomainWithoutSubdomain platform url.text = some answer ∧
      IsTopDomain (platform.lowerCase url.host) answer

/-- What `java.net.URL` and `String.toLowerCase` are documented to do: the
host of a url that is not malformed is the one between its scheme and its
port, and its lower case consists of labels again. -/
structure Reads (platform : Platform) (url : UrlParts)
    (labels : List JavaString) : Prop where
  host : ∀ host, platform.urlHost url.text = some host → host = url.host
  lowered : platform.lowerCase url.host = hostText labels
  whole : ∀ label ∈ labels, label ≠ [] ∧ '.' ∉ label

/-! ## The conditions -/

/-- The scan goes on at a slash behind a colon or another slash. -/
def GoesOn (before character : Char) : Prop :=
  character = '/' → before = ':' ∨ before = '/'

/-- Behind a host comes a slash or nothing. -/
def Ends (rest : JavaString) : Prop :=
  rest = [] ∨ rest.head? = some '/'

/-- By accident the text behind the authority has `//` and the authority
again, before any slash at which the scan ends. -/
def Repeats (authority tail : JavaString) : Prop :=
  ∃ front rest, tail = front ++ authority ++ rest ∧
    ['/', '/'] <:+ front ∧ front.IsChain GoesOn ∧ Ends rest

/-- The labels of a host, each with the text behind it. -/
def places : List JavaString → List (JavaString × JavaString)
  | [] => []
  | label :: labels => (label, labels.flatMap ('.' :: ·)) :: places labels

/-- The alternative of the pattern that a text begins with. -/
def alternative (tail : JavaString) : Option JavaString :=
  suffixes.find? (·.isPrefixOf tail)

/-- The first label that a listed suffix follows. -/
def followed (labels : List JavaString) : Option (JavaString × JavaString) :=
  (places labels).find? fun place => (alternative place.2).isSome

/-- The first label that a listed suffix and nothing more follows. -/
def ended (labels : List JavaString) : Option (JavaString × JavaString) :=
  (places labels).find? fun place => suffixes.contains place.2

/-- A listed suffix behind a label is all that is behind it. -/
def Settled (labels : List JavaString) : Prop :=
  ∀ place ∈ places labels, (alternative place.2).isSome = true →
    place.2 ∈ suffixes

/-- By accident the first label that a listed suffix follows stands with the
same suffix at the end of the host again. -/
def RepeatsDomain (labels : List JavaString) : Prop :=
  ∃ label tail suffix, followed labels = some (label, tail) ∧
    alternative tail = some suffix ∧ ended labels = some (label, suffix)

/-- The url has no query and no fragment right behind the authority, it is
not malformed, and no label of the host begins with a suffix. -/
structure Extractable (platform : Platform) (url : UrlParts)
    (labels : List JavaString) : Prop where
  hosted : url.authority ≠ []
  ended : url.path ≠ [] ∨ url.query = none ∧ url.fragment = none ∨
    Repeats url.authority url.tail
  accepted : (platform.urlHost url.text).isSome = true
  settled : Settled labels ∨ RepeatsDomain labels

/-! ## The scan of `getHostUrl` -/

/-- The scan with the text that was read since it started. -/
def scan (before : Char) (read : JavaString) : JavaString → Option JavaString
  | [] => if read = [] then none else some read
  | character :: rest =>
      if character = '/' ∧ character = before then scan character [] rest
      else if character = '/' ∧ before ≠ ':' then some read
      else scan character (read ++ [character]) rest

/-- The text between `start` and `end`. -/
def cut (string : JavaString) (bounds : Nat × Nat) : Option JavaString :=
  if bounds.1 ≤ bounds.2 then
    some ((string.drop bounds.1).take (bounds.2 - bounds.1))
  else none

theorem getHostUrl_cons (first : Char) (rest : JavaString) :
    getHostUrl (first :: rest) =
      cut (first :: rest)
        (hostLoop (first :: rest).length first 0 0 1 rest) :=
  rfl

theorem cut_between (done read rest : JavaString) :
    cut (done ++ read ++ rest) (done.length, done.length + read.length) =
      some read := by
  rw [cut, if_pos (Nat.le_add_right _ _), List.append_assoc,
    List.drop_left, Nat.add_sub_cancel_left, List.take_left]

/-- `end` is set behind the last character, unless the scan starts there. -/
theorem stop_eq {done : JavaString} (positive : 0 < done.length)
    (read rest : JavaString) (character : Char) :
    (if done.length + read.length + 1 =
          (done ++ read ++ character :: rest).length ∧ 0 < done.length then
        (done ++ read ++ character :: rest).length else 0) =
      if rest = [] ∧ read ++ [character] ≠ [] then
        (done ++ (read ++ [character])).length else 0 := by
  cases rest with
  | nil => simp [positive, Nat.add_assoc]
  | cons following rest =>
      rw [if_neg, if_neg (fun both => List.cons_ne_nil _ _ both.1)]
      intro both
      have equal := both.1
      simp only [List.length_append, List.length_cons] at equal
      omega

/-- The loop is the scan once it has started. -/
theorem cut_hostLoop (rest : JavaString) :
    ∀ (done read : JavaString) (before : Char), done ≠ [] →
      cut (done ++ read ++ rest)
          (hostLoop (done ++ read ++ rest).length before done.length
            (if rest = [] ∧ read ≠ [] then (done ++ read).length else 0)
            (done.length + read.length) rest) =
        scan before read rest := by
  induction rest with
  | nil =>
      intro done read before started
      have positive : 0 < done.length := List.length_pos_iff.mpr started
      rw [List.append_nil, hostLoop, scan]
      by_cases empty : read = []
      · rw [if_neg (fun both => both.2 empty), if_pos empty, cut,
          if_neg (Nat.not_le.mpr positive)]
      · rw [if_pos ⟨rfl, empty⟩, if_neg empty, List.length_append]
        have between := cut_between done read []
        rwa [List.append_nil] at between
  | cons character rest induction =>
      intro done read before started
      have positive : 0 < done.length := List.length_pos_iff.mpr started
      rw [if_neg (fun both => List.cons_ne_nil _ _ both.1), hostLoop, scan]
      by_cases slashes : character = '/' ∧ character = before
      · rw [if_pos slashes, if_pos slashes]
        have next := induction (done ++ read ++ [character]) [] character
          (by simp)
        rw [if_neg (fun both => both.2 rfl)] at next
        simpa [Nat.add_assoc] using next
      rw [if_neg slashes, if_neg slashes]
      by_cases slash : character = '/' ∧ before ≠ ':'
      · rw [if_pos slash, if_pos slash]
        exact cut_between done read (character :: rest)
      rw [if_neg slash, if_neg slash]
      have next := induction done (read ++ [character]) character started
      have whole : done ++ (read ++ [character]) ++ rest =
          done ++ read ++ character :: rest := by
        simp
      rw [whole, @List.length_append _ read [character],
        List.length_singleton, ← Nat.add_assoc] at next
      rw [stop_eq positive]
      exact next

/-- The loop starts behind the two slashes. -/
theorem hostLoop_scheme (length : Nat) (word rest : JavaString) :
    '/' ∉ word → ∀ (before : Char) (i : Nat),
      hostLoop length before 0 0 i (word ++ ':' :: '/' :: '/' :: rest) =
        hostLoop length '/' (i + word.length + 3) 0 (i + word.length + 3)
          rest := by
  induction word with
  | nil =>
      intro _ before i
      simp [hostLoop]
  | cons character word induction =>
      intro free before i
      obtain ⟨other, free⟩ := not_or.mp (List.mem_cons.not.mp free)
      rw [List.cons_append, hostLoop, if_neg (fun both => other both.1.symm),
        if_neg (fun both => other both.1.symm),
        if_neg (fun both => Nat.not_lt_zero _ both.2), induction free,
        List.length_cons, Nat.add_assoc i 1, Nat.add_comm 1]

/-- `getHostUrl` scans what is behind the two slashes. -/
theorem getHostUrl_eq {scheme : JavaString} (nonempty : scheme ≠ [])
    (free : '/' ∉ scheme) (rest : JavaString) :
    getHostUrl (scheme ++ ':' :: '/' :: '/' :: rest) = scan '/' [] rest := by
  cases scheme with
  | nil => exact absurd rfl nonempty
  | cons first word =>
      have started : first :: word ++ [':', '/', '/'] ≠ [] := by simp
      have loop := cut_hostLoop rest _ [] '/' started
      rw [if_neg (fun both => both.2 rfl)] at loop
      rw [← loop, List.cons_append, getHostUrl_cons,
        hostLoop_scheme _ _ _ (fun member =>
          free (List.mem_cons_of_mem _ member))]
      simp [Nat.add_comm, Nat.add_left_comm]

/-- Text without slashes is read. -/
theorem scan_append (word rest : JavaString) :
    '/' ∉ word → ∀ (before : Char) (read : JavaString),
      scan before read (word ++ rest) =
        scan (word.getLastD before) (read ++ word) rest := by
  induction word with
  | nil =>
      intro _ before read
      rw [List.append_nil]
      rfl
  | cons character word induction =>
      intro free before read
      obtain ⟨other, free⟩ := not_or.mp (List.mem_cons.not.mp free)
      rw [List.cons_append, scan, if_neg (fun both => other both.1.symm),
        if_neg (fun both => other both.1.symm), induction free,
        List.append_assoc]
      cases word with
      | nil => rfl
      | cons _ _ => rfl

/-- A text goes on from what was read, up to its end. -/
def ReadOn (authority read rest : JavaString) : Prop :=
  ∃ word behind, read ++ word = authority ∧ rest = word ++ behind ∧
    Ends behind

/-- A text stands behind the next two slashes at which the scan starts
again. -/
def ReadBehind (authority : JavaString) (before : Char)
    (rest : JavaString) : Prop :=
  ∃ front behind, rest = front ++ authority ++ behind ∧
    ['/', '/'] <:+ before :: front ∧ (before :: front).IsChain GoesOn ∧
    Ends behind

section Scan

variable {authority : JavaString} (nonempty : authority ≠ [])
  (free : '/' ∉ authority)

include nonempty free

/-- What is read behind a slash starts with another character. -/
theorem not_readBehind_nil {behind rest : JavaString} :
    '/' :: rest ≠ authority ++ behind := by
  intro whole
  cases authority with
  | nil => exact nonempty rfl
  | cons first word =>
      obtain ⟨rfl, -⟩ := List.cons.inj whole
      exact free List.mem_cons_self

omit nonempty in
theorem readOn_slash (read rest : JavaString) :
    ReadOn authority read ('/' :: rest) ↔ read = authority := by
  constructor
  · rintro ⟨word, behind, equal, whole, -⟩
    cases word with
    | nil => rw [← equal, List.append_nil]
    | cons first word =>
        obtain ⟨rfl, -⟩ := List.cons.inj whole
        exact absurd (equal ▸ List.mem_append_right _ List.mem_cons_self)
          free
  · rintro rfl
    exact ⟨[], '/' :: rest, List.append_nil _, rfl, .inr rfl⟩

/-- The scan starts again behind the second of two slashes. -/
theorem readBehind_slashes (rest : JavaString) :
    ReadBehind authority '/' ('/' :: rest) ↔
      ReadOn authority [] rest ∨ ReadBehind authority '/' rest := by
  constructor
  · rintro ⟨front, behind, whole, starts, chain, ends⟩
    cases front with
    | nil => exact absurd whole (not_readBehind_nil nonempty free)
    | cons first front =>
        obtain ⟨rfl, same⟩ := List.cons.inj whole
        rcases List.suffix_cons_iff.mp starts with equal | starts
        · obtain rfl : front = [] := by simpa using equal.symm
          exact .inl ⟨authority, behind, rfl, same, ends⟩
        · exact .inr ⟨front, behind, same, starts,
            (List.isChain_cons_cons.mp chain).2, ends⟩
  · rintro (⟨word, behind, rfl, whole, ends⟩ |
      ⟨front, behind, whole, starts, chain, ends⟩)
    · refine ⟨['/'], behind, by rw [whole]; rfl, List.suffix_rfl, ?_,
        ends⟩
      exact List.isChain_cons_cons.mpr
        ⟨fun _ => .inr rfl, List.isChain_singleton _⟩
    · refine ⟨'/' :: front, behind, by rw [whole]; rfl,
        starts.trans (List.suffix_cons _ _), ?_, ends⟩
      exact List.isChain_cons_cons.mpr ⟨fun _ => .inr rfl, chain⟩

/-- Nothing is read behind a slash at which the scan ends. -/
theorem not_readBehind_slash {before : Char} (uncolon : before ≠ ':')
    (unslash : before ≠ '/') (rest : JavaString) :
    ¬ ReadBehind authority before ('/' :: rest) := by
  rintro ⟨front, behind, whole, starts, chain, ends⟩
  cases front with
  | nil => exact not_readBehind_nil nonempty free whole
  | cons first front =>
      obtain ⟨rfl, same⟩ := List.cons.inj whole
      rcases (List.isChain_cons_cons.mp chain).1 rfl with colon | slash
      · exact uncolon colon
      · exact unslash slash

omit free in
/-- Every other character is read. -/
theorem readOn_cons (uncolon : authority.getLast? ≠ some ':')
    {before character : Char} {read : JavaString}
    (state : read = [] ∨ read.getLast? = some before)
    (goes : character = '/' → before = ':') (rest : JavaString) :
    ReadOn authority read (character :: rest) ↔
      ReadOn authority (read ++ [character]) rest := by
  constructor
  · rintro ⟨word, behind, equal, whole, ends⟩
    cases word with
    | nil =>
        rw [List.append_nil] at equal
        obtain rfl := equal
        rcases ends with rfl | slash
        · cases whole
        · rw [List.nil_append] at whole
          rw [← whole, List.head?_cons] at slash
          rw [goes (Option.some.inj slash)] at state
          exact absurd (state.resolve_left nonempty) uncolon
    | cons first word =>
        obtain ⟨rfl, same⟩ := List.cons.inj whole
        exact ⟨word, behind, by rw [← equal]; simp, same, ends⟩
  · rintro ⟨word, behind, equal, whole, ends⟩
    exact ⟨character :: word, behind, by rw [← equal]; simp,
      by rw [whole]; rfl, ends⟩

omit nonempty free in
theorem readBehind_cons {before character : Char}
    (other : ¬ (character = '/' ∧ character = before))
    (goes : character = '/' → before = ':') (rest : JavaString) :
    ReadBehind authority before (character :: rest) ↔
      ReadBehind authority character rest := by
  constructor
  · rintro ⟨front, behind, whole, starts, chain, ends⟩
    cases front with
    | nil => exact absurd starts.length_le (Nat.not_succ_le_self 1)
    | cons first front =>
        obtain ⟨rfl, same⟩ := List.cons.inj whole
        refine ⟨front, behind, same, ?_,
          (List.isChain_cons_cons.mp chain).2, ends⟩
        rcases List.suffix_cons_iff.mp starts with equal | starts
        · obtain ⟨rfl, rest⟩ := List.cons.inj equal
          exact absurd ⟨(List.cons.inj rest).1.symm,
            (List.cons.inj rest).1.symm⟩ other
        · exact starts
  · rintro ⟨front, behind, rfl, starts, chain, ends⟩
    exact ⟨character :: front, behind, rfl,
      starts.trans (List.suffix_cons _ _),
      List.isChain_cons_cons.mpr ⟨fun slash => .inl (goes slash), chain⟩,
      ends⟩

/-- Where the scan returns a text without slashes: the text goes on from what
was read, or it stands behind later slashes. -/
theorem scan_eq_some_iff (uncolon : authority.getLast? ≠ some ':')
    (rest : JavaString) : ∀ (before : Char) (read : JavaString),
      (read = [] ∧ before = '/' ∨ read.getLast? = some before) →
      (scan before read rest = some authority ↔
        ReadOn authority read rest ∨ ReadBehind authority before rest) := by
  induction rest with
  | nil =>
      intro before read _
      rw [scan]
      constructor
      · intro scanned
        split_ifs at scanned
        exact .inl ⟨[], [], by rw [List.append_nil, Option.some.inj scanned],
          rfl, .inl rfl⟩
      · rintro (⟨word, behind, equal, whole, -⟩ |
          ⟨front, behind, whole, -⟩)
        · obtain ⟨rfl, rfl⟩ := List.append_eq_nil_iff.mp whole.symm
          rw [List.append_nil] at equal
          rw [if_neg (equal ▸ nonempty), equal]
        · simp [nonempty] at whole
  | cons character rest induction =>
      intro before read state
      rw [scan]
      by_cases slashes : character = '/' ∧ character = before
      · obtain ⟨rfl, rfl⟩ := slashes
        rw [if_pos ⟨rfl, rfl⟩, induction _ _ (.inl ⟨rfl, rfl⟩),
          readBehind_slashes nonempty free, readOn_slash free]
        have unread : read ≠ authority := by
          rintro rfl
          rcases state with ⟨empty, -⟩ | last
          · exact nonempty empty
          · exact free (List.mem_of_getLast? last)
        rw [or_iff_right unread]
      rw [if_neg slashes]
      by_cases slash : character = '/' ∧ before ≠ ':'
      · obtain ⟨rfl, uncolon⟩ := slash
        have unslash : before ≠ '/' := fun equal =>
          slashes ⟨rfl, equal.symm⟩
        rw [if_pos ⟨rfl, uncolon⟩, Option.some.injEq, readOn_slash free,
          or_iff_left (not_readBehind_slash nonempty free uncolon unslash _)]
      have goes : character = '/' → before = ':' := by
        intro equal
        by_contra uncolon
        exact slash ⟨equal, uncolon⟩
      rw [if_neg slash, induction _ _ (.inr List.getLast?_concat),
        readOn_cons nonempty uncolon (state.imp_left And.left) goes,
        readBehind_cons slashes goes]

end Scan

/-- The scan of a text without slashes and of what is behind it. -/
theorem scan_authority_iff {authority : JavaString}
    (nonempty : authority ≠ []) (free : '/' ∉ authority)
    (uncolon : authority.getLast? ≠ some ':') (tail : JavaString) :
    scan '/' [] (authority ++ tail) = some authority ↔
      Ends tail ∨ Repeats authority tail := by
  have last : authority.getLast? = some (authority.getLastD '/') := by
    cases authority with
    | nil => exact absurd rfl nonempty
    | cons first word =>
        rw [List.getLast?_cons, List.getLastD_cons,
          List.getLastD_eq_getLast?]
  have unslash : authority.getLastD '/' ≠ '/' := by
    intro slash
    rw [slash] at last
    exact free (List.mem_of_getLast? last)
  rw [scan_append _ _ free, List.nil_append,
    scan_eq_some_iff nonempty free uncolon _ _ _ (.inr last)]
  constructor
  · rintro (⟨word, behind, equal, rfl, ends⟩ |
      ⟨front, behind, rfl, starts, chain, ends⟩)
    · obtain rfl := List.append_right_eq_self.mp equal
      exact .inl ends
    · rcases List.suffix_cons_iff.mp starts with equal | starts
      · exact absurd (List.cons.inj equal).1.symm unslash
      · exact .inr ⟨front, behind, rfl, starts, chain.tail, ends⟩
  · rintro (ends | ⟨front, behind, rfl, starts, chain, ends⟩)
    · exact .inl ⟨[], tail, List.append_nil _, rfl, ends⟩
    cases front with
    | nil => exact absurd starts.length_le (Nat.not_succ_le_zero 1)
    | cons first front =>
        by_cases slash : first = '/'
        · subst slash
          exact .inl ⟨[], _, List.append_nil _, rfl, .inr rfl⟩
        · exact .inr ⟨first :: front, behind, rfl,
            starts.trans (List.suffix_cons _ _),
            List.isChain_cons_cons.mpr
              ⟨fun equal => absurd equal slash, chain⟩, ends⟩

theorem scan_ne_nil (rest : JavaString) : ∀ (before : Char)
    (read : JavaString), (read = [] → before = '/') →
      scan before read rest ≠ some [] := by
  induction rest with
  | nil =>
      intro before read _ scanned
      rw [scan] at scanned
      split_ifs at scanned with empty
      exact empty (Option.some.inj scanned)
  | cons character rest induction =>
      intro before read state
      rw [scan]
      split_ifs with slashes slash
      · exact induction _ _ fun _ => slashes.1
      · intro scanned
        exact slashes ⟨slash.1, slash.1.trans
          (state (Option.some.inj scanned)).symm⟩
      · exact induction _ _ fun empty =>
          absurd empty (List.append_ne_nil_of_right_ne_nil _
            (List.cons_ne_nil _ _))

namespace UrlParts

variable (url : UrlParts)

theorem not_mem_hostText {character : Char} (undotted : character ≠ '.')
    {labels : List JavaString}
    (free : ∀ label ∈ labels, character ∉ label) :
    character ∉ hostText labels := by
  cases labels with
  | nil => exact List.not_mem_nil
  | cons label labels =>
      rw [hostText, List.mem_append, List.mem_flatMap]
      rintro (member | ⟨other, listed, member⟩)
      · exact free label List.mem_cons_self member
      · rcases List.mem_cons.mp member with equal | member
        · exact undotted equal
        · exact free other (List.mem_cons_of_mem _ listed) member

/-- Characters that no label has are not in the host. -/
theorem not_mem_host {character : Char} (undotted : character ≠ '.')
    (other : isLabelCharacter character = false) :
    character ∉ url.host :=
  not_mem_hostText undotted fun label listed member =>
    Bool.false_ne_true (other.symm.trans
      (List.all_eq_true.mp (url.labelled label listed).2 character member))

theorem slash_not_mem_authority : '/' ∉ url.authority := by
  rw [authority, List.mem_append]
  rintro (member | member)
  · exact url.not_mem_host (by decide) (by decide) member
  · have numbered := url.numbered
    cases port : url.port with
    | none =>
        rw [port] at member
        exact List.not_mem_nil member
    | some digits =>
        rw [port] at member numbered
        rcases List.mem_cons.mp member with equal | slash
        · exact absurd equal (by decide)
        · exact absurd (List.all_eq_true.mp (numbered digits rfl).2 '/' slash)
            (by decide)

theorem getLast?_authority : url.authority.getLast? ≠ some ':' := by
  intro last
  have numbered := url.numbered
  rw [authority] at last
  cases port : url.port with
  | none =>
      rw [port, introduced, List.append_nil] at last
      exact url.not_mem_host (by decide) (by decide)
        (List.mem_of_getLast? last)
  | some digits =>
      rw [port] at last numbered
      obtain ⟨nonempty, digital⟩ := numbered digits rfl
      rw [introduced, List.getLast?_append_cons,
        List.getLast?_cons_of_ne_nil nonempty] at last
      exact absurd (List.all_eq_true.mp digital ':'
        (List.mem_of_getLast? last)) (by decide)

theorem introduced_eq_nil_iff {character : Char}
    {part : Option JavaString} : introduced character part = [] ↔
      part = none := by
  cases part with
  | none => exact iff_of_true rfl rfl
  | some word =>
      exact iff_of_false (List.cons_ne_nil _ _) (Option.some_ne_none word)

/-- A path or nothing is behind the authority. -/
theorem ends_tail_iff :
    Ends url.tail ↔
      url.path ≠ [] ∨ url.query = none ∧ url.fragment = none := by
  rw [tail]
  rcases url.rooted with empty | slash
  · rw [empty, List.nil_append, or_iff_right (not_not.mpr rfl)]
    constructor
    · rintro (nothing | slash)
      · obtain ⟨queried, fragmented⟩ := List.append_eq_nil_iff.mp nothing
        exact ⟨introduced_eq_nil_iff.mp queried,
          introduced_eq_nil_iff.mp fragmented⟩
      · cases query : url.query with
        | none =>
            cases fragment : url.fragment with
            | none => exact ⟨rfl, rfl⟩
            | some part =>
                rw [query, fragment] at slash
                exact absurd slash (by simp [introduced])
        | some part =>
            rw [query] at slash
            exact absurd slash (by simp [introduced])
    · rintro ⟨queried, fragmented⟩
      rw [queried, fragmented]
      exact .inl rfl
  · have present : url.path ≠ [] := by
      intro empty
      rw [empty] at slash
      cases slash
    refine iff_of_true (.inr ?_) (.inl present)
    rw [List.append_assoc, List.head?_append_of_ne_nil _ present, slash]

/-- What `getHostUrl` returns. -/
theorem getHostUrl_eq_some_iff :
    getHostUrl url.text = some url.authority ↔
      url.authority ≠ [] ∧
        (url.path ≠ [] ∨ url.query = none ∧ url.fragment = none ∨
          Repeats url.authority url.tail) := by
  have free : '/' ∉ url.scheme := fun member =>
    absurd (List.all_eq_true.mp url.schemed.2 '/' member) (by decide)
  rw [text, getHostUrl_eq url.schemed.1 free]
  by_cases nonempty : url.authority = []
  · rw [nonempty]
    exact iff_of_false (scan_ne_nil _ _ _ fun _ => rfl)
      fun both => both.1 rfl
  · rw [scan_authority_iff nonempty url.slash_not_mem_authority
      url.getLast?_authority, ends_tail_iff, or_assoc,
      and_iff_right nonempty]

end UrlParts

/-! ## The match of `getTopDomainWithoutSubdomain` -/

/-- What the pattern matches from a label on. -/
def domainAt (place : JavaString × JavaString) : Option JavaString :=
  (alternative place.2).map (place.1 ++ ·)

theorem takeWhile_label {label rest : JavaString} (undotted : '.' ∉ label)
    (bounded : rest = [] ∨ rest.head? = some '.') :
    (label ++ rest).takeWhile (· ≠ '.') = label ∧
      (label ++ rest).dropWhile (· ≠ '.') = rest := by
  have plain : ∀ character ∈ label, decide (character ≠ '.') = true := by
    intro character member
    exact decide_eq_true fun dot => undotted (dot ▸ member)
  rw [List.takeWhile_append_of_pos plain, List.dropWhile_append_of_pos plain]
  cases rest with
  | nil => exact ⟨List.append_nil _, rfl⟩
  | cons first rest =>
      obtain rfl : first = '.' := by simpa using bounded
      rw [List.takeWhile_cons_of_neg (by decide),
        List.dropWhile_cons_of_neg (by decide)]
      exact ⟨List.append_nil _, rfl⟩

/-- No label begins at a dot. -/
theorem findDomain_bounded {rest : JavaString}
    (bounded : rest = [] ∨ rest.head? = some '.') :
    findDomain rest = findDomain rest.tail := by
  cases rest with
  | nil => rfl
  | cons first rest =>
      obtain rfl : first = '.' := by simpa using bounded
      rw [findDomain, List.takeWhile_cons_of_neg (by decide), List.tail_cons]
      split
      · exact if_pos rfl
      · rfl

/-- A label and the text behind it: the pattern matches there, or behind the
next dot. -/
theorem findDomain_label (rest : JavaString) (label : JavaString) :
    label ≠ [] → '.' ∉ label → (rest = [] ∨ rest.head? = some '.') →
      findDomain (label ++ rest) =
        (domainAt (label, rest)).or (findDomain rest.tail) := by
  induction label with
  | nil => exact fun nonempty => absurd rfl nonempty
  | cons first word induction =>
      intro nonempty undotted bounded
      obtain ⟨labelled, behind⟩ := takeWhile_label undotted bounded
      rw [List.cons_append] at labelled behind
      rw [List.cons_append, findDomain, labelled, behind, domainAt,
        alternative]
      cases found : suffixes.find? (·.isPrefixOf rest) with
      | some suffix => exact if_neg nonempty
      | none =>
          rw [Option.map_none, Option.none_or]
          by_cases empty : word = []
          · rw [empty, List.nil_append, findDomain_bounded bounded]
          · have next := induction empty
              (fun member => undotted (List.mem_cons_of_mem _ member)) bounded
            rwa [domainAt, alternative, found, Option.map_none,
              Option.none_or] at next

/-- The pattern matches at the first label that a listed suffix follows. -/
theorem findDomain_hostText {labels : List JavaString} :
    (∀ label ∈ labels, label ≠ [] ∧ '.' ∉ label) →
      findDomain (hostText labels) = (places labels).findSome? domainAt := by
  induction labels with
  | nil => exact fun _ => rfl
  | cons label labels induction =>
      intro whole
      obtain ⟨⟨nonempty, undotted⟩, whole⟩ := List.forall_mem_cons.mp whole
      have bounded : labels.flatMap ('.' :: ·) = [] ∨
          (labels.flatMap ('.' :: ·)).head? = some '.' := by
        cases labels with
        | nil => exact .inl rfl
        | cons _ _ => exact .inr rfl
      have next : findDomain (labels.flatMap ('.' :: ·)).tail =
          findDomain (hostText labels) := by
        cases labels with
        | nil => rfl
        | cons _ _ => rfl
      rw [hostText, findDomain_label _ _ nonempty undotted bounded, next,
        induction whole, places, List.findSome?_cons]
      cases domainAt (label, labels.flatMap ('.' :: ·)) with
      | none => rfl
      | some domain => rfl

theorem findSome?_domainAt (list : List (JavaString × JavaString)) :
    list.findSome? domainAt =
      (list.find? fun place => (alternative place.2).isSome).bind
        domainAt := by
  induction list with
  | nil => rfl
  | cons place list induction =>
      rw [List.findSome?_cons, List.find?_cons, induction]
      cases found : alternative place.2 with
      | none =>
          rw [domainAt, found]
          rfl
      | some suffix =>
          rw [domainAt, found, Option.isSome_some, Option.bind_some,
            domainAt, found]
          rfl

/-! ## The suffixes at the end of a host -/

theorem head?_of_listed :
    ∀ suffix ∈ suffixes, suffix.head? = some '.' := by
  decide +kernel

/-- No alternative before a listed suffix is its beginning. -/
theorem alternative_of_listed :
    ∀ suffix ∈ suffixes, alternative suffix = some suffix := by
  decide +kernel

theorem ne_nil_of_listed {suffix : JavaString} (listed : suffix ∈ suffixes) :
    suffix ≠ [] := by
  rintro rfl
  cases head?_of_listed [] listed

/-- A domain determines its label and its suffix. -/
theorem domain_injective {label other suffix ending : JavaString}
    (undotted : '.' ∉ label) (undotted' : '.' ∉ other)
    (listed : suffix ∈ suffixes) (listed' : ending ∈ suffixes)
    (equal : label ++ suffix = other ++ ending) :
    label = other ∧ suffix = ending := by
  have left := takeWhile_label undotted (.inr (head?_of_listed _ listed))
  have right := takeWhile_label undotted' (.inr (head?_of_listed _ listed'))
  rw [equal] at left
  exact ⟨left.1.symm.trans right.1, left.2.symm.trans right.2⟩

/-- A listed suffix that ends a host is all that is behind a label. -/
theorem exists_place {suffix : JavaString} (listed : suffix ∈ suffixes)
    {labels : List JavaString} : (∀ label ∈ labels, '.' ∉ label) →
      suffix <:+ hostText labels →
        ∃ label, (label, suffix) ∈ places labels := by
  induction labels with
  | nil =>
      intro _ ends
      exact absurd (List.suffix_nil.mp ends) (ne_nil_of_listed listed)
  | cons label labels induction =>
      intro undotted ends
      obtain ⟨free, undotted⟩ := List.forall_mem_cons.mp undotted
      rw [hostText] at ends
      rcases List.suffix_or_suffix_of_suffix ends
        (List.suffix_append label _) with inside | ⟨word, whole⟩
      · cases labels with
        | nil =>
            exact absurd (List.suffix_nil.mp inside)
              (ne_nil_of_listed listed)
        | cons next labels =>
            rcases List.suffix_cons_iff.mp inside with equal | further
            · exact ⟨label, equal ▸ List.mem_cons_self⟩
            · obtain ⟨other, member⟩ := induction undotted further
              exact ⟨other, List.mem_cons_of_mem _ member⟩
      · obtain ⟨front, split⟩ := ends
        rw [← whole, ← List.append_assoc] at split
        have inside := List.append_cancel_right split
        cases word with
        | nil => exact ⟨label, whole ▸ List.mem_cons_self⟩
        | cons first word =>
            have dotted := head?_of_listed suffix listed
            rw [← whole, List.cons_append, List.head?_cons] at dotted
            obtain rfl := Option.some.inj dotted
            exact absurd (inside ▸ List.mem_append_right _
              List.mem_cons_self) free

/-- The host around a label. -/
theorem split_of_mem_places {label tail : JavaString}
    {labels : List JavaString} (member : (label, tail) ∈ places labels) :
    label ∈ labels ∧ ∃ front, hostText labels = front ++ label ++ tail ∧
      (front = [] ∨ front.getLast? = some '.') := by
  induction labels with
  | nil => cases member
  | cons first labels induction =>
      rcases List.mem_cons.mp member with equal | member
      · obtain ⟨rfl, rfl⟩ := Prod.mk.inj equal
        exact ⟨List.mem_cons_self, [], rfl, .inl rfl⟩
      · obtain ⟨listed, front, whole, bounded⟩ := induction member
        refine ⟨List.mem_cons_of_mem _ listed, first ++ '.' :: front, ?_, ?_⟩
        · cases labels with
          | nil => cases member
          | cons next labels =>
              rw [List.append_assoc, List.append_assoc, List.cons_append,
                ← List.append_assoc front, ← whole]
              rfl
        · rw [List.getLast?_append_cons]
          rcases bounded with rfl | dotted
          · exact .inr rfl
          · have present : front ≠ [] := by
              rintro rfl
              cases dotted
            rw [List.getLast?_cons_of_ne_nil present]
            exact .inr dotted

/-- Less and less text is behind the labels. -/
theorem places_pairwise (labels : List JavaString) :
    (places labels).Pairwise fun before after =>
      after.2.length ≤ before.2.length := by
  induction labels with
  | nil => exact List.Pairwise.nil
  | cons label labels induction =>
      refine List.Pairwise.cons (fun place member => ?_) induction
      obtain ⟨-, front, whole, -⟩ := split_of_mem_places member
      cases labels with
      | nil => cases member
      | cons next labels =>
          have longer := congrArg List.length whole
          rw [List.length_append] at longer
          show place.2.length ≤ (hostText (next :: labels)).length + 1
          omega

/-- The first place with a listed suffix has the longest one. -/
theorem longest_of_ended {label suffix : JavaString}
    {labels : List JavaString} (undotted : ∀ label ∈ labels, '.' ∉ label)
    (found : ended labels = some (label, suffix)) :
    LongestSuffix (hostText labels) suffix := by
  obtain ⟨listed, before, after, whole, unlisted⟩ :=
    List.find?_eq_some_iff_append.mp found
  have member : (label, suffix) ∈ places labels := by
    rw [whole]
    exact List.mem_append_right _ List.mem_cons_self
  obtain ⟨-, front, split, -⟩ := split_of_mem_places member
  refine ⟨List.contains_iff_mem.mp listed, ⟨front ++ label, split.symm⟩, ?_⟩
  intro other listed' ends
  obtain ⟨next, member'⟩ := exists_place listed' undotted ends
  rw [whole] at member'
  rcases List.mem_append.mp member' with earlier | here
  · have missing := unlisted _ earlier
    rw [List.contains_iff_mem.mpr listed'] at missing
    cases missing
  · have ordered := places_pairwise labels
    rw [whole] at ordered
    rcases List.mem_cons.mp here with equal | later
    · rw [(Prod.mk.inj equal).2]
    · exact (List.pairwise_cons.mp
        (List.pairwise_append.mp ordered).2.1).1 _ later

/-- What `getTopDomainWithoutSubdomain` has to return. -/
theorem isTopDomain_ended {labels : List JavaString}
    (whole : ∀ label ∈ labels, label ≠ [] ∧ '.' ∉ label) :
    IsTopDomain (hostText labels)
      ((ended labels).map fun place => place.1 ++ place.2) := by
  have undotted : ∀ label ∈ labels, '.' ∉ label :=
    fun label member => (whole label member).2
  cases found : ended labels with
  | none =>
      intro suffix listed ends
      obtain ⟨label, member⟩ := exists_place listed undotted ends
      exact List.find?_eq_none.mp found _ member
        (List.contains_iff_mem.mpr listed)
  | some place =>
      obtain ⟨label, suffix⟩ := place
      obtain ⟨member, split⟩ :=
        split_of_mem_places (List.mem_of_find?_eq_some found)
      exact ⟨label, suffix, ⟨longest_of_ended undotted found,
        (whole label member).1, undotted label member, split⟩, rfl⟩

/-- The last label of a text is the one behind its last dot. -/
theorem label_unique {front front' label label' : JavaString}
    (bounded : front = [] ∨ front.getLast? = some '.')
    (undotted : '.' ∉ label')
    (equal : front ++ label = front' ++ label')
    (shorter : label.length ≤ label'.length) : label = label' := by
  obtain ⟨word, rfl⟩ := List.suffix_of_suffix_length_le
    (List.suffix_append front label)
    (equal ▸ List.suffix_append front' label') shorter
  rw [← List.append_assoc] at equal
  obtain rfl := List.append_cancel_right equal
  by_cases empty : word = []
  · rw [empty, List.nil_append]
  · rw [List.getLast?_append_of_ne_nil _ empty] at bounded
    have dotted := bounded.resolve_left
      (List.append_ne_nil_of_right_ne_nil _ empty)
    exact absurd (List.mem_append_left _ (List.mem_of_getLast? dotted))
      undotted

/-- The label and the suffix of the top domain are determined by the host. -/
theorem LastLabel.unique {host label suffix label' suffix' : JavaString}
    (first : LastLabel host label suffix)
    (second : LastLabel host label' suffix') :
    label = label' ∧ suffix = suffix' := by
  have same : suffix = suffix' := by
    have lengths : suffix.length = suffix'.length := Nat.le_antisymm
      (second.longest.longest _ first.longest.listed first.longest.ends)
      (first.longest.longest _ second.longest.listed second.longest.ends)
    exact (List.suffix_of_suffix_length_le first.longest.ends
      second.longest.ends lengths.le).eq_of_length lengths
  subst same
  obtain ⟨front, split, bounded⟩ := first.split
  obtain ⟨front', split', bounded'⟩ := second.split
  have equal : front ++ label = front' ++ label' :=
    List.append_cancel_right (split.symm.trans split')
  refine ⟨?_, rfl⟩
  rcases Nat.le_total label.length label'.length with shorter | longer
  · exact label_unique bounded second.undotted equal shorter
  · exact (label_unique bounded' first.undotted equal.symm longer).symm

theorem IsTopDomain.unique {host : JavaString}
    {answer answer' : Option JavaString} (first : IsTopDomain host answer)
    (second : IsTopDomain host answer') : answer = answer' := by
  cases answer with
  | none =>
      cases answer' with
      | none => rfl
      | some domain =>
          obtain ⟨label, suffix, last, -⟩ := second
          exact absurd last.longest.ends (first _ last.longest.listed)
  | some domain =>
      obtain ⟨label, suffix, last, rfl⟩ := first
      cases answer' with
      | none => exact absurd last.longest.ends (second _ last.longest.listed)
      | some domain =>
          obtain ⟨label', suffix', last', rfl⟩ := second
          obtain ⟨rfl, rfl⟩ := last.unique last'
          rfl

theorem followed_of_not_settled {labels : List JavaString}
    (unsettled : ¬ Settled labels) :
    ∃ place, followed labels = some place := by
  cases found : followed labels with
  | some place => exact ⟨place, rfl⟩
  | none =>
      exact absurd (fun place member begins =>
        absurd begins (List.find?_eq_none.mp found place member)) unsettled

/-- Where no suffix begins before the end of the host, both searches for a
label are the same. -/
theorem ended_eq_followed {labels : List JavaString}
    (settled : Settled labels) : ended labels = followed labels := by
  apply List.find?_congr
  intro place member
  apply Bool.eq_iff_iff.mpr
  constructor
  · intro listed
    rw [alternative_of_listed _ (List.contains_iff_mem.mp listed)]
    rfl
  · exact fun begins => List.contains_iff_mem.mpr
      (settled place member begins)

/-- The first match of the pattern is the top domain unless a suffix begins
before the end of the host. -/
theorem isTopDomain_findDomain_iff {labels : List JavaString}
    (whole : ∀ label ∈ labels, label ≠ [] ∧ '.' ∉ label) :
    IsTopDomain (hostText labels) (findDomain (hostText labels)) ↔
      Settled labels ∨ RepeatsDomain labels := by
  have answer := isTopDomain_ended whole
  rw [findDomain_hostText whole, findSome?_domainAt]
  constructor
  · intro right
    by_cases settled : Settled labels
    · exact .inl settled
    have same := right.unique answer
    obtain ⟨⟨label, tail⟩, first⟩ := followed_of_not_settled settled
    have begins : (alternative tail).isSome = true :=
      (List.find?_eq_some_iff_append.mp first).1
    obtain ⟨suffix, found⟩ := Option.isSome_iff_exists.mp begins
    change (followed labels).bind domainAt = _ at same
    rw [first, Option.bind_some, domainAt, found, Option.map_some] at same
    obtain ⟨⟨other, ending⟩, last, equal⟩ :=
      Option.map_eq_some_iff.mp same.symm
    have member := List.mem_of_find?_eq_some last
    have undotted : ∀ place ∈ places labels, '.' ∉ place.1 :=
      fun _ member => (whole _ (split_of_mem_places member).1).2
    obtain ⟨rfl, rfl⟩ := domain_injective (undotted _ member)
      (undotted _ (List.mem_of_find?_eq_some first))
      (List.contains_iff_mem.mp (List.find?_eq_some_iff_append.mp last).1)
      (List.mem_of_find?_eq_some found) equal
    exact .inr ⟨_, tail, _, first, found, last⟩
  · change _ → IsTopDomain _ ((followed labels).bind domainAt)
    rintro (settled | ⟨label, tail, suffix, first, found, last⟩)
    · rw [← ended_eq_followed settled]
      cases last : ended labels with
      | none =>
          rw [last] at answer
          exact answer
      | some place =>
          have listed : place.2 ∈ suffixes := List.contains_iff_mem.mp
            (List.find?_eq_some_iff_append.mp last).1
          rw [last] at answer
          rwa [Option.bind_some, domainAt, alternative_of_listed _ listed]
    · rw [last] at answer
      rwa [first, Option.bind_some, domainAt, found]

/-! ## Pages -/

/-- The host and the top domain of a page are extracted exactly if no query
and no fragment is right behind its authority, its url is not malformed and no
listed suffix begins before the end of its host, accidents apart. -/
theorem extracted_iff (platform : Platform) (url : UrlParts)
    (labels : List JavaString) (reads : Reads platform url labels) :
    Extracted platform url ↔ Extractable platform url labels := by
  have settled := isTopDomain_findDomain_iff reads.whole
  rw [← reads.lowered] at settled
  constructor
  · rintro ⟨hosted, answer, returned, top⟩
    obtain ⟨named, ends⟩ := url.getHostUrl_eq_some_iff.mp hosted
    obtain ⟨host, accepted, rfl⟩ := Option.map_eq_some_iff.mp returned
    obtain rfl := reads.host host accepted
    exact ⟨named, ends, Option.isSome_of_mem accepted, settled.mp top⟩
  · rintro ⟨named, ends, accepted, domain⟩
    refine ⟨url.getHostUrl_eq_some_iff.mpr ⟨named, ends⟩, _, ?_,
      settled.mpr domain⟩
    obtain ⟨host, accepted⟩ := Option.isSome_iff_exists.mp accepted
    obtain rfl := reads.host host accepted
    rw [getTopDomainWithoutSubdomain, accepted, Option.map_some]

theorem Extracted.topDomain_eq {platform : Platform} {url : UrlParts}
    {label suffix : JavaString} (extracted : Extracted platform url)
    (last : LastLabel (platform.lowerCase url.host) label suffix) :
    getTopDomainWithoutSubdomain platform url.text =
      some (some (label ++ suffix)) := by
  obtain ⟨answer, returned, top⟩ := extracted.domain
  have expected : IsTopDomain (platform.lowerCase url.host)
      (some (label ++ suffix)) := ⟨label, suffix, last, rfl⟩
  rw [returned, top.unique expected]

/-- Pages get the same top domain if the same label stands before the same
suffix, and different ones otherwise. -/
theorem topDomain_eq_iff {platform : Platform} {url url' : UrlParts}
    {label suffix label' suffix' : JavaString}
    (first : Extracted platform url) (second : Extracted platform url')
    (last : LastLabel (platform.lowerCase url.host) label suffix)
    (last' : LastLabel (platform.lowerCase url'.host) label' suffix') :
    getTopDomainWithoutSubdomain platform url.text =
        getTopDomainWithoutSubdomain platform url'.text ↔
      label = label' ∧ suffix = suffix' := by
  rw [first.topDomain_eq last, second.topDomain_eq last', Option.some.injEq,
    Option.some.injEq]
  constructor
  · exact domain_injective last.undotted last'.undotted last.longest.listed
      last'.longest.listed
  · rintro ⟨rfl, rfl⟩
    rfl

instance (labels : List JavaString) : Decidable (Settled labels) :=
  inferInstanceAs (Decidable (∀ place ∈ places labels,
    (alternative place.2).isSome = true → place.2 ∈ suffixes))

/-- The platform on ASCII texts, with the hosts of urls without a user. -/
def pagePlatform : Platform :=
  { asciiPlatform with
    urlHost := fun url =>
      (Library.Substring.firstOccurrence (text "://") url).map fun scheme =>
        (url.drop (scheme + 3)).takeWhile fun character =>
          !(text "/?#:").contains character }

theorem reads_of_computed {url : UrlParts} {labels : List JavaString}
    (computed : pagePlatform.urlHost url.text = some url.host)
    (lowered : pagePlatform.lowerCase url.host = hostText labels)
    (whole : ∀ label ∈ labels, label ≠ [] ∧ '.' ∉ label) :
    Reads pagePlatform url labels :=
  ⟨fun _ read => Option.some.inj (read.symm.trans computed), lowered, whole⟩

/-- A page of a blog, behind two subdomains. -/
def blogPage : UrlParts where
  scheme := text "http"
  labels := [text "1682235", text "blog", text "163", text "com"]
  port := none
  path := text "/blog/"
  query := none
  fragment := none
  schemed := by decide +kernel
  labelled := by decide +kernel
  numbered := by decide +kernel
  rooted := by decide +kernel
  unqueried := by decide +kernel
  unfragmented := by decide +kernel

theorem blogPage_extracted : Extracted pagePlatform blogPage := by
  apply (extracted_iff pagePlatform blogPage blogPage.labels
    (reads_of_computed (by decide +kernel) (by decide +kernel)
      (by decide +kernel))).mpr
  refine ⟨by decide +kernel, .inl (by decide +kernel), by decide +kernel,
    .inl ?_⟩
  decide +kernel

/-- A page whose query stands right behind its host. -/
def queryPage : UrlParts where
  scheme := text "http"
  labels := [text "baidu", text "com"]
  port := none
  path := []
  query := some (text "wd=a")
  fragment := none
  schemed := by decide +kernel
  labelled := by decide +kernel
  numbered := by decide +kernel
  rooted := by decide +kernel
  unqueried := by decide +kernel
  unfragmented := by decide +kernel

/-- A page with a label that begins with `com`. -/
def communityPage : UrlParts where
  scheme := text "http"
  labels := [text "www", text "community", text "org"]
  port := none
  path := text "/"
  query := none
  fragment := none
  schemed := by decide +kernel
  labelled := by decide +kernel
  numbered := by decide +kernel
  rooted := by decide +kernel
  unqueried := by decide +kernel
  unfragmented := by decide +kernel

/-- A query right behind the authority is returned with it, and a label that
begins with a suffix is cut there. -/
theorem queryPage_and_communityPage_not_extracted :
    Reads pagePlatform queryPage queryPage.labels ∧
      ¬ Extracted pagePlatform queryPage ∧
      Reads pagePlatform communityPage communityPage.labels ∧
      ¬ Extracted pagePlatform communityPage := by
  have whole : ∀ label ∈ communityPage.labels,
      label ≠ [] ∧ '.' ∉ label := by
    decide +kernel
  refine ⟨reads_of_computed (by decide +kernel) (by decide +kernel)
    (by decide +kernel), fun extracted => ?_,
    reads_of_computed (by decide +kernel) (by decide +kernel) whole,
    fun extracted => ?_⟩
  · exact absurd extracted.host (by decide +kernel)
  · obtain ⟨answer, returned, top⟩ := extracted.domain
    have lowered : pagePlatform.lowerCase communityPage.host =
        hostText communityPage.labels := by
      decide +kernel
    rw [lowered] at top
    obtain rfl := top.unique (isTopDomain_ended whole)
    exact absurd returned (by decide +kernel)

end WindowSystem.Sspserver.PageHosts
