import WindowSystem.ToolHashMap

/-!
# The files of search records

`mq_http_write_file.c` receives messages `id###record` and appends the record
to a file that is named after the id and the hour.  Open streams are kept in
`g_pFileNameHashMap`, one for each id, and are replaced when a message comes
in a later hour.
-/

namespace WindowSystem.MqHttpWriteFile

open WindowSystem.CRuntime
open WindowSystem.Library.Decimal
open WindowSystem.ToolHashMap

/-! ## Times and names of files -/

/-- Local time up to the hour. -/
structure Tm where
  year : Nat
  mon : Nat
  mday : Nat
  hour : Nat

/-- `%02d` -/
def twoDigits (number : Nat) : Bytes :=
  if number < 10 then 48 :: decimal number else decimal number

/-- `%d%02d%02d%02d` -/
def Tm.compact (tm : Tm) : Bytes :=
  decimal tm.year ++ twoDigits tm.mon ++ twoDigits tm.mday ++
    twoDigits tm.hour

/-- `strftime` with `"%Y-%m-%d %H"`. -/
def Tm.strftime (tm : Tm) : Bytes :=
  decimal tm.year ++ 45 :: twoDigits tm.mon ++ 45 :: twoDigits tm.mday ++
    32 :: twoDigits tm.hour

/-- `RECORD_HTTP_PATH` -/
def RECORD_HTTP_PATH : Bytes :=
  ascii "/home/DCServer/mq_info/"

/-- `online_file_name` -/
def onlineFileName (idPrefix : Bytes) (tm : Tm) : Bytes :=
  RECORD_HTTP_PATH ++ idPrefix ++ 95 :: tm.compact ++ ascii ".txt"

/-! ## Streams -/

/-- `KFileType`; a stream appends to the file with this name, and `none` is
`NULL`. -/
structure KFileType where
  lmqStream : Option Bytes
  createTime : Bytes

/-- The contents of all files by their names. -/
abbrev Files := Bytes → Bytes

def Files.append (files : Files) (name bytes : Bytes) : Files :=
  Function.update files name (files name ++ bytes)

structure Server where
  files : Files
  g_pFileNameHashMap : HashMap KFileType

/-- What a call does with memory and streams: it uses the result of `strstr`,
reads the message up to an offset, writes to a stream and closes one. -/
inductive Access where
  | front (found : Option Nat)
  | read (stop size : Nat)
  | fwrite (stream : Option Bytes)
  | fclose (stream : Option Bytes)

/-- Nothing is read outside of the message, and no `NULL` is used. -/
def Access.valid : Access → Prop
  | front found => found.isSome = true
  | read stop size => stop ≤ size
  | fwrite stream => stream.isSome = true
  | fclose stream => stream.isSome = true

/-! ## The program -/

/-- The surroundings of a call: the time, whether the file can be opened, and
what lies in the memory behind the buffer. -/
structure Arrival where
  tm : Tm
  opens : Bool
  beyond : Nat → UInt8

/-- `len` bytes from an offset of the buffer on. -/
def Arrival.bytesAt (arrival : Arrival) (str_msg : Bytes) (start len : Nat) :
    Bytes :=
  (List.range len).map fun index =>
    (str_msg[start + index]?).getD (arrival.beyond (start + index))

/-- `online_write_file` -/
def onlineWriteFile (opens : Bool) (files : Files)
    (lmqStream : Option Bytes) (file_name bytes : Bytes) :
    Files × Access :=
  match lmqStream.or (if opens then some file_name else none) with
  | none => (files, .fwrite none)
  | some name => (files.append name (bytes ++ [10]), .fwrite (some name))

/-- The last line of `online_file_cache_put`: `len` is the length of the
whole message. -/
def writeRecord (server : Server) (arrival : Arrival) (str_msg : Bytes)
    (front len : Nat) (lmqStream : Option Bytes) (fileName : Bytes) :
    Server × List Access :=
  let written := onlineWriteFile arrival.opens server.files lmqStream
    fileName (arrival.bytesAt str_msg (front + 3) len)
  ({ server with files := written.1 }, [.read (front + 3 + len) len, written.2])

/-- `online_file_cache_put` -/
def onlineFileCachePut (server : Server) (arrival : Arrival)
    (str_msg : Bytes) (len : Nat) : Server × List Access :=
  match strstr (cString str_msg) (ascii "###") with
  | none => (server, [.front none])
  | some front =>
      let idPrefix := str_msg.take front
      let fileName := onlineFileName idPrefix arrival.tm
      let ctime := arrival.tm.strftime
      let map := server.g_pFileNameHashMap
      match findObject map idPrefix idPrefix.length with
      | none => (server, [.fwrite none])
      | some none =>
          if arrival.opens then
            writeRecord
              { server with
                g_pFileNameHashMap :=
                  hashMapInsert map idPrefix idPrefix.length
                    (some ⟨some fileName, ctime⟩) }
              arrival str_msg front len (some fileName) fileName
          else (server, [])
      | some (some KFCStream) =>
          if KFCStream.createTime < ctime then
            let key := fingerprint map.hashLen idPrefix idPrefix.length
            if arrival.opens then
              let written := writeRecord
                { server with
                  g_pFileNameHashMap :=
                    hashMapInsert
                      (map.writeValue key fun _ => ⟨some fileName, ctime⟩)
                      idPrefix idPrefix.length
                      (some ⟨some fileName, ctime⟩) }
                arrival str_msg front len (some fileName) fileName
              (written.1, .fclose KFCStream.lmqStream :: written.2)
            else
              ({ server with
                g_pFileNameHashMap :=
                  map.writeValue key fun _ => ⟨none, ctime⟩ },
                [.fclose KFCStream.lmqStream])
          else
            writeRecord server arrival str_msg front len
              KFCStream.lmqStream fileName

/-- A message `id###record` and the surroundings in which it arrives. -/
structure Message where
  id : Int
  isInt : -2 ^ 31 ≤ id ∧ id < 2 ^ 31
  record : Bytes
  short : record.length < 4096
  arrival : Arrival

def Message.text (message : Message) : Bytes :=
  decimalInt message.id ++ ascii "###" ++ message.record

/-- `zmq_recv` into `char msg[4096] = {0}`. -/
def received (text : Bytes) : Bytes :=
  (text ++ List.replicate 4096 0).take 4096

/-- One pass of `http_file_server_thread`. -/
def serve (server : Server) (message : Message) : Server × List Access :=
  onlineFileCachePut server message.arrival (received message.text)
    message.text.length

/-- The passes of `http_file_server_thread` for the messages that come. -/
def run (server : Server) : List Message → Server × List Access
  | [] => (server, [])
  | message :: messages =>
      let served := serve server message
      let later := run served.1 messages
      (later.1, served.2 ++ later.2)

/-- After `rule_crown_search_init`. -/
def initial (files : Files) : Server where
  files := files
  g_pFileNameHashMap := hashMapNew 100

/-! ## What the files should hold -/

/-- The file for a message. -/
def Message.file (message : Message) : Bytes :=
  onlineFileName (decimalInt message.id) message.arrival.tm

/-- Each record is appended to its file with a newline.  One is left out only
if its file cannot be opened and is not open. -/
inductive Appended : List Bytes → List Message → Files → Files → Prop where
  | done {opened : List Bytes} {files : Files} :
      Appended opened [] files files
  | record {opened : List Bytes} {message : Message}
      {messages : List Message} {files last : Files} :
      Appended (message.file :: opened) messages
          (files.append message.file (message.record ++ [10])) last →
        Appended opened (message :: messages) files last
  | unopened {opened : List Bytes} {message : Message}
      {messages : List Message} {files last : Files} :
      message.arrival.opens = false → message.file ∉ opened →
        Appended opened messages files last →
          Appended opened (message :: messages) files last

/-- The files hold the records, and every access is valid. -/
def Records (files : Files) (messages : List Message) : Prop :=
  Appended [] messages files (run (initial files) messages).1.files ∧
    ∀ access ∈ (run (initial files) messages).2, access.valid

/-! ## The parts of a message -/

/-- A message as it lies in the buffer. -/
theorem received_text (message : Message) : ∃ rest,
    received message.text =
      decimalInt message.id ++ ascii "###" ++ rest := by
  have small : message.id.natAbs < 10 ^ 10 := by
    have range := message.isInt
    omega
  have short := length_decimalInt_le (by omega) small
  have front : decimalInt message.id ++ ascii "###" <+:
      received message.text := by
    rw [received, List.prefix_take_iff]
    constructor
    · rw [Message.text, List.append_assoc _ message.record]
      exact List.prefix_append _ _
    · rw [List.length_append]
      exact (Nat.add_le_add_right short 3).trans (by omega)
  obtain ⟨rest, whole⟩ := front
  exact ⟨rest, whole.symm⟩

theorem not_mem_id {id : Int} {byte : UInt8} (noSign : byte ≠ 45)
    (noDigit : isDigit byte = false) : byte ∉ decimalInt id :=
  not_mem_decimalInt noSign noDigit

/-- The marks are found behind the id. -/
theorem strstr_received (message : Message) :
    strstr (cString (received message.text)) (ascii "###") =
      some (decimalInt message.id).length := by
  obtain ⟨rest, whole⟩ := received_text message
  have noNul : ∀ byte ∈ decimalInt message.id ++ ascii "###",
      (byte != 0) = true := by
    intro byte member
    rcases List.mem_append.mp member with digit | mark
    · exact bne_iff_ne.mpr fun zero =>
        not_mem_id (by decide) (by decide) (zero ▸ digit)
    · have marks : ∀ byte ∈ ascii "###", (byte != 0) = true := by
        decide +kernel
      exact marks byte mark
  rw [whole, cString, List.takeWhile_append_of_pos noNul, strstr]
  have nonempty : ascii "###" ≠ [] := by decide +kernel
  refine (Library.Substring.firstOccurrence_append_iff nonempty _ _).mpr
    fun early => ?_
  have marks := early.sublist.count_le 35
  rw [List.count_append, List.count_eq_zero_of_not_mem
    (not_mem_id (by decide) (by decide))] at marks
  exact absurd marks (by decide)

theorem take_received (message : Message) :
    (received message.text).take (decimalInt message.id).length =
      decimalInt message.id := by
  obtain ⟨rest, whole⟩ := received_text message
  rw [whole, List.append_assoc, List.take_left]

/-! ## Runs in which nothing can be opened -/

theorem searchable_initial (files : Files) :
    (initial files).g_pFileNameHashMap.Searchable :=
  ⟨show (0 : UInt32) < 100 by decide,
    show (100 : UInt32).toNat ≤ 2 ^ 31 by decide⟩

theorem findObject_initial (files : Files) (start : Bytes) (len : Int) :
    findObject (initial files).g_pFileNameHashMap start len = some none := by
  rw [findObject_eq_missing_iff (searchable_initial files)]
  rfl

/-- The first message of an id does nothing, when its file cannot be opened,
and reads behind the message, when it can. -/
theorem serve_initial (files : Files) (message : Message) :
    serve (initial files) message =
      if message.arrival.opens then
        writeRecord
          { initial files with
            g_pFileNameHashMap :=
              hashMapInsert (hashMapNew 100) (decimalInt message.id)
                (decimalInt message.id).length
                (some ⟨some message.file, message.arrival.tm.strftime⟩) }
          message.arrival (received message.text)
          (decimalInt message.id).length message.text.length
          (some message.file) message.file
      else (initial files, []) := by
  simp only [serve, onlineFileCachePut, strstr_received, take_received,
    findObject_initial]
  rfl

theorem not_valid_writeRecord {server : Server} {arrival : Arrival}
    {str_msg fileName : Bytes} {front len : Nat} {lmqStream : Option Bytes} :
    ¬ ∀ access ∈ (writeRecord server arrival str_msg front len lmqStream
      fileName).2, access.valid := by
  intro valid
  have inside : front + 3 + len ≤ len := valid _ List.mem_cons_self
  omega

theorem run_unopened {files : Files} {messages : List Message}
    (unopened : ∀ message ∈ messages, message.arrival.opens = false) :
    run (initial files) messages = (initial files, []) := by
  induction messages with
  | nil => rfl
  | cons message messages induction =>
      rw [List.forall_mem_cons] at unopened
      rw [run, serve_initial, if_neg (by simp [unopened.1]),
        induction unopened.2]
      rfl

theorem appended_unopened {files : Files} {messages : List Message}
    (unopened : ∀ message ∈ messages, message.arrival.opens = false) :
    Appended [] messages files files := by
  induction messages with
  | nil => exact .done
  | cons message messages induction =>
      rw [List.forall_mem_cons] at unopened
      exact .unopened unopened.1 List.not_mem_nil (induction unopened.2)

theorem unopened_of_valid {files : Files} {messages : List Message}
    (valid : ∀ access ∈ (run (initial files) messages).2, access.valid) :
    ∀ message ∈ messages, message.arrival.opens = false := by
  induction messages with
  | nil => simp
  | cons message messages induction =>
      rw [run, serve_initial] at valid
      rw [List.forall_mem_cons]
      cases opens : message.arrival.opens with
      | true =>
          rw [if_pos opens] at valid
          exact absurd (fun access member =>
            valid access (List.mem_append_left _ member))
            not_valid_writeRecord
      | false =>
          rw [if_neg (by simp [opens])] at valid
          exact ⟨rfl, induction valid⟩

theorem records_iff {files : Files} {messages : List Message} :
    Records files messages ↔
      ∀ message ∈ messages, message.arrival.opens = false := by
  constructor
  · exact fun records => unopened_of_valid records.2
  · intro unopened
    rw [Records, run_unopened unopened]
    exact ⟨appended_unopened unopened, by simp⟩

/-! ## Runs in which everything can be opened -/

theorem isDigit_of_mem_twoDigits {number : Nat} {byte : UInt8}
    (member : byte ∈ twoDigits number) : isDigit byte = true := by
  unfold twoDigits at member
  split at member
  · rcases List.mem_cons.mp member with rfl | later
    · rfl
    · exact isDigit_of_mem_decimal later
  · exact isDigit_of_mem_decimal member

/-- The time in the name of a file is the other text of the time without its
separators. -/
theorem compact_eq (tm : Tm) : tm.compact = tm.strftime.filter isDigit := by
  have year : (decimal tm.year).filter isDigit = decimal tm.year :=
    List.filter_eq_self.mpr fun _ => isDigit_of_mem_decimal
  have part (number : Nat) :
      (twoDigits number).filter isDigit = twoDigits number :=
    List.filter_eq_self.mpr fun _ => isDigit_of_mem_twoDigits
  have separators : isDigit 45 = false ∧ isDigit 32 = false := by decide
  simp [Tm.compact, Tm.strftime, year, part, separators]

/-- What is read behind the message. -/
def Message.behind (message : Message) : Bytes :=
  message.arrival.bytesAt (received message.text) message.text.length
    ((decimalInt message.id).length + 3)

theorem length_text (message : Message) :
    message.text.length =
      (decimalInt message.id).length + 3 + message.record.length := by
  rw [Message.text, List.length_append, List.length_append]
  rfl

theorem bytesAt_text (message : Message)
    (fits : message.text.length ≤ 4096) :
    message.arrival.bytesAt (received message.text)
        ((decimalInt message.id).length + 3) message.record.length =
      message.record := by
  have whole : received message.text =
      message.text ++ List.replicate (4096 - message.text.length) 0 := by
    rw [received, List.take_append, List.take_of_length_le fits,
      List.take_replicate]
    congr 2
    omega
  apply List.ext_getElem
  · simp [Arrival.bytesAt]
  · intro index inside within
    have front : (decimalInt message.id ++ ascii "###").length =
        (decimalInt message.id).length + 3 := by
      rw [List.length_append]
      rfl
    have place : (message.text ++
        List.replicate (4096 - message.text.length) 0)[
          (decimalInt message.id).length + 3 + index]? =
        some message.record[index] := by
      rw [List.getElem?_append_left (by rw [length_text]; omega),
        Message.text, ← front,
        List.getElem?_append_right (Nat.le_add_right _ _),
        Nat.add_sub_cancel_left, List.getElem?_eq_getElem within]
    simp only [Arrival.bytesAt, List.getElem_map, List.getElem_range, whole,
      place, Option.getD_some]

/-- What is written is the record and what lies behind the message. -/
theorem bytesAt_received (message : Message)
    (fits : message.text.length ≤ 4096) :
    message.arrival.bytesAt (received message.text)
        ((decimalInt message.id).length + 3) message.text.length =
      message.record ++ message.behind := by
  have parts : message.text.length =
      message.record.length + ((decimalInt message.id).length + 3) := by
    rw [length_text, Nat.add_comm]
  rw [← bytesAt_text message fits, Message.behind]
  conv_lhs => rw [parts]
  rw [Arrival.bytesAt, List.range_add, List.map_append, List.map_map,
    Arrival.bytesAt, Arrival.bytesAt, length_text]
  congr 1
  apply List.map_congr_left
  intro index _
  simp only [Function.comp_apply, Nat.add_assoc, Nat.add_left_comm]

/-- What is stored for the id of a message. -/
def Message.key (message : Message) : Fingerprint :=
  fingerprint 100 (decimalInt message.id) (decimalInt message.id).length

/-- An open stream leads to the file of the time that is stored with it, and
the clock has not gone back since. -/
def Known (server : Server) (message : Message) : Prop :=
  server.g_pFileNameHashMap.lookup message.key = none ∨
    ∃ tm : Tm, tm.strftime ≤ message.arrival.tm.strftime ∧
      server.g_pFileNameHashMap.lookup message.key =
        some (some ⟨some (onlineFileName (decimalInt message.id) tm),
          tm.strftime⟩)

/-- What a message does whose file can be opened. -/
structure Written (server : Server) (message : Message) (last : Server)
    (accesses : List Access) : Prop where
  files : last.files = server.files.append message.file
    (message.record ++ message.behind ++ [10])
  accesses : ∀ access ∈ accesses, access.valid ∨
    access = .read ((decimalInt message.id).length + 3 +
      message.text.length) message.text.length
  hashLen : last.g_pFileNameHashMap.hashLen = 100
  same : last.g_pFileNameHashMap.lookup message.key =
    some (some ⟨some message.file, message.arrival.tm.strftime⟩)
  other : ∀ key, key ≠ message.key →
    last.g_pFileNameHashMap.lookup key =
      server.g_pFileNameHashMap.lookup key

theorem written_writeRecord {server : Server} {message : Message}
    {map : HashMap KFileType} (fits : message.text.length ≤ 4096)
    (hashLen : map.hashLen = 100)
    (same : map.lookup message.key =
      some (some ⟨some message.file, message.arrival.tm.strftime⟩))
    (other : ∀ key, key ≠ message.key →
      map.lookup key = server.g_pFileNameHashMap.lookup key) :
    Written server message
      (writeRecord { server with g_pFileNameHashMap := map } message.arrival
        (received message.text) (decimalInt message.id).length
        message.text.length (some message.file) message.file).1
      (writeRecord { server with g_pFileNameHashMap := map } message.arrival
        (received message.text) (decimalInt message.id).length
        message.text.length (some message.file) message.file).2 where
  files := by
    rw [← bytesAt_received message fits]
    rfl
  accesses := by
    intro access member
    rcases List.mem_cons.mp member with rfl | last
    · exact .inr rfl
    · obtain rfl := List.mem_singleton.mp last
      exact .inl rfl
  hashLen := hashLen
  same := same
  other := other

theorem written_insert {server : Server} {message : Message}
    {map : HashMap KFileType} (fits : message.text.length ≤ 4096)
    (hashLen : map.hashLen = 100)
    (other : ∀ key, key ≠ message.key →
      map.lookup key = server.g_pFileNameHashMap.lookup key)
    {inserted : HashMap KFileType}
    (made : inserted = hashMapInsert map (decimalInt message.id)
      (decimalInt message.id).length
      (some ⟨some message.file, message.arrival.tm.strftime⟩)) :
    Written server message
      (writeRecord { server with g_pFileNameHashMap := inserted }
        message.arrival (received message.text)
        (decimalInt message.id).length message.text.length
        (some message.file) message.file).1
      (writeRecord { server with g_pFileNameHashMap := inserted }
        message.arrival (received message.text)
        (decimalInt message.id).length message.text.length
        (some message.file) message.file).2 := by
  have key : message.key = fingerprint map.hashLen (decimalInt message.id)
      (decimalInt message.id).length := by
    rw [hashLen]
    rfl
  subst made
  apply written_writeRecord fits
  · rw [hashLen_hashMapInsert, hashLen]
  · rw [key, lookup_hashMapInsert_same]
    rfl
  · intro different apart
    rw [lookup_hashMapInsert_other _ _ _ _ (key ▸ apart),
      other different apart]

theorem findObject_stored {server : Server} {message : Message}
    {KFCStream : KFileType}
    (hashLen : server.g_pFileNameHashMap.hashLen = 100)
    (stored : server.g_pFileNameHashMap.lookup message.key =
      some (some KFCStream)) :
    findObject server.g_pFileNameHashMap (decimalInt message.id)
      (decimalInt message.id).length = some (some KFCStream) := by
  have searchable : server.g_pFileNameHashMap.Searchable := by
    rw [HashMap.Searchable, hashLen]
    decide
  rw [findObject_eq_found_iff searchable, hashLen]
  exact stored

theorem written_serve {server : Server} {message : Message}
    (opens : message.arrival.opens = true)
    (fits : message.text.length ≤ 4096)
    (hashLen : server.g_pFileNameHashMap.hashLen = 100)
    (known : Known server message) :
    Written server message (serve server message).1
      (serve server message).2 := by
  simp only [serve, onlineFileCachePut, strstr_received, take_received]
  rcases known with absent | ⟨tm, before, stored⟩
  · have searchable : server.g_pFileNameHashMap.Searchable := by
      rw [HashMap.Searchable, hashLen]
      decide
    have missing : findObject server.g_pFileNameHashMap
        (decimalInt message.id) (decimalInt message.id).length =
          some none := by
      rw [findObject_eq_missing_iff searchable, hashLen]
      exact absent
    simp only [missing, opens, if_true]
    exact written_insert fits hashLen (fun _ _ => rfl) rfl
  · simp only [findObject_stored hashLen stored, opens, if_true]
    by_cases later : tm.strftime < message.arrival.tm.strftime
    · have key : message.key = fingerprint
          server.g_pFileNameHashMap.hashLen (decimalInt message.id)
          (decimalInt message.id).length := by
        rw [hashLen]
        rfl
      have written := @written_insert server message
        (server.g_pFileNameHashMap.writeValue message.key fun _ =>
          ⟨some message.file, message.arrival.tm.strftime⟩) fits hashLen
        (fun _ apart => lookup_writeValue_other _ apart _) _ rfl
      rw [if_pos later, ← key]
      refine { written with accesses := ?_ }
      intro access member
      rcases List.mem_cons.mp member with rfl | last
      · exact .inl rfl
      · exact written.accesses access last
    · have equal : tm.strftime = message.arrival.tm.strftime :=
        List.le_antisymm before later
      have file : onlineFileName (decimalInt message.id) tm =
          message.file := by
        rw [Message.file, onlineFileName, onlineFileName, compact_eq,
          compact_eq, equal]
      rw [if_neg later, file]
      rw [file, equal] at stored
      exact written_writeRecord fits hashLen stored fun _ _ => rfl

/-- Every file can be opened, the messages fit into the buffer, the ids are told
apart, and the clock does not go back. -/
structure AllOpened (messages : List Message) : Prop where
  opens : ∀ message ∈ messages, message.arrival.opens = true
  fits : ∀ message ∈ messages, message.text.length ≤ 4096
  apart : ∀ message ∈ messages, ∀ other ∈ messages,
    message.key = other.key → message.id = other.id
  forward : messages.Pairwise fun message later =>
    message.arrival.tm.strftime ≤ later.arrival.tm.strftime

/-- Each record goes to its file through an open stream, followed by what lies
behind the message. -/
structure RecordsWithRest (files : Files) (messages : List Message) :
    Prop where
  written : (run (initial files) messages).1.files =
    messages.foldl (fun files message => files.append message.file
      (message.record ++ message.behind ++ [10])) files
  accesses : ∀ access ∈ (run (initial files) messages).2, access.valid ∨
    ∃ message ∈ messages, access =
      .read ((decimalInt message.id).length + 3 + message.text.length)
        message.text.length

theorem run_opened {files : Files} {messages : List Message}
    (all : AllOpened messages) : RecordsWithRest files messages := by
  obtain ⟨opens, fits, apart, forward⟩ := all
  have general (server : Server)
      (hashLen : server.g_pFileNameHashMap.hashLen = 100)
      (known : ∀ message ∈ messages, Known server message) :
      (run server messages).1.files =
          messages.foldl (fun files message => files.append message.file
            (message.record ++ message.behind ++ [10])) server.files ∧
        ∀ access ∈ (run server messages).2, access.valid ∨
          ∃ message ∈ messages, access =
            .read ((decimalInt message.id).length + 3 + message.text.length)
              message.text.length := by
    induction messages generalizing server with
    | nil => exact ⟨rfl, by simp [run]⟩
    | cons message messages induction =>
        rw [List.forall_mem_cons] at opens fits known
        rw [List.pairwise_cons] at forward
        have written := written_serve opens.1 fits.1 hashLen known.1
        have later : ∀ other ∈ messages,
            Known (serve server message).1 other := by
          intro other member
          by_cases same : other.key = message.key
          · have id := apart other (List.mem_cons_of_mem _ member) message
              List.mem_cons_self same
            refine .inr ⟨message.arrival.tm, forward.1 other member, ?_⟩
            rw [same, written.same, id]
            rfl
          · rw [Known, written.other other.key same]
            exact known.2 other member
        obtain ⟨rest, accesses⟩ := induction opens.2 fits.2
          (fun first inside second within =>
            apart first (List.mem_cons_of_mem _ inside) second
              (List.mem_cons_of_mem _ within))
          forward.2 (serve server message).1 written.hashLen later
        constructor
        · rw [run, List.foldl_cons, ← written.files]
          exact rest
        · intro access member
          rcases List.mem_append.mp member with first | behind
          · exact (written.accesses access first).imp_right fun equal =>
              ⟨message, List.mem_cons_self, equal⟩
          · exact (accesses access behind).imp_right
              fun ⟨other, inside, equal⟩ =>
                ⟨other, List.mem_cons_of_mem _ inside, equal⟩
  obtain ⟨written, accesses⟩ :=
    general (initial files) rfl fun message _ => .inl rfl
  exact ⟨written, accesses⟩

/-! ## Streams that are `NULL` -/

section Null

variable {server : Server} {message : Message} {KFCStream : KFileType}

/-- A file that cannot be opened in a new hour leaves `NULL` behind. -/
theorem serve_rotation_failed
    (hashLen : server.g_pFileNameHashMap.hashLen = 100)
    (stored : server.g_pFileNameHashMap.lookup message.key =
      some (some KFCStream))
    (later : KFCStream.createTime < message.arrival.tm.strftime)
    (unopened : message.arrival.opens = false) :
    (serve server message).1.g_pFileNameHashMap.hashLen = 100 ∧
      (serve server message).1.g_pFileNameHashMap.lookup message.key =
        some (some ⟨none, message.arrival.tm.strftime⟩) := by
  simp only [serve, onlineFileCachePut, strstr_received, take_received,
    findObject_stored hashLen stored, if_pos later, unopened,
    Bool.false_eq_true, if_false, hashLen]
  refine ⟨hashLen, ?_⟩
  show ((server.g_pFileNameHashMap.writeValue message.key fun _ =>
    ⟨none, message.arrival.tm.strftime⟩).lookup message.key) = _
  rw [lookup_writeValue_same, stored]
  rfl

/-- After that `NULL` is closed or written to, unless the file can be opened
before the hour ends. -/
theorem serve_null_iff
    (hashLen : server.g_pFileNameHashMap.hashLen = 100) {time : Bytes}
    (stored : server.g_pFileNameHashMap.lookup message.key =
      some (some ⟨none, time⟩)) :
    (Access.fclose none ∉ (serve server message).2 ∧
        Access.fwrite none ∉ (serve server message).2) ↔
      ¬ time < message.arrival.tm.strftime ∧
        message.arrival.opens = true := by
  simp only [serve, onlineFileCachePut, strstr_received, take_received,
    findObject_stored hashLen stored]
  by_cases later : time < message.arrival.tm.strftime
  · cases opens : message.arrival.opens <;> simp [later]
  · cases opens : message.arrival.opens <;>
      simp [later, opens, writeRecord, onlineWriteFile]

end Null

/-- Exactly the runs in which no file can be opened are right.  Where every
file can be opened, only the number of bytes is wrong; and a file that cannot
be opened in a new hour leaves a stream that is `NULL`, which the next message
of the id closes or writes to unless it comes in the same hour and finds the
file open. -/
theorem online_file_cache_put_records_iff (files : Files)
    (messages : List Message) :
    (Records files messages ↔
      ∀ message ∈ messages, message.arrival.opens = false) ∧
    (AllOpened messages → RecordsWithRest files messages) ∧
    ∀ (server : Server) (message next : Message) (KFCStream : KFileType),
      server.g_pFileNameHashMap.hashLen = 100 →
      server.g_pFileNameHashMap.lookup message.key =
        some (some KFCStream) →
      KFCStream.createTime < message.arrival.tm.strftime →
      message.arrival.opens = false → next.key = message.key →
      ((Access.fclose none ∉ (serve (serve server message).1 next).2 ∧
          Access.fwrite none ∉ (serve (serve server message).1 next).2) ↔
        ¬ message.arrival.tm.strftime < next.arrival.tm.strftime ∧
          next.arrival.opens = true) := by
  refine ⟨records_iff, run_opened, ?_⟩
  intro server message next KFCStream hashLen stored later unopened same
  obtain ⟨kept, left⟩ :=
    serve_rotation_failed hashLen stored later unopened
  rw [← same] at left
  exact serve_null_iff kept left

/-! ## One message -/

/-- The record `abc` for the ad 7. -/
def sampleMessage : Message where
  id := 7
  isInt := by decide
  record := ascii "abc"
  short := by decide
  arrival := ⟨⟨2015, 6, 1, 12⟩, true, fun _ => 0⟩

/-- The record is not written as it is. -/
theorem sampleMessage_not_recorded :
    ¬ Records (fun _ => []) [sampleMessage] := by
  intro records
  have unopened := unopened_of_valid records.2 sampleMessage
    List.mem_cons_self
  cases unopened

end WindowSystem.MqHttpWriteFile
