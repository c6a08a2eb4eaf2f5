import Melissa.Base.Text
import Melissa.Launcher.State
import Melissa.Messages.Layout

/-! The messages of the server on their way to the launcher: `wait_message` of `melissa_comm4py.c`
turns them into texts, which `Messenger.run` splits. -/

namespace Melissa

open Text Utf8

section Wait

/-- `%g` of the C library. -/
structure Printf where
  g : BitVec 64 → List Char
  word : ∀ value, IsWord isPySpace (g value)
  ascii : ∀ value, ∀ c ∈ g value, c.toNat < 128

/-- `MELISSA_MESSAGE_LEN`, the size of the buffer of `Messenger.run`. -/
def melissaMessageLen : Nat := 1024

def literal (text : String) : Bytes := encode text.toList

def formatInt (i : BitVec 32) : Bytes := encode (decimal i.toInt)

/-- `sprintf` into the buffer; none if the text and its NUL do not fit. -/
def sprintf (text : Bytes) : Option Bytes :=
  if text.length < melissaMessageLen then some text else none

/-- `wait_message`; none if it reads a byte outside of the message, or exits. The NUL it writes
behind the message is not one of its bytes. -/
def waitMessage (printf : Printf) (msg : Bytes) : Option Bytes :=
  if msg.length < 1 then sprintf (literal "nothing ")
  else do
    let messageType ← readInt msg 0
    if messageType = MessageType.stop then sprintf (literal "stop ")
    else if messageType = MessageType.simuStatus then do
      let simuId ← readInt msg 4
      let status ← readInt msg 8
      sprintf (literal "group_state" ++ literal " " ++
        (formatInt simuId ++ literal " " ++ formatInt status))
    else if messageType = MessageType.server then do
      let rank ← readInt msg 4
      let nodeName ← readString msg 8
      sprintf (literal "server" ++ literal " " ++ (formatInt rank ++ literal " " ++ nodeName))
    else if messageType = MessageType.timeout then do
      let simuId ← readInt msg 4
      sprintf (literal "timeout" ++ literal " " ++ formatInt simuId)
    else if messageType = MessageType.hello ∨ messageType = MessageType.alive then
      sprintf (literal "alive")
    else if messageType = MessageType.confidenceInterval then do
      let statName ← readString msg 4
      let fieldName ← readString msg (4 + statName.length + 1)
      let value ← readDouble msg (msg.length - 8)
      sprintf (literal "interval" ++ literal " " ++
        (statName ++ literal " " ++ (fieldName ++ literal " " ++ encode (printf.g value))))
    else none

/-- `buff.value.decode().split()`. -/
def messengerWords (printf : Printf) (msg : Bytes) : Option (List (List Char)) := do
  let buff ← waitMessage printf msg
  let text ← decode buff
  some (words isPySpace text)

end Wait

section Outgoing

/-- The messages the server can send to the launcher. -/
inductive Outgoing where
  | stop
  | simuStatus (simuId status : BitVec 32)
  | serverName (nodeName : CString) (rank : BitVec 32)
  | timeout (simuId : BitVec 32)
  | alive
  | confidenceInterval (statName fieldName : CString) (value : BitVec 64)
  deriving DecidableEq

def Outgoing.message : Outgoing → Bytes
  | .stop => messageStop
  | .simuStatus simuId status => messageSimuStatus simuId status
  | .serverName nodeName rank => messageServerName nodeName rank
  | .timeout simuId => messageTimeout simuId
  | .alive => messageAlive
  | .confidenceInterval statName fieldName value =>
      messageConfidenceInterval statName fieldName value

def BlankFree (name : CString) : Prop :=
  ∀ text, decode name.bytes = some text → ∀ c ∈ text, isPySpace c = false

def Outgoing.BlankFree : Outgoing → Prop
  | .serverName nodeName _ => Melissa.BlankFree nodeName
  | .confidenceInterval statName fieldName _ =>
      Melissa.BlankFree statName ∧ Melissa.BlankFree fieldName
  | _ => True

/-- The words are the keyword of the message and its fields. -/
def Outgoing.Yields (printf : Printf) : Outgoing → List (List Char) → Prop
  | .stop, received => received = ["stop".toList]
  | .simuStatus simuId status, received => ∃ first second,
      received = ["group_state".toList, first, second] ∧ parseInt first = some simuId.toInt ∧
        parseInt second = some status.toInt
  | .serverName nodeName rank, received => ∃ first second,
      received = ["server".toList, first, second] ∧ parseInt first = some rank.toInt ∧
        decode nodeName.bytes = some second
  | .timeout simuId, received => ∃ first,
      received = ["timeout".toList, first] ∧ parseInt first = some simuId.toInt
  | .alive, received => received = ["alive".toList]
  | .confidenceInterval statName fieldName value, received => ∃ first second,
      received = ["interval".toList, first, second, printf.g value] ∧
        decode statName.bytes = some first ∧ decode fieldName.bytes = some second

/-- A name that is one word of a text. -/
structure Spelled (name : CString) : Prop where
  filled : name.bytes ≠ []
  valid : (decode name.bytes).isSome = true

/-- The messages that come through: no `TIMEOUT`, and names that are texts and fit the buffer. -/
def Outgoing.Readable (printf : Printf) : Outgoing → Prop
  | .timeout _ => False
  | .serverName nodeName rank => Spelled nodeName ∧
      nodeName.bytes.length + (decimal rank.toInt).length + 8 < melissaMessageLen
  | .confidenceInterval statName fieldName value => Spelled statName ∧ Spelled fieldName ∧
      statName.bytes.length + fieldName.bytes.length + (printf.g value).length + 11 <
        melissaMessageLen
  | _ => True

end Outgoing

section Branch

/-- The branch of `Messenger.run` the words lead to; none is an exception. The value of an
interval is only stored. -/
def messengerBranch : List (List Char) → Option ServerMessage
  | [] => none
  | keyword :: fields =>
      if keyword = "stop".toList then some .stop
      else if keyword = "timeout".toList then (fields[0]?.bind parseInt).map .timeout
      else if keyword = "group_state".toList then do
        let simuId ← fields[0]?.bind parseInt
        let status ← fields[1]?.bind parseInt
        some (.groupState simuId status)
      else if keyword = "server".toList then do
        let _ ← fields[0]?.bind parseInt
        let _ ← fields[1]?
        some .server
      else some .other

def Outgoing.serverMessage : Outgoing → ServerMessage
  | .stop => .stop
  | .simuStatus simuId status => .groupState simuId.toInt status.toInt
  | .serverName _ _ => .server
  | .timeout simuId => .timeout simuId.toInt
  | .alive => .other
  | .confidenceInterval _ _ _ => .other

/-- Whatever comes through is handled as the message that was sent. -/
theorem messengerBranch_of_yields {printf : Printf} {m : Outgoing} {received : List (List Char)}
    (yields : m.Yields printf received) : messengerBranch received = some m.serverMessage := by
  cases m with
  | stop =>
      cases yields
      rfl
  | simuStatus simuId status =>
      obtain ⟨first, second, rfl, parsed, parsed'⟩ := yields
      simp only [messengerBranch, List.getElem?_cons_zero, List.getElem?_cons_succ,
        Option.bind_some, parsed, parsed']
      rfl
  | serverName nodeName rank =>
      obtain ⟨first, second, rfl, parsed, _⟩ := yields
      simp only [messengerBranch, List.getElem?_cons_zero, List.getElem?_cons_succ,
        Option.bind_some, parsed]
      rfl
  | timeout simuId =>
      obtain ⟨first, rfl, parsed⟩ := yields
      simp only [messengerBranch, List.getElem?_cons_zero, Option.bind_some, parsed]
      rfl
  | alive =>
      cases yields
      rfl
  | confidenceInterval statName fieldName value =>
      obtain ⟨first, second, rfl, _, _⟩ := yields
      rfl

end Branch

section Texts

theorem formatInt_length (i : BitVec 32) :
    (formatInt i).length = (decimal i.toInt).length :=
  encode_ascii_length fun _ member => decimal_ascii member

theorem formatInt_small (i : BitVec 32) : (formatInt i).length ≤ 11 := by
  rw [formatInt_length]
  exact decimal_length (BitVec.le_toInt i) (BitVec.toInt_lt)

/-- The words of a decoded buffer. -/
def splitBytes (buff : Bytes) : Option (List (List Char)) :=
  (decode buff).map (words isPySpace)

theorem splitBytes_word {word : List Char} (isWord : IsWord isPySpace word) (bytes : Bytes) :
    splitBytes (encode word ++ literal " " ++ bytes) =
      (splitBytes bytes).map (word :: ·) := by
  have blank : literal " " = encode [' '] := rfl
  rw [splitBytes, List.append_assoc, decode_encode_append, blank, decode_encode_append,
    Option.map_map, Option.map_map, splitBytes, Option.map_map]
  congr 1
  funext text
  exact words_cons isWord (by decide) text

theorem splitBytes_last {word : List Char} (isWord : IsWord isPySpace word) :
    splitBytes (encode word) = some [word] := by
  rw [splitBytes, decode_encode, Option.map_some, words_word isWord]

theorem splitBytes_int (i : BitVec 32) (bytes : Bytes) :
    splitBytes (formatInt i ++ literal " " ++ bytes) =
      (splitBytes bytes).map (decimal i.toInt :: ·) :=
  splitBytes_word (isWord_decimal_pySpace i.toInt) bytes

theorem isWord_keyword {keyword : String}
    (plain : keyword.toList ≠ [] ∧ keyword.toList.all (fun c => !isPySpace c) = true) :
    IsWord isPySpace keyword.toList := by
  refine ⟨plain.1, ?_⟩
  intro c member
  simpa using List.all_eq_true.mp plain.2 c member

theorem splitBytes_keyword {keyword : String}
    (plain : keyword.toList ≠ [] ∧ keyword.toList.all (fun c => !isPySpace c) = true)
    (bytes : Bytes) :
    splitBytes (literal keyword ++ literal " " ++ bytes) =
      (splitBytes bytes).map (keyword.toList :: ·) :=
  splitBytes_word (isWord_keyword plain) bytes

/-- A spelled name without blanks is one word. -/
theorem exists_word {name : CString} (spelled : Spelled name) (blankFree : BlankFree name) :
    ∃ text, decode name.bytes = some text ∧ name.bytes = encode text ∧ IsWord isPySpace text := by
  obtain ⟨text, decoded⟩ := Option.isSome_iff_exists.mp spelled.valid
  have bytes := encode_of_decode decoded
  refine ⟨text, decoded, bytes, ?_, blankFree text decoded⟩
  rintro rfl
  exact spelled.filled bytes

theorem spelled_of_word {name : CString} {text : List Char}
    (decoded : decode name.bytes = some text) (filled : text ≠ []) : Spelled name := by
  refine ⟨?_, by rw [decoded]; rfl⟩
  intro empty
  rw [empty, decode_nil] at decoded
  exact filled (Option.some.inj decoded).symm

end Texts

section Arrives

variable (printf : Printf)

theorem messengerWords_eq {msg text : Bytes} (arrives : waitMessage printf msg = sprintf text) :
    messengerWords printf msg =
      if text.length < melissaMessageLen then splitBytes text else none := by
  rw [messengerWords, arrives, sprintf]
  split
  · simp only [Option.bind_eq_bind, Option.bind_some]
    rw [splitBytes]
    cases decode text with
    | none => rfl
    | some chars => rfl
  · rfl

theorem messengerWords_eq_some {msg text : Bytes} {received : List (List Char)}
    (arrives : waitMessage printf msg = sprintf text) :
    messengerWords printf msg = some received ↔
      text.length < melissaMessageLen ∧ splitBytes text = some received := by
  rw [messengerWords_eq printf arrives]
  split
  · rename_i fits
    simp [fits]
  · rename_i long
    simp [long]

theorem readType (messageType : BitVec 32) (rest : Bytes) :
    readInt (intBytes messageType ++ rest) 0 = some messageType :=
  @readInt_at [] messageType rest 0 rfl

theorem waitMessage_stop : waitMessage printf messageStop = sprintf (literal "stop ") := by
  have shape : messageStop = intBytes MessageType.stop ++ [] := rfl
  rw [shape, waitMessage, if_neg (by simp), readType]
  rfl

theorem waitMessage_alive : waitMessage printf messageAlive = sprintf (literal "alive") := by
  have shape : messageAlive = intBytes MessageType.alive ++ [] := rfl
  rw [shape, waitMessage, if_neg (by simp), readType]
  rfl

theorem waitMessage_timeout (simuId : BitVec 32) :
    waitMessage printf (messageTimeout simuId) = none := by
  have shape : messageTimeout simuId = intBytes MessageType.timeout ++ [] := rfl
  have lost : readInt (intBytes MessageType.timeout ++ []) 4 = none := by
    rw [readInt, readBytes, if_neg (by simp)]
    rfl
  rw [shape, waitMessage, if_neg (by simp), readType]
  simp only [Option.bind_eq_bind, Option.bind_some, lost]
  rfl

theorem waitMessage_simuStatus (simuId status : BitVec 32) :
    waitMessage printf (messageSimuStatus simuId status) =
      sprintf (literal "group_state" ++ literal " " ++
        (formatInt simuId ++ literal " " ++ formatInt status)) := by
  have shape : messageSimuStatus simuId status =
      intBytes MessageType.simuStatus ++ (intBytes simuId ++ intBytes status) :=
    zmqMsg_eq (by simp)
  have first := readInt_at simuId (intBytes status) (intBytes_length MessageType.simuStatus)
  have second := @readInt_at (intBytes MessageType.simuStatus ++ intBytes simuId) status [] 8
    (by simp)
  rw [List.append_nil, List.append_assoc] at second
  rw [shape, waitMessage, if_neg (by simp), readType]
  simp only [Option.bind_eq_bind, Option.bind_some, first, second]
  rfl

theorem waitMessage_serverName (nodeName : CString) (rank : BitVec 32) :
    waitMessage printf (messageServerName nodeName rank) =
      sprintf (literal "server" ++ literal " " ++
        (formatInt rank ++ literal " " ++ nodeName.bytes)) := by
  have shape : messageServerName nodeName rank =
      intBytes MessageType.server ++ (intBytes rank ++ stringBytes nodeName) :=
    zmqMsg_eq (by simp only [List.length_append, intBytes_length, stringBytes_length]; omega)
  have first := readInt_at rank (stringBytes nodeName) (intBytes_length MessageType.server)
  have second := @readString_at (intBytes MessageType.server ++ intBytes rank) nodeName [] 8
    (by simp)
  rw [List.append_nil, List.append_assoc] at second
  rw [shape, waitMessage, if_neg (by simp), readType]
  simp only [Option.bind_eq_bind, Option.bind_some, first, second]
  rfl

theorem waitMessage_confidenceInterval (statName fieldName : CString) (value : BitVec 64) :
    waitMessage printf (messageConfidenceInterval statName fieldName value) =
      sprintf (literal "interval" ++ literal " " ++ (statName.bytes ++ literal " " ++
        (fieldName.bytes ++ literal " " ++ encode (printf.g value)))) := by
  have shape : messageConfidenceInterval statName fieldName value =
      intBytes MessageType.confidenceInterval ++ (stringBytes statName ++
        (stringBytes fieldName ++ doubleBytes value)) :=
    zmqMsg_eq (by
      simp only [List.length_append, intBytes_length, stringBytes_length, doubleBytes_length]
      omega)
  have first := readString_at statName (stringBytes fieldName ++ doubleBytes value)
    (intBytes_length MessageType.confidenceInterval)
  have second := @readString_at (intBytes MessageType.confidenceInterval ++ stringBytes statName)
    fieldName (doubleBytes value) (4 + statName.bytes.length + 1)
    (by simp only [List.length_append, intBytes_length, stringBytes_length]; omega)
  have size : (intBytes MessageType.confidenceInterval ++ (stringBytes statName ++
      (stringBytes fieldName ++ doubleBytes value))).length - 8 =
        4 + (statName.bytes.length + 1) + (fieldName.bytes.length + 1) := by
    simp only [List.length_append, intBytes_length, stringBytes_length, doubleBytes_length]
    omega
  have third := @readDouble_at (intBytes MessageType.confidenceInterval ++ stringBytes statName ++
    stringBytes fieldName) value [] (4 + (statName.bytes.length + 1) + (fieldName.bytes.length + 1))
    (by simp only [List.length_append, intBytes_length, stringBytes_length])
  rw [List.append_assoc] at second
  rw [List.append_nil, List.append_assoc, List.append_assoc] at third
  rw [shape, waitMessage, if_neg (by simp), readType]
  simp only [Option.bind_eq_bind, Option.bind_some, first, second, size, third]
  rfl

end Arrives

section Survive

variable (printf : Printf)

theorem yields_simuStatus (simuId status : BitVec 32) :
    ∃ received, messengerWords printf (messageSimuStatus simuId status) = some received ∧
      (Outgoing.simuStatus simuId status).Yields printf received := by
  refine ⟨["group_state".toList, decimal simuId.toInt, decimal status.toInt], ?_,
    decimal simuId.toInt, decimal status.toInt, rfl, parseInt_decimal _, parseInt_decimal _⟩
  have first := formatInt_small simuId
  have second := formatInt_small status
  rw [messengerWords_eq_some printf (waitMessage_simuStatus printf simuId status)]
  constructor
  · have keyword : (literal "group_state").length = 11 := by decide
    have blank : (literal " ").length = 1 := by decide
    simp only [List.length_append, keyword, blank, melissaMessageLen]
    omega
  · rw [splitBytes_keyword (by decide), splitBytes_int, formatInt,
      splitBytes_last (isWord_decimal_pySpace _)]
    rfl

theorem yields_serverName_iff (nodeName : CString) (rank : BitVec 32)
    (blankFree : BlankFree nodeName) :
    (∃ received, messengerWords printf (messageServerName nodeName rank) = some received ∧
      (Outgoing.serverName nodeName rank).Yields printf received) ↔
      (Outgoing.serverName nodeName rank).Readable printf := by
  have length : (literal "server" ++ literal " " ++
      (formatInt rank ++ literal " " ++ nodeName.bytes)).length =
        nodeName.bytes.length + (decimal rank.toInt).length + 8 := by
    have keyword : (literal "server").length = 6 := by decide
    have blank : (literal " ").length = 1 := by decide
    simp only [List.length_append, keyword, blank, formatInt_length]
    omega
  have arrives := waitMessage_serverName printf nodeName rank
  constructor
  · rintro ⟨received, got, first, second, rfl, _, decoded⟩
    obtain ⟨fits, split⟩ := (messengerWords_eq_some printf arrives).mp got
    rw [length] at fits
    refine ⟨spelled_of_word decoded ?_, fits⟩
    obtain ⟨text, _, same⟩ := Option.map_eq_some_iff.mp split
    apply ne_nil_of_mem_words
    rw [same]
    simp
  · rintro ⟨spelled, fits⟩
    obtain ⟨text, decoded, bytes, isWord⟩ := exists_word spelled blankFree
    refine ⟨["server".toList, decimal rank.toInt, text], ?_, decimal rank.toInt, text, rfl,
      parseInt_decimal _, decoded⟩
    rw [messengerWords_eq_some printf arrives, length]
    refine ⟨fits, ?_⟩
    rw [splitBytes_keyword (by decide), splitBytes_int, bytes, splitBytes_last isWord]
    rfl

theorem yields_confidenceInterval_iff (statName fieldName : CString) (value : BitVec 64)
    (blankFree : BlankFree statName) (blankFree' : BlankFree fieldName) :
    (∃ received,
      messengerWords printf (messageConfidenceInterval statName fieldName value) = some received ∧
      (Outgoing.confidenceInterval statName fieldName value).Yields printf received) ↔
      (Outgoing.confidenceInterval statName fieldName value).Readable printf := by
  have length : (literal "interval" ++ literal " " ++ (statName.bytes ++ literal " " ++
      (fieldName.bytes ++ literal " " ++ encode (printf.g value)))).length =
        statName.bytes.length + fieldName.bytes.length + (printf.g value).length + 11 := by
    have keyword : (literal "interval").length = 8 := by decide
    have blank : (literal " ").length = 1 := by decide
    simp only [List.length_append, keyword, blank, encode_ascii_length (printf.ascii value)]
    omega
  have arrives := waitMessage_confidenceInterval printf statName fieldName value
  constructor
  · rintro ⟨received, got, first, second, rfl, decoded, decoded'⟩
    obtain ⟨fits, split⟩ := (messengerWords_eq_some printf arrives).mp got
    rw [length] at fits
    obtain ⟨text, _, same⟩ := Option.map_eq_some_iff.mp split
    have filled (word : List Char) (member : word ∈ [first, second]) : word ≠ [] := by
      apply ne_nil_of_mem_words
      rw [same]
      simp only [List.mem_cons, List.not_mem_nil, or_false] at member ⊢
      tauto
    exact ⟨spelled_of_word decoded (filled first (by simp)),
      spelled_of_word decoded' (filled second (by simp)), fits⟩
  · rintro ⟨spelled, spelled', fits⟩
    obtain ⟨text, decoded, bytes, isWord⟩ := exists_word spelled blankFree
    obtain ⟨text', decoded', bytes', isWord'⟩ := exists_word spelled' blankFree'
    refine ⟨["interval".toList, text, text', printf.g value], ?_, text, text', rfl, decoded,
      decoded'⟩
    rw [messengerWords_eq_some printf arrives, length]
    refine ⟨fits, ?_⟩
    rw [splitBytes_keyword (by decide), bytes, splitBytes_word isWord, bytes',
      splitBytes_word isWord', splitBytes_last (printf.word value)]
    rfl

/-- A message comes through exactly when it is no `TIMEOUT` and its names are not empty, are
texts and fit the buffer. -/
theorem textBridge_iff (m : Outgoing) (blankFree : m.BlankFree) :
    (∃ received, messengerWords printf m.message = some received ∧ m.Yields printf received) ↔
      m.Readable printf := by
  cases m with
  | stop =>
      refine iff_of_true ⟨["stop".toList], ?_, rfl⟩ trivial
      rw [Outgoing.message, messengerWords_eq_some printf (waitMessage_stop printf)]
      exact ⟨by decide, @splitBytes_keyword "stop" (by decide) []⟩
  | simuStatus simuId status => exact iff_of_true (yields_simuStatus printf simuId status) trivial
  | serverName nodeName rank => exact yields_serverName_iff printf nodeName rank blankFree
  | timeout simuId =>
      apply iff_of_false
      · rintro ⟨received, got, _⟩
        rw [Outgoing.message, messengerWords, waitMessage_timeout] at got
        cases got
      · exact id
  | alive =>
      refine iff_of_true ⟨["alive".toList], ?_, rfl⟩ trivial
      rw [Outgoing.message, messengerWords_eq_some printf (waitMessage_alive printf)]
      exact ⟨by decide, splitBytes_last (isWord_keyword (by decide))⟩
  | confidenceInterval statName fieldName value =>
      exact yields_confidenceInterval_iff printf statName fieldName value blankFree.1 blankFree.2

end Survive

section Examples

def nameOf (text : String) (clean : (0 : UInt8) ∉ encode text.toList) : CString :=
  ⟨encode text.toList, clean⟩

theorem blankFree_nameOf {text : String} {clean : (0 : UInt8) ∉ encode text.toList}
    (plain : text.toList.all (fun c => !isPySpace c) = true) :
    BlankFree (nameOf text clean) := by
  intro own decoded c member
  rw [nameOf, decode_encode] at decoded
  rw [← Option.some.inj decoded] at member
  simpa using List.all_eq_true.mp plain c member

/-- `%g` of one half. -/
def printfHalf : Printf where
  g _ := "0.5".toList
  word _ := isWord_keyword (by decide)
  ascii _ := List.all_iff_forall_prop.mp (by decide)

theorem textBridge_iff_half : ∃ received,
    messengerWords printfHalf (messageConfidenceInterval (nameOf "Sobol" (by decide))
      (nameOf "heat" (by decide)) 0x3FE0000000000000) = some received ∧
    (Outgoing.confidenceInterval (nameOf "Sobol" (by decide)) (nameOf "heat" (by decide))
      0x3FE0000000000000).Yields printfHalf received :=
  (textBridge_iff printfHalf (.confidenceInterval (nameOf "Sobol" (by decide))
    (nameOf "heat" (by decide)) 0x3FE0000000000000)
    ⟨blankFree_nameOf (by decide), blankFree_nameOf (by decide)⟩).mpr
    ⟨⟨by decide, by rw [nameOf, decode_encode]; rfl⟩,
      ⟨by decide, by rw [nameOf, decode_encode]; rfl⟩, by decide⟩

/-- The number of a `TIMEOUT` is not in the message. -/
theorem not_textBridge_timeout : ¬ ∃ received,
    messengerWords printfHalf (Outgoing.timeout 3).message = some received ∧
      (Outgoing.timeout 3).Yields printfHalf received := by
  rintro ⟨received, got, _⟩
  rw [Outgoing.message, messengerWords, waitMessage_timeout] at got
  cases got

end Examples

end Melissa
