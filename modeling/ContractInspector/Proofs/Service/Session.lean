import ContractInspector.Machine.Computer
import ContractInspector.Proofs.Json.Nesting
import ContractInspector.Proofs.Service.Routing

/-! Sessions. `session_answers` says that each frame that is read gets one message, in order, which depends
on this frame and on the host alone. A frame that is not read ends the session, and so does one whose answer
the connection has no bytes for. -/
namespace ContractInspector.Service

open Json (IsJson Value nested)

variable {σ : Type} (on : Surroundings σ)

/-- The message that a frame gets on a host in some state, and the host after it. -/
def exchange (frame : String) (state : σ) : Value × σ :=
  match Json.read on.depth frame.toList with
  | .error fault => (fatal (fault.message frame.toList), state)
  | .ok value =>
    let (message, last) := answerFrame on value state
    match on.connection.refusal? message with
    | some text => (fatal text, last)
    | none => (message, last)

/-- The host after some frames. -/
def hostAfter (frames : List String) (state : σ) : σ :=
  frames.foldl (fun state frame => (exchange on frame state).2) state

/-- A frame is one of the JSON texts that are read. -/
def Readable (frame : String) : Prop :=
  IsJson .readable on.depth frame.toList

/-- A frame writes a value whose answer can be sent. -/
structure Answered (frame : String) (value : Value) (state : σ) : Prop where
  read : Json.read on.depth frame.toList = .ok value
  sendable : on.connection.refusal? (answerFrame on value state).1 = none

/-- A frame ends the session. -/
inductive Stops (frame : String) (state : σ) : Prop
  | unreadable (unreadable : ¬ Readable on frame)
  /-- The answer has a half of a surrogate pair, for which the connection has no bytes. -/
  | unsendable {value : Value} (read : Json.read on.depth frame.toList = .ok value)
      (halved : (answerFrame on value state).1.isPlain = false)
      (refused : on.connection.refusal? (answerFrame on value state).1 ≠ none)

variable {frame : String} {value : Value} {state : σ}

theorem readable_iff : Readable on frame ↔ ∃ value, Json.read on.depth frame.toList = .ok value :=
  Json.read_iff.symm

theorem answered_or_stops (frame : String) (state : σ) :
    (∃ value, Answered on frame value state) ∨ Stops on frame state := by
  by_cases readable : Readable on frame
  · obtain ⟨value, read⟩ := (readable_iff on).mp readable
    by_cases sendable : on.connection.refusal? (answerFrame on value state).1 = none
    · exact Or.inl ⟨value, read, sendable⟩
    · have halved : ¬ (answerFrame on value state).1.isPlain = true :=
        mt (on.connection.sends _) sendable
      exact Or.inr (.unsendable read (Bool.not_eq_true _ ▸ halved) sendable)
  · exact Or.inr (.unreadable readable)

variable {on} in
theorem Answered.exchange_eq (answered : Answered on frame value state) :
    exchange on frame state = answerFrame on value state := by
  rw [exchange, answered.read]
  dsimp only
  rw [answered.sendable]

variable {on} in
theorem Stops.unread_or_refused (stops : Stops on frame state) :
    (∃ fault, Json.read on.depth frame.toList = .error fault) ∨
      ∃ value text, Json.read on.depth frame.toList = .ok value ∧
        on.connection.refusal? (answerFrame on value state).1 = some text := by
  cases stops with
  | unreadable unreadable =>
    cases read : Json.read on.depth frame.toList with
    | error fault => exact Or.inl ⟨fault, rfl⟩
    | ok value => exact absurd ((readable_iff on).mpr ⟨value, read⟩) unreadable
  | @unsendable value read _ refused =>
    obtain ⟨text, refusal⟩ := Option.ne_none_iff_exists'.mp refused
    exact Or.inr ⟨value, text, read, refusal⟩

variable {on} in
theorem Stops.exists_fatal (stops : Stops on frame state) :
    ∃ text, (exchange on frame state).1 = fatal text := by
  rw [exchange]
  rcases stops.unread_or_refused with ⟨fault, read⟩ | ⟨value, text, read, refusal⟩
  · rw [read]
    exact ⟨_, rfl⟩
  · rw [read]
    dsimp only
    rw [refusal]
    exact ⟨text, rfl⟩

/-- The messages that some frames get, one after the other. -/
def messages : List String → σ → List Value
  | [], _ => []
  | frame :: frames, state =>
    (exchange on frame state).1 :: messages frames (exchange on frame state).2

theorem length_messages (frames : List String) (state : σ) :
    (messages on frames state).length = frames.length := by
  induction frames generalizing state with
  | nil => rfl
  | cons frame frames ih => exact congrArg (· + 1) (ih _)

theorem getElem?_messages (frames : List String) (state : σ) (i : Nat) :
    (messages on frames state)[i]? =
      frames[i]?.map fun frame => (exchange on frame (hostAfter on (frames.take i) state)).1 := by
  induction frames generalizing state i with
  | nil => rfl
  | cons frame frames ih =>
    cases i with
    | zero => rfl
    | succ i => exact ih _ i

theorem hostAfter_take_succ {frames : List String} {i : Nat} (here : frames[i]? = some frame) :
    hostAfter on (frames.take (i + 1)) state =
      (exchange on frame (hostAfter on (frames.take i) state)).2 := by
  rw [hostAfter, List.take_add_one, here, List.foldl_append]
  rfl

variable {on} in
theorem Answered.session_eq (answered : Answered on frame value state) (frames : List String) :
    (session on (frame :: frames) state).1 =
      (exchange on frame state).1 :: (session on frames (exchange on frame state).2).1 := by
  rw [answered.exchange_eq, session, answered.read]
  dsimp only
  rw [answered.sendable]

variable {on} in
theorem Stops.session_eq (stops : Stops on frame state) (frames : List String) :
    (session on (frame :: frames) state).1 = [(exchange on frame state).1] := by
  rw [session, exchange]
  rcases stops.unread_or_refused with ⟨fault, read⟩ | ⟨value, text, read, refusal⟩
  · rw [read]
  · rw [read]
    dsimp only
    rw [refusal]

/-- A session goes on up to the first frame that ends it, and sends a message for this one, too. -/
theorem session_eq (frames : List String) (state : σ) :
    ∃ front back, frames = front ++ back ∧
      (∀ i frame, front[i]? = some frame →
        ∃ value, Answered on frame value (hostAfter on (front.take i) state)) ∧
      (∀ frame ∈ back.head?, Stops on frame (hostAfter on front state)) ∧
      (session on frames state).1 = messages on (front ++ back.head?.toList) state := by
  induction frames generalizing state with
  | nil => exact ⟨[], [], rfl, nofun, nofun, rfl⟩
  | cons frame frames ih =>
    rcases answered_or_stops on frame state with ⟨value, answered⟩ | stops
    · obtain ⟨front, back, rfl, allAnswered, ends, sent⟩ := ih (exchange on frame state).2
      refine ⟨frame :: front, back, rfl, ?_, ends, ?_⟩
      · intro i other here
        cases i with
        | zero =>
          obtain rfl := Option.some.inj here
          exact ⟨value, answered⟩
        | succ i => exact allAnswered i other here
      · rw [List.cons_append, messages, ← sent]
        exact answered.session_eq _
    · refine ⟨[], frame :: frames, rfl, nofun, ?_, stops.session_eq frames⟩
      rintro _ ⟨⟩
      exact stops

/-- Each frame up to the first one that ends the session gets one message, which depends on it and on the host
alone, and the one that ends the session gets the last one. -/
theorem session_answers (frames : List String) (state : σ) :
    ∃ front back, frames = front ++ back ∧
      (∀ frame ∈ back.head?, Stops on frame (hostAfter on front state)) ∧
      let sent := (session on frames state).1
      sent.length = front.length + back.head?.toList.length ∧
      (∀ i frame, front[i]? = some frame →
        let host := hostAfter on (front.take i) state
        let message := (exchange on frame host).1
        sent[i]? = some message ∧ Readable on frame ∧ on.connection.refusal? message = none ∧
          ∃ value, Json.read on.depth frame.toList = .ok value ∧
            Answers on value host message (hostAfter on (front.take (i + 1)) state)) ∧
      ∀ frame ∈ back.head?, ∃ text, sent[front.length]? = some (fatal text) := by
  obtain ⟨front, back, rfl, allAnswered, ends, sent⟩ := session_eq on frames state
  refine ⟨front, back, rfl, ends, ?_⟩
  rw [sent]
  refine ⟨?_, ?_, ?_⟩
  · rw [length_messages, List.length_append]
  · intro i frame here
    obtain ⟨bound, -⟩ := List.getElem?_eq_some_iff.mp here
    obtain ⟨value, answered⟩ := allAnswered i frame here
    refine ⟨?_, (readable_iff on).mpr ⟨value, answered.read⟩, ?_, value, answered.read, ?_⟩
    · rw [getElem?_messages, List.getElem?_append_left bound, here,
        List.take_append_of_le_length (Nat.le_of_lt bound)]
      rfl
    · rw [answered.exchange_eq]
      exact answered.sendable
    · rw [hostAfter_take_succ on here, answered.exchange_eq]
      exact answers_answerFrame on _ value
  · intro frame last
    obtain ⟨text, fatal⟩ := (ends frame last).exists_fatal
    refine ⟨text, ?_⟩
    rw [getElem?_messages, List.getElem?_append_right (Nat.le_refl _), Nat.sub_self,
      List.take_left, Option.mem_def.mp last]
    exact congrArg some fatal

/-- A computer as the host. -/
def onComputer (depth : Nat) (connection : Connection) : Surroundings Machine.Computer where
  settings := {}
  connection := connection
  depth := depth
  search := Machine.Computer.search
  files := Machine.Computer.files
  answer := Machine.Computer.answer

/-- A connection that has no bytes for halves of surrogate pairs. -/
def encoding : Connection where
  refusal? message := if message.isPlain then none else some "surrogates not allowed"
  sends _ plain := if_pos plain

section Beyond

/-- A whole number with one digit more than are read. -/
def longNumber : String :=
  String.ofList ('1' :: List.replicate Text.maxDigits '0')

theorem longNumber_digits : ∀ c ∈ longNumber.toList, Json.isAsciiDigit c = true := by
  rw [longNumber, String.toList_ofList]
  intro c member
  rcases List.mem_cons.mp member with rfl | zero
  · rfl
  · obtain rfl := List.eq_of_mem_replicate zero
    rfl

theorem isWhole_longNumber : Json.IsWhole longNumber.toList := by
  have digits := longNumber_digits
  rw [longNumber, String.toList_ofList] at digits ⊢
  exact ⟨⟨nofun, digits⟩, nofun⟩

theorem not_readable_longNumber : ¬ Readable on longNumber := by
  intro readable
  have short := Json.fits_of_digits readable longNumber_digits
  rw [longNumber, String.toList_ofList, List.length_cons, List.length_replicate] at short
  exact absurd short (Nat.not_succ_le_self Text.maxDigits)

theorem not_isJson_nan (depth : Nat) : ¬ IsJson .standard depth "NaN".toList := by
  intro json
  obtain ⟨c, others, first, allowed⟩ := Json.first_standard json
  obtain ⟨rfl, -⟩ := List.cons.inj (first : ['N', 'a', 'N'] = c :: others)
  rcases allowed with digit | mark
  · exact absurd digit (by decide)
  · exact absurd mark (by decide)

/-- A request whose id is a half of a surrogate pair. -/
def halfFrame : String := "\x7b\"request_id\":\"\\ud800\"\x7d"

def halfRequest : Value := .object [("request_id", .text (.halved "" 0 []))]

theorem isJson_halfFrame (depth : Nat) : IsJson .standard (depth + 1) halfFrame.toList := by
  let name : List Char := '"' :: ("request_id".toList ++ ['"'])
  let half : List Char := '"' :: ('\\' :: 'u' :: ("d800".toList ++ []) ++ ['"'])
  have isName : Json.IsText name := .text (Json.isCharacters_letters (by decide))
  have isHalf : Json.IsText half := .text (.unit ⟨rfl, by decide⟩ .nil)
  let object : List Char := '\x7b' :: ([] ++ ((name ++ ([] ++ ':' :: ([] ++ half))) ++ ([] ++ ['\x7d'])))
  have isObject : Json.Spells .standard (depth + 1) .value object :=
    .container .object nofun (.last (.member isName nofun nofun (.text isHalf)) nofun)
  have json : IsJson .standard (depth + 1) ([] ++ (object ++ [])) := .json nofun isObject nofun
  exact json

theorem ofMembers_singleton (name : Text.Wide) (value : Value) :
    Value.ofMembers [(name, value)] = .object [(name, value)] := by
  simp [Value.ofMembers, Text.firstOfEach, Text.firstOnto]

theorem read_halfFrame (depth : Nat) : Json.read (depth + 1) halfFrame.toList = .ok halfRequest := by
  have letters : ∀ c ∈ "request_id".toList, c ≠ '"' ∧ c ≠ '\\' ∧ 32 ≤ c.toNat := by decide
  have name : Json.readCharacters 1 "request_id\":\"\\ud800\"\x7d".toList 2 [] =
      .ok (.plain "request_id", ⟨some '"', ":\"\\ud800\"\x7d".toList, 13⟩) :=
    Json.readCharacters_letters letters
  have escaped : Json.unicodeEscape "d800\"\x7d".toList 17 = .ok (.lone 0, 4) := by rfl
  have half : Json.readCharacters 14 "\\ud800\"\x7d".toList 15 [] =
      .ok (.halved "" 0 [], ⟨some '"', "\x7d".toList, 22⟩) :=
    (Json.readCharacters_unit escaped).trans Json.readCharacters_quote
  have member : Json.readMember 46 depth ⟨some '\x7b', "\"request_id\":\"\\ud800\"\x7d".toList, 1⟩ =
      .ok ((.plain "request_id", .text (.halved "" 0 [])), ⟨some '"', "\x7d".toList, 22⟩) := by
    rw [Json.readMember_eq rfl name rfl, Json.readValue_text rfl half]
    rfl
  have whole : Json.readValue 48 (depth + 1) ⟨none, halfFrame.toList, 0⟩ =
      .ok (halfRequest, ⟨some '\x7d', [], 23⟩) := by
    refine (Json.readMembers_eq member []).trans ?_
    rw [halfRequest, ← ofMembers_singleton]
    rfl
  have start : Json.skipSpace (.start halfFrame.toList) = ⟨none, halfFrame.toList, 0⟩ := by rfl
  rw [Json.read, if_neg (by decide), start, show 2 * halfFrame.toList.length + 2 = 48 from rfl, whole]
  rfl

theorem stops_halfFrame (depth : Nat) (computer : Machine.Computer) :
    Stops (onComputer (depth + 1) encoding) halfFrame computer :=
  .unsendable (read_halfFrame depth) rfl nofun

end Beyond

/-- Beyond the standard: a long number, arrays that are deeper than the reader goes, and a half of a surrogate
pair in an id that is sent back in bytes are JSON by the standard, but end the session. `NaN` is not, but it is
answered. -/
theorem session_beyond_standard :
    (∀ depth connection, IsJson .standard depth longNumber.toList ∧ ∃ text,
        (session (onComputer depth connection) [longNumber] Tool.bare).1 = [fatal text]) ∧
      (∀ depth connection, IsJson .standard (depth + 1) (nested (depth + 1)) ∧ ∃ text,
        (session (onComputer depth connection) [String.ofList (nested (depth + 1))] Tool.bare).1 =
          [fatal text]) ∧
      (∀ depth, IsJson .standard (depth + 1) halfFrame.toList ∧ ∃ text,
        (session (onComputer (depth + 1) encoding) [halfFrame] Tool.bare).1 = [fatal text]) ∧
      (∀ text id code, ¬ GivesError (fatal text) id code) ∧
      ∀ depth connection, ¬ IsJson .standard depth "NaN".toList ∧ ∃ sent id,
        (session (onComputer depth connection) ["NaN"] Tool.bare).1 = [sent] ∧
          GivesError sent id .invalidRequest := by
  have ended {on : Surroundings Machine.Computer} {frame : String} (stops : Stops on frame Tool.bare) :
      ∃ text, (session on [frame] Tool.bare).1 = [fatal text] := by
    obtain ⟨text, last⟩ := stops.exists_fatal
    exact ⟨text, by rw [stops.session_eq, last]⟩
  refine ⟨fun depth connection => ⟨Json.isJson_whole isWhole_longNumber trivial _, ?_⟩,
    fun depth connection => ⟨Json.isJson_nested _ _, ?_⟩,
    fun depth => ⟨isJson_halfFrame depth, ended (stops_halfFrame depth _)⟩, ?_,
    fun depth connection => ⟨not_isJson_nan depth, ?_⟩⟩
  · exact ended (.unreadable (not_readable_longNumber _))
  · refine ended (.unreadable fun readable => ?_)
    rw [Readable, String.toList_ofList] at readable
    exact absurd (Json.le_of_isJson_nested readable) (Nat.not_succ_le_self depth)
  · rintro text id code ⟨identified, -⟩
    cases identified
  · have answered : Answered (onComputer depth connection) "NaN" (.real .undefined) Tool.bare :=
      ⟨rfl, connection.sends _ rfl⟩
    refine ⟨_, "unknown", answered.session_eq [], ?_⟩
    rw [answered.exchange_eq]
    exact givesError_json "unknown" .invalidRequest "Expected a JSON object"

end ContractInspector.Service
