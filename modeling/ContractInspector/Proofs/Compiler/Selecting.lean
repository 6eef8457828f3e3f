import ContractInspector.Compiler.Run
import ContractInspector.Proofs.Compiler.History
import ContractInspector.Proofs.Text.Utf8

/-! Which candidate is taken for the compiler. It is the first one that tells a version, as long as no
candidate before it is misread: one whose answer is not UTF-8 ends the search, and a version among the
errors is not seen behind blanks in the output. -/
namespace ContractInspector.Compiler

open Host (Reply)
open Text (strip withNewlines)
open Text.Utf8 (decode decode_encode encode)

namespace Attempt

variable {α β : Type} (host : (request : Request) → request.Answer)

/-- The outcome on a host that answers a request in the same way at any time. -/
def outcomeOn (attempt : Attempt α) : Except Failure α :=
  (attempt.run.run (fun request (_ : Unit) => (host request, ())) ()).1

theorem outcomeOn_bind (attempt : Attempt α) (next : α → Attempt β) :
    (attempt >>= next).outcomeOn host = attempt.outcomeOn host >>= fun value =>
      (next value).outcomeOn host := by
  rw [outcomeOn, outcomeOn]
  change ((attempt.run.bind _).run _ _).1 = _
  rw [Procedure.run_bind]
  cases (attempt.run.run (fun request (_ : Unit) => (host request, ())) ()).1 <;> rfl

end Attempt

/-- What a program says on a channel: text other than blanks, without the blanks at its two ends. What is
not UTF-8 says nothing. -/
def said? (bytes : List UInt8) : Option String :=
  match decode bytes with
  | .ok text =>
    let said := strip (withNewlines text)
    if said.isEmpty then none else some (String.ofList said)
  | .error _ => none

/-- The version that a program tells when it succeeds: what it says in its output, or else among its
errors. -/
def told? : Reply Finished → Option String
  | .done finished =>
    if finished.status = 0 then (said? finished.output).or (said? finished.errors) else none
  | .failed _ => none
  | .broke _ => none

/-- The version that the search reads off an answer. -/
def read? : Reply Finished → Except Failure (Option String)
  | .done finished => answeredVersion? finished
  | .failed _ => .ok none
  | .broke accident => .error (.broken accident)

/-- The compiler that a candidate turns out to be. -/
def identified? (windows : Bool) (host : (request : Request) → request.Answer) (path : String) :
    Option Identity :=
  if windows && isWindowsSystemPath path then none
  else (told? (host (.probe path))).map fun version => ⟨path, version⟩

/-- Bytes that are UTF-8. -/
def IsUtf8 (bytes : List UInt8) : Prop :=
  ∃ text, decode bytes = .ok text

/-- An answer from which the search does not read the version that the program tells: a program that
cannot be asked, an answer that is not UTF-8, or blanks in the output in front of a version among the
errors. -/
inductive Misread : Reply Finished → Prop
  | broke (accident : Accident) : Misread (.broke accident)
  | garbled {finished : Finished} (garbled : ¬ (IsUtf8 finished.output ∧ IsUtf8 finished.errors)) :
      Misread (.done finished)
  | hidden {finished : Finished} (succeeded : finished.status = 0) (output : finished.output ≠ [])
      (blank : said? finished.output = none) (errors : (said? finished.errors).isSome) :
      Misread (.done finished)

theorem probe_run (path : String) :
    (probe path).run = .ask (.probe path) fun reply => .done (read? reply) := by
  apply congrArg (Procedure.ask _)
  funext reply
  cases (reply : Reply Finished) <;> rfl

theorem outcomeOn_selectCompiler_cons (windows : Bool) (path : String) (others : List String)
    (host : (request : Request) → request.Answer) :
    (selectCompiler windows (path :: others)).outcomeOn host =
      if windows && isWindowsSystemPath path then (selectCompiler windows others).outcomeOn host
      else read? (host (.probe path)) >>= fun
        | some version => .ok (some ⟨path, version⟩)
        | none => (selectCompiler windows others).outcomeOn host := by
  have probed : (probe path).outcomeOn host = read? (host (.probe path)) := by
    rw [Attempt.outcomeOn, probe_run]
    rfl
  rw [selectCompiler]
  split
  · rfl
  · rw [Attempt.outcomeOn_bind, probed]
    apply congrArg
    funext version
    cases version <;> rfl

variable {finished : Finished} {reply : Reply Finished}

theorem said?_eq {bytes : List UInt8} {text : List Char} (decoded : decode bytes = .ok text) :
    said? bytes = if (strip (withNewlines text)).isEmpty then none
      else some (String.ofList (strip (withNewlines text))) := by
  rw [said?, decoded]

theorem said?_nil : said? [] = none := by
  rw [said?_eq (Text.Utf8.decode_eq_nil_iff.mpr rfl)]
  rfl

/-- Of an answer that is UTF-8 the output is read if there is any, and the errors otherwise. -/
theorem answeredVersion?_of_utf8 (output : IsUtf8 finished.output) (errors : IsUtf8 finished.errors) :
    answeredVersion? finished = .ok (if finished.status = 0 then
      if finished.output = [] then said? finished.errors else said? finished.output else none) := by
  obtain ⟨output, decoded⟩ := output
  obtain ⟨errors, decodedErrors⟩ := errors
  have silent : (withNewlines output).isEmpty = true ↔ finished.output = [] := by
    rw [List.isEmpty_iff, Text.withNewlines_eq_nil_iff, ← Text.Utf8.decode_eq_nil_iff, decoded,
      Except.ok.injEq]
  simp only [answeredVersion?, decoded, decodedErrors, bind, Except.bind, silent, ne_eq, ite_not,
    said?_eq decoded, said?_eq decodedErrors]
  split
  · split <;> rfl
  · rfl

theorem answeredVersion?_garbled (garbled : ¬ (IsUtf8 finished.output ∧ IsUtf8 finished.errors)) :
    ∃ failure, answeredVersion? finished = .error failure := by
  cases decoded : decode finished.output with
  | error fault =>
    exact ⟨.broken (.undecodable fault), by simp only [answeredVersion?, decoded, bind, Except.bind]⟩
  | ok output =>
    cases decodedErrors : decode finished.errors with
    | error fault =>
      exact ⟨.broken (.undecodable fault),
        by simp only [answeredVersion?, decoded, decodedErrors, bind, Except.bind]⟩
    | ok errors => exact absurd ⟨⟨output, decoded⟩, errors, decodedErrors⟩ garbled

/-- Of an answer that is not misread the search reads the version that is told. -/
theorem read?_eq_told? (clear : ¬ Misread reply) : read? reply = .ok (told? reply) := by
  cases reply with
  | failed fault => rfl
  | broke accident => exact absurd (.broke accident) clear
  | done finished =>
    have utf8 : IsUtf8 finished.output ∧ IsUtf8 finished.errors :=
      Classical.byContradiction fun garbled => clear (.garbled garbled)
    rw [read?, answeredVersion?_of_utf8 utf8.1 utf8.2, told?]
    apply congrArg
    by_cases succeeded : finished.status = 0
    · rw [if_pos succeeded, if_pos succeeded]
      by_cases silent : finished.output = []
      · rw [if_pos silent, silent, said?_nil, Option.none_or]
      · rw [if_neg silent]
        cases said : said? finished.output with
        | some version => rfl
        | none =>
          have unsaid : said? finished.errors = none := by
            rw [← Option.not_isSome_iff_eq_none]
            exact fun errors => clear (.hidden succeeded silent said errors)
          rw [unsaid]
          rfl
    · rw [if_neg succeeded, if_neg succeeded]

/-- A misread answer ends the search, or its version is passed over. -/
theorem Misread.read? (misread : Misread reply) :
    (∃ failure, read? reply = .error failure) ∨
      read? reply = .ok none ∧ ∃ version, told? reply = some version := by
  cases misread with
  | broke accident => exact Or.inl ⟨_, rfl⟩
  | garbled garbled => exact Or.inl (answeredVersion?_garbled garbled)
  | @hidden finished succeeded output blank errors =>
    by_cases utf8 : IsUtf8 finished.output ∧ IsUtf8 finished.errors
    · refine Or.inr ⟨?_, ?_⟩
      · rw [Compiler.read?, answeredVersion?_of_utf8 utf8.1 utf8.2, if_pos succeeded, if_neg output,
          blank]
      · rw [told?, if_pos succeeded, blank, Option.none_or]
        exact Option.isSome_iff_exists.mp errors
    · exact Or.inl (answeredVersion?_garbled utf8)

variable {windows : Bool} {host : (request : Request) → request.Answer}

/-- The search finds no compiler at a path from whose answer it reads no version. -/
theorem read?_of_selected {paths : List String} {compiler : Identity}
    (selected : (selectCompiler windows paths).outcomeOn host = .ok (some compiler)) :
    read? (host (.probe compiler.path)) = .ok (some compiler.version) := by
  induction paths with
  | nil => nomatch (selected : Except.ok none = .ok (some compiler))
  | cons path others ih =>
    rw [outcomeOn_selectCompiler_cons] at selected
    split at selected
    · exact ih selected
    · cases version : read? (host (.probe path)) with
      | error failure =>
        rw [version] at selected
        contradiction
      | ok version? =>
        rw [version] at selected
        cases version? with
        | none => exact ih selected
        | some told =>
          cases selected
          exact version

/-- A candidate that has to be asked: it is not passed over, and no candidate before it tells a
version. -/
def Reaches (windows : Bool) (host : (request : Request) → request.Answer) (paths : List String)
    (path : String) : Prop :=
  (windows && isWindowsSystemPath path) = false ∧ ∃ front back, paths = front ++ path :: back ∧
    front.findSome? (identified? windows host) = none

theorem reaches_cons_iff {first path : String} {others : List String} :
    Reaches windows host (first :: others) path ↔
      (windows && isWindowsSystemPath first) = false ∧ path = first ∨
        identified? windows host first = none ∧ Reaches windows host others path := by
  constructor
  · rintro ⟨asked, front, back, split, untold⟩
    rcases List.cons_eq_append_iff.mp split with ⟨rfl, same⟩ | ⟨front, rfl, rest⟩
    · cases same
      exact Or.inl ⟨asked, rfl⟩
    · rw [List.findSome?_cons] at untold
      cases told : identified? windows host first with
      | some compiler =>
        rw [told] at untold
        contradiction
      | none =>
        rw [told] at untold
        exact Or.inr ⟨rfl, asked, front, back, rest, untold⟩
  · rintro (⟨asked, rfl⟩ | ⟨told, asked, front, back, rfl, untold⟩)
    · exact ⟨asked, [], others, rfl, rfl⟩
    · refine ⟨asked, first :: front, back, rfl, ?_⟩
      rw [List.findSome?_cons, told]
      exact untold

/-- The search comes to the first candidate that tells a version, and to none if there is no such
candidate, exactly if no candidate that has to be asked is misread. -/
theorem selectCompiler_eq_first_iff (windows : Bool) (paths : List String)
    (host : (request : Request) → request.Answer) :
    (selectCompiler windows paths).outcomeOn host =
        .ok (paths.findSome? (identified? windows host)) ↔
      ∀ path, Reaches windows host paths path → ¬ Misread (host (.probe path)) := by
  induction paths with
  | nil =>
    refine iff_of_true rfl ?_
    rintro path ⟨-, front, back, split, -⟩
    simp at split
  | cons path others ih =>
    simp only [reaches_cons_iff]
    rw [outcomeOn_selectCompiler_cons, List.findSome?_cons]
    cases skipped : windows && isWindowsSystemPath path with
    | true =>
      have unidentified : identified? windows host path = none := by
        rw [identified?, skipped]
        rfl
      simpa [unidentified] using ih
    | false =>
      have identified : identified? windows host path =
          (told? (host (.probe path))).map fun version => ⟨path, version⟩ := by
        rw [identified?, skipped]
        rfl
      rw [if_neg Bool.false_ne_true]
      by_cases misread : Misread (host (.probe path))
      · refine iff_of_false ?_ fun clear => clear path (Or.inl ⟨rfl, rfl⟩) misread
        rcases misread.read? with ⟨failure, ends⟩ | ⟨passed, version, told⟩
        · rw [ends]
          nofun
        · rw [passed, identified, told]
          intro selected
          have version := passed.symm.trans (read?_of_selected selected)
          cases version
      · rw [read?_eq_told? misread, identified]
        cases told? (host (.probe path)) with
        | some version =>
          refine iff_of_true rfl ?_
          rintro other (⟨-, rfl⟩ | ⟨untold, -⟩)
          · exact misread
          · contradiction
        | none =>
          refine Iff.trans ih ?_
          constructor
          · rintro clear other (⟨-, rfl⟩ | ⟨-, reached⟩)
            · exact misread
            · exact clear other reached
          · exact fun clear other reached => clear other (Or.inr ⟨rfl, reached⟩)

/-- A host with three programs: one that answers with a byte that is no UTF-8, one that writes a line end
to its output and its version to its errors, and one that writes its version to its output. -/
def threePrograms : (request : Request) → request.Answer
  | .probe "/garbled" => .done ⟨0, [0xff], []⟩
  | .probe "/blank" => .done ⟨0, encode "\n".toList, encode "compact 0.26.0".toList⟩
  | .probe "/plain" => .done ⟨0, encode "compact 0.26.0".toList, []⟩
  | .probe path => .failed (Host.Cause.noEntry.fault path)
  | .makeStaging => .failed (Host.Cause.denied.fault "/tmp")
  | .makeDirectory path => .failed (Host.Cause.denied.fault path)
  | .writeFile path _ => .failed (Host.Cause.denied.fault path)
  | .start path _ _ _ => .failed (Host.Cause.denied.fault path)
  | .watch _ _ => .done ⟨none, [], []⟩
  | .kill => ()
  | .remove _ => ()

theorem said?_version : said? (encode "compact 0.26.0".toList) = some "compact 0.26.0" := by
  rw [said?_eq (decode_encode _), Text.withNewlines_eq_self (by decide)]
  rfl

theorem said?_lineEnd : said? (encode "\n".toList) = none := by
  rw [said?_eq (decode_encode _)]
  rfl

theorem decode_garbled : decode [0xff] = .error ⟨.start, 0xff, 0, 1⟩ := by
  rw [decode, Text.Utf8.decodeOnto]
  rfl

theorem told?_garbled : told? (threePrograms (.probe "/garbled")) = none := by
  have silent : said? [0xff] = none := by
    rw [said?, decode_garbled]
  change (if (0 : Int) = 0 then (said? [0xff]).or (said? []) else none) = _
  rw [silent, said?_nil]
  rfl

theorem read?_garbled :
    read? (threePrograms (.probe "/garbled")) = .error (.broken (.undecodable ⟨.start, 0xff, 0, 1⟩)) := by
  change answeredVersion? ⟨0, [0xff], []⟩ = _
  simp only [answeredVersion?, decode_garbled, bind, Except.bind]

theorem told?_plain : told? (threePrograms (.probe "/plain")) = some "compact 0.26.0" := by
  change (if (0 : Int) = 0 then (said? (encode "compact 0.26.0".toList)).or (said? []) else none) = _
  rw [said?_version]
  rfl

theorem told?_blank : told? (threePrograms (.probe "/blank")) = some "compact 0.26.0" := by
  change (if (0 : Int) = 0 then (said? (encode "\n".toList)).or
    (said? (encode "compact 0.26.0".toList)) else none) = _
  rw [said?_lineEnd, said?_version]
  rfl

theorem read?_blank : read? (threePrograms (.probe "/blank")) = .ok none := by
  change answeredVersion? ⟨0, encode "\n".toList, encode "compact 0.26.0".toList⟩ = _
  rw [answeredVersion?_of_utf8 ⟨_, decode_encode _⟩ ⟨_, decode_encode _⟩]
  dsimp only
  rw [said?_lineEnd]
  rfl

/-- A program that writes no UTF-8 hides the compiler behind it, and blanks in the output hide the version
among the errors. -/
theorem not_selected :
    ((selectCompiler false ["/garbled", "/plain"]).outcomeOn threePrograms =
        .error (.broken (.undecodable ⟨.start, 0xff, 0, 1⟩)) ∧
      ["/garbled", "/plain"].findSome? (identified? false threePrograms) =
        some ⟨"/plain", "compact 0.26.0"⟩) ∧
    (selectCompiler false ["/blank"]).outcomeOn threePrograms = .ok none ∧
      ["/blank"].findSome? (identified? false threePrograms) = some ⟨"/blank", "compact 0.26.0"⟩ := by
  refine ⟨⟨?_, ?_⟩, ?_, ?_⟩
  · rw [outcomeOn_selectCompiler_cons, if_neg (by decide), read?_garbled]
    rfl
  · rw [List.findSome?_cons, identified?, if_neg (by decide), told?_garbled, List.findSome?_cons,
      identified?, if_neg (by decide), told?_plain]
    rfl
  · rw [outcomeOn_selectCompiler_cons, if_neg (by decide), read?_blank]
    rfl
  · rw [List.findSome?_cons, identified?, if_neg (by decide), told?_blank]
    rfl

end ContractInspector.Compiler
