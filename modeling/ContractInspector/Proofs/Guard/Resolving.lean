import ContractInspector.Proofs.Guard.Filename
import ContractInspector.Proofs.Text.Utf8

/-! The two ways to give a contract: as code that is sent, and as the path of a file. Both ways have the
same checks of the content, but code is measured before it is looked at, and a file after that. -/
namespace ContractInspector.Guard

open Text (Wide)
open Text.Utf8 (decode decode_encode encode)

variable {settings : Settings} {files : Host.FileView} {text : String} {path real : Wide}

theorem byteSize_eq (text : List Char) : Text.byteSize text = (encode text).length := by
  have step : ∀ (text : List Char) (start : Nat),
      text.foldl (fun n c => n + c.utf8Size) start = start + (encode text).length := by
    intro text
    induction text with
    | nil => simp [encode]
    | cons c text ih =>
      intro start
      rw [List.foldl_cons, ih, encode, encode, List.flatMap_cons, List.length_append,
        String.length_utf8EncodeChar, Nat.add_assoc]
  rw [Text.byteSize, step, Nat.zero_add]

/-- Code that is sent is measured first. -/
theorem inlineSource_eq (settings : Settings) (code : String) (filename : Option Wide) :
    inlineSource settings code filename =
      if settings.maxCodeSize < Text.byteSize code.toList then
        .error (.refused (.tooLarge (Text.byteSize code.toList) settings.maxCodeSize))
      else if isText code.toList then
        .ok ⟨code.toList, sanitizeFilename (filename.map (·.shown)), .inline⟩
      else .error (.refused .codeNotText) := by
  rw [inlineSource, Wide.characters]
  dsimp only
  rw [checkSize]
  split
  · rfl
  · cases isText code.toList <;> rfl

/-- A file is looked at first. -/
theorem readSource_eq (checked : checkUnixPath files path = .ok real)
    (readable : files.read real = .done (encode text.toList)) (ends : '\r' ∉ text.toList) :
    readSource settings files path =
      if isText text.toList then
        if settings.maxCodeSize < Text.byteSize text.toList then
          .error (.refused (.tooLarge (Text.byteSize text.toList) settings.maxCodeSize))
        else
          .ok ⟨text.toList, UnixPath.fileName real, .file real (UnixPath.directory real)⟩
      else .error (.refused .fileNotText) := by
  simp only [readSource, checked, bind, Except.bind, readable, decode_encode,
    Text.withNewlines_eq_self ends]
  cases isText text.toList with
  | false => rfl
  | true =>
    rw [if_neg (by decide), if_pos rfl, checkSize]
    by_cases large : settings.maxCodeSize < Text.byteSize text.toList
    · rw [if_pos large, if_pos large]
    · rw [if_neg large, if_neg large]
      rfl

theorem resolve_code (settings : Settings) (files : Host.FileView) (nonempty : text ≠ "")
    (filename : Option Wide) :
    resolve settings files ⟨some text, none, filename⟩ = inlineSource settings text filename := by
  have given : (some (Wide.plain text)).filter (!·.isEmpty) = some (.plain text) := by
    simp [Option.filter, Wide.isEmpty, nonempty]
  rw [resolve, given]
  rfl

theorem resolve_path (settings : Settings) (files : Host.FileView) (nonempty : path.isEmpty = false)
    (filename : Option Wide) :
    resolve settings files ⟨none, some path, filename⟩ = readSource settings files path := by
  have given : (some path).filter (!·.isEmpty) = some path := by
    simp [Option.filter, nonempty]
  rw [resolve, given]
  rfl

/-- Code that was sent, and a file with the same text, come to the same: both are accepted as the text, or
both are too large, or each is refused as no text in its own words. -/
inductive Agree (limit : Int) (text : List Char) :
    Except Failure ContractSource → Except Failure ContractSource → Prop
  | accepted {sent read : ContractSource} (sent_text : sent.text = text) (read_text : read.text = text) :
      Agree limit text (.ok sent) (.ok read)
  | tooLarge (large : limit < Text.byteSize text) :
      Agree limit text (.error (.refused (.tooLarge (Text.byteSize text) limit)))
        (.error (.refused (.tooLarge (Text.byteSize text) limit)))
  | notText :
      Agree limit text (.error (.refused .codeNotText)) (.error (.refused .fileNotText))

/-- Code that was sent is too large if the file has more bytes than the limit allows, and the file only if
it is text as well. So both come to the same unless the text is too large and is no text either. -/
theorem resolve_agree_iff (settings : Settings)
    (checked : checkUnixPath files path = .ok real)
    (readable : files.read real = .done (encode text.toList)) (nonempty : text ≠ "")
    (ends : '\r' ∉ text.toList) (filename other : Option Wide) :
    let limit := settings.maxCodeSize
    let bytes := encode text.toList
    let sent := resolve settings files ⟨some text, none, filename⟩
    let read := resolve settings files ⟨none, some path, other⟩
    (sent = .error (.refused (.tooLarge bytes.length limit)) ↔ limit < bytes.length) ∧
      (read = .error (.refused (.tooLarge bytes.length limit)) ↔
        limit < bytes.length ∧ isText text.toList = true) ∧
      (Agree limit text.toList sent read ↔
        ¬ (limit < bytes.length ∧ isText text.toList = false)) := by
  dsimp only
  rw [resolve_code settings files nonempty, resolve_path settings files (checkUnixPath_eq_ok checked).1.nonempty,
    inlineSource_eq, readSource_eq checked readable ends, ← byteSize_eq]
  by_cases large : settings.maxCodeSize < Text.byteSize text.toList
  · cases isText text.toList with
    | true => simp [large, Agree.tooLarge]
    | false =>
      simp [large]
      nofun
  · cases isText text.toList with
    | true => simp [large, Agree.accepted]
    | false => simp [large, Agree.notText]

/-- A computer with one file. -/
def holding (text : String) : Machine.Computer where
  tree := ⟨[(["a.compact"], .file (encode text.toList) 0o644)]⟩
  temporary := "/tmp"

theorem checkUnixPath_holding (text : String) :
    checkUnixPath (holding text).files "/a.compact" = .ok (.plain "/a.compact") := by
  have real : (holding text).files.realPath "/a.compact" = .ok (.plain "/a.compact") := by rfl
  have proper : pathProblem? (UnixPath.isAbsolute "/a.compact".toList) "/a.compact".toList = none := by
    decide
  rw [checkUnixPath, Wide.shown_plain, proper, real]
  rfl

theorem read_holding (text : String) :
    (holding text).files.read "/a.compact" = .done (encode text.toList) := by
  have place := (holding text).tree.place_entry "/a.compact" "a.compact" rfl rfl (by decide) (by decide)
    nofun
  apply Machine.Computer.read_of_ok rfl
  rw [Machine.FileTree.read, Machine.FileTree.find, place]
  rfl

/-- Two characters that take five bytes are too large for a limit of four, sent or read. -/
theorem resolve_agree_iff_wide :
    checkUnixPath (holding "é€").files "/a.compact" = .ok (.plain "/a.compact") ∧
      (holding "é€").files.read "/a.compact" = .done (encode "é€".toList) ∧ "é€" ≠ "" ∧
      '\r' ∉ "é€".toList ∧
      Agree 4 "é€".toList
        (resolve { maxCodeSize := 4 } (holding "é€").files ⟨some "é€", none, none⟩)
        (resolve { maxCodeSize := 4 } (holding "é€").files ⟨none, some "/a.compact", none⟩) := by
  refine ⟨checkUnixPath_holding _, read_holding _, by decide, by decide, ?_⟩
  exact (resolve_agree_iff { maxCodeSize := 4 } (checkUnixPath_holding "é€") (read_holding "é€")
    (by decide) (by decide) none none).2.2.mpr (by decide)

/-- Text with nothing but four control characters. -/
def controls : String := "\x01\x01\x01\x01"

/-- Over a limit of three, four control characters are too large as code that was sent, and no text as a
file. -/
theorem not_agree_controls :
    let sent := resolve { maxCodeSize := 3 } (holding controls).files ⟨some controls, none, none⟩
    let read := resolve { maxCodeSize := 3 } (holding controls).files ⟨none, some "/a.compact", none⟩
    sent = .error (.refused (.tooLarge 4 3)) ∧ read = .error (.refused .fileNotText) ∧
      ¬ Agree 3 controls.toList sent read := by
  intro sent read
  have sent_eq : sent = .error (.refused (.tooLarge 4 3)) := by rfl
  have read_eq : read = .error (.refused .fileNotText) := by
    change resolve _ _ _ = _
    rw [resolve_path _ _ (by rfl),
      readSource_eq (checkUnixPath_holding controls) (read_holding controls) (by decide)]
    rfl
  rw [sent_eq, read_eq]
  exact ⟨rfl, rfl, nofun⟩

end ContractInspector.Guard
