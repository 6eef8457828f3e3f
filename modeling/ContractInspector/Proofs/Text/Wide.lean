import ContractInspector.Text.Wide

/-! Texts with halves of surrogate pairs are lists of points, each in one way. What is shown of one has a
character for each point. -/
namespace ContractInspector.Text

namespace Point

@[simp]
theorem shown_char (c : Char) : (char c).shown = c := rfl

/-- Only the replacement character may be shown for something else. -/
theorem shown_eq_iff {point : Point} {c : Char} (known : c ≠ '\ufffd') :
    point.shown = c ↔ point = .char c := by
  cases point with
  | char d => simp
  | lone half => simpa [shown] using known.symm

theorem map_shown_eq_iff {points : List Point} {text : List Char} (known : '\ufffd' ∉ text) :
    points.map shown = text ↔ points = text.map .char := by
  constructor
  · rintro rfl
    induction points with
    | nil => rfl
    | cons point points ih =>
      rw [List.map_cons, List.mem_cons, not_or] at known
      rw [List.map_cons, List.map_cons, ← ih known.2, ← (shown_eq_iff (Ne.symm known.1)).mp rfl]
  · rintro rfl
    simp [Function.comp_def]

theorem mem_map_shown_iff {points : List Point} {c : Char} (known : c ≠ '\ufffd') :
    c ∈ points.map shown ↔ .char c ∈ points := by
  simp [shown_eq_iff known]

end Point

theorem map_shown_intercalate (separator : Char) (pieces : List (List Point)) :
    ([Point.char separator].intercalate pieces).map Point.shown =
      [separator].intercalate (pieces.map (List.map Point.shown)) := by
  induction pieces with
  | nil => rfl
  | cons first others ih =>
    by_cases nothing : others = []
    · simp [nothing]
    · rw [List.intercalate_cons_of_ne_nil nothing, List.map_cons,
        List.intercalate_cons_of_ne_nil (by simpa using nothing)]
      simp [ih]

namespace Wide

@[simp]
theorem toList_plain (text : String) : (plain text).toList = text.toList.map .char := rfl

@[simp]
theorem plain_beq_plain (text other : String) : (plain text == plain other) = (text == other) := by
  rw [Bool.eq_iff_iff]
  simp

theorem toList_ofListOnto (points : List Point) (seen : List Char) :
    (ofListOnto points seen).toList = seen.reverse.map .char ++ points := by
  induction points generalizing seen with
  | nil => simp [ofListOnto]
  | cons point points ih =>
    cases point with
    | char c => simp [ofListOnto, ih]
    | lone half => simp [ofListOnto, toList]

@[simp]
theorem toList_ofList (points : List Point) : (ofList points).toList = points :=
  toList_ofListOnto points []

theorem ofListOnto_char (chars seen : List Char) (points : List Point) :
    ofListOnto (chars.map .char ++ points) seen = ofListOnto points (chars.reverse ++ seen) := by
  induction chars generalizing seen with
  | nil => rfl
  | cons c chars ih => simp [ofListOnto, ih]

@[simp]
theorem ofList_toList (text : Wide) : ofList text.toList = text := by
  cases text with
  | plain text =>
    have read := ofListOnto_char text.toList [] []
    simpa [ofList, toList, ofListOnto] using read
  | halved front half back =>
    rw [ofList, toList, ofListOnto_char]
    simp [ofListOnto]

theorem toList_injective {text other : Wide} (same : text.toList = other.toList) : text = other := by
  rw [← ofList_toList text, same, ofList_toList]

@[simp]
theorem toList_append (text other : Wide) : (text ++ other).toList = text.toList ++ other.toList := by
  change (append text other).toList = _
  cases text <;> cases other <;> simp [append, toList]

@[simp]
theorem toList_drop (text : Wide) (n : Nat) : (text.drop n).toList = text.toList.drop n :=
  toList_ofList _

@[simp]
theorem shown_plain (text : String) : (plain text).shown = text := rfl

theorem toList_shown (text : Wide) : text.shown.toList = text.toList.map Point.shown := by
  cases text with
  | plain text => simp [Function.comp_def]
  | halved front half back => rw [shown, String.toList_ofList]; exact fun _ impossible => nomatch impossible

end Wide

end ContractInspector.Text
