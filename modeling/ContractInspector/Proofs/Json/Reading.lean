import ContractInspector.Proofs.Json.Steps

/-! Reading JSON texts. `sound_read` says that what is read is spelled as the grammar has it,
`Spells.taken` that what is spelled so is read if the fuel suffices, and `read_iff` that the texts that are
read are those of the reader's dialect. -/
namespace ContractInspector.Json

open Text (Cursor)

variable {cursor reached : Cursor} {text rest gap : List Char} {fuel depth : Nat}

section Soundness

theorem sound_readMember (values : Sound (readValue fuel depth) (Spells .readable depth .value)) :
    Sound (readMember fuel depth) (Spells .readable depth .member) := by
  intro cursor member reached read
  obtain ⟨rest, behind, after, here, named, colon, valued⟩ := cases_readMember read
  obtain ⟨body, characters, rfl⟩ := characters_of_read named
  obtain ⟨before, isBefore, front⟩ := exists_gap behind
  obtain ⟨gap, isGap, back⟩ := exists_gap ((skipSpace behind).advance ':' after 1)
  obtain ⟨text, isValue, inner⟩ := values _ _ _ valued
  refine ⟨_, .member (.text characters) isBefore isGap isValue, ?_⟩
  rw [inner] at back
  rw [here, front, colon, show after = _ from back]
  simp

/-- Values, and what stands in containers, are as the grammar has them. -/
theorem sound_read (fuel depth : Nat) : Sound (readValue fuel depth) (Spells .readable depth .value) ∧
    ∀ container elements, Sound (readElements fuel depth container elements)
      (Spells .readable depth (.elements container)) := by
  induction fuel generalizing depth with
  | zero =>
    constructor
    · intro cursor value reached read
      rw [readValue] at read
      contradiction
    · intro container elements cursor value reached read
      cases container with
      | array =>
        change readItems _ _ _ _ = _ at read
        rw [readItems] at read
        contradiction
      | object =>
        change readMembers _ _ _ _ = _ at read
        rw [readMembers] at read
        contradiction
  | succ fuel ih =>
    constructor
    · intro cursor value reached read
      rcases cases_readValue read with ⟨rest, text, here, named⟩ |
        ⟨container, rest, inside, rfl, here, closes | others⟩ | atom
      · obtain ⟨body, characters, rfl⟩ := characters_of_read named
        exact ⟨_, .text (.text characters), by rw [here]; simp⟩
      · obtain ⟨gap, isGap, behind⟩ := exists_gap (cursor.advance container.opening rest 1)
        refine ⟨_, .empty container isGap, ?_⟩
        rw [closes] at behind
        rw [here, show rest = _ from behind]
        simp
      · obtain ⟨gap, isGap, behind⟩ := exists_gap (cursor.advance container.opening rest 1)
        obtain ⟨text, spells, inner⟩ := (ih inside).2 container [] _ _ _ others
        refine ⟨_, .container container isGap spells, ?_⟩
        rw [inner] at behind
        rw [here, show rest = _ from behind]
        simp
      · exact sound_readAtom cursor value reached atom
    · intro container elements cursor value reached read
      obtain ⟨element, behind, first, goesOn⟩ := cases_readElements read
      have areElements : Sound (readElement fuel depth container)
          (Spells .readable depth container.element) := by
        cases container with
        | array => exact (ih depth).1
        | object => exact sound_readMember (ih depth).1
      obtain ⟨text, spells, here⟩ := areElements _ _ _ first
      obtain ⟨gap, isGap, after⟩ := exists_gap behind
      rcases goesOn with closes | ⟨rest, comma, others⟩
      · refine ⟨_, .last spells isGap, ?_⟩
        rw [here, after, closes]
        simp
      · obtain ⟨next, isNext, later⟩ := exists_gap ((skipSpace behind).advance ',' rest 1)
        obtain ⟨more, areOthers, inner⟩ := (ih depth).2 container _ _ _ _ others
        refine ⟨_, .more spells isGap isNext areOthers, ?_⟩
        rw [inner] at later
        rw [here, after, comma, show rest = _ from later]
        simp

end Soundness

section Completeness

/-- A part is read with enough fuel where nothing that follows could belong to it. -/
def Form.Taken (depth : Nat) (text : List Char) : Form → Prop
  | value => ∀ fuel, 2 * text.length < fuel → Takes (readValue fuel depth) text
  | member => ∀ fuel, 2 * text.length < fuel → Takes (readMember fuel depth) text
  | elements container => ∀ fuel elements, 2 * text.length + 1 < fuel →
      Takes (readElements fuel depth container elements) text

theorem ends_of_isSpace {c : Char} (space : isSpace c = true) (rest : List Char) : Ends (c :: rest) := by
  simp only [isSpace, Bool.or_eq_true, beq_iff_eq] at space
  rintro d ⟨⟩
  rcases space with ((rfl | rfl) | rfl) | rfl
  all_goals decide

theorem ends_gap (isGap : IsGap gap) (ends : Ends rest) : Ends (gap ++ rest) := by
  cases gap with
  | nil => exact ends
  | cons c gap => exact ends_of_isSpace (isGap c List.mem_cons_self) _

theorem ends_mark {c : Char} (mark : c ∈ [',', ']', '}']) (rest : List Char) : Ends (c :: rest) := by
  rintro d ⟨⟩
  simp only [List.mem_cons, List.not_mem_nil, or_false] at mark
  rcases mark with rfl | rfl | rfl
  all_goals decide

/-- No part starts with one of these characters. -/
def breaks : List Char :=
  [' ', '\t', '\n', '\r', ']', '}', '\ufeff']

theorem isSpace_of_not_mem {c : Char} (first : c ∉ breaks) : isSpace c = false := by
  cases space : isSpace c with
  | false => rfl
  | true =>
    simp only [isSpace, Bool.or_eq_true, beq_iff_eq] at space
    rcases space with ((rfl | rfl) | rfl) | rfl
    all_goals exact absurd (by decide) first

theorem IsNumber.first {dialect : Dialect} (isNumber : IsNumber dialect text) :
    ∃ c others, text = c :: others ∧ c ∉ breaks ∧ c ∉ ['"', '[', '{'] := by
  obtain ⟨sign, c, others, isSign, digit, rfl⟩ := isNumber.start
  rcases isSign with rfl | rfl
  · have foreign : ∀ d ∈ breaks ++ ['"', '[', '{'], isAsciiDigit d = false := by decide
    have other : c ∉ breaks ++ ['"', '[', '{'] := by
      intro member
      exact Bool.false_ne_true ((foreign c member).symm.trans digit)
    rw [List.mem_append, not_or] at other
    exact ⟨c, others, rfl, other⟩
  · exact ⟨'-', c :: others, rfl, by decide, by decide⟩

theorem first_word {word : String} (known : word ∈ Dialect.readable.words) :
    ∃ c others, word.toList = c :: others ∧ c ∉ breaks ∧ c ∉ ['"', '[', '{'] := by
  simp only [Dialect.readable, List.mem_cons, List.not_mem_nil, or_false] at known
  rcases known with rfl | rfl | rfl | rfl | rfl | rfl
  all_goals exact ⟨_, _, rfl, by decide, by decide⟩

theorem Spells.first {form : Form} (spells : Spells .readable depth form text) :
    ∃ c others, text = c :: others ∧ c ∉ breaks := by
  induction spells with
  | word known =>
    obtain ⟨c, others, form, other, -⟩ := first_word known
    exact ⟨c, others, form, other⟩
  | number isNumber =>
    obtain ⟨c, others, form, other, -⟩ := isNumber.first
    exact ⟨c, others, form, other⟩
  | text isText =>
    cases isText
    exact ⟨'"', _, rfl, by decide⟩
  | empty container => exact ⟨container.opening, _, rfl, by cases container <;> decide⟩
  | container container => exact ⟨container.opening, _, rfl, by cases container <;> decide⟩
  | member isName =>
    cases isName
    exact ⟨'"', _, rfl, by decide⟩
  | last _ _ first =>
    obtain ⟨c, others, rfl, other⟩ := first
    exact ⟨c, _, rfl, other⟩
  | more _ _ _ _ first =>
    obtain ⟨c, others, rfl, other⟩ := first
    exact ⟨c, _, rfl, other⟩

/-- Behind a gap the cursor stands at the part that follows. -/
theorem Spells.rest_skipSpace {form : Form} (spells : Spells .readable depth form text) (isGap : IsGap gap)
    (here : cursor.rest = gap ++ (text ++ rest)) : (skipSpace cursor).rest = text ++ rest := by
  obtain ⟨c, others, rfl, other⟩ := spells.first
  apply rest_skipSpace_gap isGap here
  rintro d ⟨⟩
  exact isSpace_of_not_mem other

theorem rest_skipSpace_mark {mark : Char} (visible : isSpace mark = false) (isGap : IsGap gap)
    (here : cursor.rest = gap ++ mark :: rest) : (skipSpace cursor).rest = mark :: rest := by
  apply rest_skipSpace_gap isGap here
  rintro c ⟨⟩
  exact visible

theorem Container.isSpace_closing (container : Container) : isSpace container.closing = false := by
  cases container <;> rfl

theorem takes_atom (first : ∃ c others, text = c :: others ∧ c ∉ breaks ∧ c ∉ ['"', '[', '{'])
    (takes : Takes readAtom text) : Form.value.Taken depth text := by
  rintro (- | fuel) more
  · contradiction
  intro cursor rest here ends
  rw [readValue_atom]
  · exact takes cursor rest here ends
  · obtain ⟨c, others, rfl, -, other⟩ := first
    rw [here]
    rintro d ⟨⟩
    simpa using other

theorem takes_text (isText : IsText text) : Form.value.Taken depth text := by
  obtain ⟨characters⟩ := isText
  rintro (- | fuel) more
  · contradiction
  intro cursor rest here _
  rw [List.cons_append, List.append_assoc] at here
  obtain ⟨value, reached, read, behind⟩ :=
    exists_read_characters characters rest (cursor.offset + 1) []
  exact ⟨_, _, readValue_text here read, behind⟩

theorem takes_empty (container : Container) (isGap : IsGap gap) :
    Form.value.Taken (depth + 1) (container.opening :: (gap ++ [container.closing])) := by
  rintro (- | fuel) more
  · contradiction
  intro cursor rest here _
  rw [List.cons_append, List.append_assoc] at here
  have closes : (skipSpace (cursor.advance container.opening
      (gap ++ ([container.closing] ++ rest)) 1)).rest = container.closing :: rest :=
    rest_skipSpace_mark container.isSpace_closing isGap rfl
  rw [readValue_container here]
  exact ⟨_, _, if_pos (congrArg List.head? closes), congrArg List.tail closes⟩

theorem takes_container {items : List Char} (container : Container) (isGap : IsGap gap)
    (inside : Spells .readable depth (.elements container) items)
    (taken : (Form.elements container).Taken depth items) :
    Form.value.Taken (depth + 1) (container.opening :: (gap ++ items)) := by
  rintro (- | fuel) more
  · contradiction
  intro cursor rest here ends
  rw [List.cons_append, List.append_assoc] at here
  have behind : (skipSpace (cursor.advance container.opening
      (gap ++ (items ++ rest)) 1)).rest = items ++ rest :=
    inside.rest_skipSpace isGap rfl
  rw [readValue_container here, if_neg]
  · refine taken fuel [] ?_ _ rest behind ends
    simp only [List.length_cons, List.length_append] at more ⊢
    omega
  · obtain ⟨c, others, rfl, other⟩ := inside.first
    rw [behind]
    rintro ⟨⟩
    cases container
    all_goals exact other (by decide)

theorem takes_member {name before after value : List Char} (isName : IsText name)
    (isBefore : IsGap before) (isAfter : IsGap after) (isValue : Spells .readable depth .value value)
    (taken : Form.value.Taken depth value) :
    Form.member.Taken depth (name ++ (before ++ ':' :: (after ++ value))) := by
  obtain ⟨characters⟩ := isName
  rename_i body
  intro fuel more cursor rest here ends
  simp only [List.cons_append, List.append_assoc, List.nil_append] at here
  obtain ⟨_, reached, named, behind⟩ := exists_read_characters characters
    (before ++ ':' :: (after ++ (value ++ rest))) (cursor.offset + 1) []
  have colon : (skipSpace reached).rest = ':' :: (after ++ (value ++ rest)) :=
    rest_skipSpace_mark rfl isBefore behind
  rw [readMember_eq here named colon]
  have next : (skipSpace ((skipSpace reached).advance ':' (after ++ (value ++ rest)) 1)).rest =
      value ++ rest :=
    isValue.rest_skipSpace isAfter rfl
  have enough : 2 * value.length < fuel := by
    simp only [List.length_append, List.length_cons] at more
    omega
  obtain ⟨_, last, read, same⟩ := taken fuel enough _ rest next ends
  rw [read]
  exact ⟨_, _, rfl, same⟩

theorem takes_element {container : Container} (taken : container.element.Taken depth text)
    (enough : 2 * text.length < fuel) : Takes (readElement fuel depth container) text := by
  cases container with
  | array => exact taken fuel enough
  | object => exact taken fuel enough

theorem takes_last {container : Container} (isGap : IsGap gap)
    (taken : container.element.Taken depth text) :
    (Form.elements container).Taken depth (text ++ (gap ++ [container.closing])) := by
  rintro (- | fuel) elements more
  · contradiction
  intro cursor rest here _
  simp only [List.append_assoc] at here
  have enough : 2 * text.length < fuel := by
    simp only [List.length_append, List.length_cons] at more
    omega
  have ends : Ends (gap ++ ([container.closing] ++ rest)) := by
    apply ends_gap isGap
    apply ends_mark
    cases container <;> decide
  obtain ⟨element, behind, read, same⟩ := takes_element taken enough cursor _ here ends
  exact readElements_last read (rest_skipSpace_mark container.isSpace_closing isGap same)

theorem takes_more {container : Container} {before after others : List Char} (isBefore : IsGap before)
    (isAfter : IsGap after) (areOthers : Spells .readable depth (.elements container) others)
    (first : container.element.Taken depth text)
    (taken : (Form.elements container).Taken depth others) :
    (Form.elements container).Taken depth (text ++ (before ++ ',' :: (after ++ others))) := by
  rintro (- | fuel) elements more
  · contradiction
  intro cursor rest here ends
  simp only [List.append_assoc, List.cons_append] at here
  simp only [List.length_append, List.length_cons] at more
  have endsFirst : Ends (before ++ ',' :: (after ++ (others ++ rest))) :=
    ends_gap isBefore (ends_mark (by decide) _)
  have enough : 2 * text.length < fuel := by omega
  obtain ⟨element, behind, read, same⟩ := takes_element first enough cursor _ here endsFirst
  have comma : (skipSpace behind).rest = ',' :: (after ++ (others ++ rest)) :=
    rest_skipSpace_mark rfl isBefore same
  rw [readElements_more read comma]
  exact taken fuel _ (by omega) _ rest (areOthers.rest_skipSpace isAfter rfl) ends

theorem Spells.taken {form : Form} (spells : Spells .readable depth form text) :
    form.Taken depth text := by
  induction spells with
  | word known => exact takes_atom (first_word known) (takes_word known)
  | number isNumber => exact takes_atom isNumber.first (takes_readAtom isNumber)
  | text isText => exact takes_text isText
  | empty container isGap => exact takes_empty container isGap
  | container container isGap inside ih => exact takes_container container isGap inside ih
  | member isName isBefore isAfter isValue ih => exact takes_member isName isBefore isAfter isValue ih
  | last isLast isGap ih => exact takes_last isGap ih
  | more isFirst isBefore isAfter areOthers first others =>
    exact takes_more isBefore isAfter areOthers first others

end Completeness

theorem IsJson.head? (json : IsJson .readable depth text) : text.head? ≠ some '\ufeff' := by
  obtain ⟨isFront, isValue, -⟩ := json
  rename_i front value back
  cases front with
  | nil =>
    obtain ⟨c, others, rfl, other⟩ := isValue.first
    rintro ⟨⟩
    exact other (by decide)
  | cons c front =>
    rintro ⟨⟩
    exact Bool.false_ne_true (isFront '\ufeff' List.mem_cons_self)

theorem isJson_of_read {value : Value} (accepted : read depth text = .ok value) :
    IsJson .readable depth text := by
  rw [read] at accepted
  split at accepted
  next => contradiction
  next =>
    split at accepted
    next => contradiction
    next found reached taken =>
      dsimp only at accepted
      split at accepted
      next done =>
        obtain ⟨front, isFront, before⟩ := exists_gap (.start text)
        obtain ⟨spelling, isValue, here⟩ := (sound_read _ _).1 _ _ _ taken
        obtain ⟨back, isBack, behind⟩ := exists_gap reached
        rw [List.isEmpty_iff.mp done, List.append_nil] at behind
        rw [here, behind] at before
        rw [show text = _ from before]
        exact .json isFront isValue isBack
      next => contradiction

theorem exists_read (json : IsJson .readable depth text) : ∃ value, read depth text = .ok value := by
  have unmarked := json.head?
  obtain ⟨isFront, isValue, isBack⟩ := json
  rename_i front spelling back
  have here : (skipSpace (.start (front ++ (spelling ++ back)))).rest = spelling ++ back :=
    isValue.rest_skipSpace isFront rfl
  have ends : Ends back := by
    have nothing : Ends [] := by
      rintro c ⟨⟩
    simpa using ends_gap isBack nothing
  have enough : 2 * spelling.length < 2 * (front ++ (spelling ++ back)).length + 2 := by
    simp only [List.length_append]
    omega
  obtain ⟨value, reached, taken, behind⟩ := isValue.taken _ enough _ back here ends
  have done : (skipSpace reached).rest = [] := by
    apply rest_skipSpace_gap isBack (behind.trans (List.append_nil back).symm)
    rintro c ⟨⟩
  refine ⟨value, ?_⟩
  rw [read, if_neg unmarked, taken]
  exact if_pos (by rw [done]; rfl)

/-- A text is read if and only if it is one of the reader's dialect. -/
theorem read_iff : (∃ value, read depth text = .ok value) ↔ IsJson .readable depth text := by
  constructor
  · rintro ⟨value, accepted⟩
    exact isJson_of_read accepted
  · exact exists_read

section Standard

variable {dialect : Dialect} {digits : List Char}

/-- A whole number that fits is a text of its own. -/
theorem isJson_whole (isWhole : IsWhole digits) (fits : dialect.Fits digits) (depth : Nat) :
    IsJson dialect depth digits := by
  have number : IsNumber dialect ([] ++ (digits ++ ([] ++ []))) :=
    .number (.inl rfl) isWhole .absent .absent fun _ _ => fits
  rw [List.append_nil, List.append_nil, List.nil_append] at number
  have json : IsJson dialect depth ([] ++ (digits ++ [])) := .json nofun (.number number) nofun
  rwa [List.append_nil, List.nil_append] at json

theorem gap_eq_nil (isGap : IsGap gap) (isDigits : ∀ c ∈ gap, isAsciiDigit c = true) : gap = [] := by
  rw [List.eq_nil_iff_forall_not_mem]
  intro c member
  have foreign := (ends_of_isSpace (isGap c member) [] c rfl).1
  exact Bool.false_ne_true (foreign.symm.trans (isDigits c member))

theorem exists_letter {word : String} (known : word ∈ Dialect.readable.words) :
    ∃ c ∈ word.toList, isAsciiDigit c = false := by
  simp only [Dialect.readable, List.mem_cons, List.not_mem_nil, or_false] at known
  rcases known with rfl | rfl | rfl | rfl | rfl | rfl
  all_goals exact ⟨_, List.mem_cons_self, rfl⟩

/-- A number of digits alone is a whole one. -/
theorem IsNumber.fits (isNumber : IsNumber dialect text) (isDigits : ∀ c ∈ text, isAsciiDigit c = true) :
    dialect.Fits text := by
  obtain ⟨isSign, isWhole, isFraction, isExponent, fits⟩ := isNumber
  rename_i sign whole fraction exponent
  have foreign {c : Char} (member : c ∈ sign ++ (whole ++ (fraction ++ exponent)))
      (other : isAsciiDigit c = false) : False :=
    Bool.false_ne_true (other.symm.trans (isDigits c member))
  obtain rfl : sign = [] := by
    rcases isSign with none | rfl
    · exact none
    · exact (foreign List.mem_cons_self rfl).elim
  obtain rfl : fraction = [] := by
    cases isFraction with
    | absent => rfl
    | present => exact (foreign (c := '.') (by simp) rfl).elim
  obtain rfl : exponent = [] := by
    cases isExponent with
    | absent => rfl
    | @present e sign digits letter =>
      have member : e ∈ [] ++ (whole ++ ([] ++ (e :: sign ++ digits))) := by simp
      rcases letter with rfl | rfl
      · exact (foreign member rfl).elim
      · exact (foreign member rfl).elim
  rw [List.append_nil, List.append_nil, List.nil_append]
  exact fits rfl rfl

/-- Digits are read only if they fit. -/
theorem fits_of_digits (json : IsJson .readable depth digits)
    (isDigits : ∀ c ∈ digits, isAsciiDigit c = true) : digits.length ≤ Text.maxDigits := by
  obtain ⟨isFront, isValue, isBack⟩ := json
  rename_i front value back
  simp only [List.mem_append] at isDigits
  obtain rfl := gap_eq_nil isFront fun c member => isDigits c (.inl member)
  obtain rfl := gap_eq_nil isBack fun c member => isDigits c (.inr (.inr member))
  rw [List.nil_append, List.append_nil]
  have foreign {c : Char} (member : c ∈ value) (other : isAsciiDigit c = false) : False :=
    Bool.false_ne_true (other.symm.trans (isDigits c (.inr (.inl member))))
  cases isValue with
  | word known =>
    obtain ⟨c, member, other⟩ := exists_letter known
    exact (foreign member other).elim
  | number isNumber => exact isNumber.fits fun c member => isDigits c (.inr (.inl member))
  | text isText =>
    cases isText
    exact (foreign List.mem_cons_self rfl).elim
  | empty container =>
    exact (foreign List.mem_cons_self (by cases container <;> rfl)).elim
  | container container =>
    exact (foreign List.mem_cons_self (by cases container <;> rfl)).elim

/-- A standard text starts with a word, a text, a container or a number behind its blanks. -/
theorem first_standard (json : IsJson .standard depth text) : ∃ c others,
    text.dropWhile isSpace = c :: others ∧
      (isAsciiDigit c = true ∨ c ∈ ['n', 't', 'f', '"', '[', '{', '-']) := by
  obtain ⟨isFront, isValue, -⟩ := json
  rename_i front value back
  rw [List.dropWhile_append_of_pos isFront]
  suffices first : ∃ c others, value = c :: others ∧
      (isAsciiDigit c = true ∨ c ∈ ['n', 't', 'f', '"', '[', '{', '-']) by
    obtain ⟨c, others, rfl, allowed⟩ := first
    have marks : ∀ d ∈ ['n', 't', 'f', '"', '[', '{', '-'], isSpace d = false := by decide
    have visible : ¬ isSpace c = true := by
      intro space
      rcases allowed with digit | mark
      · exact Bool.false_ne_true ((ends_of_isSpace space [] c rfl).1.symm.trans digit)
      · exact Bool.false_ne_true ((marks c mark).symm.trans space)
    exact ⟨c, others ++ back, List.dropWhile_cons_of_neg visible, allowed⟩
  cases isValue with
  | word known =>
    simp only [Dialect.standard, List.mem_cons, List.not_mem_nil, or_false] at known
    rcases known with rfl | rfl | rfl
    all_goals exact ⟨_, _, rfl, .inr (by decide)⟩
  | number isNumber =>
    obtain ⟨sign, c, others, isSign, digit, rfl⟩ := isNumber.start
    rcases isSign with rfl | rfl
    · exact ⟨c, others, rfl, .inl digit⟩
    · exact ⟨'-', c :: others, rfl, .inr (by decide)⟩
  | text isText =>
    cases isText
    exact ⟨'"', _, rfl, .inr (by decide)⟩
  | empty container => exact ⟨container.opening, _, rfl, .inr (by cases container <;> decide)⟩
  | container container => exact ⟨container.opening, _, rfl, .inr (by cases container <;> decide)⟩

end Standard

end ContractInspector.Json
