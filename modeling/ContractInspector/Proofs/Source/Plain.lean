import ContractInspector.Proofs.Source.Masking
import ContractInspector.Source.Block

/-! Plain text has neither quotes nor slashes. Masking leaves it as it is, and a block of plain text ends
at the delimiter behind it. -/
namespace ContractInspector.Source

variable {part : List Char} {opener closer : Char}

/-- No character opens a literal or a comment. -/
def Plain (part : List Char) : Prop :=
  ∀ c ∈ part, isQuote c = false ∧ c ≠ '/'

instance (part : List Char) : Decidable (Plain part) :=
  inferInstanceAs (Decidable (∀ c ∈ part, isQuote c = false ∧ c ≠ '/'))

theorem plain_append {other : List Char} (one : Plain part) (two : Plain other) : Plain (part ++ other) :=
  List.forall_mem_append.mpr ⟨one, two⟩

theorem mask_plain (plain : Plain part) (literals : Bool) (rest : List Char) :
    mask literals (part ++ rest) = part ++ mask literals rest := by
  induction part with
  | nil => rfl
  | cons c part ih =>
    obtain ⟨⟨noQuote, noSlash⟩, others⟩ := List.forall_mem_cons.mp plain
    rw [List.cons_append, mask_code literals noQuote (fun slash => absurd slash noSlash), ih others,
      List.cons_append]

theorem maskAll_plain (plain : Plain part) : maskAll part = part := by
  have masked := mask_plain plain true []
  rwa [mask_nil, List.append_nil] at masked

theorem closingFrom_plain (plain : Plain part) (noOpener : opener ∉ part) (noCloser : closer ∉ part)
    (inner offset : Nat) (rest : List Char) :
    closingFrom opener closer inner offset (part ++ rest) =
      closingFrom opener closer inner (offset + part.length) rest := by
  induction part generalizing offset with
  | nil => rfl
  | cons c part ih =>
    obtain ⟨⟨noQuote, noSlash⟩, others⟩ := List.forall_mem_cons.mp plain
    rw [List.mem_cons, not_or] at noOpener noCloser
    have read : Lexeme.read c (part ++ rest) = (.code c, part ++ rest) :=
      read_iff.mpr (.code noQuote fun slash => absurd slash noSlash)
    rw [List.cons_append, closingFrom, read]
    simp only [if_neg (Ne.symm noOpener.1), if_neg (Ne.symm noCloser.1)]
    rw [ih others noOpener.2 noCloser.2, List.length_cons, Nat.add_assoc, Nat.add_comm 1]

/-- A block of plain text. -/
theorem blockFrom?_plain (opens : closerOf? opener = some closer) (plain : Plain part)
    (noOpener : opener ∉ part) (noCloser : closer ∉ part) (start : Nat) (rest : List Char) :
    blockFrom? start (opener :: (part ++ closer :: rest)) =
      some ⟨start, start + 1 + part.length, part⟩ := by
  have different : closer ≠ opener ∧ isQuote closer = false ∧ closer ≠ '/' := by
    unfold closerOf? at opens
    split at opens
    case h_4 => contradiction
    all_goals
      cases opens
      decide
  have read : Lexeme.read closer rest = (.code closer, rest) :=
    read_iff.mpr (.code different.2.1 fun slash => absurd slash different.2.2)
  have ends : closingFrom opener closer 0 (start + 1 + part.length) (closer :: rest) =
      some (start + 1 + part.length) := by
    rw [closingFrom, read]
    simp [different.1]
  rw [blockFrom?]
  simp only [opens, closingFrom_plain plain noOpener noCloser, ends, Option.map_some,
    Nat.add_sub_cancel_left, List.take_left]

end ContractInspector.Source
