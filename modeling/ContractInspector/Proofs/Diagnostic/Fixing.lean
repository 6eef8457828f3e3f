import ContractInspector.Diagnostic.Fixes
import ContractInspector.Proofs.Text.Lines
import Mathlib.Data.List.Nodup

/-! Which fixes go with some messages. The messages are searched as one text, so a keyword with a space in
it is also found over the border of two messages that follow each other (`Bridged`); apart from that each
message is looked at for itself (`commonFixes_decided`). -/
namespace ContractInspector.Diagnostic

open ContractInspector.Language (CommonFix)
open Text (Bridges lower)

variable {messages : List String} {fix : CommonFix}

/-- Two messages in a row have a keyword of the fix over their border. -/
def BridgedBy (fix : CommonFix) (first second : String) : Prop :=
  ∃ keyword ∈ fix.keywords, Bridges ' ' keyword.toList (lower first.toList) (lower second.toList)

/-- Some two messages in a row have a keyword of the fix over their border. -/
def Bridged (messages : List String) (fix : CommonFix) : Prop :=
  ∃ first second, [first, second] <:+: messages ∧ BridgedBy fix first second

/-- Every keyword of the catalogue has one space at most. -/
theorem keyword_spaces : ∀ fix ∈ Language.commonFixes, ∀ keyword ∈ fix.keywords,
    keyword.toList ≠ [] ∧ keyword.toList.count ' ' ≤ 1 := by
  decide

theorem nodup_catalogue : Language.commonFixes.Nodup := by
  have patterns : (Language.commonFixes.map (·.pattern)).Nodup := by decide
  exact List.Nodup.of_map _ patterns

theorem mem_commonFixes : fix ∈ commonFixes messages ↔ fix ∈ Language.commonFixes ∧
    ∃ keyword ∈ fix.keywords,
      keyword.toList <:+: [' '].intercalate (messages.map fun message => lower message.toList) := by
  rw [commonFixes, List.mem_filter, List.any_eq_true]
  simp only [Text.contains_iff]

/-- A single message is looked at for itself. -/
theorem mem_commonFixes_singleton {message : String} : fix ∈ commonFixes [message] ↔
    fix ∈ Language.commonFixes ∧ ∃ keyword ∈ fix.keywords, keyword.toList <:+: lower message.toList := by
  rw [mem_commonFixes, List.map_singleton, List.intercalate_singleton]

/-- A fix goes with some messages if it goes with one of them, or if two of them bridge it. -/
theorem mem_commonFixes_iff : fix ∈ commonFixes messages ↔
    (∃ message ∈ messages, fix ∈ commonFixes [message]) ∨
      (fix ∈ Language.commonFixes ∧ Bridged messages fix) := by
  have border (keyword : String) : (∃ front back,
      [front, back] <:+: messages.map (fun (message : String) => lower message.toList) ∧
        Bridges ' ' keyword.toList front back) ↔
      ∃ first second, [first, second] <:+: messages ∧
        Bridges ' ' keyword.toList (lower first.toList) (lower second.toList) := by
    constructor
    · rintro ⟨front, back, within, bridges⟩
      obtain ⟨pair, within, same⟩ := List.infix_map_iff.mp within
      obtain ⟨first, rest, rfl, rfl, others⟩ := List.map_eq_cons_iff.mp same.symm
      obtain ⟨second, rest', rfl, rfl, none⟩ := List.map_eq_cons_iff.mp others
      obtain rfl := List.map_eq_nil_iff.mp none
      exact ⟨first, second, within, bridges⟩
    · rintro ⟨first, second, within, bridges⟩
      exact ⟨_, _, within.map fun (message : String) => lower message.toList, bridges⟩
  rw [mem_commonFixes]
  simp only [mem_commonFixes_singleton]
  constructor
  · rintro ⟨listed, keyword, member, found⟩
    obtain ⟨nonempty, once⟩ := keyword_spaces fix listed keyword member
    rcases (Text.infix_intercalate_iff nonempty once _).mp found with ⟨_, said, inside⟩ | bridged
    · obtain ⟨message, among, rfl⟩ := List.mem_map.mp said
      exact .inl ⟨message, among, listed, keyword, member, inside⟩
    · obtain ⟨first, second, within, bridges⟩ := (border keyword).mp bridged
      exact .inr ⟨listed, first, second, within, keyword, member, bridges⟩
  · rintro (⟨message, among, listed, keyword, member, inside⟩ |
      ⟨listed, first, second, within, keyword, member, bridges⟩)
    · obtain ⟨nonempty, once⟩ := keyword_spaces fix listed keyword member
      exact ⟨listed, keyword, member, (Text.infix_intercalate_iff nonempty once _).mpr
        (.inl ⟨_, List.mem_map_of_mem among, inside⟩)⟩
    · obtain ⟨nonempty, once⟩ := keyword_spaces fix listed keyword member
      exact ⟨listed, keyword, member, (Text.infix_intercalate_iff nonempty once _).mpr
        (.inr ((border keyword).mpr ⟨first, second, within, bridges⟩))⟩

/-- Two messages in a row of two lists are in a row in one of them, or on their border. -/
theorem pair_infix_append_iff {α : Type} {first second : α} {front back : List α} :
    [first, second] <:+: front ++ back ↔ [first, second] <:+: front ∨ [first, second] <:+: back ∨
      (front.getLast? = some first ∧ back.head? = some second) := by
  induction front with
  | nil => simp
  | cons item front ih =>
    rw [List.cons_append, List.infix_cons_iff, List.infix_cons_iff, ih, List.cons_prefix_cons,
      List.cons_prefix_cons]
    cases front with
    | nil =>
      cases back with
      | nil => simp
      | cons next back =>
        simp only [List.nil_append, List.cons_prefix_cons, List.nil_prefix, and_true, List.infix_nil,
          List.prefix_nil, List.getLast?_nil, List.getLast?_singleton, List.head?_cons, Option.some.injEq,
          reduceCtorEq, and_false, false_and, or_false, false_or, eq_comm (a := first),
          eq_comm (a := second)]
        exact or_comm
    | cons next front =>
      rw [List.getLast?_cons_cons, List.cons_append, List.cons_prefix_cons, List.cons_prefix_cons]
      simp only [List.nil_prefix, and_true]
      tauto

theorem bridged_append_iff {front back : List String} : Bridged (front ++ back) fix ↔
    Bridged front fix ∨ Bridged back fix ∨ ∃ first second, front.getLast? = some first ∧
      back.head? = some second ∧ BridgedBy fix first second := by
  simp only [Bridged, pair_infix_append_iff, or_and_right, exists_or, and_assoc]

/-- The fixes are those of the catalogue that go with the messages, so to know which they are is to know
them. -/
theorem commonFixes_ext {others : List String} (same : ∀ fix ∈ Language.commonFixes,
    (fix ∈ commonFixes others ↔ fix ∈ commonFixes messages)) :
    commonFixes others = commonFixes messages := by
  rw [commonFixes, commonFixes]
  refine List.filter_congr fun fix listed => Bool.eq_iff_iff.mpr ?_
  have member := same fix listed
  simpa only [commonFixes, List.mem_filter, listed, true_and] using member

/-- What the fixes for some messages have to do with the fixes for each of them. -/
structure Decided (messages : List String) : Prop where
  ordered : (commonFixes messages).Sublist Language.commonFixes
  once : (commonFixes messages).Nodup
  mem_iff : ∀ fix, fix ∈ commonFixes messages ↔
    (∃ message ∈ messages, fix ∈ commonFixes [message]) ∨
      (fix ∈ Language.commonFixes ∧ Bridged messages fix)
  apart_iff : ∀ fix ∈ Language.commonFixes,
    ((fix ∈ commonFixes messages ↔ ∃ message ∈ messages, fix ∈ commonFixes [message]) ↔
      (Bridged messages fix → ∃ message ∈ messages, fix ∈ commonFixes [message]))
  parts : ∀ front back, messages = front ++ back → ∀ fix, fix ∈ commonFixes messages ↔
    fix ∈ commonFixes front ∨ fix ∈ commonFixes back ∨
      (fix ∈ Language.commonFixes ∧ ∃ first second, front.getLast? = some first ∧
        back.head? = some second ∧ BridgedBy fix first second)
  reordered : ∀ others, others.Perm messages →
    (∀ fix ∈ Language.commonFixes, Bridged messages fix ↔ Bridged others fix) →
      commonFixes others = commonFixes messages

theorem commonFixes_decided (messages : List String) : Decided messages := by
  refine ⟨List.filter_sublist, List.Nodup.filter _ nodup_catalogue, fun fix => mem_commonFixes_iff, ?_, ?_, ?_⟩
  · intro fix listed
    rw [mem_commonFixes_iff]
    simp only [listed, true_and]
    exact or_iff_left_iff_imp
  · rintro front back rfl fix
    rw [mem_commonFixes_iff, mem_commonFixes_iff, mem_commonFixes_iff, bridged_append_iff]
    simp only [List.mem_append, or_and_right, exists_or, and_or_left, or_assoc, or_left_comm]
  · intro others perm same
    refine commonFixes_ext fun fix listed => ?_
    rw [mem_commonFixes_iff, mem_commonFixes_iff]
    simp only [perm.mem_iff, same fix listed]

/-- The keyword "string type" over a border: neither message has it, and in the other order nothing is
found. -/
theorem not_apart_border :
    (commonFixes ["a string", "type x"]).map (·.pattern) = ["Opaque string type error"] ∧
      (∀ message ∈ ["a string", "type x"], commonFixes [message] = []) ∧
      commonFixes ["type x", "a string"] = [] := by
  decide

end ContractInspector.Diagnostic
