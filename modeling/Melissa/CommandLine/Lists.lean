import Melissa.CommandLine.Request

/-! The lists between colons: what `create_options` joins and the server takes apart again. -/

namespace Melissa

open Runs Text

section Parts

/-- A part that is a word of the command line and has no colon in it. -/
structure IsPart (part : List Char) : Prop where
  filled : part ≠ []
  noSpace : ∀ c ∈ part, isSpace c = false
  noColon : ':' ∉ part

variable {part : List Char} {parts : List (List Char)}

theorem IsPart.isWord (isPart : IsPart part) : IsWord isSpace part :=
  ⟨isPart.filled, isPart.noSpace⟩

theorem isColon_false {c : Char} {text : List Char} (noColon : ':' ∉ text) (member : c ∈ text) :
    isColon c = false := by
  rw [isColon, beq_eq_false_iff_ne]
  rintro rfl
  exact noColon member

theorem IsPart.noSeparator (isPart : IsPart part) : IsWord isColon part :=
  ⟨isPart.filled, fun _ member => isColon_false isPart.noColon member⟩

theorem words_colons (all : ∀ part ∈ parts, IsPart part) : words isColon (colons parts) = parts :=
  words_intercalate rfl fun part member => (all part member).noSeparator

theorem colons_cons (part : List Char) (parts : List (List Char)) :
    ∃ back, colons (part :: parts) = part ++ back := by
  cases parts with
  | nil => exact ⟨[], by rw [colons, List.intercalate_singleton, List.append_nil]⟩
  | cons next parts =>
      exact ⟨[':'] ++ colons (next :: parts), by
        rw [colons, List.intercalate_cons_cons, List.append_assoc, colons]⟩

theorem head_colons {parts : List (List Char)} (filled : part ≠ []) :
    (colons (part :: parts)).head? = part.head? := by
  obtain ⟨back, same⟩ := colons_cons part parts
  obtain ⟨c, rest, rfl⟩ := List.exists_cons_of_ne_nil filled
  rw [same]
  rfl

theorem colons_ne_nil (all : ∀ part ∈ parts, IsPart part) (nonempty : parts ≠ []) :
    colons parts ≠ [] := by
  intro empty
  have back := words_colons all
  rw [empty, words_nil] at back
  exact nonempty back.symm

theorem isWord_colons (all : ∀ part ∈ parts, IsPart part) (nonempty : parts ≠ []) :
    IsWord isSpace (colons parts) := by
  refine ⟨colons_ne_nil all nonempty, ?_⟩
  clear nonempty
  induction parts with
  | nil =>
      intro c member
      exact absurd member List.not_mem_nil
  | cons part parts ih =>
      rw [List.forall_mem_cons] at all
      cases parts with
      | nil =>
          rw [colons, List.intercalate_singleton]
          exact all.1.noSpace
      | cons next parts =>
          intro c member
          rw [colons, List.intercalate_cons_cons, List.mem_append, List.mem_append,
            List.mem_singleton] at member
          rcases member with (first | rfl) | later
          · exact all.1.noSpace c first
          · rfl
          · exact ih all.2 c later

theorem countParts_colons (all : ∀ part ∈ parts, IsPart part) (nonempty : parts ≠ []) :
    countParts (colons parts) = parts.length := by
  have alone : ∀ {part : List Char}, IsPart part → part.countP isColon = 0 := by
    intro part isPart
    rw [List.countP_eq_zero]
    intro c member
    rw [isPart.noSeparator.clean c member]
    exact Bool.false_ne_true
  induction parts with
  | nil => exact absurd rfl nonempty
  | cons part parts ih =>
      rw [List.forall_mem_cons] at all
      cases parts with
      | nil =>
          rw [colons, List.intercalate_singleton, countParts, alone all.1]
          rfl
      | cons next parts =>
          have later := ih all.2 (List.cons_ne_nil next parts)
          rw [countParts, colons] at later ⊢
          rw [List.intercalate_cons_cons, List.countP_append, List.countP_append, alone all.1,
            List.length_cons, ← later]
          simp only [List.countP_singleton, isColon, beq_self_eq_true, if_true]
          omega

/-- The counting functions refuse a list that begins with a dash. -/
theorem badList_colons (isPart : IsPart part) (parts : List (List Char)) :
    badList (colons (part :: parts)) = true ↔ part.head? = some '-' := by
  rw [badList, head_colons isPart.filled, Bool.or_eq_true, beq_iff_eq, beq_iff_eq]
  refine ⟨fun bad => bad.resolve_right ?_, Or.inl⟩
  intro colon
  exact isPart.noColon (List.mem_of_head? colon)

end Parts

section Values

variable {D : Type} [Zero D] {parts : List (List Char)}

def FirstDash (parts : List (List Char)) : Prop :=
  ∃ part ∈ parts.head?, part.head? = some '-'

theorem badList_iff (all : ∀ part ∈ parts, IsPart part) (nonempty : parts ≠ []) :
    badList (colons parts) = true ↔ FirstDash parts := by
  obtain ⟨part, rest, rfl⟩ := List.exists_cons_of_ne_nil nonempty
  rw [badList_colons (all part List.mem_cons_self), FirstDash, List.head?_cons]
  simp only [Option.mem_def, Option.some.injEq, exists_eq_left']

theorem getValues_colons {numbers : CNumbers D} {values : List D}
    (all : ∀ part ∈ parts, IsPart part) (nonempty : parts ≠ []) :
    getValues numbers (colons parts) = some values ↔
      ¬ FirstDash parts ∧ parts.map numbers.atof = values := by
  have full : countParts (colons parts) - (parts.map numbers.atof).length = 0 := by
    rw [countParts_colons all nonempty, List.length_map, Nat.sub_self]
  rw [getValues, words_colons all, ← badList_iff all nonempty]
  cases badList (colons parts) with
  | true => simp only [if_true, reduceCtorEq, not_true_eq_false, false_and]
  | false =>
      simp only [Bool.false_eq_true, if_false, full, List.replicate_zero, List.append_nil,
        Option.some.injEq, not_false_eq_true, true_and]

theorem getNbFields_colons {parts : List (List Char)} (all : ∀ part ∈ parts, IsPart part)
    (nonempty : parts ≠ []) (noDash : ∀ part ∈ parts, part.head? ≠ some '-') :
    getNbFields (colons parts) = some parts.length := by
  have good : ¬ badList (colons parts) = true := by
    rw [badList_iff all nonempty]
    rintro ⟨part, first, dash⟩
    exact noDash part (List.mem_of_head? first) dash
  rw [getNbFields, if_neg good, countParts_colons all nonempty]

end Values

section Operations

variable {D : Type} {options options' : ParsedOptions D}

@[simp] theorem has_withOperation (options : ParsedOptions D) (op other : Operation) :
    (options.withOperation op).has other = (decide (other = op) || options.has other) := by
  cases op <;> cases other <;> rfl

theorem withOperation_rest (options : ParsedOptions D) (op : Operation) :
    (options.withOperation op).withoutOperations = options.withoutOperations := by
  cases op <;> rfl

@[simp] theorem has_withoutOperations (options : ParsedOptions D) (op : Operation) :
    options.withoutOperations.has op = false := by
  cases op <;> rfl

theorem readOperation_eq_some {token : List Char} :
    readOperation options token = some options' ↔
      ∃ op, Operation.IsNamed op token ∧ options' = options.withOperation op := by
  rw [readOperation, Option.map_eq_some_iff]
  simp only [operationOf_eq_some, eq_comm]

/-- Two operations have no name in common. -/
theorem isNamed_unique {token : List Char} {op other : Operation}
    (first : op.IsNamed token) (second : other.IsNamed token) : other = op := by
  rw [← operationOf_eq_some] at first second
  exact Option.some.inj (second.symm.trans first)

/-- The tokens of the list switch on their operations and nothing else. -/
theorem run_readOperation {tokens : List (List Char)}
    (read : run readOperation options tokens = some options') :
    (∀ token ∈ tokens, ∃ op : Operation, op.IsNamed token) ∧
      (∀ op, options'.has op = true ↔
        options.has op = true ∨ ∃ token ∈ tokens, op.IsNamed token) ∧
      options'.withoutOperations = options.withoutOperations := by
  induction tokens generalizing options with
  | nil =>
      cases read
      refine ⟨fun token member => absurd member List.not_mem_nil, fun op => ?_, rfl⟩
      simp only [List.not_mem_nil, false_and, exists_false, or_false]
  | cons token tokens ih =>
      obtain ⟨next, first, onward⟩ := Option.bind_eq_some_iff.mp read
      obtain ⟨op, named, rfl⟩ := readOperation_eq_some.mp first
      obtain ⟨all, has, rest⟩ := ih onward
      refine ⟨List.forall_mem_cons.mpr ⟨⟨op, named⟩, all⟩, fun other => ?_,
        rest.trans (withOperation_rest options op)⟩
      rw [has, has_withOperation, Bool.or_eq_true, decide_eq_true_eq, List.exists_mem_cons_iff]
      have same : other = op ↔ other.IsNamed token :=
        ⟨fun same => same ▸ named, fun otherNamed => isNamed_unique named otherNamed⟩
      rw [same]
      constructor
      · rintro ((here | before) | later)
        · exact Or.inr (Or.inl here)
        · exact Or.inl before
        · exact Or.inr (Or.inr later)
      · rintro (before | here | later)
        · exact Or.inl (Or.inr before)
        · exact Or.inl (Or.inl here)
        · exact Or.inr later

theorem run_readOperation_isSome {tokens : List (List Char)}
    (all : ∀ token ∈ tokens, ∃ op : Operation, op.IsNamed token) (options : ParsedOptions D) :
    ∃ options', run readOperation options tokens = some options' := by
  induction tokens generalizing options with
  | nil => exact ⟨options, rfl⟩
  | cons token tokens ih =>
      rw [List.forall_mem_cons] at all
      obtain ⟨⟨op, named⟩, all⟩ := all
      obtain ⟨options', read⟩ := ih all (options.withOperation op)
      refine ⟨options', ?_⟩
      rw [run_cons, readOperation_eq_some.mpr ⟨op, named, rfl⟩, Option.bind_some, read]

theorem getOperations_colons {parts : List (List Char)} (options : ParsedOptions D)
    (all : ∀ part ∈ parts, IsPart part) (noDash : ∀ part ∈ parts, part.head? ≠ some '-')
    (nonempty : parts ≠ []) :
    getOperations options (colons parts) =
      run readOperation options.withoutOperations parts := by
  obtain ⟨part, rest, rfl⟩ := List.exists_cons_of_ne_nil nonempty
  have isPart := all part List.mem_cons_self
  have head : (colons (part :: rest)).head? = part.head? := head_colons isPart.filled
  rw [getOperations, if_neg, words_colons all]
  rintro (dash | colon)
  · rw [dash] at head
    exact noDash part List.mem_cons_self head.symm
  · rw [colon] at head
    exact isPart.noColon (List.mem_of_head? head.symm)

end Operations

section Kept

variable {D β : Type} {options options' : ParsedOptions D} (part : ParsedOptions D → β)

theorem map_kept {α : Type} {value : Option α} {change : α → ParsedOptions D}
    (same : ∀ a, part (change a) = part options) (read : value.map change = some options') :
    part options' = part options := by
  obtain ⟨a, _, rfl⟩ := Option.map_eq_some_iff.mp read
  exact same a

theorem getOperations_kept {name : List Char}
    (blind : ∀ options : ParsedOptions D, part options.withoutOperations = part options)
    (read : getOperations options name = some options') : part options' = part options := by
  unfold getOperations at read
  split at read
  · cases read
    rfl
  · have rest := (run_readOperation read).2.2
    rw [← blind options', rest, blind, blind]

/-- What the check neither sets nor corrects. -/
theorem checkParsed_kept [NatCast D] [LT D] [DecidableLT D]
    (defaults : part (withDefaultOperations options) = part options)
    (corrected : ∀ options : ParsedOptions D, part (correctValues options) = part options)
    (accepted : checkParsed options = some options') : part options' = part options := by
  unfold checkParsed at accepted
  dsimp only at accepted
  cases bad : refused (withDefaultOperations options) with
  | true =>
      rw [bad] at accepted
      exact (nomatch accepted)
  | false =>
      rw [bad] at accepted
      cases accepted
      exact (corrected _).trans defaults

end Kept

end Melissa
